import RemoteGuard.Json.Fault
import RemoteGuard.Ruleset.Builtin
import RemoteGuard.Settings
import RemoteGuard.Telemetry

/-!
# Where rules come from

`RulesetSource.load` reads a ruleset document from its source and gives the source as it is
afterwards.  Only objects are rulesets.

Only a stream changes by being read: a text that was read to its end is rewound to the start of the
stream, whatever it held, but a reading that fails leaves the stream where it stopped.
-/

namespace RemoteGuard
open Json

/-- what is found at a file path -/
inductive FileEntry where
  | missing
  /-- it can be opened but not read -/
  | directory
  | regular (bytes : Bytes)
deriving DecidableEq, Repr, Inhabited

abbrev Files := String → FileEntry

/-- a source of bytes that keeps its position -/
structure RulesetStream where
  bytes : Bytes
  position : Nat
  /-- reads fail unless it is -/
  readable : Bool := true
  /-- seeks fail unless it is -/
  seekable : Bool := true
deriving DecidableEq, Repr, Inhabited

inductive RulesetSource where
  | recommended
  | strict
  /-- an old name of `recommended` -/
  | risky
  | file (path : String)
  | stream (s : RulesetStream)
  /-- a document that is there already -/
  | inline (document : Value)
deriving Inhabited

inductive LoadError where
  | io
  | rewind
  | parse
  | unsupportedRuleset
deriving DecidableEq, Repr, Inhabited

def LoadError.report (e : LoadError) : Report LoadError :=
  ⟨.error, "libddwaf ruleset failed to load", some e⟩

/-- Only objects are rulesets. -/
def asRuleset (document : Value) : Except LoadError Value :=
  match document with
  | .object _ => .ok document
  | _ => .error .unsupportedRuleset

namespace RulesetStream

/-- Reads one JSON text from the position on, and rewinds. -/
def load (s : RulesetStream) : Except LoadError Value × RulesetStream :=
  let ahead := s.bytes.drop s.position
  if !s.readable then (.error .parse, s)
  else
    match Value.read? ahead with
    | none =>
      (.error .parse, { s with position := s.position + (ahead.length - (unread ahead).length) })
    | some document =>
      if s.seekable then (asRuleset document, { s with position := 0 })
      else (.error .rewind, { s with position := s.position + ahead.length })

end RulesetStream

namespace RulesetSource

def loadFile (entry : FileEntry) : Except LoadError Value :=
  match entry with
  | .missing => .error .io
  | .directory => .error .parse
  | .regular bytes =>
    match Value.read? bytes with
    | none => .error .parse
    | some document => asRuleset document

def load (files : Files) (source : RulesetSource) : Except LoadError Value × RulesetSource :=
  match source with
  | .recommended => (.ok Builtin.recommended, source)
  | .strict => (.ok Builtin.strict, source)
  | .risky => (.ok Builtin.recommended, source)
  | .file path => (loadFile (files path), source)
  | .stream s =>
    let (result, s) := s.load
    (result, .stream s)
  | .inline document => (asRuleset document, source)

end RulesetSource

def Settings.ruleset (s : Settings) : RulesetSource :=
  match s.rulesFile with
  | some path => .file path
  | none => .recommended

end RemoteGuard
