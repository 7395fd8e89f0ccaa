import RemoteGuard.Host

/-!
# Evaluating one request

A `RequestContext` holds the engine's context of one request, and accumulates over its runs the time
the engine took, how many runs timed out, and the events of the runs that matched.

Only entries that say something are sent to the engine: `null` and empty strings, arrays and objects
are left out.  A run that fails, and one that ends with an unsuccessful status, is reported.
-/

namespace RemoteGuard
open Json

structure RequestContext where
  /-- number of the engine's context -/
  context : Nat
  /-- version of the engine, for reports -/
  version : String
  /-- how often to extract schemas, if at all -/
  schemaSampling : Option SampleRate
  timeNs : Nat := 0
  timeouts : Nat := 0
  events : List Value := []

/-- A sum that stays a 64-bit word: what goes beyond the largest word counts as it. -/
def saturatingAdd (a b : Nat) : Nat := min (a + b) (wordLimit - 1)

def isPresent : Value → Bool
  | .null => false
  | .string s => s != ""
  | .array vs => !vs.isEmpty
  | .object ms => !ms.isEmpty
  | .bool _ => true
  | .number _ => true

def presentEntries (input : Object) : Object := input.filter fun p => isPresent p.2

namespace RequestContext

/-- what the reports of runs begin with -/
def runLabel (c : RequestContext) : String :=
  "libddwaf:" ++ c.version ++ " method:ddwaf_run execution error"

def failureReport (c : RequestContext) (e : EngineError) : Report Trouble :=
  ⟨.error, c.runLabel, some (.engine e)⟩

def statusReport (c : RequestContext) (s : RunStatus) : Report Trouble :=
  ⟨.error, c.runLabel ++ ": " ++ s.text, none⟩

/-- the accumulated figures after a run that did not fail -/
def accumulate (c : RequestContext) (e : Evaluation) : RequestContext :=
  { c with
    timeNs := saturatingAdd c.timeNs e.runtimeNs
    timeouts := if e.timeout then c.timeouts + 1 else c.timeouts
    events := if e.status = .matched then c.events ++ e.events else c.events }

def run (engine : Engine) (c : RequestContext) (input : Object) (timeoutUs : Nat) (h : Host) :
    Except EngineError Evaluation × RequestContext × Host :=
  match h.run engine c.context (presentEntries input) timeoutUs with
  | (.error e, h) => (.error e, c, h.report (c.failureReport e))
  | (.ok e, h) =>
    (.ok e, c.accumulate e, if e.status.isSuccess then h else h.report (c.statusReport e.status))

/-- the input that asks for the schema of the request -/
def schemaInput : Object :=
  [("waf.context.processor", .object [("extract-schema", .bool true)])]

/-- Runs the context for the schema of the request, unless schemas are off or the draw is
against it. -/
def extractSchema (engine : Engine) (c : RequestContext) (draw : BitVec 64) (h : Host) :
    Option (Except EngineError Evaluation) × RequestContext × Host :=
  match c.schemaSampling with
  | none => (none, c, h)
  | some rate =>
    if rate.accepts draw then
      let (result, c, h) := c.run engine schemaInput unlimitedTimeoutUs h
      (some result, c, h)
    else (none, c, h)

/-- Releases the engine's context; no run may follow. -/
def finalize (c : RequestContext) (h : Host) : Host := h.finalize c.context

end RequestContext
end RemoteGuard
