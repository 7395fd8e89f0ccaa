import RemoteGuard.RequestContext

/-!
# Compiled rules

A `Processor` holds a compiled ruleset and opens the contexts that evaluate requests against it.
One whose ruleset did not compile is inert: it knows no addresses and opens no contexts.
-/

namespace RemoteGuard
open Json

/-- a ruleset that the engine compiled -/
structure CompiledRuleset where
  /-- number of the compilation -/
  number : Nat
  version : String
deriving DecidableEq, Repr, Inhabited

structure Processor where
  /-- nothing if the ruleset did not compile -/
  ruleset : Option CompiledRuleset
  /-- of the compilation, successful or not -/
  diagnostics : Option Value
  addresses : List String
  wafTimeoutUs : Nat
  apiSecurity : ApiSecuritySettings
  /-- number of the route sampler -/
  sampler : Option Nat

namespace Processor

def compileFailure (e : EngineError) : Report Trouble :=
  ⟨.error, "libddwaf failed to initialize", some (.engine e)⟩

/-- A route sampler of its own, if API Security is on. -/
def newSampler (s : ApiSecuritySettings) (h : Host) : Option Nat × Host :=
  if s.enabled then
    let (n, h) := h.addSampler (.new s.sampleDelay)
    (some n, h)
  else (none, h)

/-- A processor of a ruleset; a failure to compile is reported. -/
def compile (engine : Engine) (settings : Settings) (ruleset : Value) (h : Host) :
    Processor × Host :=
  match h.compile engine ruleset with
  | (.ok (number, c), h) =>
    let (sampler, h) := newSampler settings.apiSecurity h
    (⟨some ⟨number, c.version⟩, c.diagnostics, c.addresses, settings.wafTimeoutUs,
      settings.apiSecurity, sampler⟩, h)
  | (.error e, h) =>
    let (sampler, h) := newSampler settings.apiSecurity (h.report (compileFailure e))
    (⟨none, e.diagnostics, [], settings.wafTimeoutUs, settings.apiSecurity, sampler⟩, h)

/-- The processor with another route sampler, if API Security is on. -/
def withSampler (p : Processor) (sampler : Option Nat) : Processor :=
  if p.apiSecurity.enabled then { p with sampler := sampler } else p

def isReady (p : Processor) : Bool := p.ruleset.isSome

def version? (p : Processor) : Option String := p.ruleset.map CompiledRuleset.version

/-- how often the contexts of the processor extract schemas -/
def schemaSampling (p : Processor) : Option SampleRate :=
  if p.apiSecurity.enabled then some (.new p.apiSecurity.sampleRate) else none

/-- Opens a context for a request, unless the processor is inert. -/
def activate (p : Processor) (h : Host) : Option RequestContext × Host :=
  match p.ruleset with
  | none => (none, h)
  | some r =>
    let (n, h) := h.openContext r.number
    (some { context := n, version := r.version, schemaSampling := p.schemaSampling }, h)

def runOnce (engine : Engine) (p : Processor) (input : Object) (h : Host) :
    Option (Except EngineError Evaluation) × Host :=
  match p.activate h with
  | (none, h) => (none, h)
  | (some c, h) =>
    let (result, c, h) := c.run engine input p.wafTimeoutUs h
    (some result, c.finalize h)

/-- Whether to report the schema of a route now; never when API Security is off. -/
def sampleRoute (p : Processor) (route : Route) (now : Nat) (h : Host) : Bool × Host :=
  match p.sampler with
  | none => (false, h)
  | some n => h.sample n route now

end Processor
end RemoteGuard
