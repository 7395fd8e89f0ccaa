import RemoteGuard.Engine.Basic
import RemoteGuard.Ruleset.Source

/-!
# The host of request protection

A `Host` is what the parts of request protection share: the calls made to the engine so far, the
reports filed so far, and the route samplers, which processors refer to by number.  All lists are in
the order of time.
-/

namespace RemoteGuard
open Json

inductive Trouble where
  | load (e : LoadError)
  | engine (e : EngineError)
deriving Repr, Inhabited

structure Host where
  calls : List EngineCall := []
  reports : List (Report Trouble) := []
  samplers : List RouteSampler := []

namespace Host

def call (h : Host) (c : EngineCall) : Host := { h with calls := h.calls ++ [c] }

def report (h : Host) (r : Report Trouble) : Host := { h with reports := h.reports ++ [r] }

def reportLoad (h : Host) (e : LoadError) : Host :=
  h.report ⟨e.report.level, e.report.description, some (.load e)⟩

/-- Adds a sampler, and gives its number. -/
def addSampler (h : Host) (s : RouteSampler) : Nat × Host :=
  (h.samplers.length, { h with samplers := h.samplers ++ [s] })

/-- Asks a sampler whether to sample a route now. -/
def sample (h : Host) (sampler : Nat) (route : Route) (now : Nat) : Bool × Host :=
  match h.samplers[sampler]? with
  | none => (false, h)
  | some s =>
    let (accepted, s) := s.sample route now
    (accepted, { h with samplers := h.samplers.set sampler s })

def compilations (h : Host) : Nat := h.calls.countP EngineCall.isCompile

def openings (h : Host) : Nat := h.calls.countP EngineCall.isOpen

/-- Compiles a ruleset; a success comes with the number of the compilation. -/
def compile (engine : Engine) (h : Host) (ruleset : Value) :
    Except EngineError (Nat × Compilation) × Host :=
  let answer := engine.compile h.calls ruleset
  (answer.map fun c => (h.compilations, c), h.call (.compile ruleset))

/-- Opens a context of a compiled ruleset, and gives its number. -/
def openContext (h : Host) (ruleset : Nat) : Nat × Host :=
  (h.openings, h.call (.openContext h.openings ruleset))

/-- Runs a context. -/
def run (engine : Engine) (h : Host) (context : Nat) (input : Object) (timeoutUs : Nat) :
    Except EngineError Evaluation × Host :=
  (engine.run h.calls context input timeoutUs, h.call (.run context input timeoutUs))

def finalize (h : Host) (context : Nat) : Host := h.call (.finalize context)

end Host
end RemoteGuard
