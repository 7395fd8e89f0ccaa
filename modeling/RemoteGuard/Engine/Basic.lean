import RemoteGuard.Json.Value

/-!
# The rule engine

The engine that evaluates rules is not part of the library.  It compiles a ruleset, hands out
contexts of what it compiled, runs a context on an input, and finalizes a context.  What it
answers may depend on everything it was asked before, so an `Engine` is a pair of functions of the
list of earlier calls, and whoever uses it keeps that list.

Compiled rulesets are numbered in the order of compilation, contexts in the order of opening.
-/

namespace RemoteGuard
open Json

structure EngineError where
  message : String
  diagnostics : Option Value := none
deriving Repr, Inhabited

inductive RunStatus where
  | ok
  | matched
  | invalidArgument
  | invalidObject
  | invalidInternal
  | unknown (code : Int)
deriving DecidableEq, Repr, Inhabited

namespace RunStatus

def ofCode (code : Int) : RunStatus :=
  if code = 0 then .ok
  else if code = 1 then .matched
  else if code = -1 then .invalidArgument
  else if code = -2 then .invalidObject
  else if code = -3 then .invalidInternal
  else .unknown code

/-- Only `ok` and `matched` are successes. -/
def isSuccess (s : RunStatus) : Bool := s == .ok || s == .matched

def text : RunStatus → String
  | .ok => "ok"
  | .matched => "match"
  | .invalidArgument => "err_invalid_argument"
  | .invalidObject => "err_invalid_object"
  | .invalidInternal => "err_internal"
  | .unknown code => "unknown(" ++ code.repr ++ ")"

def value : RunStatus → Value
  | .ok => .string "ok"
  | .matched => .string "match"
  | .invalidArgument => .string "invalid_argument"
  | .invalidObject => .string "invalid_object"
  | .invalidInternal => .string "invalid_internal"
  | .unknown code => .object [("unknown", .number (.integer code))]

end RunStatus

structure Evaluation where
  status : RunStatus := .ok
  events : List Value := []
  actions : List String := []
  derivatives : Object := []
  runtimeNs : Nat := 0
  timeout : Bool := false
deriving Repr, Inhabited

def Evaluation.value (e : Evaluation) : Value := .object [
  ("actions", .strings e.actions),
  ("derivatives", .object e.derivatives),
  ("events", .array e.events),
  ("status", e.status.value),
  ("timeout", .bool e.timeout),
  ("total_runtime_ns", .nat e.runtimeNs)]

/-- what the engine tells about a ruleset it compiled -/
structure Compilation where
  version : String := "default"
  addresses : List String := []
  diagnostics : Option Value := none
deriving Repr, Inhabited

inductive EngineCall where
  | compile (ruleset : Value)
  | openContext (context ruleset : Nat)
  | run (context : Nat) (input : Object) (timeoutUs : Nat)
  | finalize (context : Nat)
deriving Repr, Inhabited

namespace EngineCall

def ruleset? : EngineCall → Option Value
  | .compile r => some r
  | _ => none

def isCompile : EngineCall → Bool
  | .compile _ => true
  | _ => false

def isOpen : EngineCall → Bool
  | .openContext _ _ => true
  | _ => false

def isRun : EngineCall → Bool
  | .run _ _ _ => true
  | _ => false

def isFinalize : EngineCall → Bool
  | .finalize _ => true
  | _ => false

end EngineCall

structure Engine where
  compile (earlier : List EngineCall) (ruleset : Value) : Except EngineError Compilation
  run (earlier : List EngineCall) (context : Nat) (input : Object) (timeoutUs : Nat) :
    Except EngineError Evaluation

/-- the timeout of runs that are not limited -/
def unlimitedTimeoutUs : Nat := wordLimit - 1

end RemoteGuard
