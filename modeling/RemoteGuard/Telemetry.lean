/-!
# Telemetry

A part that cannot do its work does not fail its host; it files a `Report`.  `Counters` count
reports by level and keep their descriptions; `broadcast` files one report with several counters.
-/

namespace RemoteGuard

inductive TelemetryLevel where
  | debug
  | warn
  | error
deriving DecidableEq, Repr, Inhabited

def TelemetryLevel.name : TelemetryLevel → String
  | .debug => "debug"
  | .warn => "warn"
  | .error => "error"

/-- a report, with the cause of the trouble where there is one -/
structure Report (ε : Type) where
  level : TelemetryLevel
  description : String
  cause : Option ε
deriving DecidableEq, Repr, Inhabited

structure Counters where
  debug : Nat := 0
  warn : Nat := 0
  error : Nat := 0
  withCause : Nat := 0
  /-- in the order of arrival -/
  descriptions : List String := []
deriving DecidableEq, Repr, Inhabited

namespace Counters
variable {ε : Type}

def countLevel (c : Counters) : TelemetryLevel → Counters
  | .debug => { c with debug := c.debug + 1 }
  | .warn => { c with warn := c.warn + 1 }
  | .error => { c with error := c.error + 1 }

def record (c : Counters) (r : Report ε) : Counters :=
  let c := c.countLevel r.level
  { c with
    withCause := if r.cause.isSome then c.withCause + 1 else c.withCause
    descriptions := c.descriptions ++ [r.description] }

def summary (c : Counters) : String :=
  "debug=" ++ c.debug.repr ++ ", warn=" ++ c.warn.repr ++ ", error=" ++ c.error.repr
    ++ ", with_error_value=" ++ c.withCause.repr

def broadcast (cs : List Counters) (r : Report ε) : List Counters := cs.map fun c => c.record r

end Counters
end RemoteGuard
