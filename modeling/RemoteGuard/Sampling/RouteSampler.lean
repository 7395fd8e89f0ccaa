import RemoteGuard.Sampling.RecencyCache
import RemoteGuard.Text.Blank
import RemoteGuard.Text.Numeral
import RemoteGuard.Text.Quoted

/-!
# Sampling of routes

A route is a method, a path pattern and a status.  A `RouteSampler` accepts a route that it does
not remember, and one whose last acceptance lies strictly more than the delay before now; a clock
that went back counts as no time.  It remembers the 4096 routes asked for most recently.

Times and durations are in nanoseconds.
-/

namespace RemoteGuard

structure Route where
  method : String
  pattern : String
  status : Nat
deriving DecidableEq, Repr, Inhabited, Hashable

def maxTrackedRoutes : Nat := 4096

def nanosecondsPerSecond : Nat := 1000000000

/-- a text that is no delay -/
structure DelayError where
  text : String
deriving DecidableEq, Repr, Inhabited

def DelayError.message (e : DelayError) : String :=
  "appsec: API Security sample delay must be an integer number of seconds, got "
    ++ Text.quote e.text

structure RouteSampler where
  delay : Nat
  /-- time of the last acceptance of each route -/
  lastAccepted : RecencyCache Route Nat

namespace RouteSampler

def new (delay : Nat) : RouteSampler := ⟨delay, .empty maxTrackedRoutes⟩

/-- Parses a delay, a whole number of seconds with blanks around it. -/
def parseDelay (s : String) : Except DelayError Nat :=
  match Text.word64? (Text.trim s).toList with
  | some n => .ok (n * nanosecondsPerSecond)
  | none => .error ⟨s⟩

def ofSetting (s : String) : Except DelayError RouteSampler :=
  match parseDelay s with
  | .ok delay => .ok (new delay)
  | .error e => .error e

/-- Whether a route that was last accepted at `last`, if ever, is accepted now. -/
def isDue (delay : Nat) (last : Option Nat) (now : Nat) : Bool :=
  match last with
  | none => true
  | some t => delay < now - t

/-- Asks whether to sample a route now; a rejection leaves the time of its acceptance. -/
def sample (route : Route) (now : Nat) : RouteSampler → Bool × RouteSampler
  | ⟨delay, cache⟩ =>
    let (last, cache) := cache.get? route
    if isDue delay last now then (true, ⟨delay, cache.store route now⟩) else (false, ⟨delay, cache⟩)

end RouteSampler
end RemoteGuard
