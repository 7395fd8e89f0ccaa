import Std.Data.HashMap
import Std.Data.TreeMap

/-!
# A cache that forgets what was used longest ago

A `RecencyCache` holds at most `capacity` keys.  Each entry carries the tick of its last use, and
`order` leads from ticks back to keys, so the key used longest ago is the first of `order`.

* `get?` counts as a use when the key is held;
* `store` overwrites or adds a key and counts as a use;
* `fetch` gives the value of a key, or computes and stores one.  Room is made before the computation
  starts, so a computation that fails leaves the room that was made for it.
-/

namespace RemoteGuard

structure RecencyCache (κ α : Type) [BEq κ] [Hashable κ] where
  capacity : Nat
  /-- values with the tick of their last use -/
  entries : Std.HashMap κ (α × Nat)
  /-- keys by the tick of their last use -/
  order : Std.TreeMap Nat κ
  tick : Nat

/-- why there is no cache of a capacity -/
inductive CapacityError where
  | notPositive (capacity : Nat)
  | notAddressable (capacity : Nat)
deriving DecidableEq, Repr, Inhabited

def CapacityError.message : CapacityError → String
  | .notPositive n => "appsec: LRU cache capacity must be a positive integer, got " ++ n.repr
  | .notAddressable n => "appsec: LRU cache capacity must be within memory, got " ++ n.repr

namespace RecencyCache
variable {κ α : Type} [BEq κ] [Hashable κ]

def empty (capacity : Nat) : RecencyCache κ α := ⟨capacity, ∅, ∅, 0⟩

/-- The most slots that can be reserved.  Their number is a power of two, each takes 64 octets, and
an object has to stay below 2^63 octets. -/
@[noinline] def slotLimit : Nat := 0x100000000000000

/-- the most keys that the slots have room for, as one slot of eight stays free -/
@[noinline] def capacityLimit : Nat := slotLimit / 8 * 7

/-- An empty cache with a positive capacity, for all of which slots are reserved at once. -/
def new (capacity : Nat) : Except CapacityError (RecencyCache κ α) :=
  if capacity = 0 then .error (.notPositive capacity)
  else if capacityLimit < capacity then .error (.notAddressable capacity)
  else .ok (empty capacity)

def size (c : RecencyCache κ α) : Nat := c.entries.size

def isEmpty (c : RecencyCache κ α) : Bool := c.entries.isEmpty

def clear (c : RecencyCache κ α) : RecencyCache κ α := { c with entries := ∅, order := ∅ }

def advance (c : RecencyCache κ α) : RecencyCache κ α := { c with tick := c.tick + 1 }

/-- Drops the key used longest ago if the cache is full. -/
def makeRoom (c : RecencyCache κ α) : RecencyCache κ α :=
  if c.size < c.capacity then c
  else
    match c.order.minEntry? with
    | none => c
    | some (tick, key) => { c with entries := c.entries.erase key, order := c.order.erase tick }

def makeRoomFor (key : κ) (c : RecencyCache κ α) : RecencyCache κ α :=
  if c.entries.contains key then c else c.makeRoom

/-- Gives `key` the current tick and the value `value`; `previous` is the tick it had. -/
def place (key : κ) (value : α) (previous : Option Nat) (c : RecencyCache κ α) : RecencyCache κ α :=
  let order :=
    match previous with
    | some t => c.order.erase t
    | none => c.order
  { c with entries := c.entries.insert key (value, c.tick), order := order.insert c.tick key }

/-- Stores a value, the most recently used now. -/
def store (key : κ) (value : α) (c : RecencyCache κ α) : RecencyCache κ α :=
  let c := (c.makeRoomFor key).advance
  c.place key value (c.entries[key]?.map Prod.snd)

/-- The value of `key`, which counts as a use. -/
def get? (key : κ) (c : RecencyCache κ α) : Option α × RecencyCache κ α :=
  let c := c.advance
  match c.entries[key]? with
  | none => (none, c)
  | some (value, previous) => (some value, c.place key value (some previous))

/-- what a fetch gave: a value that was held, a new one, or nothing as its computation failed -/
inductive Fetched (α : Type) where
  | held (value : α)
  | computed (value : α)
  | failed
deriving DecidableEq, Repr, Inhabited

/-- The value of `key`, computed and stored if it is not held. -/
def fetch (key : κ) (compute : Unit → Option α) (c : RecencyCache κ α) :
    Fetched α × RecencyCache κ α :=
  let c := (c.makeRoomFor key).advance
  match c.entries[key]? with
  | some (value, previous) => (.held value, c.place key value (some previous))
  | none =>
    match compute () with
    | some value => (.computed value, c.place key value none)
    | none => (.failed, c)

end RecencyCache
end RemoteGuard
