import RemoteGuard.Content.Basic
import RemoteGuard.Content.TargetFile

/-!
# The ledger of contents

A `Ledger` gives out the identities of contents and keeps, for every identity, the version of the
target it was last committed with and whether a product has applied it.  A content shared by several
snapshots has one entry, so what is recorded about it shows in all of them.

An identity without an entry has version 0 and is unacknowledged.
-/

namespace RemoteGuard

/-- what a product made of a content -/
inductive ApplyState where
  | unacknowledged
  | acknowledged
  | error (message : String)
deriving DecidableEq, Repr, Inhabited

namespace ApplyState

/-- the number that stands for the state on the wire -/
def code : ApplyState → Nat
  | .unacknowledged => 1
  | .acknowledged => 2
  | .error _ => 3

def message? : ApplyState → Option String
  | .error m => some m
  | _ => none

end ApplyState

structure LedgerEntry where
  version : Nat := 0
  state : ApplyState := .unacknowledged
deriving DecidableEq, Repr, Inhabited

structure Ledger where
  /-- the next identity -/
  next : Nat := 0
  entries : List (Nat × LedgerEntry) := []
deriving Repr, Inhabited

namespace Ledger

def entry (l : Ledger) (id : Nat) : LedgerEntry := (l.entries.lookup id).getD {}

def put (l : Ledger) (id : Nat) (e : LedgerEntry) : Ledger :=
  ⟨l.next, (id, e) :: l.entries.filter fun p => p.1 != id⟩

def version (l : Ledger) (c : Content) : Nat := (l.entry c.id).version
def state (l : Ledger) (c : Content) : ApplyState := (l.entry c.id).state

def setVersion (l : Ledger) (c : Content) (version : Nat) : Ledger :=
  l.put c.id ⟨version, l.state c⟩

def setState (l : Ledger) (c : Content) (state : ApplyState) : Ledger :=
  l.put c.id ⟨l.version c, state⟩

def applied (l : Ledger) (c : Content) : Ledger := l.setState c .acknowledged

def errored (l : Ledger) (c : Content) (message : String) : Ledger := l.setState c (.error message)

def setStates (l : Ledger) (cs : List Content) (state : ApplyState) : Ledger :=
  cs.foldl (fun l c => l.setState c state) l

def enroll (l : Ledger) (path : ConfigPath) (data : Bytes) (expires : Option Timestamp) :
    Content × Ledger :=
  (⟨l.next, path, data, expires⟩, ⟨l.next + 1, l.entries⟩)

def receive (l : Ledger) (file : TargetFile) (expires : Option Timestamp) :
    Except PathError (Content × Ledger) :=
  match ConfigPath.parse file.path with
  | .ok path => .ok (l.enroll path file.raw expires)
  | .error e => .error e

/-- New contents for target files, or the first bad path. -/
def receiveAll (l : Ledger) (expires : Option Timestamp) :
    List TargetFile → Except PathError (List Content × Ledger)
  | [] => .ok ([], l)
  | f :: fs =>
    match l.receive f expires with
    | .error e => .error e
    | .ok (c, l) =>
      match receiveAll l expires fs with
      | .error e => .error e
      | .ok (cs, l) => .ok (c :: cs, l)

/-! ## entries after an update -/

private theorem lookup_filter_ne {id id' : Nat} (h : id' ≠ id) (es : List (Nat × LedgerEntry)) :
    (es.filter fun p => p.1 != id).lookup id' = es.lookup id' := by
  induction es with
  | nil => rfl
  | cons p es ih =>
    obtain ⟨k, e⟩ := p
    by_cases hk : k = id
    · subst hk
      have : (id' == k) = false := by simpa using h
      simp [List.lookup_cons, ih, this]
    · simp [List.lookup_cons, hk, ih]

@[simp] theorem entry_put_self (l : Ledger) (id : Nat) (e : LedgerEntry) :
    (l.put id e).entry id = e := by simp [entry, put]

theorem entry_put_of_ne {id id' : Nat} (h : id' ≠ id) (l : Ledger) (e : LedgerEntry) :
    (l.put id e).entry id' = l.entry id' := by
  have : (id' == id) = false := by simpa using h
  simp [entry, put, List.lookup_cons, this, lookup_filter_ne h]

theorem entry_put (l : Ledger) (id id' : Nat) (e : LedgerEntry) :
    (l.put id e).entry id' = if id' = id then e else l.entry id' := by
  split
  · next h => subst h; simp
  · next h => exact entry_put_of_ne h l e

theorem version_setVersion (l : Ledger) (c d : Content) (version : Nat) :
    (l.setVersion c version).version d = if d.id = c.id then version else l.version d := by
  rw [Ledger.version, setVersion, entry_put]
  split <;> rfl

theorem state_setVersion (l : Ledger) (c d : Content) (version : Nat) :
    (l.setVersion c version).state d = l.state d := by
  rw [Ledger.state, setVersion, entry_put]
  split
  · next h => rw [Ledger.state, Ledger.state, h]
  · rfl

theorem version_setState (l : Ledger) (c d : Content) (state : ApplyState) :
    (l.setState c state).version d = l.version d := by
  rw [Ledger.version, setState, entry_put]
  split
  · next h => rw [Ledger.version, Ledger.version, h]
  · rfl

theorem state_setState (l : Ledger) (c d : Content) (state : ApplyState) :
    (l.setState c state).state d = if d.id = c.id then state else l.state d := by
  rw [Ledger.state, setState, entry_put]
  split <;> rfl

theorem state_setStates (l : Ledger) (cs : List Content) (d : Content) (state : ApplyState) :
    (l.setStates cs state).state d = if d.id ∈ cs.map Content.id then state else l.state d := by
  induction cs generalizing l with
  | nil => rfl
  | cons c cs ih =>
    show ((l.setState c state).setStates cs state).state d = _
    rw [ih, state_setState, List.map_cons]
    by_cases hcs : d.id ∈ cs.map Content.id
    · rw [if_pos hcs, if_pos (List.mem_cons_of_mem _ hcs)]
    · simp only [hcs, if_false, List.mem_cons, or_false]

end Ledger
end RemoteGuard
