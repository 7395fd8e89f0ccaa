import RemoteGuard.Content.Ledger
import RemoteGuard.Sync.Error

/-!
# The repository

A `Snapshot` is the list of contents that a client holds, with the versions of the metadata they
came with and the state it keeps for the backend.  A `Repository` publishes one snapshot after
another; it changes by transactions only.

A transaction is a list of operations.  `Repository.commit` applies them in order to a copy of the
current snapshot and then publishes the copy:

* `insert` adds a content at the end, unless something is stored at the path it names;
* `update` puts a content in the place of what is stored at the content's own path, or does nothing;
* `delete` removes what is stored at the path;
* `set` overwrites the metadata it supplies.

An operation that had an effect on the contents leaves a `Change`, in order.  The version of a
content in the ledger is set when the content is stored, to that of the target it was stored with.
-/

namespace RemoteGuard

/-- root version of a repository that has verified no root -/
def unverifiedRootVersion : Nat := 1

structure Snapshot where
  contents : List Content := []
  backendState : Option String := none
  rootVersion : Nat := unverifiedRootVersion
  targetsVersion : Nat := 0
deriving DecidableEq

namespace Snapshot

def get? (s : Snapshot) (path : ConfigPath) : Option Content := ContentList.get? path s.contents

def paths (s : Snapshot) : List ConfigPath := ContentList.paths s.contents

def initial : Snapshot := {}

end Snapshot

/-- metadata to overwrite; what is missing stays -/
structure MetadataUpdate where
  backendState : Option String := none
  targetsVersion : Option Nat := none
deriving DecidableEq, Repr, Inhabited

inductive Operation where
  | insert (path : ConfigPath) (target : Target) (content : Content)
  | update (path : ConfigPath) (target : Target) (content : Content)
  | delete (path : ConfigPath)
  | set (update : MetadataUpdate)
deriving DecidableEq

inductive Change where
  | inserted (path : ConfigPath) (target : Target) (content : Content)
  | updated (path : ConfigPath) (target : Target) (content previous : Content)
  | deleted (path : ConfigPath) (previous : Content)
deriving DecidableEq

namespace Change

def path : Change → ConfigPath
  | .inserted p _ _ => p
  | .updated p _ _ _ => p
  | .deleted p _ => p

def content? : Change → Option Content
  | .inserted _ _ c => some c
  | .updated _ _ c _ => some c
  | .deleted _ _ => none

def previous? : Change → Option Content
  | .inserted _ _ _ => none
  | .updated _ _ _ d => some d
  | .deleted _ d => some d

def target? : Change → Option Target
  | .inserted _ t _ => some t
  | .updated _ t _ _ => some t
  | .deleted _ _ => none

def kind : Change → String
  | .inserted _ _ _ => "inserted"
  | .updated _ _ _ _ => "updated"
  | .deleted _ _ => "deleted"

end Change

/-! ## operations -/

/-- a snapshot in the making, the ledger beside it, and the changes so far -/
structure Draft where
  snapshot : Snapshot
  ledger : Ledger
  changes : List Change := []

namespace Draft

def insert (d : Draft) (path : ConfigPath) (target : Target) (c : Content) : Draft :=
  match d.snapshot.get? path with
  | some _ => d
  | none =>
    { snapshot := { d.snapshot with contents := d.snapshot.contents ++ [c] }
      ledger := d.ledger.setVersion c target.version
      changes := d.changes ++ [.inserted path target c] }

def update (d : Draft) (path : ConfigPath) (target : Target) (c : Content) : Draft :=
  match ContentList.replace? c d.snapshot.contents with
  | none => d
  | some (previous, contents) =>
    { snapshot := { d.snapshot with contents := contents }
      ledger := d.ledger.setVersion c target.version
      changes := d.changes ++ [.updated path target c previous] }

def delete (d : Draft) (path : ConfigPath) : Draft :=
  match d.snapshot.get? path with
  | none => d
  | some previous =>
    { d with
      snapshot := { d.snapshot with contents := ContentList.erase path d.snapshot.contents }
      changes := d.changes ++ [.deleted path previous] }

def set (d : Draft) (u : MetadataUpdate) : Draft :=
  { d with
    snapshot :=
      { d.snapshot with
        backendState := u.backendState.or d.snapshot.backendState
        targetsVersion := u.targetsVersion.getD d.snapshot.targetsVersion } }

def step (d : Draft) : Operation → Draft
  | .insert p t c => d.insert p t c
  | .update p t c => d.update p t c
  | .delete p => d.delete p
  | .set u => d.set u

def run (d : Draft) (ops : List Operation) : Draft := ops.foldl step d

theorem run_nil (d : Draft) : d.run [] = d := rfl
theorem run_cons (d : Draft) (op : Operation) (ops : List Operation) :
    d.run (op :: ops) = (d.step op).run ops := rfl
theorem run_append (d : Draft) (ops ops' : List Operation) :
    d.run (ops ++ ops') = (d.run ops).run ops' := List.foldl_append

end Draft

/-! ## the repository -/

structure Repository where
  current : Snapshot := {}
  /-- what `Content`s have been given out, and what is recorded about them -/
  ledger : Ledger := {}
  lastError : Option RecordedError := none

namespace Repository

abbrev ChangeSet := List Change

/-- Applies the operations in order and publishes the result. -/
def commit (r : Repository) (ops : List Operation) : ChangeSet × Repository :=
  let d := Draft.run ⟨r.current, r.ledger, []⟩ ops
  (d.changes, { r with current := d.snapshot, ledger := d.ledger })

/-- Builds a transaction on the current snapshot and commits it, or changes nothing. -/
def transaction {ε : Type} (r : Repository) (build : Snapshot → Except ε (List Operation)) :
    Except ε (ChangeSet × Repository) :=
  match build r.current with
  | .ok ops => .ok (r.commit ops)
  | .error e => .error e

/-- Records the error to report with the next state, or that there is none. -/
def recordError (r : Repository) (e : Option RecordedError) : Repository :=
  { r with lastError := e }

theorem transaction_ok {ε : Type} {r : Repository} {build : Snapshot → Except ε (List Operation)}
    {ops : List Operation} (h : build r.current = .ok ops) :
    r.transaction build = .ok (r.commit ops) := by simp [transaction, h]

theorem transaction_error {ε : Type} {r : Repository}
    {build : Snapshot → Except ε (List Operation)} {e : ε} (h : build r.current = .error e) :
    r.transaction build = .error e := by simp [transaction, h]

/-- Sets the state of a content, stored or not. -/
def mark (r : Repository) (c : Content) (state : ApplyState) : Repository :=
  { r with ledger := r.ledger.setState c state }

end Repository
end RemoteGuard
