import RemoteGuard.Proofs.Repository.Commits

/-!
# What earlier snapshots show

A snapshot keeps its contents and its metadata for good.  The versions of its contents stand in the
ledger, and a commit that stores a content once more writes its version anew, for every snapshot
that holds it.

* `Change.stamp?`, `stamped?`   the version that a change, or a change set, writes for a content;
* `version_commit`              a commit writes these versions and no others;
* `view_of_commit`              what a snapshot shows after a commit, and when this is what it
                                showed before;
* `view_moves_when_stored_again`  a content of an earlier snapshot is stored with another target.
-/

namespace RemoteGuard

/-! ## views -/

/-- what a snapshot shows of a content -/
structure ContentView where
  path : ConfigPath
  data : Bytes
  version : Nat
deriving DecidableEq

structure SnapshotView where
  contents : List ContentView
  backendState : Option String
  rootVersion : Nat
  targetsVersion : Nat
deriving DecidableEq

def Ledger.view (l : Ledger) (c : Content) : ContentView := ⟨c.path, c.data, l.version c⟩

def Snapshot.view (s : Snapshot) (l : Ledger) : SnapshotView where
  contents := s.contents.map l.view
  backendState := s.backendState
  rootVersion := s.rootVersion
  targetsVersion := s.targetsVersion

theorem Snapshot.view_eq_iff (s : Snapshot) (l l' : Ledger) :
    s.view l' = s.view l ↔ ∀ c ∈ s.contents, l'.version c = l.version c := by
  unfold view
  rw [SnapshotView.mk.injEq, List.map_inj_left]
  simp only [Ledger.view, ContentView.mk.injEq, and_true, true_and]

/-! ## the versions that changes write -/

/-- the version that the change writes for a content -/
def Change.stamp? (c : Content) : Change → Option Nat
  | .inserted _ target d => if c.id = d.id then some target.version else none
  | .updated _ target d _ => if c.id = d.id then some target.version else none
  | .deleted _ _ => none

/-- the version that the changes write for a content last -/
def stamped? (changes : List Change) (c : Content) : Option Nat :=
  (changes.filterMap (Change.stamp? c)).getLast?

theorem Ledger.version_record (l : Ledger) (ch : Change) (c : Content) :
    (l.record ch).version c = (ch.stamp? c).getD (l.version c) := by
  have hstored : ∀ (d : Content) (version : Nat), (l.setVersion d version).version c
      = (if c.id = d.id then some version else none).getD (l.version c) := by
    intro d version
    rw [version_setVersion]
    split <;> rfl
  cases ch with
  | inserted path target d => exact hstored d target.version
  | updated path target d previous => exact hstored d target.version
  | deleted path previous => rfl

theorem Ledger.version_recordAll (l : Ledger) (changes : List Change) (c : Content) :
    (l.recordAll changes).version c = (stamped? changes c).getD (l.version c) := by
  induction changes generalizing l with
  | nil => rfl
  | cons ch changes ih =>
    show ((l.record ch).recordAll changes).version c = _
    rw [ih, version_record]
    unfold stamped?
    cases hs : ch.stamp? c with
    | none => rw [List.filterMap_cons_none hs, Option.getD_none]
    | some v =>
      rw [List.filterMap_cons_some hs, List.getLast?_cons, Option.getD_some, Option.getD_some]

namespace Repository

/-- a commit writes the versions that its changes tell, and no others -/
theorem version_commit (r : Repository) (ops : List Operation) (c : Content) :
    (r.commit ops).2.ledger.version c
      = (stamped? (r.commit ops).1 c).getD (r.ledger.version c) := by
  show (Draft.run ⟨r.current, r.ledger, []⟩ ops).ledger.version c = _
  rw [Draft.ledger_run, Ledger.version_recordAll]
  rfl

/-! ## snapshots after a commit -/

/-- **Snapshots after a commit.**  Whichever snapshot is held, after a commit it shows what it
showed before but for the versions that the change set writes for its contents; so it shows the
same just if each of its contents that is stored again gets the version it had.  A transaction
that can be built commits what was built, and nothing is committed of another. -/
theorem view_of_commit (r : Repository) (s : Snapshot) :
    (∀ ops : List Operation,
      let changes := (r.commit ops).1
      let after := (r.commit ops).2.ledger
      s.view after = { s.view r.ledger with
        contents := s.contents.map fun c =>
          ⟨c.path, c.data, (stamped? changes c).getD (r.ledger.version c)⟩ } ∧
      (s.view after = s.view r.ledger ↔
        ∀ c ∈ s.contents, ∀ version ∈ stamped? changes c, version = r.ledger.version c)) ∧
    ∀ {ε : Type} (build : Snapshot → Except ε (List Operation)),
      r.transaction build = (build r.current).map r.commit := by
  refine ⟨fun ops => ⟨?_, ?_⟩, fun build => r.transaction_eq build⟩
  · have hview : (r.commit ops).2.ledger.view = fun c =>
        ⟨c.path, c.data, (stamped? (r.commit ops).1 c).getD (r.ledger.version c)⟩ := by
      funext c
      rw [Ledger.view, r.version_commit ops c]
    rw [← hview]
    rfl
  · rw [s.view_eq_iff]
    refine forall₂_congr fun c _ => ?_
    rw [r.version_commit ops c]
    cases stamped? (r.commit ops).1 c with
    | none =>
      constructor
      · intro _ version hv
        cases hv
      · exact fun _ => rfl
    | some version =>
      constructor
      · intro h version' hv
        cases hv
        exact h
      · exact fun h => h version rfl

/-- a content goes and comes back under another version, and moves in the snapshot from before -/
theorem view_moves_when_stored_again :
    ¬ ∀ (made : List Content) (r : Repository) (earlier ops : List Operation),
      Committed Operation.Addressed made r →
      (∀ op ∈ earlier ++ ops, op.Addressed ∧ op.Carries made) →
      let later := (r.commit earlier).2
      r.current.view (later.commit ops).2.ledger = r.current.view later.ledger := by
  intro h
  let x : ConfigPath := ⟨"employee/ASM/x/config", ⟨.employee, "ASM", "x"⟩, by decide +kernel⟩
  let c : Content := ⟨0, x, [97], none⟩
  let r : Repository := (commit { ledger := ⟨1, []⟩ } [.insert x ⟨1, [], 1⟩ c]).2
  have hr : Committed Operation.Addressed [c] r :=
    .commit (.making .new x [97] none) (by decide +kernel) (by decide +kernel)
  have hmoved : r.current.view
        ((r.commit [.delete x]).2.commit [.insert x ⟨1, [], 2⟩ c]).2.ledger
      ≠ r.current.view (r.commit [.delete x]).2.ledger := by decide +kernel
  exact hmoved (h [c] r [.delete x] [.insert x ⟨1, [], 2⟩ c] hr (by decide +kernel))

end Repository
end RemoteGuard
