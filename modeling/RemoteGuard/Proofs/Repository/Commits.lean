import RemoteGuard.Proofs.Repository.Operations

/-!
# Commits

A commit may carry any contents that have been made, at any paths and as often as it likes:
`Repository.Committed` are the repositories that come of an empty one by such commits.  What a
commit does can be read off the change set that it leaves:

* `Draft.ledger_run`         the ledger is written by the changes, one after another;
* `Draft.operation_mem_run`  every change is the effect of one of the operations;
* `Draft.stored_run`         what is stored was there before, or a change has brought it;
* `Draft.run_effective`      operations without an effect when their turn comes may be left out.
-/

namespace RemoteGuard

/-! ## operations and their changes -/

namespace Operation

/-- the path that the operation names -/
def path? : Operation → Option ConfigPath
  | .insert path _ _ => some path
  | .update path _ _ => some path
  | .delete path => some path
  | .set _ => none

/-- the content that the operation carries -/
def content? : Operation → Option Content
  | .insert _ _ c => some c
  | .update _ _ c => some c
  | .delete _ => none
  | .set _ => none

def target? : Operation → Option Target
  | .insert _ target _ => some target
  | .update _ target _ => some target
  | .delete _ => none
  | .set _ => none

/-- the operation carries none but these contents -/
def Carries (made : List Content) (op : Operation) : Prop := ∀ c ∈ op.content?, c ∈ made

instance (made : List Content) : DecidablePred (Operation.Carries made) := fun op =>
  inferInstanceAs (Decidable (∀ c ∈ op.content?, c ∈ made))

theorem Addressed.path?_eq {op : Operation} (h : op.Addressed) {c : Content}
    (hc : op.content? = some c) : op.path? = some c.path := by
  cases op with
  | insert path target d =>
    cases hc
    exact congrArg some (h : c.path = path).symm
  | update path target d =>
    cases hc
    exact congrArg some (h : c.path = path).symm
  | delete path => cases hc
  | set u => cases hc

end Operation

namespace Change

/-- the operation that the change is the effect of -/
def operation : Change → Operation
  | .inserted path target c => .insert path target c
  | .updated path target c _ => .update path target c
  | .deleted path _ => .delete path

theorem path?_operation (ch : Change) : ch.operation.path? = some ch.path := by cases ch <;> rfl

theorem content?_operation (ch : Change) : ch.operation.content? = ch.content? := by
  cases ch <;> rfl

theorem target?_operation (ch : Change) : ch.operation.target? = ch.target? := by cases ch <;> rfl

end Change

namespace Ledger

/-- what a change writes -/
def record (l : Ledger) : Change → Ledger
  | .inserted _ target c => l.setVersion c target.version
  | .updated _ target c _ => l.setVersion c target.version
  | .deleted _ _ => l

def recordAll (l : Ledger) (changes : List Change) : Ledger := changes.foldl record l

theorem recordAll_append_single (l : Ledger) (changes : List Change) (ch : Change) :
    l.recordAll (changes ++ [ch]) = (l.recordAll changes).record ch := List.foldl_append

theorem state_record (l : Ledger) (ch : Change) (c : Content) :
    (l.record ch).state c = l.state c := by
  cases ch with
  | inserted path target d => exact state_setVersion l d c target.version
  | updated path target d previous => exact state_setVersion l d c target.version
  | deleted path previous => rfl

/-- no change records a state -/
theorem state_recordAll (l : Ledger) (changes : List Change) (c : Content) :
    (l.recordAll changes).state c = l.state c := by
  induction changes generalizing l with
  | nil => rfl
  | cons ch changes ih => exact (ih (l.record ch)).trans (state_record l ch c)

end Ledger

namespace Draft

/-- an operation leaves a change and what the change writes, or neither -/
theorem step_recorded (d : Draft) (op : Operation) :
    ((d.step op).changes = d.changes ∧ (d.step op).ledger = d.ledger) ∨
    ∃ ch : Change, ch.operation = op ∧ (d.step op).changes = d.changes ++ [ch] ∧
      (d.step op).ledger = d.ledger.record ch := by
  rcases step_cases d op with e | ⟨u, -, e⟩ | ⟨path, target, c, rfl, -, e⟩ |
    ⟨path, target, c, previous, cs, rfl, -, e⟩ | ⟨path, previous, rfl, -, e⟩ <;> rw [e]
  · exact .inl ⟨rfl, rfl⟩
  · exact .inl ⟨rfl, rfl⟩
  · exact .inr ⟨.inserted path target c, rfl, rfl, rfl⟩
  · exact .inr ⟨.updated path target c previous, rfl, rfl, rfl⟩
  · exact .inr ⟨.deleted path previous, rfl, rfl, rfl⟩

theorem changes_subset_step (d : Draft) (op : Operation) : d.changes ⊆ (d.step op).changes := by
  rcases step_recorded d op with ⟨e, -⟩ | ⟨ch, -, e, -⟩ <;> rw [e]
  · exact List.Subset.refl _
  · exact List.subset_append_left ..

/-- what is stored after an operation was there before, or the operation has left a change that
brings it -/
theorem stored_step {d : Draft} {op : Operation} {c : Content}
    (hc : c ∈ (d.step op).snapshot.contents) :
    c ∈ d.snapshot.contents ∨ ∃ ch ∈ (d.step op).changes, ch.content? = some c := by
  rcases step_cases d op with e | ⟨u, -, e⟩ | ⟨path, target, x, rfl, -, e⟩ |
    ⟨path, target, x, previous, cs, rfl, hr, e⟩ | ⟨path, previous, rfl, -, e⟩ <;> rw [e] at hc ⊢
  · exact .inl hc
  · exact .inl hc
  · refine (List.mem_append.mp hc).imp_right fun hc => ?_
    rw [List.mem_singleton.mp hc]
    exact ⟨.inserted path target x, List.mem_append_right _ List.mem_cons_self, rfl⟩
  · refine (ContentList.mem_of_replace? hr hc).symm.imp_right ?_
    rintro rfl
    exact ⟨.updated path target c previous, List.mem_append_right _ List.mem_cons_self, rfl⟩
  · exact .inl (ContentList.mem_erase.mp hc).1

section
variable (s : Snapshot) (l : Ledger) (ops : List Operation)

theorem ledger_run :
    (Draft.run ⟨s, l, []⟩ ops).ledger = l.recordAll (Draft.run ⟨s, l, []⟩ ops).changes := by
  refine run_induction (motive := fun d => d.ledger = l.recordAll d.changes) rfl fun d op _ h => ?_
  rcases step_recorded d op with ⟨hch, hl⟩ | ⟨ch, -, hch, hl⟩
  · rw [hch, hl, h]
  · rw [hch, hl, h, Ledger.recordAll_append_single]

theorem operation_mem_run : ∀ ch ∈ (Draft.run ⟨s, l, []⟩ ops).changes, ch.operation ∈ ops := by
  refine run_induction (motive := fun d => ∀ ch ∈ d.changes, ch.operation ∈ ops)
    (fun ch hch => absurd hch List.not_mem_nil) fun d op hop h => ?_
  rcases step_recorded d op with ⟨hch, -⟩ | ⟨ch, rfl, hch, -⟩ <;> rw [hch]
  · exact h
  · intro ch' hch'
    rcases List.mem_append.mp hch' with hch' | hch'
    · exact h ch' hch'
    · rw [List.mem_singleton.mp hch']
      exact hop

theorem stored_run : ∀ c ∈ (Draft.run ⟨s, l, []⟩ ops).snapshot.contents,
    c ∈ s.contents ∨ ∃ ch ∈ (Draft.run ⟨s, l, []⟩ ops).changes, ch.content? = some c := by
  refine run_induction (motive := fun d => ∀ c ∈ d.snapshot.contents,
    c ∈ s.contents ∨ ∃ ch ∈ d.changes, ch.content? = some c) (fun c hc => .inl hc)
    fun d op _ h c hc => ?_
  rcases stored_step hc with hc | hnew
  · refine (h c hc).imp_right ?_
    rintro ⟨ch, hch, e⟩
    exact ⟨ch, changes_subset_step d op hch, e⟩
  · exact .inr hnew

end

end Draft

/-! ## operations with an effect -/

/-- the operation does something to the snapshot -/
def Operation.hasEffect (s : Snapshot) : Operation → Bool
  | .insert path _ _ => (s.get? path).isNone
  | .update _ _ c => (s.get? c.path).isSome
  | .delete path => (s.get? path).isSome
  | .set _ => true

namespace Draft

/-- the operations that do something when their turn comes -/
def effective (d : Draft) : List Operation → List Operation
  | [] => []
  | op :: ops =>
    if op.hasEffect d.snapshot then op :: (d.step op).effective ops else d.effective ops

theorem step_of_no_effect {d : Draft} {op : Operation} (h : op.hasEffect d.snapshot = false) :
    d.step op = d := by
  cases op with
  | insert path target c =>
    obtain ⟨held, hg⟩ := Option.isSome_iff_exists.mp (Option.isNone_eq_false_iff.mp h)
    exact insert_of_some target c hg
  | update path target c =>
    have hg : d.snapshot.get? c.path = none :=
      Option.not_isSome_iff_eq_none.mp (ne_true_of_eq_false h)
    exact update_of_none path target (ContentList.replace?_eq_none_iff.mpr hg)
  | delete path =>
    exact delete_of_none (Option.not_isSome_iff_eq_none.mp (ne_true_of_eq_false h))
  | set u => cases h

/-- an operation with an effect on the contents leaves a change -/
theorem operations_step {d : Draft} {op : Operation} (h : op.hasEffect d.snapshot = true) :
    (d.step op).changes.map Change.operation
      = d.changes.map Change.operation ++ [op].filter fun op => op.path?.isSome := by
  cases op with
  | insert path target c =>
    show (d.insert path target c).changes.map _ = _
    rw [insert_of_none target c (Option.isNone_iff_eq_none.mp h)]
    exact List.map_append
  | update path target c =>
    cases hr : ContentList.replace? c d.snapshot.contents with
    | none =>
      have hg : d.snapshot.get? c.path = none := ContentList.replace?_eq_none_iff.mp hr
      have hsome : (d.snapshot.get? c.path).isSome = true := h
      rw [hg] at hsome
      cases hsome
    | some replaced =>
      show (d.update path target c).changes.map _ = _
      rw [update_of_some path target hr]
      exact List.map_append
  | delete path =>
    obtain ⟨previous, hg⟩ := Option.isSome_iff_exists.mp h
    show (d.delete path).changes.map _ = _
    rw [delete_of_some hg]
    exact List.map_append
  | set u => exact (List.append_nil _).symm

/-- operations without an effect may be left out -/
theorem run_effective (d : Draft) (ops : List Operation) : d.run (d.effective ops) = d.run ops := by
  induction ops generalizing d with
  | nil => rfl
  | cons op ops ih =>
    rw [effective, run_cons]
    split
    · rw [run_cons, ih]
    · next h => rw [ih, step_of_no_effect (eq_false_of_ne_true h)]

/-- the changes are those of the operations with an effect, one for each that names a path -/
theorem operations_run (d : Draft) (ops : List Operation) :
    (d.run ops).changes.map Change.operation
      = d.changes.map Change.operation ++ (d.effective ops).filter fun op => op.path?.isSome := by
  induction ops generalizing d with
  | nil => exact (List.append_nil _).symm
  | cons op ops ih =>
    rw [run_cons, ih, effective]
    split
    · next h =>
      rw [operations_step h, List.append_assoc, ← List.filter_append]
      rfl
    · next h => rw [step_of_no_effect (eq_false_of_ne_true h)]

end Draft

/-! ## repositories that live on commits -/

namespace Repository

/-- the operations of a commit that do something when their turn comes -/
def effective (r : Repository) (ops : List Operation) : List Operation :=
  Draft.effective ⟨r.current, r.ledger, []⟩ ops

theorem operations_commit (r : Repository) (ops : List Operation) :
    (r.commit ops).1.map Change.operation
      = (r.effective ops).filter fun op => op.path?.isSome :=
  Draft.operations_run ⟨r.current, r.ledger, []⟩ ops

theorem transaction_eq {ε : Type} (r : Repository) (build : Snapshot → Except ε (List Operation)) :
    r.transaction build = (build r.current).map r.commit := by
  rw [transaction]
  cases build r.current with
  | error e => rfl
  | ok ops => rfl

/-- the repository comes of an empty one by commits of `allowed` operations, which carry contents
that were made before; `made` are all of these -/
inductive Committed (allowed : Operation → Prop) : List Content → Repository → Prop where
  | new : Committed allowed [] {}
  | making {made : List Content} {r : Repository} (h : Committed allowed made r)
      (path : ConfigPath) (data : Bytes) (expires : Option Timestamp) :
      Committed allowed ((r.ledger.enroll path data expires).1 :: made)
        { r with ledger := (r.ledger.enroll path data expires).2 }
  | commit {made : List Content} {r : Repository} {ops : List Operation}
      (h : Committed allowed made r) (hops : ∀ op ∈ ops, allowed op)
      (hmade : ∀ op ∈ ops, op.Carries made) : Committed allowed made (r.commit ops).2

namespace Committed
variable {allowed : Operation → Prop} {made : List Content} {r : Repository}

theorem stored (h : Committed allowed made r) : ∀ c ∈ r.current.contents, c ∈ made := by
  induction h with
  | new => exact fun c hc => absurd hc List.not_mem_nil
  | making _ _ _ _ ih => exact fun c hc => List.mem_cons_of_mem _ (ih c hc)
  | @commit made r ops h _ hmade ih =>
    intro c hc
    rcases Draft.stored_run r.current r.ledger ops c hc with hc | ⟨ch, hch, e⟩
    · exact ih c hc
    · refine hmade _ (Draft.operation_mem_run r.current r.ledger ops ch hch) c ?_
      rw [ch.content?_operation, e]
      rfl

/-- the identities of the contents that were made have been given out -/
theorem id_lt (h : Committed allowed made r) : ∀ c ∈ made, c.id < r.ledger.next := by
  induction h with
  | new => exact fun c hc => absurd hc List.not_mem_nil
  | @making made r _ path data expires ih =>
    intro c hc
    show c.id < r.ledger.next + 1
    rcases List.mem_cons.mp hc with rfl | hc
    · exact Nat.lt_succ_self _
    · exact Nat.lt_succ_of_lt (ih c hc)
  | @commit made r ops _ _ _ ih =>
    show ∀ c ∈ made, c.id < (Draft.run ⟨r.current, r.ledger, []⟩ ops).ledger.next
    rw [Draft.next_run]
    exact ih

/-- an identity stands for one content -/
theorem eq_of_id (h : Committed allowed made r) :
    ∀ c ∈ made, ∀ d ∈ made, d.id = c.id → d = c := by
  induction h with
  | new => exact fun c hc => absurd hc List.not_mem_nil
  | @making made r h path data expires ih =>
    have hnew : ∀ d ∈ made, d.id ≠ r.ledger.next := fun d hd => Nat.ne_of_lt (h.id_lt d hd)
    intro c hc d hd e
    rcases List.mem_cons.mp hc with rfl | hold
    · rcases List.mem_cons.mp hd with rfl | hold'
      · rfl
      · exact absurd e (hnew d hold')
    · rcases List.mem_cons.mp hd with rfl | hold'
      · exact absurd e.symm (hnew c hold)
      · exact ih c hold d hold' e
  | commit _ _ _ ih => exact ih

theorem distinct (h : Committed Operation.Addressed made r) :
    ContentList.Distinct r.current.contents := by
  induction h with
  | new => exact ContentList.distinct_nil
  | making _ _ _ _ ih => exact ih
  | commit _ hops _ ih => exact Draft.distinct_run ih hops

end Committed
end Repository
end RemoteGuard
