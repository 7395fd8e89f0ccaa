import RemoteGuard.Proofs.Repository.Commits

/-!
# What a commit reaches

An operation names a path, but `insert` and `update` store a content at the path that the content
is for.  So what a commit leaves alone are the paths that its operations do not reach, by
`Operation.reach?`; the names tell this only where they agree with the contents.

* `Draft.heldAt_step`, `Draft.length_heldAt_step`   what one operation does at a path;
* `Respects`                          by the names, nothing else has changed: no path has come to
                                      hold two contents, and paths that are not named hold what
                                      they held;
* `Repository.footprint_of_commit`    the paths that a commit leaves alone, how many contents a path
                                      holds after it, and when it respects the names;
* `Repository.names_do_not_tell`      a misplaced update, and a misplaced insertion.
-/

namespace RemoteGuard
open ContentList

/-! ## operations and paths -/

namespace Operation

/-- the path at which the operation can change something -/
def reach? : Operation → Option ConfigPath
  | .insert _ _ c => some c.path
  | .update _ _ c => some c.path
  | .delete path => some path
  | .set _ => none

/-- the operation adds a content for the path under the name of another -/
def straysTo (path : ConfigPath) : Operation → Bool
  | .insert named _ c => c.path = path ∧ named ≠ path
  | _ => false

theorem Addressed.reach?_eq {op : Operation} (h : op.Addressed) : op.reach? = op.path? := by
  cases op with
  | insert path target c => exact congrArg some h
  | update path target c => exact congrArg some h
  | delete path => rfl
  | set u => rfl

end Operation

/-! ## what a snapshot holds at a path -/

namespace Snapshot

/-- the contents for a path, in their order -/
def heldAt (s : Snapshot) (path : ConfigPath) : List Content :=
  s.contents.filter fun c => c.path = path

theorem head?_heldAt (s : Snapshot) (path : ConfigPath) : (s.heldAt path).head? = s.get? path :=
  List.head?_filter

theorem heldAt_eq_nil {s : Snapshot} {path : ConfigPath} (h : s.get? path = none) :
    s.heldAt path = [] := by
  rw [← head?_heldAt] at h
  exact List.head?_eq_none_iff.mp h

theorem length_heldAt (s : Snapshot) (path : ConfigPath) :
    (s.heldAt path).length = (s.contents.map Content.path).count path := by
  rw [heldAt, ← List.countP_eq_length_filter, List.count, List.countP_map]
  rfl

end Snapshot

namespace Draft
variable {d : Draft} {op : Operation} {path : ConfigPath}

theorem heldAt_adding (d : Draft) (named : ConfigPath) (target : Target) (c : Content)
    (path : ConfigPath) : (d.adding named target c).snapshot.heldAt path
      = d.snapshot.heldAt path ++ if c.path = path then [c] else [] := by
  show (d.snapshot.contents ++ [c]).filter (fun c => decide (c.path = path)) = _
  rw [List.filter_append, List.filter_singleton]
  by_cases h : c.path = path
  · rw [decide_eq_true h, if_pos h]
    rfl
  · rw [decide_eq_false h, if_neg h]
    rfl

theorem heldAt_step (h : op.reach? ≠ some path) :
    (d.step op).snapshot.heldAt path = d.snapshot.heldAt path := by
  let here : ConfigPath → Bool := fun p => p = path
  rcases step_cases d op with e | ⟨u, -, e⟩ | ⟨named, target, c, rfl, -, e⟩ |
    ⟨named, target, c, previous, cs, rfl, hr, e⟩ | ⟨named, previous, rfl, -, e⟩ <;> rw [e]
  · rfl
  · have hc : c.path ≠ path := fun e => h (congrArg some e)
    rw [heldAt_adding, if_neg hc, List.append_nil]
  · have hc : here c.path = false := decide_eq_false fun e => h (congrArg some e)
    exact filter_replace? hr hc
  · have hn : here named = false := decide_eq_false fun e => h (congrArg some e)
    exact filter_erase hn

/-- a path gets a second content only by an operation that strays to it -/
theorem length_heldAt_step (d : Draft) (op : Operation) (path : ConfigPath) :
    ((d.step op).snapshot.heldAt path).length
      ≤ max 1 (d.snapshot.heldAt path).length + (if op.straysTo path then 1 else 0) := by
  rcases step_cases d op with e | ⟨u, -, e⟩ | ⟨named, target, c, rfl, hg, e⟩ |
    ⟨named, target, c, previous, cs, rfl, hr, e⟩ | ⟨named, previous, rfl, -, e⟩ <;> rw [e]
  · omega
  · show (d.snapshot.heldAt path).length ≤ _
    omega
  · rw [heldAt_adding, List.length_append]
    by_cases hc : c.path = path
    · rw [if_pos hc, List.length_singleton]
      by_cases hn : named = path
      · -- the path was free
        rw [Snapshot.heldAt_eq_nil (hn ▸ hg), List.length_nil]
        omega
      · have hstray : (Operation.insert named target c).straysTo path = true :=
          decide_eq_true ⟨hc, hn⟩
        rw [if_pos hstray]
        omega
    · rw [if_neg hc, List.length_nil]
      omega
  · have hlen : ((d.replacing named target c previous cs).snapshot.heldAt path).length
        = (d.snapshot.heldAt path).length := by
      rw [Snapshot.length_heldAt, Snapshot.length_heldAt]
      exact congrArg (List.count path) (map_path_of_replace? hr)
    omega
  · have hlen : ((d.removing named previous).snapshot.heldAt path).length
        ≤ (d.snapshot.heldAt path).length :=
      (List.filter_sublist.filter _).length_le
    omega

theorem heldAt_run (d : Draft) {ops : List Operation}
    (h : ∀ op ∈ ops, op.reach? ≠ some path) :
    (d.run ops).snapshot.heldAt path = d.snapshot.heldAt path :=
  run_induction (motive := fun d' => d'.snapshot.heldAt path = d.snapshot.heldAt path) rfl
    fun _ op hop hd => (heldAt_step (h op hop)).trans hd

theorem length_heldAt_run (d : Draft) (ops : List Operation) (path : ConfigPath) :
    ((d.run ops).snapshot.heldAt path).length
      ≤ max 1 (d.snapshot.heldAt path).length + ops.countP (Operation.straysTo path) := by
  induction ops generalizing d with
  | nil =>
    show (d.snapshot.heldAt path).length ≤ _
    omega
  | cons op ops ih =>
    have hrest := ih (d.step op)
    have hstep := d.length_heldAt_step op path
    rw [run_cons, List.countP_cons]
    omega

end Draft

/-! ## commits -/

/-- by the names of the operations, nothing else has changed -/
structure Respects (ops : List Operation) (before after : Snapshot) : Prop where
  distinct : Distinct before.contents → Distinct after.contents
  kept : ∀ path, (∀ op ∈ ops, op.path? ≠ some path) → after.heldAt path = before.heldAt path

namespace Repository

theorem respects_of_addressed (r : Repository) {ops : List Operation}
    (ha : ∀ op ∈ ops, op.Addressed) : Respects ops r.current (r.commit ops).2.current where
  distinct := fun h => Draft.distinct_run h ha
  kept := fun path hnamed =>
    Draft.heldAt_run ⟨r.current, r.ledger, []⟩ fun op hop => by
      rw [(ha op hop).reach?_eq]
      exact hnamed op hop

/-- a commit of one operation respects its name, but for one that is misplaced, has an effect, and
does not replace a content by itself -/
theorem respects_single_iff (r : Repository) (op : Operation) :
    Respects [op] r.current (r.commit [op]).2.current ↔
      op.Addressed ∨ op.hasEffect r.current = false ∨
      ∃ path target c, op = .update path target c ∧ r.current.get? c.path = some c := by
  have hsnapshot : (r.commit [op]).2.current
      = (Draft.step ⟨r.current, r.ledger, []⟩ op).snapshot := rfl
  have hnamed : ∀ {op : Operation} {named path : ConfigPath}, op.path? = some named →
      path ≠ named → ∀ op' ∈ [op], op'.path? ≠ some path := by
    intro op named path hop hne op' hop'
    rw [List.mem_singleton.mp hop', hop]
    exact fun e => hne (Option.some.inj e).symm
  constructor
  · intro h
    by_cases ha : op.Addressed
    · exact .inl ha
    · cases he : op.hasEffect r.current with
      | false => exact .inr (.inl rfl)
      | true =>
        cases op with
        | insert named target c =>
          -- the path of the content is not named, and holds one more
          have hg : r.current.get? named = none := Option.isNone_iff_eq_none.mp he
          have hkept := h.kept c.path (hnamed rfl ha)
          rw [hsnapshot, Draft.step, Draft.insert_of_none target c hg, Draft.heldAt_adding,
            if_pos rfl] at hkept
          have hlen := congrArg List.length hkept
          rw [List.length_append, List.length_singleton] at hlen
          exact absurd hlen (Nat.succ_ne_self _)
        | update named target c =>
          refine .inr (.inr ⟨named, target, c, rfl, ?_⟩)
          have hkept := congrArg List.head? (h.kept c.path (hnamed rfl ha))
          rw [Snapshot.head?_heldAt, Snapshot.head?_heldAt, hsnapshot] at hkept
          cases hr : replace? c r.current.contents with
          | none =>
            rw [Operation.hasEffect, Snapshot.get?, replace?_eq_none_iff.mp hr] at he
            cases he
          | some replaced =>
            rw [← hkept, Draft.step, Draft.update_of_some named target hr]
            show get? c.path replaced.2 = some c
            rw [(get?_of_replace? hr c.path).2, if_pos rfl]
        | delete path => exact absurd trivial ha
        | set u => exact absurd trivial ha
  · rintro (ha | he | ⟨path, target, c, rfl, hg⟩)
    · exact r.respects_of_addressed fun op' hop => List.mem_singleton.mp hop ▸ ha
    · rw [hsnapshot, Draft.step_of_no_effect he]
      exact ⟨id, fun _ _ => rfl⟩
    · have hstep := Draft.update_of_some (d := ⟨r.current, r.ledger, []⟩) path target
        (replace?_of_get? hg)
      rw [hsnapshot, Draft.step, hstep]
      exact ⟨id, fun _ _ => rfl⟩

/-- **What a commit reaches.**  Paths that no operation reaches hold what they held; a path comes
to hold more than one content only by insertions that stray to it, one for each.  Where every
content is for the path that its operation names, the commit respects the names.  A commit of one
operation respects its name just if the operation is so placed, or has no effect, or replaces a
content by itself. -/
theorem footprint_of_commit (r : Repository) :
    (∀ ops : List Operation,
      let after := (r.commit ops).2.current
      (∀ path, (∀ op ∈ ops, op.reach? ≠ some path) →
        after.heldAt path = r.current.heldAt path) ∧
      (∀ path, (after.heldAt path).length
        ≤ max 1 (r.current.heldAt path).length + ops.countP (Operation.straysTo path)) ∧
      ((∀ op ∈ ops, op.Addressed) → Respects ops r.current after)) ∧
    ∀ op, Respects [op] r.current (r.commit [op]).2.current ↔
      op.Addressed ∨ op.hasEffect r.current = false ∨
      ∃ path target c, op = .update path target c ∧ r.current.get? c.path = some c := by
  refine ⟨fun ops => ⟨fun path h => ?_, fun path => ?_, r.respects_of_addressed⟩,
    r.respects_single_iff⟩
  · exact Draft.heldAt_run ⟨r.current, r.ledger, []⟩ h
  · exact Draft.length_heldAt_run ⟨r.current, r.ledger, []⟩ ops path

/-- an insertion under another name puts a second content at a path, and leaves the one it names -/
theorem footprint_of_stray_insertion :
    ∃ (x y : ConfigPath) (b : Content) (r : Repository),
      let op : Operation := .insert y ⟨1, [], 2⟩ b
      let after := (r.commit [op]).2.current
      b.path = x ∧ (r.current.heldAt x).length = 1 ∧ (∀ op' ∈ [op], op'.reach? ≠ some y) ∧
        after.heldAt y = r.current.heldAt y ∧ (after.heldAt x).length = 2 ∧
        (after.heldAt x).length ≤ max 1 (r.current.heldAt x).length + [op].countP (·.straysTo x) ∧
        ¬ Respects [op] r.current after := by
  let x : ConfigPath := ⟨"employee/ASM/x/config", ⟨.employee, "ASM", "x"⟩, by decide +kernel⟩
  let y : ConfigPath := ⟨"employee/ASM/y/config", ⟨.employee, "ASM", "y"⟩, by decide +kernel⟩
  let b : Content := ⟨1, x, [98], none⟩
  let r : Repository := { current := { contents := [⟨0, x, [97], none⟩] }, ledger := ⟨2, []⟩ }
  refine ⟨x, y, b, r, ?_⟩
  intro op after
  obtain ⟨hcommit, hsingle⟩ := footprint_of_commit r
  obtain ⟨hkept, hlength, -⟩ := hcommit [op]
  have hreach : ∀ op' ∈ [op], op'.reach? ≠ some y := by decide +kernel
  refine ⟨rfl, by decide +kernel, hreach, hkept y hreach, by decide +kernel, hlength x, ?_⟩
  rw [hsingle op]
  rintro (haddressed | hidle | ⟨path, target, c, hop, -⟩)
  · exact absurd haddressed (by decide +kernel)
  · exact absurd hidle (by decide +kernel)
  · exact Operation.noConfusion hop

/-- names do not tell what a commit changes: an update under another name replaces the content,
and an insertion under another name puts a second one beside it -/
theorem names_do_not_tell :
    (¬ ∀ (made : List Content) (r : Repository) (ops : List Operation),
      Committed (fun _ => True) made r → (∀ op ∈ ops, op.Carries made) →
      ∀ path, (∀ op ∈ ops, op.path? ≠ some path) →
        (r.commit ops).2.current.heldAt path = r.current.heldAt path) ∧
    ¬ ∀ (made : List Content) (r : Repository) (ops : List Operation),
      Committed (fun _ => True) made r → (∀ op ∈ ops, op.Carries made) →
      ((r.commit ops).2.current.contents.map Content.path).Nodup := by
  let x : ConfigPath := ⟨"employee/ASM/x/config", ⟨.employee, "ASM", "x"⟩, by decide +kernel⟩
  let y : ConfigPath := ⟨"employee/ASM/y/config", ⟨.employee, "ASM", "y"⟩, by decide +kernel⟩
  let a : Content := ⟨0, x, [97], none⟩
  let b : Content := ⟨1, x, [98], none⟩
  let r : Repository := (commit { ledger := ⟨2, []⟩ } [.insert x ⟨1, [], 1⟩ a]).2
  have hr : Committed (fun _ => True) [b, a] r :=
    .commit (.making (.making .new x [97] none) x [98] none) (fun _ _ => trivial)
      (by decide +kernel)
  constructor
  · intro h
    have hkept := h [b, a] r [.update y ⟨1, [], 2⟩ b] hr (by decide +kernel) x (by decide +kernel)
    revert hkept
    decide +kernel
  · intro h
    have hnodup := h [b, a] r [.insert y ⟨1, [], 2⟩ b, .delete y] hr (by decide +kernel)
    revert hnodup
    decide +kernel

end Repository
end RemoteGuard
