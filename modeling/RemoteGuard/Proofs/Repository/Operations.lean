import RemoteGuard.Proofs.Content.Distinct
import RemoteGuard.Repository.Basic

/-!
# What operations do to a draft

`Draft.step_cases` says all that one operation can do: it leaves the contents alone and no change,
or it stores, replaces or removes a content and leaves exactly one change, at the path that it
names.  An operation is `Addressed` if its content is one for that path; then

* `Draft.distinct_run`   operations keep at most one content per path;
* `Draft.run_frame`      contents whose paths no change names stay as they are, in their order.
-/

namespace RemoteGuard

/-- the operation stores a content at the path that the content is for -/
def Operation.Addressed : Operation → Prop
  | .insert path _ c => c.path = path
  | .update path _ c => c.path = path
  | .delete _ => True
  | .set _ => True

instance : DecidablePred Operation.Addressed
  | .insert path _ c => inferInstanceAs (Decidable (c.path = path))
  | .update path _ c => inferInstanceAs (Decidable (c.path = path))
  | .delete _ => .isTrue trivial
  | .set _ => .isTrue trivial

namespace Draft

/-! ## single operations -/

/-- the draft with a content added -/
def adding (d : Draft) (path : ConfigPath) (target : Target) (c : Content) : Draft where
  snapshot := { d.snapshot with contents := d.snapshot.contents ++ [c] }
  ledger := d.ledger.setVersion c target.version
  changes := d.changes ++ [.inserted path target c]

/-- the draft with a content put in the place of another, which leaves the contents `cs` -/
def replacing (d : Draft) (path : ConfigPath) (target : Target) (c previous : Content)
    (cs : List Content) : Draft where
  snapshot := { d.snapshot with contents := cs }
  ledger := d.ledger.setVersion c target.version
  changes := d.changes ++ [.updated path target c previous]

/-- the draft without the contents at a path -/
def removing (d : Draft) (path : ConfigPath) (previous : Content) : Draft where
  snapshot := { d.snapshot with contents := ContentList.erase path d.snapshot.contents }
  ledger := d.ledger
  changes := d.changes ++ [.deleted path previous]

theorem insert_of_some {d : Draft} {path : ConfigPath} {c' : Content} (target : Target)
    (c : Content) (h : d.snapshot.get? path = some c') : d.insert path target c = d := by
  rw [Draft.insert, h]

theorem insert_of_none {d : Draft} {path : ConfigPath} (target : Target) (c : Content)
    (h : d.snapshot.get? path = none) : d.insert path target c = d.adding path target c := by
  rw [Draft.insert, h]
  rfl

theorem update_of_none {d : Draft} {c : Content} (path : ConfigPath) (target : Target)
    (h : ContentList.replace? c d.snapshot.contents = none) : d.update path target c = d := by
  rw [Draft.update, h]

theorem update_of_some {d : Draft} {c previous : Content} {cs : List Content}
    (path : ConfigPath) (target : Target)
    (h : ContentList.replace? c d.snapshot.contents = some (previous, cs)) :
    d.update path target c = d.replacing path target c previous cs := by
  rw [Draft.update, h]
  rfl

theorem delete_of_none {d : Draft} {path : ConfigPath} (h : d.snapshot.get? path = none) :
    d.delete path = d := by
  rw [Draft.delete, h]

theorem delete_of_some {d : Draft} {path : ConfigPath} {previous : Content}
    (h : d.snapshot.get? path = some previous) : d.delete path = d.removing path previous := by
  rw [Draft.delete, h]
  rfl

theorem contents_delete (d : Draft) (path : ConfigPath) :
    (d.delete path).snapshot.contents = ContentList.erase path d.snapshot.contents := by
  cases h : d.snapshot.get? path with
  | some previous => rw [delete_of_some h]; rfl
  | none =>
    rw [delete_of_none h]
    have hkept : ContentList.erase path d.snapshot.contents = d.snapshot.contents := by
      rw [ContentList.erase, List.filter_eq_self]
      intro c hc
      exact bne_iff_ne.mpr (ContentList.get?_eq_none_iff.mp h c hc)
    rw [hkept]

theorem ledger_delete (d : Draft) (path : ConfigPath) : (d.delete path).ledger = d.ledger := by
  cases h : d.snapshot.get? path with
  | some previous => rw [delete_of_some h]; rfl
  | none => rw [delete_of_none h]

/-- all that an operation can do -/
theorem step_cases (d : Draft) (op : Operation) :
    d.step op = d ∨ (∃ u, op = .set u ∧ d.step op = d.set u) ∨
    (∃ path target c, op = .insert path target c ∧ d.snapshot.get? path = none ∧
      d.step op = d.adding path target c) ∨
    (∃ path target c previous cs, op = .update path target c ∧
      ContentList.replace? c d.snapshot.contents = some (previous, cs) ∧
      d.step op = d.replacing path target c previous cs) ∨
    (∃ path previous, op = .delete path ∧ d.snapshot.get? path = some previous ∧
      d.step op = d.removing path previous) := by
  cases op with
  | insert path target c =>
    cases h : d.snapshot.get? path with
    | some c' => exact .inl (insert_of_some target c h)
    | none => exact .inr (.inr (.inl ⟨path, target, c, rfl, h, insert_of_none target c h⟩))
  | update path target c =>
    cases h : ContentList.replace? c d.snapshot.contents with
    | none => exact .inl (update_of_none path target h)
    | some r =>
      exact .inr (.inr (.inr (.inl ⟨path, target, c, r.1, r.2, rfl, h,
        update_of_some path target h⟩)))
  | delete path =>
    cases h : d.snapshot.get? path with
    | none => exact .inl (delete_of_none h)
    | some previous =>
      exact .inr (.inr (.inr (.inr ⟨path, previous, rfl, h, delete_of_some h⟩)))
  | set u => exact .inr (.inl ⟨u, rfl, rfl⟩)

/-- what an operation keeps, a list of operations keeps -/
theorem run_induction {motive : Draft → Prop} {d : Draft} {ops : List Operation} (h : motive d)
    (hstep : ∀ d, ∀ op ∈ ops, motive d → motive (d.step op)) : motive (d.run ops) := by
  induction ops generalizing d with
  | nil => exact h
  | cons op ops ih =>
    rw [run_cons]
    exact ih (hstep d op List.mem_cons_self h)
      fun d op' hop => hstep d op' (List.mem_cons_of_mem _ hop)

/-- operations give out no identities -/
theorem next_run (d : Draft) (ops : List Operation) : (d.run ops).ledger.next = d.ledger.next := by
  refine run_induction (motive := fun d' => d'.ledger.next = d.ledger.next) rfl fun d' op _ h => ?_
  rw [← h]
  rcases step_cases d' op with e | ⟨u, -, e⟩ | ⟨path, target, c, -, -, e⟩ |
    ⟨path, target, c, previous, cs, -, -, e⟩ | ⟨path, previous, -, -, e⟩ <;> rw [e] <;> rfl

/-- operations on contents keep the metadata -/
theorem run_metadata (d : Draft) {ops : List Operation} (h : ∀ u, .set u ∉ ops) :
    (d.run ops).snapshot = { d.snapshot with contents := (d.run ops).snapshot.contents } := by
  induction ops generalizing d with
  | nil => rfl
  | cons op ops ih =>
    have hstep : (d.step op).snapshot
        = { d.snapshot with contents := (d.step op).snapshot.contents } := by
      rcases step_cases d op with e | ⟨u, rfl, -⟩ | ⟨path, target, c, -, -, e⟩ |
        ⟨path, target, c, previous, cs, -, -, e⟩ | ⟨path, previous, -, -, e⟩
      · rw [e]
      · exact absurd List.mem_cons_self (h u)
      · rw [e]; rfl
      · rw [e]; rfl
      · rw [e]; rfl
    rw [run_cons, ih _ fun u hu => h u (List.mem_cons_of_mem _ hu), hstep]

/-! ## one content per path -/

theorem distinct_step {d : Draft} {op : Operation}
    (h : ContentList.Distinct d.snapshot.contents) (ha : op.Addressed) :
    ContentList.Distinct (d.step op).snapshot.contents := by
  rcases step_cases d op with e | ⟨u, -, e⟩ | ⟨path, target, c, rfl, hg, e⟩ |
    ⟨path, target, c, previous, cs, rfl, hr, e⟩ | ⟨path, previous, -, -, e⟩ <;> rw [e]
  · exact h
  · exact h
  · have hp : c.path = path := ha
    exact h.append_single (hp ▸ hg)
  · exact h.replace? hr
  · exact h.erase path

theorem distinct_run {d : Draft} {ops : List Operation}
    (h : ContentList.Distinct d.snapshot.contents) (ha : ∀ op ∈ ops, op.Addressed) :
    ContentList.Distinct (d.run ops).snapshot.contents :=
  run_induction (motive := fun d => ContentList.Distinct d.snapshot.contents) h
    fun _ op hop h => distinct_step h (ha op hop)

/-! ## what stays as it is -/

/-- the contents of a draft at chosen paths -/
def contentsAt (chosen : ConfigPath → Bool) (d : Draft) : List Content :=
  d.snapshot.contents.filter fun c => chosen c.path

theorem filter_replace? {c previous : Content} {cs ds : List Content} {chosen : ConfigPath → Bool}
    (h : ContentList.replace? c cs = some (previous, ds)) (hc : chosen c.path = false) :
    ds.filter (fun c => chosen c.path) = cs.filter (fun c => chosen c.path) := by
  induction cs generalizing ds with
  | nil => cases h
  | cons d cs ih =>
    rw [ContentList.replace?] at h
    split at h
    · next e =>
      cases h
      rw [List.filter_cons, List.filter_cons, e, hc, if_neg Bool.false_ne_true,
        if_neg Bool.false_ne_true]
    · obtain ⟨⟨q, es⟩, he, heq⟩ := Option.map_eq_some_iff.mp h
      cases heq
      rw [List.filter_cons, List.filter_cons, ih he]

theorem filter_erase {path : ConfigPath} {cs : List Content} {chosen : ConfigPath → Bool}
    (h : chosen path = false) :
    (ContentList.erase path cs).filter (fun c => chosen c.path)
      = cs.filter (fun c => chosen c.path) := by
  rw [ContentList.erase, List.filter_filter]
  refine List.filter_congr fun c _ => ?_
  by_cases e : c.path = path
  · rw [e, h, Bool.false_and]
  · rw [bne_iff_ne.mpr e, Bool.and_true]

/-- an operation adds changes, and what they do not name stays -/
theorem step_frame (d : Draft) {op : Operation} (ha : op.Addressed) :
    ∃ new, (d.step op).changes = d.changes ++ new ∧
      ∀ chosen : ConfigPath → Bool, (∀ ch ∈ new, chosen ch.path = false) →
        (d.step op).contentsAt chosen = d.contentsAt chosen := by
  rcases step_cases d op with e | ⟨u, -, e⟩ | ⟨path, target, c, rfl, -, e⟩ |
    ⟨path, target, c, previous, cs, rfl, hr, e⟩ | ⟨path, previous, -, -, e⟩ <;> rw [e]
  · exact ⟨[], (List.append_nil _).symm, fun _ _ => rfl⟩
  · exact ⟨[], (List.append_nil _).symm, fun _ _ => rfl⟩
  · have hp : c.path = path := ha
    refine ⟨[.inserted path target c], rfl, fun chosen hnew => ?_⟩
    have hc : chosen path = false := hnew _ (List.mem_singleton.mpr rfl)
    show (d.snapshot.contents ++ [c]).filter (fun c => chosen c.path) = _
    rw [List.filter_append, List.filter_singleton, hp, hc]
    exact List.append_nil _
  · have hp : c.path = path := ha
    refine ⟨[.updated path target c previous], rfl, fun chosen hnew => ?_⟩
    have hc : chosen path = false := hnew _ (List.mem_singleton.mpr rfl)
    exact filter_replace? hr (hp ▸ hc)
  · refine ⟨[.deleted path previous], rfl, fun chosen hnew => ?_⟩
    exact filter_erase (hnew _ (List.mem_singleton.mpr rfl))

theorem run_frame (d : Draft) {ops : List Operation} (ha : ∀ op ∈ ops, op.Addressed) :
    ∃ new, (d.run ops).changes = d.changes ++ new ∧
      ∀ chosen : ConfigPath → Bool, (∀ ch ∈ new, chosen ch.path = false) →
        (d.run ops).contentsAt chosen = d.contentsAt chosen := by
  induction ops generalizing d with
  | nil => exact ⟨[], (List.append_nil _).symm, fun _ _ => rfl⟩
  | cons op ops ih =>
    obtain ⟨new, hnew, hkeep⟩ := step_frame d (ha op List.mem_cons_self)
    obtain ⟨rest, hrest, hkeep'⟩ :=
      ih (d.step op) (fun op' hop => ha op' (List.mem_cons_of_mem _ hop))
    refine ⟨new ++ rest, ?_, fun chosen hall => ?_⟩
    · rw [run_cons, hrest, hnew, List.append_assoc]
    · rw [run_cons, hkeep' chosen fun ch h => hall ch (List.mem_append_right _ h),
        hkeep chosen fun ch h => hall ch (List.mem_append_left _ h)]

end Draft
end RemoteGuard
