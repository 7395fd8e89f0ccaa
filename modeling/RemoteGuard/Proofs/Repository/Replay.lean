import Mathlib.Logic.Function.Basic
import RemoteGuard.Proofs.Repository.Isolation

/-!
# Change sets as histories

Where operations carry contents for the paths that they name, the change set of a commit tells all
that the commit did: each change fits the map from paths to contents that the changes before it
have left, and the last of them leaves the map of the new snapshot.

* `Change.replay?`, `replayAll?`   the map after a change, or after a change set, that fits it;
* `Draft.replay_run`               a change set fits the map from before, and leads to the new one;
* `Draft.supplied_run`             metadata are what was supplied for them last;
* `replay_of_commit`               all of this for commits, with the versions of what is stored.
-/

namespace RemoteGuard
open ContentList

/-! ## replay -/

/-- The map from paths to contents after the change.  The change fits only a map that holds at its
path what it records as previous: nothing, for an insertion. -/
def Change.replay? (held : ConfigPath → Option Content) (ch : Change) :
    Option (ConfigPath → Option Content) :=
  if held ch.path = ch.previous? then some (Function.update held ch.path ch.content?) else none

/-- the map after changes that fit, each the map that the ones before it leave -/
def replayAll? (held : ConfigPath → Option Content) (changes : List Change) :
    Option (ConfigPath → Option Content) := changes.foldlM Change.replay? held

def lastAt? (path : ConfigPath) (changes : List Change) : Option Change :=
  (changes.filter fun ch => ch.path = path).getLast?

theorem replayAll?_append_single {held held' : ConfigPath → Option Content} {changes : List Change}
    {ch : Change} (h : replayAll? held changes = some held') :
    replayAll? held (changes ++ [ch]) = ch.replay? held' := by
  unfold replayAll? at h ⊢
  rw [List.foldlM_append, h]
  simp

theorem lastAt?_cons (path : ConfigPath) (ch : Change) (changes : List Change) :
    lastAt? path (ch :: changes)
      = if ch.path = path then some ((lastAt? path changes).getD ch) else lastAt? path changes := by
  unfold lastAt?
  rw [List.filter_cons]
  by_cases h : ch.path = path
  · rw [decide_eq_true h, if_pos rfl, if_pos h, List.getLast?_cons]
  · rw [decide_eq_false h, if_neg Bool.false_ne_true, if_neg h]

/-- a replay leaves at each path what the last change there leaves -/
theorem replayAll?_apply {held held' : ConfigPath → Option Content} {changes : List Change}
    (h : replayAll? held changes = some held') (path : ConfigPath) :
    held' path = ((lastAt? path changes).map Change.content?).getD (held path) := by
  induction changes generalizing held with
  | nil =>
    cases h
    rfl
  | cons ch changes ih =>
    unfold replayAll? at h
    rw [List.foldlM_cons] at h
    obtain ⟨next, hnext, hrest⟩ := Option.bind_eq_some_iff.mp h
    rw [ih hrest, lastAt?_cons]
    unfold Change.replay? at hnext
    split at hnext
    · cases hnext
      by_cases hp : ch.path = path
      · rw [if_pos hp, ← hp, Function.update_self]
        cases lastAt? ch.path changes <;> rfl
      · rw [if_neg hp, Function.update_of_ne (Ne.symm hp)]
    · cases hnext

namespace Draft

theorem get?_adding {d : Draft} {path : ConfigPath} {target : Target} {c : Content}
    (hp : c.path = path) (hg : d.snapshot.get? path = none) :
    (d.adding path target c).snapshot.get? = Function.update d.snapshot.get? path (some c) := by
  funext q
  show ContentList.get? q (d.snapshot.contents ++ [c]) = _
  rw [get?_append, get?_cons, get?_nil, hp, Function.update_apply]
  by_cases e : q = path
  · rw [if_pos e, if_pos e.symm, e, show ContentList.get? path d.snapshot.contents = none from hg]
    rfl
  · rw [if_neg e, if_neg (Ne.symm e), Option.or_none]
    rfl

theorem get?_replacing {d : Draft} {path : ConfigPath} {c previous : Content}
    {cs : List Content} (target : Target) (hp : c.path = path)
    (hr : replace? c d.snapshot.contents = some (previous, cs)) :
    d.snapshot.get? path = some previous ∧
      (d.replacing path target c previous cs).snapshot.get?
        = Function.update d.snapshot.get? path (some c) := by
  subst hp
  refine ⟨(get?_of_replace? hr c.path).1, ?_⟩
  funext q
  rw [Function.update_apply]
  exact (get?_of_replace? hr q).2

theorem get?_removing (d : Draft) (path : ConfigPath) (previous : Content) :
    (d.removing path previous).snapshot.get? = Function.update d.snapshot.get? path none := by
  funext q
  rw [Function.update_apply]
  exact get?_erase path q d.snapshot.contents

/-- an operation leaves a change that fits the map from before it and leads to the one after it -/
theorem replay_step {held : ConfigPath → Option Content} {d : Draft} {op : Operation}
    (ha : op.Addressed) (h : replayAll? held d.changes = some d.snapshot.get?) :
    replayAll? held (d.step op).changes = some (d.step op).snapshot.get? := by
  rcases step_cases d op with e | ⟨u, -, e⟩ | ⟨path, target, c, rfl, hg, e⟩ |
    ⟨path, target, c, previous, cs, rfl, hr, e⟩ | ⟨path, previous, -, hg, e⟩ <;> rw [e]
  · exact h
  · exact h
  · show replayAll? held (d.changes ++ [.inserted path target c]) = _
    rw [replayAll?_append_single h, get?_adding ha hg]
    exact if_pos hg
  · obtain ⟨hprevious, hget⟩ := get?_replacing target ha hr
    show replayAll? held (d.changes ++ [.updated path target c previous]) = _
    rw [replayAll?_append_single h, hget]
    exact if_pos hprevious
  · show replayAll? held (d.changes ++ [.deleted path previous]) = _
    rw [replayAll?_append_single h, get?_removing]
    exact if_pos hg

theorem replay_run (s : Snapshot) (l : Ledger) {ops : List Operation}
    (ha : ∀ op ∈ ops, op.Addressed) :
    replayAll? s.get? (Draft.run ⟨s, l, []⟩ ops).changes
      = some (Draft.run ⟨s, l, []⟩ ops).snapshot.get? :=
  run_induction (motive := fun d => replayAll? s.get? d.changes = some d.snapshot.get?) rfl
    fun _ op hop h => replay_step (ha op hop) h

end Draft

/-! ## metadata -/

/-- the metadata that the operation supplies -/
def Operation.metadata? : Operation → Option MetadataUpdate
  | .set u => some u
  | _ => none

/-- the value that the operation supplies for a field -/
def Operation.supplied? {α : Type} (field : MetadataUpdate → Option α) (op : Operation) :
    Option α := op.metadata?.bind field

/-- the value that the operations supply for a field last -/
def lastSupplied? {α : Type} (field : MetadataUpdate → Option α) (ops : List Operation) :
    Option α := (ops.filterMap (Operation.supplied? field)).getLast?

namespace Draft

theorem metadata_step (d : Draft) (op : Operation) :
    (d.step op).snapshot.backendState
        = (op.supplied? MetadataUpdate.backendState).or d.snapshot.backendState ∧
      (d.step op).snapshot.targetsVersion
        = (op.supplied? MetadataUpdate.targetsVersion).getD d.snapshot.targetsVersion ∧
      (d.step op).snapshot.rootVersion = d.snapshot.rootVersion := by
  by_cases hset : ∃ u, op = .set u
  · obtain ⟨u, rfl⟩ := hset
    exact ⟨rfl, rfl, rfl⟩
  · have hnoset : ∀ u, .set u ∉ [op] := fun u hu => hset ⟨u, (List.mem_singleton.mp hu).symm⟩
    have hkept : (d.step op).snapshot
        = { d.snapshot with contents := (d.step op).snapshot.contents } := run_metadata d hnoset
    have hnone : op.metadata? = none := by
      cases op with
      | set u => exact absurd ⟨u, rfl⟩ hset
      | _ => rfl
    rw [hkept]
    unfold Operation.supplied?
    rw [hnone]
    exact ⟨rfl, rfl, rfl⟩

/-- a field that each operation overwrites with what it supplies is what was supplied last -/
theorem supplied_run {α : Type} (field : MetadataUpdate → Option α) (value : Snapshot → Option α)
    (hstep : ∀ (d : Draft) op, value (d.step op).snapshot
      = (op.supplied? field).or (value d.snapshot)) (d : Draft) (ops : List Operation) :
    value (d.run ops).snapshot = (lastSupplied? field ops).or (value d.snapshot) := by
  induction ops generalizing d with
  | nil => rfl
  | cons op ops ih =>
    rw [run_cons, ih, hstep]
    unfold lastSupplied?
    cases hs : op.supplied? field with
    | none => rw [List.filterMap_cons_none hs, Option.none_or]
    | some v =>
      rw [List.filterMap_cons_some hs, List.getLast?_cons]
      cases (ops.filterMap (Operation.supplied? field)).getLast? <;> rfl

theorem backendState_run (d : Draft) (ops : List Operation) :
    (d.run ops).snapshot.backendState
      = (lastSupplied? MetadataUpdate.backendState ops).or d.snapshot.backendState :=
  supplied_run MetadataUpdate.backendState Snapshot.backendState
    (fun d op => (metadata_step d op).1) d ops

theorem targetsVersion_run (d : Draft) (ops : List Operation) :
    (d.run ops).snapshot.targetsVersion
      = (lastSupplied? MetadataUpdate.targetsVersion ops).getD d.snapshot.targetsVersion := by
  have h := supplied_run MetadataUpdate.targetsVersion (fun s => some s.targetsVersion)
    (fun d op => by rw [(metadata_step d op).2.1, Option.or_some]) d ops
  rw [Option.or_some] at h
  exact Option.some.inj h

theorem rootVersion_run (d : Draft) (ops : List Operation) :
    (d.run ops).snapshot.rootVersion = d.snapshot.rootVersion :=
  run_induction (motive := fun d' => d'.snapshot.rootVersion = d.snapshot.rootVersion) rfl
    fun d' op _ h => (metadata_step d' op).2.2.trans h

end Draft

/-! ## versions -/

theorem Change.stamp?_eq_some {ch : Change} {c : Content} {version : Nat}
    (h : ch.stamp? c = some version) :
    ∃ d target, ch.content? = some d ∧ c.id = d.id ∧ ch.target? = some target ∧
      version = target.version := by
  have hstored : ∀ {d : Content} {target : Target},
      (if c.id = d.id then some target.version else none) = some version →
      c.id = d.id ∧ version = target.version := by
    intro d target h
    split at h
    · next e => exact ⟨e, (Option.some.inj h).symm⟩
    · cases h
  cases ch with
  | inserted path target d => exact ⟨d, target, rfl, (hstored h).1, rfl, (hstored h).2⟩
  | updated path target d previous => exact ⟨d, target, rfl, (hstored h).1, rfl, (hstored h).2⟩
  | deleted path previous => cases h

/-- a change that stores a content writes the version of its target -/
theorem Change.stamp?_of_content? {ch : Change} {c : Content} (h : ch.content? = some c) :
    ∃ target, ch.target? = some target ∧ ch.stamp? c = some target.version := by
  cases ch with
  | inserted path target d =>
    cases h
    exact ⟨target, rfl, if_pos rfl⟩
  | updated path target d previous =>
    cases h
    exact ⟨target, rfl, if_pos rfl⟩
  | deleted path previous => cases h

section
variable {changes : List Change} {c : Content}

/-- if a content is stored at its own path only, the changes there tell its version -/
theorem stamped?_eq_of_path
    (h : ∀ ch ∈ changes, ∀ version, ch.stamp? c = some version → ch.path = c.path) :
    stamped? changes c
      = ((changes.filter fun ch => ch.path = c.path).filterMap (Change.stamp? c)).getLast? := by
  unfold stamped?
  rw [List.filterMap_filter]
  refine congrArg List.getLast? (List.filterMap_congr fun ch hch => ?_)
  cases hs : ch.stamp? c with
  | none => rw [ite_self]
  | some version => rw [if_pos (decide_eq_true (h ch hch version hs))]

theorem stamped?_of_lastAt?
    (h : ∀ ch ∈ changes, ∀ version, ch.stamp? c = some version → ch.path = c.path)
    {ch : Change} (hlast : lastAt? c.path changes = some ch) (hc : ch.content? = some c) :
    ∃ target, ch.target? = some target ∧ stamped? changes c = some target.version := by
  obtain ⟨target, ht, hs⟩ := ch.stamp?_of_content? hc
  obtain ⟨before, hbefore⟩ := List.getLast?_eq_some_iff.mp hlast
  refine ⟨target, ht, ?_⟩
  rw [stamped?_eq_of_path h, hbefore, List.filterMap_append, List.getLast?_append,
    List.filterMap_cons_some hs]
  rfl

theorem stamped?_of_lastAt?_eq_none
    (h : ∀ ch ∈ changes, ∀ version, ch.stamp? c = some version → ch.path = c.path)
    (hlast : lastAt? c.path changes = none) : stamped? changes c = none := by
  rw [stamped?_eq_of_path h, List.getLast?_eq_none_iff.mp hlast]
  rfl

end

namespace Repository

/-- the version of a stored content after a commit -/
inductive VersionAfter (r : Repository) (ops : List Operation) (c : Content) (version : Nat) :
    Prop where
  /-- the last operation with an effect on its path has stored it -/
  | stored {op : Operation} {target : Target}
      (hlast : ((r.effective ops).filter fun op => op.path? = some c.path).getLast? = some op)
      (hc : op.content? = some c) (ht : op.target? = some target) (hv : version = target.version)
  /-- no operation has had an effect on its path -/
  | kept (hnone : ∀ op ∈ r.effective ops, op.path? ≠ some c.path)
      (hold : r.current.get? c.path = some c) (hv : version = r.ledger.version c)

/-- the last operation with an effect on a path has left the last change there -/
theorem last_effective (r : Repository) (ops : List Operation) (path : ConfigPath) :
    ((r.effective ops).filter fun op => op.path? = some path).getLast?
      = (lastAt? path (r.commit ops).1).map Change.operation := by
  have hnamed : (r.effective ops).filter (fun op => op.path? = some path)
      = ((r.commit ops).1.map Change.operation).filter fun op => op.path? = some path := by
    rw [operations_commit, List.filter_filter]
    refine List.filter_congr fun op _ => ?_
    cases op.path? with
    | none => rfl
    | some q => exact (Bool.and_true _).symm
  rw [hnamed, List.filter_map, List.getLast?_map]
  have hpath : ((fun op : Operation => decide (op.path? = some path)) ∘ Change.operation)
      = fun ch => decide (ch.path = path) := by
    funext ch
    rw [Function.comp_apply, ch.path?_operation]
    exact decide_eq_decide.mpr Option.some_inj
  rw [hpath]
  rfl

section
variable {made : List Content} {r : Repository} {ops : List Operation}

/-- changes store contents at the paths that the contents are for, and no two contents with one
identity -/
theorem Committed.path_of_stamp? (h : Committed Operation.Addressed made r)
    (hops : ∀ op ∈ ops, op.Addressed ∧ op.Carries made) {c : Content} (hc : c ∈ made) :
    ∀ ch ∈ (r.commit ops).1, ∀ version, ch.stamp? c = some version → ch.path = c.path := by
  intro ch hch version hs
  obtain ⟨d, target, hd, hid, -, -⟩ := ch.stamp?_eq_some hs
  obtain ⟨ha, hmade⟩ := hops _ (Draft.operation_mem_run r.current r.ledger ops ch hch)
  rw [← ch.content?_operation] at hd
  have hcd : c = d := h.eq_of_id d (hmade d hd) c hc hid
  have hpath := ha.path?_eq hd
  rw [ch.path?_operation] at hpath
  rw [hcd]
  exact Option.some.inj hpath

theorem Committed.versionAfter (h : Committed Operation.Addressed made r)
    (hops : ∀ op ∈ ops, op.Addressed ∧ op.Carries made) {c : Content}
    (hc : c ∈ (r.commit ops).2.current.contents) :
    VersionAfter r ops c ((r.commit ops).2.ledger.version c) := by
  have h' : Committed Operation.Addressed made (r.commit ops).2 :=
    .commit h (fun op hop => (hops op hop).1) fun op hop => (hops op hop).2
  have hstamp := h.path_of_stamp? hops (h'.stored c hc)
  have hreplay : replayAll? r.current.get? (r.commit ops).1 = some (r.commit ops).2.current.get? :=
    Draft.replay_run r.current r.ledger fun op hop => (hops op hop).1
  have hget := replayAll?_apply hreplay c.path
  rw [show (r.commit ops).2.current.get? c.path = some c from
    h'.distinct.get?_eq_some_iff.mpr ⟨hc, rfl⟩] at hget
  have hlastOp := r.last_effective ops c.path
  cases hlast : lastAt? c.path (r.commit ops).1 with
  | some ch =>
    rw [hlast] at hget hlastOp
    obtain ⟨target, ht, hstamped⟩ := stamped?_of_lastAt? hstamp hlast hget.symm
    have hcontent : ch.operation.content? = some c := by
      rw [ch.content?_operation]
      exact hget.symm
    have htarget : ch.operation.target? = some target := by rw [ch.target?_operation, ht]
    refine .stored hlastOp hcontent htarget ?_
    rw [version_commit, hstamped]
    rfl
  | none =>
    rw [hlast] at hget hlastOp
    refine .kept ?_ hget.symm ?_
    · have hempty := List.getLast?_eq_none_iff.mp hlastOp
      intro op hop hpath
      exact List.filter_eq_nil_iff.mp hempty op hop (decide_eq_true hpath)
    · rw [version_commit, stamped?_of_lastAt?_eq_none hstamp hlast]
      rfl

/-- **Change sets as histories.**  Where operations carry contents for the paths that they name,
the change set of a commit can be replayed over the old map from paths to contents, step by step,
and ends in the new map, which holds one content per path.  A content that the commit stored has
the version of the target of the last operation with an effect on its path.  The changes are those
of the operations with an effect; the commit does the same without the others.  Metadata are what
was supplied for them last, or as they were. -/
theorem replay_of_commit (h : Committed Operation.Addressed made r)
    (hops : ∀ op ∈ ops, op.Addressed ∧ op.Carries made) :
    let changes := (r.commit ops).1
    let after := (r.commit ops).2
    replayAll? r.current.get? changes = some after.current.get? ∧
    (after.current.contents.map Content.path).Nodup ∧
    (∀ c ∈ after.current.contents, VersionAfter r ops c (after.ledger.version c)) ∧
    changes.map Change.operation = (r.effective ops).filter (fun op => op.path?.isSome) ∧
    r.commit (r.effective ops) = r.commit ops ∧
    after.current.backendState
      = (lastSupplied? MetadataUpdate.backendState ops).or r.current.backendState ∧
    after.current.targetsVersion
      = (lastSupplied? MetadataUpdate.targetsVersion ops).getD r.current.targetsVersion ∧
    after.current.rootVersion = r.current.rootVersion := by
  intro changes after
  have ha : ∀ op ∈ ops, op.Addressed := fun op hop => (hops op hop).1
  refine ⟨Draft.replay_run r.current r.ledger ha, ?_, fun c hc => h.versionAfter hops hc,
    r.operations_commit ops, ?_, ?_, ?_, ?_⟩
  · exact Draft.distinct_run h.distinct ha
  · unfold commit effective
    rw [Draft.run_effective]
  · exact Draft.backendState_run ⟨r.current, r.ledger, []⟩ ops
  · exact Draft.targetsVersion_run ⟨r.current, r.ledger, []⟩ ops
  · exact Draft.rootVersion_run ⟨r.current, r.ledger, []⟩ ops

/-- a path is filled, refuses another content, changes it, loses it and is filled again -/
theorem replay_of_filled_again :
    ∃ x : ConfigPath,
    let a : Content := ⟨0, x, [97], none⟩
    let b : Content := ⟨1, x, [98], none⟩
    let r : Repository := { ledger := ⟨2, []⟩ }
    let ops : List Operation := [.insert x ⟨1, [], 1⟩ a, .insert x ⟨1, [], 2⟩ b,
      .update x ⟨1, [], 3⟩ b, .delete x, .delete x, .set ⟨some "s", none⟩, .insert x ⟨1, [], 4⟩ a]
    Committed Operation.Addressed [b, a] r ∧
      (∀ op ∈ ops, op.Addressed ∧ op.Carries [b, a]) ∧
      (∃ held, replayAll? r.current.get? (r.commit ops).1 = some held ∧ held x = some a) ∧
      (r.commit ops).1.map Change.kind = ["inserted", "updated", "deleted", "inserted"] ∧
      VersionAfter r ops a 4 := by
  let x : ConfigPath := ⟨"employee/ASM/x/config", ⟨.employee, "ASM", "x"⟩, by decide +kernel⟩
  refine ⟨x, ?_⟩
  intro a b r ops
  have hr : Committed Operation.Addressed [b, a] r :=
    .making (.making .new x [97] none) x [98] none
  have hops : ∀ op ∈ ops, op.Addressed ∧ op.Carries [b, a] := by decide +kernel
  obtain ⟨hreplay, -, hversions, -⟩ := replay_of_commit hr hops
  have hheld : (r.commit ops).2.current.get? x = some a := by decide +kernel
  have hversion : (r.commit ops).2.ledger.version a = 4 := by decide +kernel
  have hafter : VersionAfter r ops a 4 := hversion ▸ hversions a (get?_eq_some hheld).1
  exact ⟨hr, hops, ⟨_, hreplay, hheld⟩, by decide +kernel, hafter⟩

end
end Repository
end RemoteGuard
