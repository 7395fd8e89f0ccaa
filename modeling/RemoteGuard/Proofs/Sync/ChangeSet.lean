import RemoteGuard.Proofs.Sync.Applied

/-!
# The change set of a response

`Sync.Due` are the changes that a response asks for: one for each stored path that is no longer
listed, each listed path that was free, and each listed path whose content does not meet its new
target.  A change set is `Exact` if it consists of these, each once.

Change sets are exact up to updates of a content by itself: a path whose content is out of date
brings one update for every time that it is listed, and only the first of them replaces what was
stored before (`changes_of_applyResponse`).
-/

namespace RemoteGuard
open ContentList

/-- the change puts something else in the place of what was stored -/
def Change.isEffective (ch : Change) : Bool := ch.previous? ≠ ch.content?

namespace Sync

section
variable (hexDigest : HexDigest) (manifest : Manifest) (listed : List ConfigPath)
  (before after : Snapshot)

/-- the content stored at a path does not meet its new target -/
def Outdated (path : ConfigPath) : Prop :=
  ∃ target old, manifest.target? path = some target ∧ before.get? path = some old ∧
    target.check hexDigest old.data = false

/-- the changes that a response asks for, by what is stored before and after it -/
inductive Due : Change → Prop where
  | deleted {path : ConfigPath} {old : Content} (hold : before.get? path = some old)
      (hp : path ∉ listed) : Due (.deleted path old)
  | inserted {path : ConfigPath} {target : Target} {c : Content} (hp : path ∈ listed)
      (hfree : before.get? path = none) (ht : manifest.target? path = some target)
      (hc : after.get? path = some c) : Due (.inserted path target c)
  | updated {path : ConfigPath} {target : Target} {c old : Content} (hp : path ∈ listed)
      (hold : before.get? path = some old) (ht : manifest.target? path = some target)
      (hcheck : target.check hexDigest old.data = false) (hc : after.get? path = some c) :
      Due (.updated path target c old)

/-- the changes that are due, each path at most once -/
structure Exact (changes : List Change) : Prop where
  once : (changes.map Change.path).Nodup
  mem_iff : ∀ ch, ch ∈ changes ↔ Due hexDigest manifest listed before after ch

end

section
variable {hexDigest : HexDigest} {before : Snapshot} {manifest : Manifest}
  {delivered : List Content} {seen listed : List ConfigPath} {path : ConfigPath} {ch : Change}

/-! ## the changes of one listed path -/

theorem mem_changesAt :
    ch ∈ changesAt hexDigest before manifest delivered seen path ↔
      ∃ target c, manifest.target? path = some target ∧
        findVerified? hexDigest path target delivered = some c ∧
        ((before.get? path = none ∧ path ∉ seen ∧ ch = .inserted path target c) ∨
        ∃ old, before.get? path = some old ∧ target.check hexDigest old.data = false ∧
          ch = .updated path target c (if path ∈ seen then c else old)) := by
  rw [changesAt]
  cases manifest.target? path with
  | none => simp
  | some target =>
    simp only [Option.some.injEq, exists_and_left, exists_eq_left']
    cases before.get? path with
    | none =>
      by_cases hs : path ∈ seen
      · simp [hs]
      · simp only [hs, if_false, List.mem_map, Option.mem_toList, true_and, not_false_eq_true,
          reduceCtorEq, false_and, exists_false, or_false]
        exact exists_congr fun c => and_congr_right fun _ => eq_comm
    | some old =>
      cases hc : target.check hexDigest old.data
      · simp only [hc, Bool.false_eq_true, if_false, List.mem_map, Option.mem_toList,
          Option.some.injEq, exists_eq_left', true_and, reduceCtorEq, false_and, false_or]
        exact exists_congr fun c => and_congr_right fun _ => eq_comm
      · simp [hc]

theorem length_changesAt_le_one :
    (changesAt hexDigest before manifest delivered seen path).length ≤ 1 := by
  rw [changesAt]
  cases manifest.target? path with
  | none => exact Nat.zero_le 1
  | some target =>
    have hf : (findVerified? hexDigest path target delivered).toList.length ≤ 1 := by
      cases findVerified? hexDigest path target delivered with
      | none => exact Nat.zero_le 1
      | some c => exact Nat.le_refl 1
    cases before.get? path with
    | none =>
      show (if path ∈ seen then [] else List.map _ _ : List Change).length ≤ 1
      split
      · exact Nat.zero_le 1
      · rw [List.length_map]
        exact hf
    | some old =>
      show (if target.check hexDigest old.data then [] else List.map _ _ : List Change).length ≤ 1
      split
      · exact Nat.zero_le 1
      · rw [List.length_map]
        exact hf

theorem path_of_mem_changesAt
    (h : ch ∈ changesAt hexDigest before manifest delivered seen path) : ch.path = path := by
  obtain ⟨target, c, -, -, ⟨-, -, rfl⟩ | ⟨old, -, -, rfl⟩⟩ := mem_changesAt.mp h <;> rfl

/-- before the path is seen its change has an effect -/
theorem isEffective_of_mem_changesAt (hs : path ∉ seen)
    (h : ch ∈ changesAt hexDigest before manifest delivered seen path) : ch.isEffective = true := by
  obtain ⟨target, c, -, hf, ⟨-, -, rfl⟩ | ⟨old, -, hcheck, rfl⟩⟩ := mem_changesAt.mp h
  · exact decide_eq_true (Option.some_ne_none c).symm
  · rw [if_neg hs]
    refine decide_eq_true fun e => ?_
    have hold : old = c := Option.some.inj e
    rw [hold, (findVerified?_eq_some hf).2.2] at hcheck
    exact Bool.noConfusion hcheck

/-- after it, the change is an update by itself of a content that was out of date -/
theorem not_isEffective_of_mem_changesAt (hs : path ∈ seen)
    (h : ch ∈ changesAt hexDigest before manifest delivered seen path) :
    ch.isEffective = false ∧ Outdated hexDigest manifest before path := by
  obtain ⟨target, c, ht, -, ⟨-, hns, -⟩ | ⟨old, hg, hcheck, rfl⟩⟩ := mem_changesAt.mp h
  · exact absurd hs hns
  · rw [if_pos hs]
    exact ⟨decide_eq_false fun h => h rfl, target, old, ht, hg, hcheck⟩

theorem changesAt_of_not_mem (hs : path ∉ seen) :
    changesAt hexDigest before manifest delivered seen path
      = changesAt hexDigest before manifest delivered [] path := by
  simp only [changesAt, hs, List.not_mem_nil]

/-! ## the changes of a listing -/

theorem path_of_mem_changesAlong
    (h : ch ∈ changesAlong hexDigest before manifest delivered seen listed) :
    ch.path ∈ listed := by
  induction listed generalizing seen with
  | nil => cases h
  | cons p ps ih =>
    rcases List.mem_append.mp h with h | h
    · exact List.mem_cons.mpr (.inl (path_of_mem_changesAt h))
    · exact List.mem_cons_of_mem _ (ih h)

/-- the changes with an effect are those that the paths bring when they are first listed -/
theorem mem_changesAlong_iff :
    (ch ∈ changesAlong hexDigest before manifest delivered seen listed ∧ ch.isEffective = true) ↔
      ∃ p ∈ listed, p ∉ seen ∧ ch ∈ changesAt hexDigest before manifest delivered [] p := by
  induction listed generalizing seen with
  | nil =>
    constructor
    · rintro ⟨h, -⟩
      cases h
    · rintro ⟨p, hp, -⟩
      cases hp
  | cons p ps ih =>
    constructor
    · rintro ⟨h, heff⟩
      rcases List.mem_append.mp h with h | h
      · have hs : p ∉ seen := by
          intro hs
          rw [(not_isEffective_of_mem_changesAt hs h).1] at heff
          cases heff
        rw [changesAt_of_not_mem hs] at h
        exact ⟨p, List.mem_cons_self, hs, h⟩
      · obtain ⟨q, hq, hqs, hch⟩ := ih.mp ⟨h, heff⟩
        exact ⟨q, List.mem_cons_of_mem _ hq, fun hs => hqs (List.mem_cons_of_mem _ hs), hch⟩
    · rintro ⟨q, hq, hqs, hch⟩
      by_cases e : q = p
      · subst e
        rw [← changesAt_of_not_mem hqs] at hch
        exact ⟨List.mem_append_left _ hch, isEffective_of_mem_changesAt hqs hch⟩
      · have hq' : q ∈ ps := (List.mem_cons.mp hq).resolve_left e
        have hqs' : q ∉ p :: seen := fun h => (List.mem_cons.mp h).elim e hqs
        obtain ⟨hmem, heff⟩ := ih.mpr ⟨q, hq', hqs', hch⟩
        exact ⟨List.mem_append_right _ hmem, heff⟩

theorem nodup_effective_changesAlong :
    (((changesAlong hexDigest before manifest delivered seen listed).filter
      Change.isEffective).map Change.path).Nodup := by
  induction listed generalizing seen with
  | nil => exact List.nodup_nil
  | cons p ps ih =>
    show (((changesAt hexDigest before manifest delivered seen p
      ++ changesAlong hexDigest before manifest delivered (p :: seen) ps).filter
        Change.isEffective).map Change.path).Nodup
    rw [List.filter_append, List.map_append]
    refine List.Nodup.append ?_ ih ?_
    · have hlen : (((changesAt hexDigest before manifest delivered seen p).filter
          Change.isEffective).map Change.path).length ≤ 1 := by
        rw [List.length_map]
        exact Nat.le_trans (List.length_filter_le ..) length_changesAt_le_one
      match (((changesAt hexDigest before manifest delivered seen p).filter
          Change.isEffective).map Change.path), hlen with
      | [], _ => exact List.nodup_nil
      | [q], _ => exact List.nodup_singleton q
    · intro q hq hq'
      obtain ⟨ch, hch, rfl⟩ := List.mem_map.mp hq
      obtain ⟨ch', hch', hpath⟩ := List.mem_map.mp hq'
      obtain ⟨hmem', heff'⟩ := List.mem_filter.mp hch'
      obtain ⟨q, -, hqs, hat⟩ := mem_changesAlong_iff.mp ⟨hmem', heff'⟩
      rw [path_of_mem_changesAt hat, path_of_mem_changesAt (List.mem_filter.mp hch).1] at hpath
      exact hqs (List.mem_cons.mpr (.inl hpath))

/-- a change without effect is one of a path that is out of date and listed again -/
theorem listed_again_of_mem_changesAlong
    (h : ch ∈ changesAlong hexDigest before manifest delivered seen listed)
    (heff : ch.isEffective = false) :
    Outdated hexDigest manifest before ch.path ∧
      (ch.path ∈ seen ∨ 2 ≤ listed.count ch.path) := by
  induction listed generalizing seen with
  | nil => cases h
  | cons p ps ih =>
    rcases List.mem_append.mp h with h | h
    · have hs : p ∈ seen := by
        by_contra hs
        rw [isEffective_of_mem_changesAt hs h] at heff
        cases heff
      rw [path_of_mem_changesAt h]
      exact ⟨(not_isEffective_of_mem_changesAt hs h).2, .inl hs⟩
    · obtain ⟨hout, hs | hcount⟩ := ih h
      · refine ⟨hout, ?_⟩
        rcases List.mem_cons.mp hs with e | hs
        · have hpos : 0 < ps.count p :=
            List.count_pos_iff.mpr (e ▸ path_of_mem_changesAlong h)
          rw [e, List.count_cons_self]
          exact .inr (Nat.succ_le_succ hpos)
        · exact .inl hs
      · exact ⟨hout, .inr (Nat.le_trans hcount (List.count_le_count_cons))⟩

/-- a path that is out of date brings an update for every time that it is listed -/
theorem count_changesAlong {target : Target} {c old : Content}
    (ht : manifest.target? path = some target) (hg : before.get? path = some old)
    (hcheck : target.check hexDigest old.data = false)
    (hf : findVerified? hexDigest path target delivered = some c) :
    ((changesAlong hexDigest before manifest delivered seen listed).map Change.path).count path
      = listed.count path := by
  induction listed generalizing seen with
  | nil => rfl
  | cons p ps ih =>
    rw [changesAlong, List.map_append, List.count_append, ih, List.count_cons, Nat.add_comm]
    congr 1
    by_cases e : p = path
    · rw [e, beq_self_eq_true, if_pos rfl]
      have hone : changesAt hexDigest before manifest delivered seen path
          = [.updated path target c (if path ∈ seen then c else old)] := by
        simp only [changesAt, ht, hg, hcheck, hf, Bool.false_eq_true, if_false]
        rfl
      rw [hone]
      exact List.count_singleton_self
    · rw [beq_false_of_ne e, if_neg Bool.false_ne_true, List.count_eq_zero]
      intro hmem
      obtain ⟨ch, hch, hpath⟩ := List.mem_map.mp hmem
      exact e ((path_of_mem_changesAt hch).symm.trans hpath)

/-! ## the changes of the paths that went -/

theorem mem_deletedChanges :
    ch ∈ deletedChanges before listed ↔
      ∃ path old, path ∉ listed ∧ before.get? path = some old ∧ ch = .deleted path old := by
  rw [deletedChanges, List.mem_filterMap]
  constructor
  · rintro ⟨path, hp, h⟩
    obtain ⟨old, hold, rfl⟩ := Option.map_eq_some_iff.mp h
    exact ⟨path, old, of_decide_eq_true (List.mem_filter.mp hp).2, hold, rfl⟩
  · rintro ⟨path, old, hp, hold, rfl⟩
    have hstored : path ∈ before.paths := get?_isSome_iff.mp (Option.isSome_of_eq_some hold)
    exact ⟨path, List.mem_filter.mpr ⟨hstored, decide_eq_true hp⟩, by rw [hold]; rfl⟩

theorem nodup_deletedChanges : ((deletedChanges before listed).map Change.path).Nodup := by
  have hsub : ∀ ps : List ConfigPath,
      ((ps.filterMap fun p => (before.get? p).map (.deleted p)).map Change.path).Sublist ps := by
    intro ps
    induction ps with
    | nil => exact List.Sublist.refl []
    | cons p ps ih =>
      rw [List.filterMap_cons]
      cases before.get? p with
      | none => exact ih.cons p
      | some old => exact ih.cons_cons p
  exact List.Nodup.sublist (hsub _) ((nodup_paths _).filter _)

end
end Sync

/-! ## the changes of a response -/

section
open Sync
variable {hexDigest : HexDigest} {r r' : Repository} {response : Response}

namespace Accepted
variable (a : Accepted hexDigest r response)

theorem changes_eq (hd : Distinct r.current.contents) :
    a.draft.changes = deletedChanges r.current a.listed
      ++ changesAlong hexDigest r.current a.manifest a.delivered [] a.listed :=
  (run_plan hd a.ops_eq a.ledger).1

theorem get?_eq_delivered (hd : Distinct r.current.contents) {path : ConfigPath}
    {target : Target} (hp : path ∈ a.listed) (ht : a.manifest.target? path = some target)
    (hold : ∀ old, r.current.get? path = some old → target.check hexDigest old.data = false) :
    a.repository.current.get? path = findVerified? hexDigest path target a.delivered := by
  rw [a.get?_eq hd, if_pos hp, settled_eq hexDigest a.delivered hd ht]
  cases hg : r.current.get? path with
  | none => rfl
  | some old =>
    rw [Option.filter_some, if_neg, Option.none_or]
    rw [hold old hg]
    exact Bool.false_ne_true

theorem exact_effective (hd : Distinct r.current.contents) :
    Exact hexDigest a.manifest a.listed r.current a.repository.current
      (a.draft.changes.filter Change.isEffective) where
  once := by
    rw [a.changes_eq hd, List.filter_append, List.map_append]
    refine List.Nodup.append ?_ nodup_effective_changesAlong ?_
    · exact nodup_deletedChanges.sublist (List.filter_sublist.map _)
    · intro path hdel halong
      obtain ⟨ch, hch, rfl⟩ := List.mem_map.mp hdel
      obtain ⟨path, old, hp, -, rfl⟩ := mem_deletedChanges.mp (List.mem_filter.mp hch).1
      obtain ⟨ch', hch', hpath⟩ := List.mem_map.mp halong
      have hlisted := path_of_mem_changesAlong (List.mem_filter.mp hch').1
      rw [hpath] at hlisted
      exact hp hlisted
  mem_iff := by
    intro ch
    rw [a.changes_eq hd, List.mem_filter, List.mem_append]
    constructor
    · rintro ⟨h | h, heff⟩
      · obtain ⟨path, old, hp, hold, rfl⟩ := mem_deletedChanges.mp h
        exact .deleted hold hp
      · obtain ⟨path, hp, -, hat⟩ := mem_changesAlong_iff.mp ⟨h, heff⟩
        obtain ⟨target, c, ht, hf, ⟨hfree, -, rfl⟩ | ⟨old, hold, hcheck, rfl⟩⟩ :=
          mem_changesAt.mp hat
        · refine .inserted hp hfree ht ?_
          rw [a.get?_eq_delivered hd hp ht fun old h => absurd (h.symm.trans hfree)
            (Option.some_ne_none old), hf]
        · rw [if_neg List.not_mem_nil]
          refine .updated hp hold ht hcheck ?_
          rw [a.get?_eq_delivered hd hp ht fun old' h => Option.some.inj (hold.symm.trans h) ▸
            hcheck, hf]
    · intro h
      have halong : ∀ {path : ConfigPath}, path ∈ a.listed →
          ch ∈ changesAt hexDigest r.current a.manifest a.delivered [] path →
          (ch ∈ deletedChanges r.current a.listed ∨
            ch ∈ changesAlong hexDigest r.current a.manifest a.delivered [] a.listed) ∧
          ch.isEffective = true := by
        intro path hp hat
        obtain ⟨hmem, heff⟩ := mem_changesAlong_iff.mpr ⟨path, hp, List.not_mem_nil, hat⟩
        exact ⟨.inr hmem, heff⟩
      cases h with
      | @deleted path old hold hp =>
        exact ⟨.inl (mem_deletedChanges.mpr ⟨path, old, hp, hold, rfl⟩),
          decide_eq_true (Option.some_ne_none old)⟩
      | @inserted path target c hp hfree ht hc =>
        rw [a.get?_eq_delivered hd hp ht fun old h => absurd (h.symm.trans hfree)
          (Option.some_ne_none old)] at hc
        exact halong hp (mem_changesAt.mpr
          ⟨target, c, ht, hc, .inl ⟨hfree, List.not_mem_nil, rfl⟩⟩)
      | @updated path target c old hp hold ht hcheck hc =>
        rw [a.get?_eq_delivered hd hp ht fun old' h => Option.some.inj (hold.symm.trans h) ▸
          hcheck] at hc
        refine halong hp (mem_changesAt.mpr ⟨target, c, ht, hc, .inr ⟨old, hold, hcheck, ?_⟩⟩)
        rw [if_neg List.not_mem_nil]

theorem count_path (hd : Distinct r.current.contents) {path : ConfigPath} (hp : path ∈ a.listed)
    (hout : Outdated hexDigest a.manifest r.current path) :
    (a.draft.changes.map Change.path).count path = a.listed.count path := by
  obtain ⟨target, old, ht, hold, hcheck⟩ := hout
  obtain ⟨target', c, ht', hset, -, -⟩ := settled_of_plan hd a.ops_eq hp
  have hf : findVerified? hexDigest path target a.delivered = some c := by
    rw [← a.get?_eq_delivered hd hp ht fun old' h => Option.some.inj (hold.symm.trans h) ▸ hcheck,
      a.get?_eq hd, if_pos hp, hset]
  have hdel : ((deletedChanges r.current a.listed).map Change.path).count path = 0 := by
    rw [List.count_eq_zero]
    intro hmem
    obtain ⟨ch, hch, hpath⟩ := List.mem_map.mp hmem
    obtain ⟨q, old', hq, -, rfl⟩ := mem_deletedChanges.mp hch
    have hpath : q = path := hpath
    exact hq (hpath ▸ hp)
  rw [a.changes_eq hd, List.map_append, List.count_append, hdel, Nat.zero_add,
    count_changesAlong ht hold hcheck hf]

theorem listed_again (hd : Distinct r.current.contents) {ch : Change}
    (h : ch ∈ a.draft.changes) (heff : ch.isEffective = false) :
    ch.path ∈ a.listed ∧ Outdated hexDigest a.manifest r.current ch.path ∧
      2 ≤ a.listed.count ch.path := by
  rw [a.changes_eq hd] at h
  rcases List.mem_append.mp h with h | h
  · obtain ⟨path, old, -, -, rfl⟩ := mem_deletedChanges.mp h
    exact absurd heff (by simp [Change.isEffective, Change.previous?, Change.content?])
  · obtain ⟨hout, hseen | hcount⟩ := listed_again_of_mem_changesAlong h heff
    · exact absurd hseen List.not_mem_nil
    · exact ⟨path_of_mem_changesAlong h, hout, hcount⟩

theorem exact_iff (hd : Distinct r.current.contents) :
    Exact hexDigest a.manifest a.listed r.current a.repository.current a.draft.changes ↔
      ∀ path ∈ a.listed, Outdated hexDigest a.manifest r.current path →
        a.listed.count path = 1 := by
  constructor
  · intro h path hp hout
    have hle := List.nodup_iff_count_le_one.mp h.once path
    rw [a.count_path hd hp hout] at hle
    have hpos : 0 < a.listed.count path := List.count_pos_iff.mpr hp
    omega
  · intro h
    have hall : a.draft.changes.filter Change.isEffective = a.draft.changes := by
      rw [List.filter_eq_self]
      intro ch hch
      by_contra heff
      obtain ⟨hp, hout, hcount⟩ := a.listed_again hd hch (Bool.eq_false_iff.mpr heff)
      rw [h ch.path hp hout] at hcount
      omega
    exact hall ▸ a.exact_effective hd

end Accepted

namespace Repository

/-- **Changes of a response.**  A response that says that nothing changed brings none.  Another
brings, apart from updates of a content by itself, exactly those that are due.  It brings
nothing else just if no path that is out of date is listed again: such a path brings one update
each time that it is listed. -/
theorem changes_of_applyResponse {changes : ChangeSet} (hr : Reached hexDigest r)
    (h : r.applyResponse hexDigest response = (.ok changes, r')) :
    (response.isEmpty = true → changes = [] ∧ r'.current = r.current) ∧
    (response.isEmpty = false →
      ∃ listed manifest, parsePaths response.paths = .ok listed ∧
        Manifest.parseBytes (response.targets.getD []) = .ok manifest ∧
        Exact hexDigest manifest listed r.current r'.current
          (changes.filter Change.isEffective) ∧
        (Exact hexDigest manifest listed r.current r'.current changes ↔
          ∀ path ∈ listed, Outdated hexDigest manifest r.current path →
            listed.count path = 1) ∧
        ∀ path ∈ listed, Outdated hexDigest manifest r.current path →
          (changes.map Change.path).count path = listed.count path) := by
  have hd := hr.distinct
  constructor
  · intro he
    rcases applyResponse_cases hexDigest r response with ⟨e, h'⟩ | ⟨-, h'⟩ | ⟨hne, -⟩
    · rw [h'] at h
      cases h
    · rw [h'] at h
      cases h
      exact ⟨rfl, rfl⟩
    · exact Bool.noConfusion (he.symm.trans hne)
  · intro hne
    obtain ⟨a, rfl, rfl⟩ := accepted_of_applyResponse hne h
    exact ⟨a.listed, a.manifest, a.listed_eq, a.manifest_eq, a.exact_effective hd,
      a.exact_iff hd, fun path hp hout => a.count_path hd hp hout⟩

/-- a delivery after which one stored content is out of date -/
theorem changes_after_two_deliveries :
    let plain : HexDigest := fun _ data => data.hex
    let r := (applyResponse plain {}
      (.delivering plain 1 [⟨"employee/ASM/x/config", [97]⟩])).2
    let response := Response.delivering plain 2
      [⟨"employee/ASM/x/config", [98]⟩, ⟨"employee/ASM_DATA/y/config", [99]⟩]
    ∃ changes r', Reached plain r ∧ r.applyResponse plain response = (.ok changes, r') ∧
      response.isEmpty = false ∧
      ∃ listed manifest, Exact plain manifest listed r.current r'.current
        (changes.filter Change.isEffective) := by
  intro plain r response
  have hr : Reached plain r := .applied .new _
  have hne : response.isEmpty = false := by decide +kernel
  have hok : (r.applyResponse plain response).1.isOk = true := by decide +kernel
  obtain ⟨changes, r', h⟩ := exists_ok_of_isOk hok
  obtain ⟨listed, manifest, -, -, hexact, -⟩ := (changes_of_applyResponse hr h).2 hne
  exact ⟨changes, r', hr, h, hne, listed, manifest, hexact⟩

/-- a change set may name a path twice: here an updated path is listed twice -/
theorem changes_name_a_path_twice :
    ¬ ∀ (hexDigest : HexDigest) (r r' : Repository) (response : Response) (changes : ChangeSet),
      Reached hexDigest r → r.applyResponse hexDigest response = (.ok changes, r') →
      (changes.map Change.path).Nodup := by
  intro h
  let plain : HexDigest := fun _ data => data.hex
  let path : String := "employee/ASM/x/config"
  let r := (applyResponse plain {} (.delivering plain 1 [⟨path, [97]⟩])).2
  let response : Response :=
    { Response.delivering plain 2 [⟨path, [98]⟩] with paths := [path, path] }
  have htwice : (r.applyResponse plain response).1.toOption.map
      (fun changes => decide (changes.map Change.path).Nodup) = some false := by decide +kernel
  obtain ⟨changes, hok, hno⟩ := Option.map_eq_some_iff.mp htwice
  match heq : r.applyResponse plain response with
  | (.error e, r') =>
    rw [heq] at hok
    cases hok
  | (.ok changes', r') =>
    rw [heq] at hok
    cases hok
    exact of_decide_eq_false hno (h plain r r' response changes (.applied .new _) heq)

end Repository
end
end RemoteGuard
