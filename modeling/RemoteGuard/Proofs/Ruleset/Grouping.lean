import Mathlib.Data.List.Forall2
import Mathlib.Data.List.Nodup
import RemoteGuard.FirstOccurrences
import RemoteGuard.Proofs.Ruleset.Expirations

/-!
# Merged data, key by key

Entries that are objects are merged key by key.  The result has one entry for each key, in the order
in which the keys first occur (`keysOf`), and it is what the entries of the key come to
(`Gathered`): the first of them as it is, then the items of the others merged into it.

`Collected` says so of the entries read so far.  One more entry keeps it (`Collected.add`), so all
entries do (`Collected.addAll`), and `exists_collected` is the statement for `combineData`.

The main statement is `groups_of_combineData`: which entries are merged with which.
-/

namespace RemoteGuard
open Json

namespace Merge

/-! ## the entries of a key -/

/-- the keys of the entries, in the order in which they first occur -/
def keysOf (entries : List Value) : List DataKey := (entries.map DataKey.ofEntry).eraseDups

/-- the entries of one key, in their order -/
def entriesOf (key : DataKey) (entries : List Value) : List Value :=
  entries.filter fun e => DataKey.ofEntry e = key

theorem mem_keysOf {key : DataKey} {entries : List Value} :
    key ∈ keysOf entries ↔ ∃ e ∈ entries, DataKey.ofEntry e = key := by
  rw [keysOf, List.mem_eraseDups, List.mem_map]

theorem nodup_keysOf (entries : List Value) : (keysOf entries).Nodup := nodup_eraseDups _

theorem mem_entriesOf {key : DataKey} {e : Value} {entries : List Value} :
    e ∈ entriesOf key entries ↔ e ∈ entries ∧ DataKey.ofEntry e = key := by
  rw [entriesOf, List.mem_filter, decide_eq_true_eq]

theorem entriesOf_eq_nil {key : DataKey} {entries : List Value} (h : key ∉ keysOf entries) :
    entriesOf key entries = [] :=
  List.filter_eq_nil_iff.mpr fun e he hk => h (mem_keysOf.mpr ⟨e, he, of_decide_eq_true hk⟩)

theorem keysOf_append_single (entries : List Value) (e : Value) :
    keysOf (entries ++ [e])
      = if DataKey.ofEntry e ∈ keysOf entries then keysOf entries
        else keysOf entries ++ [DataKey.ofEntry e] := by
  rw [keysOf, List.map_append, List.eraseDups_append]
  by_cases h : DataKey.ofEntry e ∈ entries.map DataKey.ofEntry
  · have hin : DataKey.ofEntry e ∈ keysOf entries := List.mem_eraseDups.mpr h
    rw [if_pos hin, List.map_singleton, List.removeAll, List.filter_cons_of_neg (by simpa using h)]
    exact List.append_nil _
  · have hout : DataKey.ofEntry e ∉ keysOf entries := fun hin => h (List.mem_eraseDups.mp hin)
    rw [if_neg hout, List.map_singleton, List.removeAll, List.filter_cons_of_pos (by simpa using h)]
    rfl

theorem entriesOf_append_single (key : DataKey) (entries : List Value) (e : Value) :
    entriesOf key (entries ++ [e])
      = if DataKey.ofEntry e = key then entriesOf key entries ++ [e]
        else entriesOf key entries := by
  rw [entriesOf, List.filter_append, List.filter_singleton]
  by_cases h : DataKey.ofEntry e = key
  · rw [if_pos h, decide_eq_true h]
    rfl
  · rw [if_neg h, decide_eq_false h]
    exact List.append_nil _

/-! ## what they come to -/

/-- What entries come to: the first, an object, as it is, then the items of the others merged into it
one after another. -/
inductive Gathered : List Value → Value → Prop
  | alone {entry : Value} : entry.members?.isSome = true → Gathered [entry] entry
  | joined {group : List Value} {first merged : Value} (entry : Value) : Gathered group first →
      setItems first (mergeItems (first.memberOrNull "data") (entry.memberOrNull "data"))
        = .ok merged →
      Gathered (group ++ [entry]) merged

/-- the entry lists `v` -/
def Lists (v : Value) (entry : Value) : Prop := ∃ item ∈ itemsOf entry, item.value.same v = true

instance (v entry : Value) : Decidable (Lists v entry) :=
  inferInstanceAs (Decidable (∃ item ∈ itemsOf entry, item.value.same v = true))

theorem lists_iff {v entry : Value} : Lists v entry ↔ latestIn v (itemsOf entry) ≠ ⊥ := by
  rw [latestIn, lasting, ne_eq, List.maximum_eq_bot, List.map_eq_nil_iff, List.filter_eq_nil_iff]
  push Not
  rfl

/-- the entry is the first of the group, but for its data, which list what all of the group list -/
structure Unites (group : List Value) (entry : Value) : Prop where
  isObject : entry.members?.isSome = true
  member?_eq : ∃ first, group.head? = some first ∧
    ∀ member, member ≠ "data" → entry.member? member = first.member? member
  lists_iff : ∀ v, Lists v entry ↔ ∃ e ∈ group, Lists v e

/-- the entry has the id and the type of an entry of the group -/
theorem Unites.exists_key {group : List Value} {entry : Value} (h : Unites group entry) :
    ∃ first ∈ group, DataKey.ofEntry entry = DataKey.ofEntry first ∧
      DataKey.ofEntry? entry = DataKey.ofEntry? first := by
  obtain ⟨first, hfirst, hmember⟩ := h.member?_eq
  refine ⟨first, List.mem_of_head? hfirst, ?_, ?_⟩
  · rw [DataKey.ofEntry, DataKey.ofEntry, Value.memberOrNull, Value.memberOrNull,
      hmember "id" (by decide), hmember "type" (by decide)]
    rfl
  · rw [DataKey.ofEntry?, DataKey.ofEntry?, hmember "id" (by decide), hmember "type" (by decide)]

theorem object_of_setItems {entry merged : Value} {items : List Value}
    (h : entry.members?.isSome = true) (hset : setItems entry items = .ok merged) :
    merged.members?.isSome = true ∧
      (∀ member, member ≠ "data" → merged.member? member = entry.member? member) ∧
      itemsOf merged = items.map DataItem.ofValue := by
  obtain ⟨entry', hset', hobject⟩ := exists_setItems_of_object h items
  cases hset.symm.trans hset'
  exact hobject

theorem lists_of_merged {v first entry merged : Value}
    (h : itemsOf merged
      = (mergeItems (first.memberOrNull "data") (entry.memberOrNull "data")).map
          DataItem.ofValue) :
    Lists v merged ↔ Lists v first ∨ Lists v entry := by
  rw [lists_iff, lists_iff, lists_iff, h, latestIn_mergeItems, ne_eq, max_eq_bot, not_and_or]
  rfl

namespace Gathered
variable {group : List Value} {entry : Value}

theorem ne_nil (h : Gathered group entry) : group ≠ [] := by
  cases h with
  | alone => exact List.cons_ne_nil _ _
  | joined => exact List.append_ne_nil_of_right_ne_nil _ (List.cons_ne_nil _ _)

theorem unites (h : Gathered group entry) : Unites group entry := by
  induction h with
  | @alone e hobject =>
    refine ⟨hobject, ⟨e, rfl, fun _ _ => rfl⟩, fun v => ?_⟩
    simp only [List.mem_singleton, exists_eq_left]
  | @joined group first merged e hgroup hset ih =>
    obtain ⟨hobject, hmember, hitems⟩ := object_of_setItems ih.isObject hset
    -- the group grows at its end, so its first entry stays the first
    obtain ⟨head, hhead, hfirst_eq⟩ := ih.member?_eq
    refine ⟨hobject, ⟨head, ?_, fun member hne => ?_⟩, fun v => ?_⟩
    · rw [List.head?_append_of_ne_nil _ hgroup.ne_nil, hhead]
    · rw [hmember member hne, hfirst_eq member hne]
    · rw [lists_of_merged hitems, ih.lists_iff]
      simp only [List.mem_append, List.mem_singleton, or_and_right, exists_or, exists_eq_left]

end Gathered

/-! ## runs of entries -/

/-- all entries are objects -/
def AllObjects (entries : List Value) : Prop := ∀ e ∈ entries, e.members?.isSome = true

/-- The entries read so far are merged key by key. -/
structure Collected (entries : List Value) (merged : List (DataKey × Value)) : Prop where
  keys : merged.map Prod.fst = keysOf entries
  gathered : ∀ p ∈ merged, Gathered (entriesOf p.1 entries) p.2

theorem addEntry_of_new {entry : Value} {merged : List (DataKey × Value)}
    (h : DataKey.ofEntry entry ∉ merged.map Prod.fst) :
    addEntry entry merged = .ok (merged ++ [(DataKey.ofEntry entry, entry)]) := by
  induction merged with
  | nil => rfl
  | cons p rest ih =>
    rw [List.map_cons, List.mem_cons, not_or] at h
    rw [addEntry, if_neg (Ne.symm h.1), ih h.2]
    rfl

theorem addEntry_of_held {entry first kept : Value} {before after : List (DataKey × Value)}
    (h : DataKey.ofEntry entry ∉ before.map Prod.fst)
    (hset : setItems first (mergeItems (first.memberOrNull "data") (entry.memberOrNull "data"))
      = .ok kept) :
    addEntry entry (before ++ (DataKey.ofEntry entry, first) :: after)
      = .ok (before ++ (DataKey.ofEntry entry, kept) :: after) := by
  induction before with
  | nil => rw [List.nil_append, addEntry, if_pos rfl, hset]; rfl
  | cons p before ih =>
    rw [List.map_cons, List.mem_cons, not_or] at h
    rw [List.cons_append, addEntry, if_neg (Ne.symm h.1), ih h.2]
    rfl

namespace Collected
variable {entries : List Value} {merged : List (DataKey × Value)}

theorem add_new (h : Collected entries merged) {entry : Value}
    (hobject : entry.members?.isSome = true) (hnew : DataKey.ofEntry entry ∉ keysOf entries) :
    Collected (entries ++ [entry]) (merged ++ [(DataKey.ofEntry entry, entry)]) := by
  constructor
  · rw [keysOf_append_single, if_neg hnew, List.map_append, h.keys]
    rfl
  · refine List.forall_mem_append.mpr ⟨fun p hp => ?_, List.forall_mem_singleton.mpr ?_⟩
    · have hne : DataKey.ofEntry entry ≠ p.1 := by
        intro he
        refine hnew ?_
        rw [he, ← h.keys]
        exact List.mem_map_of_mem hp
      rw [entriesOf_append_single, if_neg hne]
      exact h.gathered p hp
    · rw [entriesOf_append_single, if_pos rfl, entriesOf_eq_nil hnew]
      exact .alone hobject

/-- no other entry has the key of one that is there -/
theorem key_ne {before after : List (DataKey × Value)} {key : DataKey} {first : Value}
    (h : Collected entries (before ++ (key, first) :: after)) :
    ∀ p, p ∈ before ∨ p ∈ after → key ≠ p.1 := by
  have hnodup := nodup_keysOf entries
  rw [← h.keys, List.map_append, List.map_cons] at hnodup
  have hout := (List.nodup_middle.mp hnodup).notMem
  rintro p hp rfl
  refine hout (List.mem_append.mpr (hp.imp ?_ ?_)) <;> exact List.mem_map_of_mem

theorem add_held {before after : List (DataKey × Value)} {entry first kept : Value}
    (h : Collected entries (before ++ (DataKey.ofEntry entry, first) :: after))
    (hset : setItems first (mergeItems (first.memberOrNull "data") (entry.memberOrNull "data"))
      = .ok kept) :
    Collected (entries ++ [entry]) (before ++ (DataKey.ofEntry entry, kept) :: after) := by
  have hkeys : keysOf (entries ++ [entry]) = keysOf entries := by
    rw [keysOf_append_single, if_pos]
    rw [← h.keys, List.map_append]
    exact List.mem_append_right _ List.mem_cons_self
  have hothers : ∀ p, p ∈ before ∨ p ∈ after → Gathered (entriesOf p.1 (entries ++ [entry])) p.2 := by
    intro p hp
    rw [entriesOf_append_single, if_neg (h.key_ne p hp)]
    exact h.gathered p (List.mem_append.mpr (hp.imp id (List.mem_cons_of_mem _)))
  constructor
  · rw [hkeys, ← h.keys, List.map_append, List.map_append]
    rfl
  · refine List.forall_mem_append.mpr ⟨fun p hp => hothers p (.inl hp), List.forall_mem_cons.mpr
      ⟨?_, fun p hp => hothers p (.inr hp)⟩⟩
    have hfirst := h.gathered (_, first) (List.mem_append_right _ List.mem_cons_self)
    rw [entriesOf_append_single, if_pos rfl]
    exact .joined entry hfirst hset

theorem add (h : Collected entries merged) {entry : Value}
    (hobject : entry.members?.isSome = true) :
    ∃ merged', addEntry entry merged = .ok merged' ∧ Collected (entries ++ [entry]) merged' := by
  by_cases hheld : DataKey.ofEntry entry ∈ keysOf entries
  · -- the entry that has the key is an object, as it unites objects, so it takes the items
    rw [← h.keys] at hheld
    obtain ⟨⟨key, first⟩, hp, hkey⟩ := List.mem_map.mp hheld
    obtain rfl : key = DataKey.ofEntry entry := hkey
    obtain ⟨before, after, rfl⟩ := List.append_of_mem hp
    obtain ⟨kept, hset, -⟩ := exists_setItems_of_object (h.gathered _ hp).unites.isObject
      (mergeItems (first.memberOrNull "data") (entry.memberOrNull "data"))
    have hbefore : DataKey.ofEntry entry ∉ before.map Prod.fst := by
      intro hin
      obtain ⟨p, hp, hk⟩ := List.mem_map.mp hin
      exact h.key_ne p (.inl hp) hk.symm
    exact ⟨_, addEntry_of_held hbefore hset, h.add_held hset⟩
  · exact ⟨_, addEntry_of_new (h.keys ▸ hheld), h.add_new hobject hheld⟩

theorem addAll (h : Collected entries merged) {more : List Value} (ho : AllObjects more) :
    ∃ merged', addEntries more merged = .ok merged' ∧ Collected (entries ++ more) merged' := by
  induction more generalizing entries merged with
  | nil => exact ⟨merged, rfl, (List.append_nil entries).symm ▸ h⟩
  | cons entry more ih =>
    obtain ⟨hentry, hmore⟩ := List.forall_mem_cons.mp ho
    obtain ⟨merged', hadd, hc⟩ := h.add hentry
    obtain ⟨merged'', hadds, hc'⟩ := ih hc hmore
    refine ⟨merged'', ?_, List.append_cons entries entry more ▸ hc'⟩
    rw [addEntries, hadd]
    exact hadds

theorem unites (h : Collected entries merged) {p : DataKey × Value} (hp : p ∈ merged) :
    Unites (entriesOf p.1 entries) p.2 := (h.gathered p hp).unites

/-- an entry of the result has the key of those that it unites -/
theorem key_eq (h : Collected entries merged) {p : DataKey × Value} (hp : p ∈ merged) :
    DataKey.ofEntry p.2 = p.1 := by
  obtain ⟨first, hfirst, hkey, -⟩ := (h.unites hp).exists_key
  rw [hkey, (mem_entriesOf.mp hfirst).2]

end Collected

theorem exists_collected {sources : List (List Value)} (h : AllObjects sources.flatten) :
    ∃ result merged, combineData sources = .ok result ∧ result.getD [] = merged.map Prod.snd ∧
      Collected sources.flatten merged := by
  have hnone : Collected [] [] := ⟨rfl, List.forall_mem_nil _⟩
  obtain ⟨merged, hadd, hc⟩ := hnone.addAll h
  rw [combineData, hadd]
  cases merged with
  | nil => exact ⟨none, [], rfl, rfl, hc⟩
  | cons p rest => exact ⟨_, p :: rest, rfl, rfl, hc⟩

/-! ## what stays apart -/

/-- the entries of each key, in the order in which the keys first occur -/
def groupsOf (entries : List Value) : List (List Value) :=
  (keysOf entries).map fun key => entriesOf key entries

/-- the text of a member; one that is missing or no string counts as empty -/
def textAt (member : String) (entry : Value) : String :=
  ((entry.memberOrNull member).text?).getD ""

/-- the entries have the same member, or neither has a text there -/
def Alike (member : String) (e e' : Value) : Prop :=
  (e.memberOrNull member).same (e'.memberOrNull member) = true ∨
    textAt member e = "" ∧ textAt member e' = ""

theorem text?_of_same {v w : Value} (h : v.same w = true) : v.text? = w.text? := by
  cases v <;> cases w <;> simp_all [Value.same, Value.text?]

theorem eq_textAt {member : String} {e : Value} (h : textAt member e ≠ "") :
    e.memberOrNull member = .string (textAt member e) := by
  rw [textAt] at h ⊢
  cases hv : e.memberOrNull member with
  | string s => rfl
  | _ => exact absurd (by rw [hv]; rfl) h

theorem alike_iff {member : String} {e e' : Value} :
    Alike member e e' ↔ textAt member e = textAt member e' := by
  constructor
  · rintro (hsame | ⟨he, he'⟩)
    · rw [textAt, textAt, text?_of_same hsame]
    · rw [he, he']
  · intro htext
    by_cases he : textAt member e = ""
    · exact .inr ⟨he, htext ▸ he⟩
    · left
      rw [eq_textAt he, eq_textAt (htext ▸ he), htext]
      exact Value.same_refl _

theorem ofEntry_eq_iff {e e' : Value} :
    DataKey.ofEntry e = DataKey.ofEntry e' ↔ Alike "id" e e' ∧ Alike "type" e e' := by
  rw [alike_iff, alike_iff]
  exact DataKey.mk.injEq .. ▸ Iff.rfl

theorem exists_group_iff {entries : List Value} {e e' : Value} (he : e ∈ entries)
    (he' : e' ∈ entries) :
    (∃ group ∈ groupsOf entries, e ∈ group ∧ e' ∈ group)
      ↔ DataKey.ofEntry e = DataKey.ofEntry e' := by
  constructor
  · rintro ⟨group, hgroup, hin, hin'⟩
    obtain ⟨key, -, rfl⟩ := List.mem_map.mp hgroup
    rw [(mem_entriesOf.mp hin).2, (mem_entriesOf.mp hin').2]
  · intro hkey
    exact ⟨_, List.mem_map_of_mem (mem_keysOf.mpr ⟨e, he, rfl⟩), mem_entriesOf.mpr ⟨he, rfl⟩,
      mem_entriesOf.mpr ⟨he', hkey.symm⟩⟩

theorem Collected.forall₂_unites {entries : List Value} {merged : List (DataKey × Value)}
    (h : Collected entries merged) :
    List.Forall₂ Unites (groupsOf entries) (merged.map Prod.snd) := by
  rw [groupsOf, ← h.keys, List.map_map, List.forall₂_map_left_iff, List.forall₂_map_right_iff,
    List.forall₂_same]
  exact fun p hp => h.unites hp

/-- **Which entries are merged.**  Entries that are objects are merged in groups, one for each key,
in the order in which the keys first occur; an entry of the result is the first of its group, but
for its data, which list what all of the group list.  Two entries are in one group just if their
ids are the same or neither has a text as its id, and likewise their types.  So what the result
lists under an id that is a text was listed under it, and likewise for types. -/
theorem groups_of_combineData {sources : List (List Value)} (h : AllObjects sources.flatten) :
    ∃ result, combineData sources = .ok result ∧
      List.Forall₂ Unites (groupsOf sources.flatten) (result.getD []) ∧
      (∀ e ∈ sources.flatten, ∀ e' ∈ sources.flatten,
        (∃ group ∈ groupsOf sources.flatten, e ∈ group ∧ e' ∈ group)
          ↔ Alike "id" e e' ∧ Alike "type" e e') ∧
      ∀ entry ∈ result.getD [], ∀ v, Lists v entry →
        ∃ e ∈ sources.flatten, Lists v e ∧ Alike "id" entry e ∧ Alike "type" entry e := by
  obtain ⟨result, merged, hok, hresult, hc⟩ := exists_collected h
  refine ⟨result, hok, hresult ▸ hc.forall₂_unites, fun e he e' he' => ?_, ?_⟩
  · rw [exists_group_iff he he', ofEntry_eq_iff]
  · rw [hresult]
    intro entry hentry v hv
    obtain ⟨p, hp, rfl⟩ := List.mem_map.mp hentry
    obtain ⟨e, he, hlists⟩ := ((hc.unites hp).lists_iff v).mp hv
    obtain ⟨he, hkey⟩ := mem_entriesOf.mp he
    refine ⟨e, he, hlists, ?_⟩
    rw [← ofEntry_eq_iff, hc.key_eq hp, hkey]

/-- Two numbers as ids make one group, a text makes another. -/
theorem groups_of_numbered_entries :
    let entry (id : Value) (v : String) : Value := .object
      [("data", .array [.object [("value", .string v)]]), ("id", id), ("type", .string "t")]
    let one := entry (.nat 1) "a"
    let two := entry (.nat 2) "b"
    let named := entry (.string "x") "a"
    let sources := [[one, named], [two]]
    AllObjects sources.flatten ∧ ∃ result, combineData sources = .ok result ∧
      (∃ group ∈ groupsOf sources.flatten, one ∈ group ∧ two ∈ group) ∧
      (¬ ∃ group ∈ groupsOf sources.flatten, one ∈ group ∧ named ∈ group) ∧
      (result.getD []).length = 2 := by
  intro entry one two named sources
  have hobjects : AllObjects sources.flatten := by
    simp only [AllObjects]
    decide +kernel
  have hone : one ∈ sources.flatten := by simp [sources]
  have htwo : two ∈ sources.flatten := by simp [sources]
  have hnamed : named ∈ sources.flatten := by simp [sources]
  obtain ⟨result, hok, hunites, hgroups, -⟩ := groups_of_combineData hobjects
  refine ⟨hobjects, result, hok, ?_, ?_, ?_⟩
  · rw [hgroups one hone two htwo]
    exact ⟨.inr ⟨rfl, rfl⟩, .inl rfl⟩
  · rw [hgroups one hone named hnamed, alike_iff]
    rintro ⟨hid, -⟩
    exact absurd hid (by decide +kernel)
  · rw [← hunites.length_eq]
    decide +kernel

/-- what is listed under one id may come under another: here the ids are two numbers -/
theorem listed_under_another_id :
    ¬ ∀ (sources : List (List Value)) (result : List Value), AllObjects sources.flatten →
      combineData sources = .ok (some result) → ∀ entry ∈ result, ∀ v, Lists v entry →
        ∃ e ∈ sources.flatten, Lists v e ∧
          (e.memberOrNull "id").same (entry.memberOrNull "id") = true ∧
          (e.memberOrNull "type").same (entry.memberOrNull "type") = true := by
  intro h
  let entry (id : Nat) (vs : List String) : Value := .object
    [("data", .array (vs.map fun v => .object [("value", .string v)])), ("id", .nat id),
      ("type", .string "t")]
  let sources := [[entry 1 ["a"], entry 2 ["b"]]]
  have hobjects : AllObjects sources.flatten := by
    simp only [AllObjects]
    decide +kernel
  have hexists := h sources [entry 1 ["a", "b"]] hobjects rfl _ List.mem_cons_self (.string "b")
    (by decide +kernel)
  revert hexists
  decide +kernel

end Merge
end RemoteGuard
