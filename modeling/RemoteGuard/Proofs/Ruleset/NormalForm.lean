import RemoteGuard.Proofs.Ruleset.Grouping

/-!
# The normal form of merged data

Merging lists of items leaves no value twice (`valuesDiffer_mergeItems`), since an added item goes to
the one with its value (`ValuesDiffer.addItem`).  But an entry whose key no other entry has is not
merged with anything, and keeps what it lists (`Gathered.alone_or_valuesDiffer`).

The main statement is `normalForm_of_combineData`.
-/

namespace RemoteGuard
open Json

namespace Merge

/-! ## items -/

/-- no two items have the same value -/
def ValuesDiffer (items : List DataItem) : Prop :=
  items.Pairwise fun i j => i.value.same j.value = false

instance (items : List DataItem) : Decidable (ValuesDiffer items) :=
  inferInstanceAs (Decidable (items.Pairwise fun i j => i.value.same j.value = false))

theorem value_of_mem_addItem {item i : DataItem} {kept : List DataItem} (h : i ∈ addItem item kept) :
    i.value = item.value ∨ ∃ j ∈ kept, i.value = j.value := by
  induction kept with
  | nil => exact .inl (congrArg DataItem.value (List.mem_singleton.mp h))
  | cons first rest ih =>
    rw [addItem] at h
    split at h
    · rcases List.mem_cons.mp h with rfl | h
      · exact .inr ⟨first, List.mem_cons_self, rfl⟩
      · exact .inr ⟨i, List.mem_cons_of_mem _ h, rfl⟩
    · rcases List.mem_cons.mp h with rfl | h
      · exact .inr ⟨i, List.mem_cons_self, rfl⟩
      · rcases ih h with hnew | ⟨j, hj, hv⟩
        · exact .inl hnew
        · exact .inr ⟨j, List.mem_cons_of_mem _ hj, hv⟩

theorem ValuesDiffer.addItem (item : DataItem) {kept : List DataItem} (h : ValuesDiffer kept) :
    ValuesDiffer (addItem item kept) := by
  induction kept with
  | nil => exact List.pairwise_singleton _ _
  | cons first rest ih =>
    obtain ⟨hfirst, hrest⟩ := List.pairwise_cons.mp h
    rw [Merge.addItem]
    split
    · exact List.pairwise_cons.mpr ⟨hfirst, hrest⟩
    · next hne =>
      refine List.pairwise_cons.mpr ⟨fun i hi => ?_, ih hrest⟩
      rcases value_of_mem_addItem hi with hv | ⟨j, hj, hv⟩
      · rw [hv]
        exact Bool.eq_false_of_not_eq_true hne
      · rw [hv]
        exact hfirst j hj

theorem ValuesDiffer.foldl (items : List DataItem) {kept : List DataItem} (h : ValuesDiffer kept) :
    ValuesDiffer (items.foldl (fun kept item => Merge.addItem item kept) kept) := by
  induction items generalizing kept with
  | nil => exact h
  | cons item items ih => exact ih (h.addItem item)

theorem valuesDiffer_mergeItems (current incoming : Value) :
    ValuesDiffer ((mergeItems current incoming).map DataItem.ofValue) := by
  rw [map_ofValue_mergeItems]
  exact ValuesDiffer.foldl _ List.Pairwise.nil

/-! ## entries -/

namespace Gathered
variable {group : List Value} {entry : Value}

theorem eq_of_single {e : Value} (h : Gathered [e] entry) : entry = e := by
  generalize hg : [e] = group at h
  cases h with
  | alone => exact (List.singleton_inj.mp hg).symm
  | joined _ hgroup _ =>
    rcases List.append_eq_singleton_iff.mp hg.symm with ⟨hnil, -⟩ | ⟨-, hnil⟩
    · exact absurd hnil hgroup.ne_nil
    · exact absurd hnil (List.cons_ne_nil _ _)

/-- an entry stays as it is only when it is alone; else its items are merged -/
theorem alone_or_valuesDiffer (h : Gathered group entry) :
    group = [entry] ∨ ValuesDiffer (itemsOf entry) := by
  cases h with
  | alone => exact .inl rfl
  | joined _ hgroup hset =>
    obtain ⟨-, -, hitems⟩ := object_of_setItems hgroup.unites.isObject hset
    rw [hitems]
    exact .inr (valuesDiffer_mergeItems _ _)

end Gathered

theorem AllNamed.allObjects {entries : List Value} (h : AllNamed entries) : AllObjects entries := by
  intro e he
  obtain ⟨key, hkey⟩ := Option.isSome_iff_exists.mp (h e he)
  exact isObject_of_key hkey

namespace Collected
variable {entries : List Value} {merged : List (DataKey × Value)}

theorem keysOf_eq (h : Collected entries merged) :
    (merged.map Prod.snd).map DataKey.ofEntry = keysOf entries := by
  rw [← h.keys, List.map_map]
  exact List.map_congr_left fun p hp => h.key_eq hp

theorem allNamed (h : Collected entries merged) (hn : AllNamed entries) :
    AllNamed (merged.map Prod.snd) := by
  intro entry hentry
  obtain ⟨p, hp, rfl⟩ := List.mem_map.mp hentry
  obtain ⟨first, hfirst, -, hkey⟩ := (h.unites hp).exists_key
  rw [hkey]
  exact hn first (mem_entriesOf.mp hfirst).1

theorem alone_or_valuesDiffer (h : Collected entries merged) :
    ∀ entry ∈ merged.map Prod.snd,
      entriesOf (DataKey.ofEntry entry) entries = [entry] ∨ ValuesDiffer (itemsOf entry) := by
  intro entry hentry
  obtain ⟨p, hp, rfl⟩ := List.mem_map.mp hentry
  rw [h.key_eq hp]
  exact (h.gathered p hp).alone_or_valuesDiffer

/-- an entry that is alone in its key is in the result -/
theorem mem_of_alone (h : Collected entries merged) {entry : Value} (hentry : entry ∈ entries)
    (hone : entriesOf (DataKey.ofEntry entry) entries = [entry]) : entry ∈ merged.map Prod.snd := by
  have hkey : DataKey.ofEntry entry ∈ merged.map Prod.fst := by
    rw [h.keys, mem_keysOf]
    exact ⟨entry, hentry, rfl⟩
  obtain ⟨p, hp, hpk⟩ := List.mem_map.mp hkey
  have hgathered := h.gathered p hp
  rw [hpk, hone] at hgathered
  exact hgathered.eq_of_single ▸ List.mem_map_of_mem hp

end Collected

/-! ## merges -/

/-- **The normal form of merged data.**  Of entries with ids and types the result has one for each
key, in the order in which the keys first occur.  It lists no value twice, wherever the value was
repeated, but for an entry that is alone in its key, which stays as it is: so no value is listed
twice anywhere just if each entry that is alone in its key lists its values once. -/
theorem normalForm_of_combineData {sources : List (List Value)} (h : AllNamed sources.flatten) :
    ∃ result, combineData sources = .ok result ∧ AllNamed (result.getD []) ∧
      (result.getD []).map DataKey.ofEntry = keysOf sources.flatten ∧
      (∀ entry ∈ result.getD [],
        entriesOf (DataKey.ofEntry entry) sources.flatten = [entry] ∨
          ValuesDiffer (itemsOf entry)) ∧
      ((∀ entry ∈ result.getD [], ValuesDiffer (itemsOf entry)) ↔
        ∀ entry ∈ sources.flatten,
          entriesOf (DataKey.ofEntry entry) sources.flatten = [entry] →
            ValuesDiffer (itemsOf entry)) := by
  obtain ⟨result, merged, hok, hresult, hc⟩ := exists_collected h.allObjects
  have hdiffer := hc.alone_or_valuesDiffer
  refine ⟨result, hok, ?_⟩
  rw [hresult]
  refine ⟨hc.allNamed h, hc.keysOf_eq, hdiffer, ?_, ?_⟩
  · intro hall entry hentry hone
    exact hall entry (hc.mem_of_alone hentry hone)
  · intro hall entry hentry
    rcases hdiffer entry hentry with hone | hvalues
    · exact hall entry (mem_entriesOf.mp (hone ▸ List.mem_singleton_self entry)).1 hone
    · exact hvalues

/-- A value that one entry lists twice is listed once when a second entry has its key. -/
theorem normalForm_of_repeated_value :
    let entry (id : String) (vs : List String) : Value := .object
      [("data", .array (vs.map fun v => .object [("value", .string v)])), ("id", .string id),
        ("type", .string "t")]
    let sources := [[entry "x" ["a", "a"], entry "y" ["a", "b"]], [entry "x" ["c"]]]
    AllNamed sources.flatten ∧ ∃ result, combineData sources = .ok result ∧
      (result.getD []).map DataKey.ofEntry = [⟨"x", "t"⟩, ⟨"y", "t"⟩] ∧
      ∀ entry ∈ result.getD [], ValuesDiffer (itemsOf entry) := by
  intro entry sources
  have hnamed : AllNamed sources.flatten := by
    simp only [AllNamed]
    decide +kernel
  obtain ⟨result, hok, -, hkeys, -, hvalues⟩ := normalForm_of_combineData hnamed
  have halone : ∀ e ∈ sources.flatten,
      (entriesOf (DataKey.ofEntry e) sources.flatten).length = 1 → ValuesDiffer (itemsOf e) := by
    decide +kernel
  refine ⟨hnamed, result, hok, hkeys.trans (by decide +kernel), hvalues.mpr ?_⟩
  intro e he hone
  exact halone e he (congrArg List.length hone)

/-- an entry with an id and a type, and with an array of items that have values -/
def IsListing (entry : Value) : Prop :=
  (DataKey.ofEntry? entry).isSome = true ∧ ∃ items, entry.member? "data" = some (.array items) ∧
    ∀ item ∈ items, (item.member? "value").isSome = true

/-- a value may be listed twice: here by one entry, with two expirations -/
theorem value_listed_twice :
    ¬ ∀ (sources : List (List Value)) (result : List Value),
      (∀ entry ∈ sources.flatten, IsListing entry) → combineData sources = .ok (some result) →
      ∀ entry ∈ result, ValuesDiffer (itemsOf entry) := by
  intro h
  let item (e : Nat) : Value := .object [("expiration", .nat e), ("value", .string "a")]
  let entry : Value := .object
    [("data", .array [item 100, item 200]), ("id", .string "x"), ("type", .string "t")]
  have hlisting : IsListing entry := ⟨rfl, _, rfl, by decide +kernel⟩
  have hdiffer := h [[entry]] [entry] (List.forall_mem_singleton.mpr hlisting) rfl entry
    List.mem_cons_self
  revert hdiffer
  decide +kernel

end Merge
end RemoteGuard
