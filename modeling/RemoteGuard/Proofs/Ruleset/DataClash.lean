import RemoteGuard.Ruleset.Merge

/-!
# Which data entries cannot be merged

An entry that is neither an object nor `null` can hold no items.  It has neither id nor type, so it
meets the entries whose id and type are empty, and no others.

* `addEntry_cases`           all that one entry can do to the entries merged so far;
* `combineData_error_iff`    a merge of data is refused just if, of the entries with empty id and
                             type, there are two and the first can hold no items (`clashing`);
* `merge_error_iff`          a whole merge, just if moreover the rules fit together.
-/

namespace RemoteGuard
open Json

/-- items can be put into the value -/
def Json.Value.holdsItems : Value → Bool
  | .object _ => true
  | .null => true
  | _ => false

namespace Merge

/-- the key of entries with neither id nor type -/
def DataKey.unnamed : DataKey := ⟨"", ""⟩

/-- the entries with neither id nor type -/
def unnamedEntries (entries : List Value) : List Value :=
  entries.filter fun e => DataKey.ofEntry e = DataKey.unnamed

/-- there is a second entry to merge into the first, which can hold no items -/
def noRoom : List Value → Bool
  | first :: _ :: _ => !first.holdsItems
  | _ => false

/-- some entry cannot be merged into the first of its key -/
def clashing (entries : List Value) : Bool := noRoom (unnamedEntries entries)

/-! ## single entries -/

theorem unnamed_of_holdsItems {entry : Value} (h : entry.holdsItems = false) :
    DataKey.ofEntry entry = DataKey.unnamed := by
  cases entry with
  | null => cases h
  | object ms => cases h
  | bool b => rfl
  | number n => rfl
  | string s => rfl
  | array xs => rfl

theorem setItems_of_holdsItems {entry : Value} (items : List Value)
    (h : entry.holdsItems = true) :
    ∃ merged, setItems entry items = .ok merged ∧ merged.holdsItems = true := by
  cases entry with
  | null => exact ⟨_, rfl, rfl⟩
  | object ms => exact ⟨_, rfl, rfl⟩
  | bool b => cases h
  | number n => cases h
  | string s => cases h
  | array xs => cases h

theorem setItems_error {entry : Value} (items : List Value) (h : entry.holdsItems = false) :
    setItems entry items = .error .noRoomForItems := by
  cases entry with
  | null => cases h
  | object ms => cases h
  | bool b => rfl
  | number n => rfl
  | string s => rfl
  | array xs => rfl

theorem lookup_append_single {key k : DataKey} {entry : Value}
    {merged : List (DataKey × Value)} (h : merged.lookup key = none) :
    (merged ++ [(key, entry)]).lookup k = if k = key then some entry else merged.lookup k := by
  rw [List.lookup_append]
  by_cases e : k = key
  · rw [e, h, if_pos rfl, List.lookup_cons_self]
    rfl
  · rw [if_neg e, List.lookup_cons, beq_false_of_ne e, List.lookup_nil, Option.or_none]

/-- an entry is added, is refused by the first of its key, or is merged into it -/
theorem addEntry_cases (entry : Value) (merged : List (DataKey × Value)) :
    (merged.lookup (DataKey.ofEntry entry) = none ∧
      addEntry entry merged = .ok (merged ++ [(DataKey.ofEntry entry, entry)])) ∨
    (∃ first, merged.lookup (DataKey.ofEntry entry) = some first ∧ first.holdsItems = false ∧
      addEntry entry merged = .error .noRoomForItems) ∨
    (∃ first kept merged', merged.lookup (DataKey.ofEntry entry) = some first ∧
      first.holdsItems = true ∧ kept.holdsItems = true ∧ addEntry entry merged = .ok merged' ∧
      ∀ k, merged'.lookup k
        = if k = DataKey.ofEntry entry then some kept else merged.lookup k) := by
  induction merged with
  | nil => exact .inl ⟨rfl, rfl⟩
  | cons head rest ih =>
    obtain ⟨key, first⟩ := head
    by_cases e : key = DataKey.ofEntry entry
    · have hlookup : ((key, first) :: rest).lookup (DataKey.ofEntry entry) = some first := by
        rw [← e, List.lookup_cons_self]
      cases hroom : first.holdsItems with
      | false =>
        refine .inr (.inl ⟨first, hlookup, hroom, ?_⟩)
        rw [addEntry, if_pos e, setItems_error _ hroom]
      | true =>
        obtain ⟨kept, hset, hkept⟩ := setItems_of_holdsItems
          (mergeItems (first.memberOrNull "data") (entry.memberOrNull "data")) hroom
        refine .inr (.inr ⟨first, kept, (key, kept) :: rest, hlookup, hroom, hkept, ?_, ?_⟩)
        · rw [addEntry, if_pos e, hset]
        · intro k
          rw [List.lookup_cons, List.lookup_cons, e]
          by_cases hk : k = DataKey.ofEntry entry
          · rw [if_pos hk, hk, beq_self_eq_true]
          · rw [if_neg hk, beq_false_of_ne hk]
    · have hlookup : ((key, first) :: rest).lookup (DataKey.ofEntry entry)
          = rest.lookup (DataKey.ofEntry entry) := by
        rw [List.lookup_cons, beq_false_of_ne (Ne.symm e)]
      rw [hlookup, addEntry, if_neg e]
      rcases ih with ⟨hnone, hadd⟩ | ⟨held, hsome, hroom, hadd⟩ |
        ⟨held, kept, merged', hsome, hroom, hkept, hadd, hget⟩
      · exact .inl ⟨hnone, by rw [hadd]; rfl⟩
      · exact .inr (.inl ⟨held, hsome, hroom, by rw [hadd]⟩)
      · refine .inr (.inr ⟨held, kept, (key, first) :: merged', hsome, hroom, hkept, ?_, ?_⟩)
        · rw [hadd]
        · intro k
          rw [List.lookup_cons, List.lookup_cons, hget]
          by_cases hk : k = key
          · rw [hk, beq_self_eq_true, if_neg e, if_neg e]
          · rw [beq_false_of_ne hk]

/-! ## runs of entries -/

/-- only what has neither id nor type can be without room for items -/
def Roomy (merged : List (DataKey × Value)) : Prop :=
  ∀ key first, merged.lookup key = some first → first.holdsItems = false →
    key = DataKey.unnamed

theorem Roomy.append_single {entry : Value} {merged : List (DataKey × Value)} (hm : Roomy merged)
    (hnone : merged.lookup (DataKey.ofEntry entry) = none) :
    Roomy (merged ++ [(DataKey.ofEntry entry, entry)]) := by
  intro key held hlookup hroom
  rw [lookup_append_single hnone] at hlookup
  split at hlookup
  · next e =>
    cases hlookup
    rw [e, unnamed_of_holdsItems hroom]
  · exact hm key held hlookup hroom

theorem Roomy.of_lookup {key : DataKey} {kept : Value} {merged merged' : List (DataKey × Value)}
    (hm : Roomy merged) (hkept : kept.holdsItems = true)
    (hget : ∀ k, merged'.lookup k = if k = key then some kept else merged.lookup k) :
    Roomy merged' := by
  intro k held hlookup hroom
  rw [hget] at hlookup
  split at hlookup
  · cases hlookup
    exact absurd (hkept.symm.trans hroom) Bool.noConfusion
  · exact hm k held hlookup hroom

theorem unnamedEntries_cons (entry : Value) (entries : List Value) :
    unnamedEntries (entry :: entries)
      = if DataKey.ofEntry entry = DataKey.unnamed then entry :: unnamedEntries entries
        else unnamedEntries entries := by
  rw [unnamedEntries, List.filter_cons]
  simp only [decide_eq_true_eq]
  rfl

theorem noRoom_of_length_le_one {entries : List Value} (h : entries.length ≤ 1) :
    noRoom entries = false := by
  match entries, h with
  | [], _ => rfl
  | [e], _ => rfl

theorem noRoom_of_holdsItems {first : Value} {entries : List Value}
    (h : first.holdsItems = true) : noRoom (first :: entries) = false := by
  cases entries with
  | nil => rfl
  | cons e es =>
    show (!first.holdsItems) = false
    rw [h]
    rfl

theorem addEntries_error_iff {merged : List (DataKey × Value)} (hm : Roomy merged)
    (entries : List Value) :
    addEntries entries merged = .error .noRoomForItems ↔
      noRoom ((merged.lookup DataKey.unnamed).toList ++ unnamedEntries entries) = true := by
  induction entries generalizing merged with
  | nil =>
    have hlen : ((merged.lookup DataKey.unnamed).toList ++ unnamedEntries []).length ≤ 1 := by
      cases merged.lookup DataKey.unnamed with
      | none => exact Nat.zero_le 1
      | some v => exact Nat.le_refl 1
    rw [noRoom_of_length_le_one hlen, addEntries]
    exact ⟨fun h => (by cases h), fun h => (by cases h)⟩
  | cons entry entries ih =>
    rw [addEntries, unnamedEntries_cons]
    rcases addEntry_cases entry merged with ⟨hnone, hadd⟩ | ⟨first, hsome, hroom, hadd⟩ |
      ⟨first, kept, merged', hsome, hroom, hkept, hadd, hget⟩ <;> rw [hadd]
    · show addEntries entries (merged ++ _) = _ ↔ _
      rw [ih (hm.append_single hnone), lookup_append_single hnone]
      by_cases e : DataKey.ofEntry entry = DataKey.unnamed
      · rw [if_pos e, if_pos e.symm, ← e, hnone]
        rfl
      · rw [if_neg e, if_neg (Ne.symm e)]
    · have e : DataKey.ofEntry entry = DataKey.unnamed := hm _ _ hsome hroom
      rw [if_pos e, ← e, hsome]
      show _ ↔ (!first.holdsItems) = true
      rw [hroom]
      exact ⟨fun _ => rfl, fun _ => rfl⟩
    · show addEntries entries merged' = _ ↔ _
      rw [ih (hm.of_lookup hkept hget), hget]
      by_cases e : DataKey.ofEntry entry = DataKey.unnamed
      · -- the first entry of the key holds items, before and after
        rw [if_pos e, if_pos e.symm, ← e, hsome]
        show noRoom (kept :: _) = true ↔ noRoom (first :: _) = true
        rw [noRoom_of_holdsItems hkept, noRoom_of_holdsItems hroom]
      · rw [if_neg e, if_neg (Ne.symm e)]

/-! ## merges -/

theorem combineData_error_iff (sources : List (List Value)) :
    combineData sources = .error .noRoomForItems ↔ clashing sources.flatten = true := by
  have hroomy : Roomy [] := fun key first h => by cases h
  have h := addEntries_error_iff hroomy sources.flatten
  rw [clashing, ← List.nil_append (unnamedEntries _)]
  refine Iff.trans ?_ h
  rw [combineData]
  cases addEntries sources.flatten [] with
  | error e =>
    cases e
    exact ⟨fun _ => rfl, fun _ => rfl⟩
  | ok merged =>
    cases merged with
    | nil => exact ⟨fun h => (by cases h), fun h => (by cases h)⟩
    | cons e es => exact ⟨fun h => (by cases h), fun h => (by cases h)⟩

theorem merge_error_iff (s : Sources) :
    merge s = .error (.data .noRoomForItems) ↔
      (∃ rules, combineRules s.rules = .ok rules) ∧ clashing s.data.flatten = true := by
  rw [← combineData_error_iff, merge]
  cases combineRules s.rules with
  | error e =>
    refine ⟨fun h => (by cases h), ?_⟩
    rintro ⟨⟨rules, h⟩, -⟩
    cases h
  | ok rules =>
    cases combineData s.data with
    | error e =>
      cases e
      exact ⟨fun _ => ⟨⟨rules, rfl⟩, rfl⟩, fun _ => rfl⟩
    | ok data =>
      refine ⟨fun h => (by cases h), ?_⟩
      rintro ⟨-, h⟩
      cases h

end Merge
end RemoteGuard
