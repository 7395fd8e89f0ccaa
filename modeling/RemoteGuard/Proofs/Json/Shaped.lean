import RemoteGuard.Proofs.Json.Standing

/-!
# Shapes of values

What a typed shape reads from a value, said of the value itself.  `Value.part? names name` is the
value for a field of a record with the fields `names`, and `Value.dictionary` are the members of an
object as a dictionary, the last of each key.

* `fields?_tree`       a record of a value has the value's parts for its fields;
* `dictionary?_tree`   a dictionary of a value is read entry by entry.
-/

namespace RemoteGuard
open Json

theorem Dictionary.find?_eq_head?_filter {α : Type} (name : String) (d : Dictionary α) :
    d.find? name = ((d.filter fun p => p.1 = name).head?).map Prod.snd := by
  induction d with
  | nil => rfl
  | cons p d ih =>
    obtain ⟨k, v⟩ := p
    rw [Dictionary.find?_cons, List.filter_cons]
    by_cases h : name = k
    · simp [h]
    · simp [h, Ne.symm h, ih]

namespace Json

/-- the value for a field of a record: in an object the member of the name, in an array the item in
the field's place -/
def Value.part? (names : List String) (name : String) : Value → Option Value
  | .object ms => Dictionary.find? name ms
  | .array vs => vs[names.idxOf name]?
  | _ => none

/-- the members of an object, the last of each key; other values have none -/
def Value.dictionary : Value → Object
  | .object ms => Dictionary.ofPairs ms
  | _ => []

theorem Value.sorted_dictionary (v : Value) : v.dictionary.Sorted := by
  cases v with
  | object ms => exact Dictionary.sorted_ofPairs ms
  | _ => exact Dictionary.sorted_nil

namespace Tree
variable {α : Type}

/-! ## records -/

theorem field?_tree {name : String} {d : Object} {field : Option Tree}
    (h : field? name (memberTrees d) = some field) :
    (Dictionary.find? name d).map Value.tree = field := by
  rw [Dictionary.find?_eq_head?_filter]
  rw [field?, valuesOf_memberTrees] at h
  cases hd : d.filter fun p => p.1 = name with
  | nil =>
    rw [hd] at h
    exact Option.some.inj h
  | cons p ps =>
    rw [hd] at h
    cases ps with
    | nil => exact Option.some.inj h
    | cons q ps => cases h

/-- a record of a value has the value's parts for its fields -/
theorem fields?_tree {names : List String} (hnames : names.Nodup) {v : Value}
    {fields : List (Option Tree)} (h : fields? names v.tree = some fields) :
    fields = names.map fun name => (v.part? names name).map Value.tree := by
  cases v with
  | object d =>
    rw [Value.tree, fields?_memberTrees, mapM_eq_some] at h
    have hfields := h.imp fun name field hf => field?_tree hf
    rw [← List.forall₂_map_left_iff (f := fun name => (Dictionary.find? name d).map Value.tree),
      List.forall₂_eq_eq_eq] at hfields
    exact hfields.symm
  | array vs =>
    rw [Value.tree, fields?, itemTrees_eq_map, Option.ite_none_right_eq_some, Option.some_inj] at h
    obtain ⟨hlength, rfl⟩ := h
    rw [List.length_map] at hlength ⊢
    refine List.ext_getElem (by simp; omega) fun i hi hi' => ?_
    have hin : i < names.length := by simpa using hi'
    rw [List.getElem_map, Value.part?, hnames.idxOf_getElem i hin, List.getElem_append]
    split
    · next hlt =>
      rw [List.length_map, List.length_map] at hlt
      simp [hlt]
    · next hge =>
      rw [List.length_map, List.length_map] at hge
      simp [Nat.not_lt.mp hge]
  | _ => cases h

/-! ## fields -/

theorem word64?_tree {v : Value} {n : Nat} (h : word64? v.tree = some n) : v = .nat n := by
  cases v with
  | number m =>
    cases m with
    | integer i =>
      rw [Value.tree, word64?, intWord64?, Option.ite_none_right_eq_some, fits64_eq_some_iff] at h
      obtain ⟨hi, rfl, -⟩ := h
      rw [Value.nat, Int.toNat_of_nonneg hi]
    | float x => cases h
  | _ => cases h

theorem text?_tree {v : Value} {s : String} (h : text? v.tree = some s) : v = .string s := by
  cases v with
  | string t => exact congrArg Value.string (Option.some.inj h)
  | _ => cases h

/-! ## dictionaries -/

theorem forall₂_of_pairs? {read : Tree → Option α} {d : Object} {xs : List (String × α)}
    (h : pairs? read (memberTrees d) = some xs) :
    List.Forall₂ (fun p x => x.1 = p.1 ∧ read p.2.tree = some x.2) d xs := by
  induction d generalizing xs with
  | nil =>
    cases h
    exact .nil
  | cons p d ih =>
    obtain ⟨k, x, xs', hk, hx, hxs, rfl⟩ := pairs?_cons.mp h
    exact .cons ⟨(Option.some.inj hk).symm, hx⟩ (ih hxs)

theorem pairs?_insertAll_tree {read : Tree → Option α} {ms : Object} {xs : List (String × α)}
    (hms : pairs? read (memberTrees ms) = some xs) {d : Object} {e : Dictionary α}
    (h : pairs? read (memberTrees d) = some e) :
    pairs? read (memberTrees (d.insertAll ms)) = some (e.insertAll xs) := by
  induction ms generalizing xs d e with
  | nil =>
    cases hms
    exact h
  | cons p ms ih =>
    obtain ⟨k, x, xs', hk, hx, hxs, rfl⟩ := pairs?_cons.mp hms
    obtain rfl := Option.some.inj hk
    exact ih hxs (pairs?_insert h hx p.1)

/-- a dictionary of a value is read entry by entry -/
theorem dictionary?_tree {read : Tree → Option α} {v : Value} {xs : Dictionary α}
    (h : dictionary? read v.tree = some xs) :
    List.Forall₂ (fun p x => x.1 = p.1 ∧ read p.2.tree = some x.2) v.dictionary xs := by
  cases v with
  | object d =>
    obtain ⟨pairs, hpairs, rfl⟩ := Option.map_eq_some_iff.mp h
    exact forall₂_of_pairs? (pairs?_insertAll_tree hpairs (d := []) (e := []) rfl)
  | _ => cases h

end Tree
end Json
end RemoteGuard
