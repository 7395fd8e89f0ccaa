/-!
# Dictionaries with text keys

A `Dictionary α` is a list of keyed values in increasing order of the keys (by code points, which is
also the order of their UTF-8 encodings).  `insert` puts a key in its place or overwrites it, and
`ofPairs` inserts pairs one after another, so that of two pairs with one key the later wins.

`find?_insert` holds of every list, ordered or not, so no statement about look-up needs the order.
`Sorted` is the order itself: `insert` keeps it (`Sorted.insert`), and what `ofPairs` makes has it
(`sorted_ofPairs`).  `find?_ofPairs` finds the last of the pairs with a key, and `ofPairs_of_sorted`
says that a dictionary is what its own pairs make.
-/

namespace RemoteGuard

abbrev Dictionary (α : Type) := List (String × α)

namespace Dictionary
variable {α : Type}

def find? (key : String) : Dictionary α → Option α
  | [] => none
  | (k, v) :: d => if key = k then some v else find? key d

def insert (key : String) (value : α) : Dictionary α → Dictionary α
  | [] => [(key, value)]
  | (k, v) :: d =>
    if key = k then (key, value) :: d
    else if key < k then (key, value) :: (k, v) :: d
    else (k, v) :: insert key value d

def insertAll (d : Dictionary α) (pairs : List (String × α)) : Dictionary α :=
  pairs.foldl (fun d p => insert p.1 p.2 d) d

def ofPairs (pairs : List (String × α)) : Dictionary α := insertAll [] pairs

def keys (d : Dictionary α) : List String := d.map Prod.fst

def Sorted (d : Dictionary α) : Prop := d.Pairwise fun p q => p.1 < q.1

/-! ## look-up after an insertion -/

@[simp] theorem find?_nil (key : String) : find? key ([] : Dictionary α) = none := rfl

theorem find?_cons (key k : String) (v : α) (d : Dictionary α) :
    find? key ((k, v) :: d) = if key = k then some v else find? key d := rfl

@[simp] theorem find?_insert_self (key : String) (value : α) (d : Dictionary α) :
    find? key (insert key value d) = some value := by
  induction d with
  | nil => simp [insert, find?]
  | cons p d ih =>
    obtain ⟨k, v⟩ := p
    simp only [insert]
    split
    · simp [find?]
    · split
      · simp [find?]
      · next h _ => simp [find?, h, ih]

theorem find?_insert_of_ne {key key' : String} (h : key' ≠ key) (value : α) (d : Dictionary α) :
    find? key' (insert key value d) = find? key' d := by
  induction d with
  | nil => simp [insert, find?, h]
  | cons p d ih =>
    obtain ⟨k, v⟩ := p
    simp only [insert]
    split
    · next hk => subst hk; simp [find?, h]
    · split
      · simp [find?, h]
      · simp [find?, ih]

theorem find?_insert (key key' : String) (value : α) (d : Dictionary α) :
    find? key' (insert key value d) = if key' = key then some value else find? key' d := by
  split
  · next h => subst h; exact find?_insert_self _ _ _
  · next h => exact find?_insert_of_ne h _ _

/-! ## the order of the keys -/

theorem sorted_nil : Sorted ([] : Dictionary α) := List.Pairwise.nil

theorem sorted_cons {p : String × α} {d : Dictionary α} :
    Sorted (p :: d) ↔ (∀ q ∈ d, p.1 < q.1) ∧ Sorted d := List.pairwise_cons

theorem mem_insert {q : String × α} {key : String} {value : α} {d : Dictionary α}
    (h : q ∈ insert key value d) : q = (key, value) ∨ q ∈ d := by
  induction d with
  | nil => simpa [insert] using h
  | cons p d ih =>
    obtain ⟨k, v⟩ := p
    simp only [insert] at h
    split at h
    · exact (List.mem_cons.1 h).imp id (List.mem_cons_of_mem _)
    · split at h
      · exact List.mem_cons.1 h
      · rcases List.mem_cons.1 h with rfl | h
        · exact .inr List.mem_cons_self
        · exact (ih h).imp id (List.mem_cons_of_mem _)

theorem Sorted.insert {d : Dictionary α} (h : Sorted d) (key : String) (value : α) :
    Sorted (Dictionary.insert key value d) := by
  induction d with
  | nil => exact sorted_cons.2 ⟨by simp, sorted_nil⟩
  | cons p d ih =>
    obtain ⟨k, v⟩ := p
    obtain ⟨hk, hd⟩ := sorted_cons.1 h
    simp only [Dictionary.insert]
    split
    · next e => subst e; exact sorted_cons.2 ⟨hk, hd⟩
    · next e =>
      split
      · next lt =>
        refine sorted_cons.2 ⟨fun q hq => ?_, h⟩
        rcases List.mem_cons.1 hq with rfl | hq
        · exact lt
        · exact String.lt_trans lt (hk q hq)
      · next nlt =>
        have lt : k < key :=
          Decidable.byContradiction fun n =>
            e (String.le_antisymm (String.not_lt.1 n) (String.not_lt.1 nlt))
        refine sorted_cons.2 ⟨fun q hq => ?_, ih hd⟩
        rcases mem_insert hq with rfl | hq
        · exact lt
        · exact hk q hq

theorem Sorted.insertAll {d : Dictionary α} (h : Sorted d) (pairs : List (String × α)) :
    Sorted (Dictionary.insertAll d pairs) := by
  induction pairs generalizing d with
  | nil => exact h
  | cons p pairs ih => exact ih (h.insert p.1 p.2)

theorem sorted_ofPairs (pairs : List (String × α)) : Sorted (ofPairs pairs) :=
  sorted_nil.insertAll pairs

/-! ## what pairs make -/

theorem mem_of_find? {key : String} {value : α} {d : Dictionary α} (h : find? key d = some value) :
    (key, value) ∈ d := by
  induction d with
  | nil => cases h
  | cons p d ih =>
    obtain ⟨k, v⟩ := p
    rw [find?_cons] at h
    split at h
    · next e =>
      subst e
      cases h
      exact List.mem_cons_self
    · exact List.mem_cons_of_mem _ (ih h)

theorem find?_insertAll (key : String) (d : Dictionary α) (pairs : List (String × α)) :
    find? key (insertAll d pairs)
      = (((pairs.filter fun p => p.1 = key).getLast?).map Prod.snd).or (find? key d) := by
  induction pairs generalizing d with
  | nil => rfl
  | cons p pairs ih =>
    have hstep : insertAll d (p :: pairs) = insertAll (insert p.1 p.2 d) pairs := rfl
    rw [hstep, ih, find?_insert, List.filter_cons]
    by_cases hk : p.1 = key
    · simp only [hk, decide_true, if_true, List.getLast?_cons]
      cases (pairs.filter fun p => p.1 = key).getLast? with
      | none => rfl
      | some q => rfl
    · simp only [hk, Ne.symm hk, decide_false, Bool.false_eq_true, if_false]

theorem find?_insertAll_of_not_mem {key : String} {pairs : List (String × α)}
    (h : ∀ p ∈ pairs, p.1 ≠ key) (d : Dictionary α) :
    find? key (insertAll d pairs) = find? key d := by
  have hnone : (pairs.filter fun p => p.1 = key) = [] :=
    List.filter_eq_nil_iff.mpr fun p hp => by simpa using h p hp
  rw [find?_insertAll, hnone]
  rfl

theorem insertAll_append (d : Dictionary α) (pairs more : List (String × α)) :
    insertAll d (pairs ++ more) = insertAll (insertAll d pairs) more := List.foldl_append

/-- of pairs with one key the last counts -/
theorem find?_ofPairs (key : String) (pairs : List (String × α)) :
    find? key (ofPairs pairs)
      = ((pairs.filter fun p => p.1 = key).getLast?).map Prod.snd := by
  rw [ofPairs, find?_insertAll, find?_nil, Option.or_none]

/-- without repeated keys a pair is the only one with its key -/
theorem filter_eq_of_nodup {κ : Type} [DecidableEq κ] {pairs : List (κ × α)} {p : κ × α}
    (h : (pairs.map Prod.fst).Nodup) (hp : p ∈ pairs) :
    (pairs.filter fun q => q.1 = p.1) = [p] := by
  induction pairs with
  | nil => cases hp
  | cons q pairs ih =>
    obtain ⟨hq, hn⟩ := List.nodup_cons.mp h
    rcases List.mem_cons.mp hp with rfl | hp
    · have hrest : (pairs.filter fun q => q.1 = p.1) = [] := by
        apply List.filter_eq_nil_iff.mpr
        intro r hr e
        exact hq (List.mem_map.mpr ⟨r, hr, of_decide_eq_true e⟩)
      rw [List.filter_cons_of_pos (by simp), hrest]
    · have hne : q.1 ≠ p.1 := fun e => hq (List.mem_map.mpr ⟨p, hp, e.symm⟩)
      rw [List.filter_cons_of_neg (by simpa using hne)]
      exact ih hn hp

theorem mem_ofPairs {pairs : List (String × α)} {p : String × α}
    (h : (pairs.map Prod.fst).Nodup) (hp : p ∈ pairs) : p ∈ ofPairs pairs := by
  apply mem_of_find?
  rw [find?_ofPairs, filter_eq_of_nodup h hp]
  rfl

theorem insert_last {d : Dictionary α} {key : String} (h : ∀ p ∈ d, p.1 < key) (value : α) :
    insert key value d = d ++ [(key, value)] := by
  induction d with
  | nil => rfl
  | cons p d ih =>
    obtain ⟨k, v⟩ := p
    have hlt : k < key := h (k, v) List.mem_cons_self
    have hne : key ≠ k := fun e => String.lt_irrefl k (e ▸ hlt)
    have hnot : ¬ key < k := fun hgt => String.lt_irrefl k (String.lt_trans hlt hgt)
    rw [insert, if_neg hne, if_neg hnot, ih fun q hq => h q (List.mem_cons_of_mem _ hq)]
    rfl

theorem insertAll_of_sorted {d pairs : Dictionary α} (h : Sorted (d ++ pairs)) :
    insertAll d pairs = d ++ pairs := by
  induction pairs generalizing d with
  | nil => exact (List.append_nil d).symm
  | cons p pairs ih =>
    have hlast : ∀ q ∈ d, q.1 < p.1 := fun q hq =>
      (List.pairwise_append.mp h).2.2 q hq p List.mem_cons_self
    have hstep : insertAll d (p :: pairs) = insertAll (insert p.1 p.2 d) pairs := rfl
    have hassoc : d ++ p :: pairs = (d ++ [p]) ++ pairs := by simp
    rw [hstep, insert_last hlast, hassoc]
    exact ih (hassoc ▸ h)

/-- a dictionary is what its own pairs make -/
theorem ofPairs_of_sorted {d : Dictionary α} (h : Sorted d) : ofPairs d = d :=
  insertAll_of_sorted (d := []) h

theorem Sorted.nodup {d : Dictionary α} (h : Sorted d) : (d.map Prod.fst).Nodup :=
  List.pairwise_map.mpr (h.imp fun hlt => String.ne_of_lt hlt)

/-- in a dictionary at most one member has a key, the one that is found -/
theorem Sorted.filter_key {d : Dictionary α} (h : Sorted d) (key : String) :
    (d.filter fun p => p.1 = key) = ((find? key d).map fun value => (key, value)).toList := by
  cases hf : find? key d with
  | some value => exact filter_eq_of_nodup h.nodup (mem_of_find? hf)
  | none =>
    rw [← ofPairs_of_sorted h, find?_ofPairs, Option.map_eq_none_iff] at hf
    exact List.getLast?_eq_none_iff.mp hf

end Dictionary
end RemoteGuard
