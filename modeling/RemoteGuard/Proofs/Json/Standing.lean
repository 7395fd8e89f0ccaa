import Mathlib.Data.List.Forall2
import Mathlib.Data.List.Nodup
import RemoteGuard.Json.Typed

/-!
# Reading a text and reading its value

A typed shape can be read from the text itself or from the value that the text stands for.  Members
of an object stand in the order of the text, repeated ones included, in the one, and in key order,
the last of each key only, in the other.

`Tree.StandsFor t v` is that `v` is the value of `t`, at any nesting, and `Twin a b` that `b` is the
tree of the value that `a` stands for.  `Agree` compares what one reader gives at `a` and at `b`:
what is read from the text is read from the value, and without repeated keys (`Tree.keysDistinct`)
so is what is not.  Readers of scalars agree, readers made of agreeing ones do (`agree_optional?`,
`agree_dictionary?`), and so does a record whose fields agree (`agree_fields?`).
-/

namespace RemoteGuard.Json

/-! ## texts without repeated keys -/

mutual

/-- no object repeats a key -/
def Tree.keysDistinct : Tree → Bool
  | .array ts => itemKeysDistinct ts
  | .object ms => decide (ms.map Prod.fst).Nodup && memberKeysDistinct ms
  | _ => true

def itemKeysDistinct : List Tree → Bool
  | [] => true
  | t :: ts => t.keysDistinct && itemKeysDistinct ts

def memberKeysDistinct : List (Option String × Tree) → Bool
  | [] => true
  | m :: ms => m.2.keysDistinct && memberKeysDistinct ms

end

theorem itemKeysDistinct_iff {ts : List Tree} :
    itemKeysDistinct ts = true ↔ ∀ t ∈ ts, t.keysDistinct = true := by
  induction ts with
  | nil => simp [itemKeysDistinct]
  | cons t ts ih => simp [itemKeysDistinct, ih]

theorem memberKeysDistinct_iff {ms : List (Option String × Tree)} :
    memberKeysDistinct ms = true ↔ ∀ m ∈ ms, m.2.keysDistinct = true := by
  induction ms with
  | nil => simp [memberKeysDistinct]
  | cons m ms ih => simp [memberKeysDistinct, ih]

theorem Tree.keysDistinct_object {ms : List (Option String × Tree)} :
    (Tree.object ms).keysDistinct = true ↔
      (ms.map Prod.fst).Nodup ∧ ∀ m ∈ ms, m.2.keysDistinct = true := by
  simp [Tree.keysDistinct, memberKeysDistinct_iff]

/-! ## what a text stands for -/

/-- at some nesting, `v` is the value of `t` -/
def Tree.StandsFor (t : Tree) (v : Value) : Prop := ∃ depth, t.valueWithin? depth = some v

/-- a member of a text beside the pair it stands for -/
def StandsForPair (m : Option String × Tree) (p : String × Value) : Prop :=
  m.1 = some p.1 ∧ m.2.StandsFor p.2

theorem standsFor_items {depth : Nat} {ts : List Tree} {vs : List Value}
    (h : itemValues? depth ts = some vs) : List.Forall₂ Tree.StandsFor ts vs := by
  induction ts generalizing vs with
  | nil =>
    cases h
    exact .nil
  | cons t ts ih =>
    rw [itemValues?] at h
    split at h
    · next v vs' hv hvs =>
      cases h
      exact .cons ⟨depth, hv⟩ (ih hvs)
    · cases h

theorem standsFor_members {depth : Nat} {ms : List (Option String × Tree)}
    {vs : List (String × Value)} (h : memberValues? depth ms = some vs) :
    List.Forall₂ StandsForPair ms vs := by
  induction ms generalizing vs with
  | nil =>
    cases h
    exact .nil
  | cons m ms ih =>
    obtain ⟨key, t⟩ := m
    simp only [memberValues?] at h
    split at h
    · next k v vs' hv hvs =>
      cases h
      exact .cons ⟨rfl, depth, hv⟩ (ih hvs)
    · cases h

def Tree.isScalar : Tree → Bool
  | .array _ => false
  | .object _ => false
  | _ => true

/-- a scalar is the tree of its value; an array or an object has parts that stand for parts -/
theorem Tree.StandsFor.cases {t : Tree} {v : Value} (h : t.StandsFor v) :
    (t.isScalar = true ∧ t = v.tree) ∨
    (∃ ts vs, t = .array ts ∧ v = .array vs ∧ List.Forall₂ Tree.StandsFor ts vs) ∨
    ∃ ms vs, t = .object ms ∧ v = .object (Dictionary.ofPairs vs) ∧
      List.Forall₂ StandsForPair ms vs := by
  obtain ⟨depth, h⟩ := h
  cases t with
  | null =>
    cases h
    exact .inl ⟨rfl, rfl⟩
  | bool b =>
    cases h
    exact .inl ⟨rfl, rfl⟩
  | number n =>
    obtain ⟨n, rfl, rfl⟩ := Option.map_eq_some_iff.mp h
    exact .inl ⟨rfl, rfl⟩
  | string s =>
    obtain ⟨s, rfl, rfl⟩ := Option.map_eq_some_iff.mp h
    exact .inl ⟨rfl, rfl⟩
  | array ts =>
    cases depth with
    | zero => cases h
    | succ depth =>
      obtain ⟨vs, hvs, rfl⟩ := Option.map_eq_some_iff.mp h
      exact .inr (.inl ⟨ts, vs, rfl, rfl, standsFor_items hvs⟩)
  | object ms =>
    cases depth with
    | zero => cases h
    | succ depth =>
      obtain ⟨vs, hvs, rfl⟩ := Option.map_eq_some_iff.mp h
      exact .inr (.inr ⟨ms, vs, rfl, rfl, standsFor_members hvs⟩)

theorem itemTrees_eq_map (vs : List Value) : itemTrees vs = vs.map Value.tree := by
  induction vs with
  | nil => rfl
  | cons v vs ih => rw [itemTrees, ih, List.map_cons]

theorem memberTrees_eq_map (d : List (String × Value)) :
    memberTrees d = d.map fun p => (some p.1, p.2.tree) := by
  induction d with
  | nil => rfl
  | cons p d ih =>
    obtain ⟨k, v⟩ := p
    rw [memberTrees, ih, List.map_cons]

theorem keys_of_standsFor {ms : List (Option String × Tree)} {vs : List (String × Value)}
    (h : List.Forall₂ StandsForPair ms vs) : ms.map Prod.fst = (vs.map Prod.fst).map some := by
  induction h with
  | nil => rfl
  | cons hm _ ih => rw [List.map_cons, List.map_cons, List.map_cons, ih, hm.1]

theorem exists_of_mem_left {ι κ : Type} {r : ι → κ → Prop} {as : List ι} {bs : List κ}
    (h : List.Forall₂ r as bs) {a : ι} (ha : a ∈ as) : ∃ b ∈ bs, r a b := by
  induction h with
  | nil => cases ha
  | cons hab _ ih =>
    rcases List.mem_cons.mp ha with rfl | ha
    · exact ⟨_, List.mem_cons_self, hab⟩
    · obtain ⟨b, hb, hr⟩ := ih ha
      exact ⟨b, List.mem_cons_of_mem _ hb, hr⟩

/-- `b` is the tree of the value that `a` stands for -/
def Twin (a b : Tree) : Prop := ∃ v, a.StandsFor v ∧ b = v.tree

theorem Twin.cases {a b : Tree} (h : Twin a b) :
    (a.isScalar = true ∧ a = b) ∨
    (∃ ts us, a = .array ts ∧ b = .array us ∧ List.Forall₂ Twin ts us) ∨
    ∃ ms vs, a = .object ms ∧ b = .object (memberTrees (Dictionary.ofPairs vs)) ∧
      List.Forall₂ StandsForPair ms vs := by
  obtain ⟨v, hv, rfl⟩ := h
  obtain ⟨hscalar, rfl⟩ | ⟨ts, vs, rfl, rfl, hvs⟩ | ⟨ms, vs, rfl, rfl, hvs⟩ := hv.cases
  · exact .inl ⟨hscalar, rfl⟩
  · refine .inr (.inl ⟨ts, itemTrees vs, rfl, rfl, ?_⟩)
    rw [itemTrees_eq_map, List.forall₂_map_right_iff]
    exact hvs.imp fun t v htv => ⟨v, htv, rfl⟩
  · exact .inr (.inr ⟨ms, vs, rfl, rfl, hvs⟩)

/-! ## agreement of readings -/

section Agree
variable {ι α β : Type} {same : ι → ι → Prop} {plain : ι → Prop}

/-- What is read from the one side is read from the other, and of plain ones this is all. -/
structure Agree (same : ι → ι → Prop) (plain : ι → Prop) (read : ι → Option α) : Prop where
  carried : ∀ {a b x}, same a b → read a = some x → read b = some x
  equal : ∀ {a b}, same a b → plain a → read a = read b

theorem agree_some (x : α) : Agree same plain fun _ => some x where
  carried := fun _ h => h
  equal := fun _ _ => rfl

theorem Agree.bind {read : ι → Option α} {next : α → ι → Option β} (h : Agree same plain read)
    (hnext : ∀ x, Agree same plain (next x)) :
    Agree same plain fun a => (read a).bind fun x => next x a where
  carried := by
    intro a b y hab hy
    obtain ⟨x, hx, hxy⟩ := Option.bind_eq_some_iff.mp hy
    rw [h.carried hab hx]
    exact (hnext x).carried hab hxy
  equal := by
    intro a b hab ha
    have hx : read a = read b := h.equal hab ha
    have hnx : (fun x => next x a) = fun x => next x b := funext fun x => (hnext x).equal hab ha
    rw [hx, hnx]

theorem Agree.map {read : ι → Option α} (h : Agree same plain read) (f : α → β) :
    Agree same plain fun a => (read a).map f where
  carried := by
    intro a b y hab hy
    obtain ⟨x, hx, rfl⟩ := Option.map_eq_some_iff.mp hy
    rw [h.carried hab hx, Option.map_some]
  equal := by
    intro a b hab ha
    rw [h.equal hab ha]

/-- a reader of what may be missing, with a reading for that -/
theorem Agree.elim {read : ι → Option α} (h : Agree same plain read) (missing : Option α) :
    Agree (Option.Rel same) (fun o => ∀ a, o = some a → plain a) fun o => o.elim missing read where
  carried := by
    intro o o' x hoo hx
    cases hoo with
    | none => exact hx
    | some hab => exact h.carried hab hx
  equal := by
    intro o o' hoo ho
    cases hoo with
    | none => rfl
    | some hab => exact h.equal hab (ho _ rfl)

theorem Agree.option {read : ι → Option α} (h : Agree same plain read) :
    Agree (Option.Rel same) (fun o => ∀ a, o = some a → plain a) fun o => o.bind read := by
  have hbind : (fun o : Option ι => o.bind read) = fun o => o.elim none read := by
    funext o
    cases o <;> rfl
  rw [hbind]
  exact h.elim none

end Agree

/-- agreement on a text and its value -/
abbrev TreesAgree {α : Type} (read : Tree → Option α) : Prop :=
  Agree Twin (fun t => t.keysDistinct = true) read

namespace Tree
variable {α : Type}

/-- a reader of scalars sees no difference -/
theorem agree_of_scalar {read : Tree → Option α} (harray : ∀ ts, read (.array ts) = none)
    (hobject : ∀ ms, read (.object ms) = none) : TreesAgree read := by
  have hsame : ∀ {a b}, Twin a b → read a = read b := by
    intro a b hab
    obtain ⟨-, rfl⟩ | ⟨ts, us, rfl, rfl, -⟩ | ⟨ms, vs, rfl, rfl, -⟩ := hab.cases
    · rfl
    · rw [harray, harray]
    · rw [hobject, hobject]
  exact ⟨fun hab hx => hsame hab ▸ hx, fun hab _ => hsame hab⟩

theorem agree_text? : TreesAgree text? := agree_of_scalar (fun _ => rfl) (fun _ => rfl)

theorem agree_word64? : TreesAgree word64? := agree_of_scalar (fun _ => rfl) (fun _ => rfl)

theorem agree_optional? {read : Tree → Option α} (h : TreesAgree read) :
    TreesAgree (optional? read) := by
  have hcases : ∀ {a b}, Twin a b →
      a = b ∨ optional? read a = (read a).map some ∧ optional? read b = (read b).map some := by
    intro a b hab
    obtain ⟨-, rfl⟩ | ⟨ts, us, rfl, rfl, -⟩ | ⟨ms, vs, rfl, rfl, -⟩ := hab.cases
    · exact .inl rfl
    · exact .inr ⟨rfl, rfl⟩
    · exact .inr ⟨rfl, rfl⟩
  constructor
  · intro a b x hab hx
    rcases hcases hab with rfl | ⟨ha, hb⟩
    · exact hx
    · rw [ha] at hx
      rw [hb]
      exact (h.map some).carried hab hx
  · intro a b hab hd
    rcases hcases hab with rfl | ⟨ha, hb⟩
    · rfl
    · rw [ha, hb]
      exact (h.map some).equal hab hd

/-! ## dictionaries -/

theorem pairs?_cons {read : Tree → Option α} {key : Option String} {t : Tree}
    {ms : List (Option String × Tree)} {xs : List (String × α)} :
    pairs? read ((key, t) :: ms) = some xs ↔
      ∃ k x xs', key = some k ∧ read t = some x ∧ pairs? read ms = some xs' ∧
        xs = (k, x) :: xs' := by
  simp only [pairs?]
  constructor
  · intro h
    split at h
    · next k x xs' hx hxs =>
      cases h
      exact ⟨k, x, xs', rfl, hx, hxs, rfl⟩
    · cases h
  · rintro ⟨k, x, xs', rfl, hx, hxs, rfl⟩
    rw [hx, hxs]

theorem pairs?_isSome {read : Tree → Option α} {ms : List (Option String × Tree)} :
    (pairs? read ms).isSome = true ↔
      ∀ m ∈ ms, m.1.isSome = true ∧ (read m.2).isSome = true := by
  induction ms with
  | nil => simp [pairs?]
  | cons m ms ih =>
    obtain ⟨key, t⟩ := m
    rw [List.forall_mem_cons, ← ih, Option.isSome_iff_exists]
    constructor
    · rintro ⟨xs, hxs⟩
      obtain ⟨k, x, xs', rfl, hx, hxs', rfl⟩ := pairs?_cons.mp hxs
      exact ⟨⟨rfl, by rw [hx]; rfl⟩, by rw [hxs']; rfl⟩
    · rintro ⟨⟨hk, hx⟩, hxs⟩
      obtain ⟨k, rfl⟩ := Option.isSome_iff_exists.mp hk
      obtain ⟨x, hx⟩ := Option.isSome_iff_exists.mp hx
      obtain ⟨xs, hxs⟩ := Option.isSome_iff_exists.mp hxs
      exact ⟨_, pairs?_cons.mpr ⟨k, x, xs, rfl, hx, hxs, rfl⟩⟩

/-- one more member of a value is one more pair that is read -/
theorem pairs?_insert {read : Tree → Option α} {d : Object} {e : Dictionary α} {v : Value} {x : α}
    (h : pairs? read (memberTrees d) = some e) (hx : read v.tree = some x) (key : String) :
    pairs? read (memberTrees (d.insert key v)) = some (e.insert key x) := by
  induction d generalizing e with
  | nil =>
    cases h
    exact pairs?_cons.mpr ⟨key, x, [], rfl, hx, rfl, rfl⟩
  | cons p d ih =>
    obtain ⟨l, w⟩ := p
    obtain ⟨_, y, e', hl, hy, he', rfl⟩ := pairs?_cons.mp h
    obtain rfl := Option.some.inj hl
    rw [Dictionary.insert, Dictionary.insert]
    split
    · exact pairs?_cons.mpr ⟨key, x, e', rfl, hx, he', rfl⟩
    · split
      · exact pairs?_cons.mpr ⟨key, x, (l, y) :: e', rfl, hx, h, rfl⟩
      · exact pairs?_cons.mpr ⟨l, y, _, rfl, hy, ih he', rfl⟩

theorem pairs?_insertAll {read : Tree → Option α} (hread : TreesAgree read)
    {ms : List (Option String × Tree)} {vs : List (String × Value)}
    (h : List.Forall₂ StandsForPair ms vs) {xs : List (String × α)}
    (hxs : pairs? read ms = some xs) {d : Object} {e : Dictionary α}
    (hd : pairs? read (memberTrees d) = some e) :
    pairs? read (memberTrees (d.insertAll vs)) = some (e.insertAll xs) := by
  induction h generalizing xs d e with
  | nil =>
    cases hxs
    exact hd
  | @cons m p ms vs hmp _ ih =>
    obtain ⟨_, t⟩ := m
    obtain ⟨k, v⟩ := p
    obtain ⟨rfl, htv⟩ := hmp
    obtain ⟨_, x, xs', hk, hx, hxs', rfl⟩ := pairs?_cons.mp hxs
    obtain rfl := Option.some.inj hk
    have hv : read v.tree = some x := hread.carried ⟨v, htv, rfl⟩ hx
    exact ih hxs' (pairs?_insert hd hv k)

/-- Without repeated keys every member of the text is one of the value, so that a text has its pairs
if the value has them. -/
theorem pairs?_isSome_of_value {read : Tree → Option α} (hread : TreesAgree read)
    {ms : List (Option String × Tree)} {vs : List (String × Value)}
    (h : List.Forall₂ StandsForPair ms vs) (hd : (Tree.object ms).keysDistinct = true)
    (hsome : (pairs? read (memberTrees (Dictionary.ofPairs vs))).isSome = true) :
    (pairs? read ms).isSome = true := by
  obtain ⟨hkeys, hplain⟩ := keysDistinct_object.mp hd
  have hnodup : (vs.map Prod.fst).Nodup := List.Nodup.of_map some (keys_of_standsFor h ▸ hkeys)
  apply pairs?_isSome.mpr
  intro m hm
  obtain ⟨p, hp, hkey, hvalue⟩ := exists_of_mem_left h hm
  have hmem : (some p.1, p.2.tree) ∈ memberTrees (Dictionary.ofPairs vs) := by
    rw [memberTrees_eq_map]
    exact List.mem_map.mpr ⟨p, Dictionary.mem_ofPairs hnodup hp, rfl⟩
  have hsame : read m.2 = read p.2.tree := hread.equal ⟨p.2, hvalue, rfl⟩ (hplain m hm)
  rw [hkey, hsame]
  exact ⟨rfl, (pairs?_isSome.mp hsome _ hmem).2⟩

theorem dictionary?_carried {read : Tree → Option α} (hread : TreesAgree read) {a b : Tree}
    {x : Dictionary α} (hab : Twin a b) (hx : dictionary? read a = some x) :
    dictionary? read b = some x := by
  obtain ⟨-, rfl⟩ | ⟨ts, us, rfl, rfl, -⟩ | ⟨ms, vs, rfl, rfl, hvs⟩ := hab.cases
  · exact hx
  · cases hx
  · obtain ⟨xs, hxs, rfl⟩ := Option.map_eq_some_iff.mp hx
    have hpairs : pairs? read (memberTrees (Dictionary.ofPairs vs))
        = some (Dictionary.ofPairs xs) :=
      pairs?_insertAll hread hvs hxs (d := []) (e := []) rfl
    rw [dictionary?, hpairs, Option.map_some,
      Dictionary.ofPairs_of_sorted (Dictionary.sorted_ofPairs xs)]

theorem agree_dictionary? {read : Tree → Option α} (hread : TreesAgree read) :
    TreesAgree (dictionary? read) := by
  refine ⟨dictionary?_carried hread, ?_⟩
  intro a b hab hd
  cases ha : dictionary? read a with
  | some x => exact (dictionary?_carried hread hab ha).symm
  | none =>
    obtain ⟨-, rfl⟩ | ⟨ts, us, rfl, rfl, -⟩ | ⟨ms, vs, rfl, rfl, hvs⟩ := hab.cases
    · exact ha.symm
    · rfl
    · rw [dictionary?, Option.map_eq_none_iff] at ha
      have hnone : ¬ (pairs? read (memberTrees (Dictionary.ofPairs vs))).isSome = true := by
        intro hsome
        have hms := pairs?_isSome_of_value hread hvs hd hsome
        rw [ha] at hms
        cases hms
      rw [dictionary?, Option.not_isSome_iff_eq_none.mp hnone, Option.map_none]

end Tree

/-! ## fields of records -/

/-- a field of a text beside the same field of its value -/
abbrev TwinField : Option Tree → Option Tree → Prop := Option.Rel Twin

def FieldKeysDistinct (field : Option Tree) : Prop := ∀ t, field = some t → t.keysDistinct = true

/-- agreement on a field of a text and of its value -/
abbrev FieldsAgree {α : Type} (read : Option Tree → Option α) : Prop :=
  Agree TwinField FieldKeysDistinct read

/-- agreement on all fields of a record -/
abbrev RecordsAgree {α : Type} (read : List (Option Tree) → Option α) : Prop :=
  Agree (List.Forall₂ TwinField) (fun fields => ∀ f ∈ fields, FieldKeysDistinct f) read

namespace Tree

theorem standsFor_valuesOf {ms : List (Option String × Tree)} {vs : List (String × Value)}
    (h : List.Forall₂ StandsForPair ms vs) (name : String) :
    List.Forall₂ (fun t p => t.StandsFor p.2) (valuesOf name ms)
      (vs.filter fun p => p.1 = name) := by
  induction h with
  | nil => exact .nil
  | @cons m p ms vs hmp _ ih =>
    rw [valuesOf, List.filter_cons, List.filter_cons]
    by_cases hk : p.1 = name
    · simp only [hmp.1, hk, decide_true, if_true]
      exact .cons hmp.2 ih
    · simp only [hmp.1, hk, Option.some.injEq, decide_false, Bool.false_eq_true, if_false]
      exact ih

theorem valuesOf_memberTrees (name : String) (d : List (String × Value)) :
    valuesOf name (memberTrees d) = (d.filter fun p => p.1 = name).map fun p => p.2.tree := by
  rw [valuesOf, memberTrees_eq_map, List.filter_map, List.map_map]
  simp [Function.comp_def]

/-- a value repeats no member -/
theorem field?_memberTrees {d : Object} (h : d.Sorted) (name : String) :
    field? name (memberTrees d) = some ((d.find? name).map Value.tree) := by
  rw [field?, valuesOf_memberTrees, h.filter_key name]
  cases d.find? name <;> rfl

theorem field?_carried {ms : List (Option String × Tree)} {vs : List (String × Value)}
    (h : List.Forall₂ StandsForPair ms vs) {name : String} {field : Option Tree}
    (hf : field? name ms = some field) :
    ∃ field', field? name (memberTrees (Dictionary.ofPairs vs)) = some field' ∧
      TwinField field field' := by
  refine ⟨_, field?_memberTrees (Dictionary.sorted_ofPairs vs) name, ?_⟩
  have hvalues := standsFor_valuesOf h name
  rw [Dictionary.find?_ofPairs]
  rw [field?] at hf
  split at hf
  · next hnone =>
    cases hf
    rw [hnone, List.forall₂_nil_left_iff] at hvalues
    rw [hvalues]
    exact .none
  · next t hone =>
    cases hf
    rw [hone, List.forall₂_cons_left_iff] at hvalues
    obtain ⟨p, ps, htp, hps, hvalues⟩ := hvalues
    rw [hvalues, List.forall₂_nil_left_iff.mp hps]
    exact .some ⟨p.2, htp, rfl⟩
  · cases hf

/-- without repeated keys every field is there once or missing -/
theorem field?_isSome {ms : List (Option String × Tree)} (h : (ms.map Prod.fst).Nodup)
    (name : String) : (field? name ms).isSome = true := by
  rw [field?, valuesOf]
  cases hms : ms.filter fun m => m.1 = some name with
  | nil => rfl
  | cons m rest =>
    have hm : m ∈ ms ∧ m.1 = some name := by simpa using (hms ▸ List.mem_cons_self :
      m ∈ ms.filter fun m => m.1 = some name)
    have hone := Dictionary.filter_eq_of_nodup h hm.1
    simp only [hm.2, hms] at hone
    rw [hone]
    rfl

theorem mem_of_field? {ms : List (Option String × Tree)} {name : String} {t : Tree}
    (h : field? name ms = some (some t)) : ∃ m ∈ ms, m.2 = t := by
  rw [field?] at h
  split at h
  · cases h
  · next u hone =>
    obtain rfl : u = t := by simpa using h
    have hu : u ∈ valuesOf name ms := hone ▸ List.mem_cons_self
    obtain ⟨m, hm, rfl⟩ := List.mem_map.mp hu
    exact ⟨m, (List.mem_filter.mp hm).1, rfl⟩
  · cases h

theorem mapM_eq_some {ι β : Type} {f : ι → Option β} {as : List ι} {bs : List β} :
    as.mapM f = some bs ↔ List.Forall₂ (fun a b => f a = some b) as bs := by
  induction as generalizing bs with
  | nil => simp [eq_comm]
  | cons a as ih =>
    rw [List.mapM_cons, List.forall₂_cons_left_iff]
    simp only [Option.bind_eq_bind, Option.bind_eq_some_iff, Option.pure_def, Option.some.injEq, ih]
    constructor
    · rintro ⟨b, hb, bs', hbs, rfl⟩
      exact ⟨b, bs', hb, hbs, rfl⟩
    · rintro ⟨b, bs', hb, hbs, rfl⟩
      exact ⟨b, hb, bs', hbs, rfl⟩

theorem fields?_of_isScalar {t : Tree} (h : t.isScalar = true) (names : List String) :
    fields? names t = none := by
  cases t with
  | array ts => cases h
  | object ms => cases h
  | _ => rfl

theorem fields?_length {names : List String} {t : Tree} {fields : List (Option Tree)}
    (h : fields? names t = some fields) : fields.length = names.length := by
  cases t with
  | object ms =>
    rw [fields?] at h
    split at h
    · exact (mapM_eq_some.mp h).length_eq.symm
    · cases h
  | array ts =>
    rw [fields?] at h
    split at h
    · cases h
      rw [List.length_append, List.length_map, List.length_replicate]
      omega
    · cases h
  | _ => cases h

/-- all keys of a text that stands for something are texts -/
theorem fields?_object {ms : List (Option String × Tree)} {vs : List (String × Value)}
    (h : List.Forall₂ StandsForPair ms vs) (names : List String) :
    fields? names (.object ms) = names.mapM fun name => field? name ms := by
  have hkeys : (ms.all fun m => m.1.isSome) = true := by
    apply List.all_eq_true.mpr
    intro m hm
    obtain ⟨p, -, hmp⟩ := exists_of_mem_left h hm
    rw [hmp.1]
    rfl
  rw [fields?, if_pos hkeys]

theorem fields?_memberTrees (d : Object) (names : List String) :
    fields? names (.object (memberTrees d)) = names.mapM fun name => field? name (memberTrees d) := by
  rw [fields?, if_pos]
  simp [memberTrees_eq_map]

theorem twinFields_of_items {ts us : List Tree} (h : List.Forall₂ Twin ts us) (n : Nat) :
    List.Forall₂ TwinField (ts.map some ++ List.replicate n none)
      (us.map some ++ List.replicate n none) := by
  induction h with
  | nil => exact List.forall₂_same.mpr fun f hf => List.eq_of_mem_replicate hf ▸ .none
  | cons hab _ ih => exact .cons (.some hab) ih

theorem fields?_carried {names : List String} {a b : Tree} {fields : List (Option Tree)}
    (hab : Twin a b) (h : fields? names a = some fields) :
    ∃ fields', fields? names b = some fields' ∧ List.Forall₂ TwinField fields fields' := by
  obtain ⟨hscalar, rfl⟩ | ⟨ts, us, rfl, rfl, htu⟩ | ⟨ms, vs, rfl, rfl, hvs⟩ := hab.cases
  · rw [fields?_of_isScalar hscalar] at h
    cases h
  · rw [fields?] at h ⊢
    rw [← htu.length_eq]
    split at h
    · next hlen =>
      cases h
      exact ⟨_, if_pos hlen, twinFields_of_items htu _⟩
    · cases h
  · rw [fields?_object hvs, mapM_eq_some] at h
    simp only [fields?_memberTrees, mapM_eq_some]
    induction h with
    | nil => exact ⟨[], .nil, .nil⟩
    | cons hf _ ih =>
      obtain ⟨field', hf', htwin⟩ := field?_carried hvs hf
      obtain ⟨fields', hfs', htwins⟩ := ih
      exact ⟨field' :: fields', .cons hf' hfs', .cons htwin htwins⟩

/-- without repeated keys a record has its fields if its value has them -/
theorem fields?_none {names : List String} {a b : Tree} (hab : Twin a b)
    (hd : a.keysDistinct = true) (h : fields? names a = none) : fields? names b = none := by
  obtain ⟨-, rfl⟩ | ⟨ts, us, rfl, rfl, htu⟩ | ⟨ms, vs, rfl, rfl, hvs⟩ := hab.cases
  · exact h
  · rw [fields?] at h ⊢
    rw [← htu.length_eq]
    split at h
    · cases h
    · next hlen => exact if_neg hlen
  · have hsome : (names.mapM fun name => field? name ms).isSome = true := by
      clear h hab
      induction names with
      | nil => rfl
      | cons name names ih =>
        obtain ⟨field, hf⟩ :=
          Option.isSome_iff_exists.mp (field?_isSome (keysDistinct_object.mp hd).1 name)
        obtain ⟨fields, hfs⟩ := Option.isSome_iff_exists.mp ih
        have hall : (name :: names).mapM (fun name => field? name ms) = some (field :: fields) :=
          mapM_eq_some.mpr (.cons hf (mapM_eq_some.mp hfs))
        rw [hall]
        rfl
    rw [fields?_object hvs] at h
    rw [h] at hsome
    cases hsome

theorem fields?_keysDistinct {names : List String} {a b : Tree} {fields : List (Option Tree)}
    (hab : Twin a b) (hd : a.keysDistinct = true) (h : fields? names a = some fields) :
    ∀ f ∈ fields, FieldKeysDistinct f := by
  rintro f hf t rfl
  obtain ⟨hscalar, rfl⟩ | ⟨ts, us, rfl, rfl, -⟩ | ⟨ms, vs, rfl, rfl, hvs⟩ := hab.cases
  · rw [fields?_of_isScalar hscalar] at h
    cases h
  · rw [fields?] at h
    split at h
    · cases h
      have ht : t ∈ ts := by simpa using hf
      exact itemKeysDistinct_iff.mp hd t ht
    · cases h
  · rw [fields?_object hvs, mapM_eq_some] at h
    obtain ⟨name, -, hname⟩ := exists_of_mem_left h.flip hf
    obtain ⟨m, hm, rfl⟩ := mem_of_field? hname
    exact (keysDistinct_object.mp hd).2 m hm

/-- a record whose fields agree does -/
theorem agree_fields? {α : Type} {read : List (Option Tree) → Option α} (h : RecordsAgree read)
    (names : List String) : TreesAgree fun t => (fields? names t).bind read where
  carried := by
    intro a b x hab hx
    obtain ⟨fields, hf, hread⟩ := Option.bind_eq_some_iff.mp hx
    obtain ⟨fields', hf', htwin⟩ := fields?_carried hab hf
    rw [hf']
    exact h.carried htwin hread
  equal := by
    intro a b hab hd
    cases hf : fields? names a with
    | none => rw [fields?_none hab hd hf]
    | some fields =>
      obtain ⟨fields', hf', htwin⟩ := fields?_carried hab hf
      rw [hf']
      exact h.equal htwin (fields?_keysDistinct hab hd hf)

/-- the field at a place of a record -/
def fieldAt {α : Type} (i : Nat) (read : Option Tree → Option α) (fields : List (Option Tree)) :
    Option α :=
  fields[i]?.bind read

theorem agree_fieldAt {α : Type} {read : Option Tree → Option α} (h : FieldsAgree read) (i : Nat) :
    RecordsAgree (fieldAt i read) := by
  have hrel : ∀ {fs gs : List (Option Tree)}, List.Forall₂ TwinField fs gs →
      ∀ i : Nat, Option.Rel TwinField fs[i]? gs[i]? := by
    intro fs gs hfg
    induction hfg with
    | nil => exact fun _ => .none
    | cons hf _ ih =>
      intro i
      cases i with
      | zero => exact .some hf
      | succ i => exact ih i
  constructor
  · intro fs gs x hfg hx
    exact h.option.carried (hrel hfg i) hx
  · intro fs gs hfg hplain
    exact h.option.equal (hrel hfg i) fun f hf => hplain f (List.mem_of_getElem? hf)

end Tree
end RemoteGuard.Json
