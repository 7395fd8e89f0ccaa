import Mathlib.Data.List.Nodup
import RemoteGuard.Proofs.Run
import RemoteGuard.Sampling.RecencyCache

/-!
# A recency cache is a bounded list

A `RecencyList` is the plain form of a cache: the keys that are held, each once, the most recently
used first.  A key that is used moves to the front, and a new key takes the place of the last one if
the list is full.

A `RecencyCache` keeps the same in two maps and a counter.  `RecencyCache.Records` says that the
maps record a list of uses, one for each key, whose ticks fall from the front to the back.

* `Records.place`, `Records.makeRoom`   what the two halves of an operation do to the record;
* `Shows.get?`, `Shows.store`, `Shows.fetch`   so an operation of the cache is that of the list;
* `shows_of_actions`                    and so is a run of them;
* `RecencyCache.answers_of_actions`     what is therefore known of a cache from its actions.
-/

namespace RemoteGuard

/-! ## the first entry of a map -/

section
variable {κ : Type} (m : Std.TreeMap Nat κ)

theorem minEntry?_eq_head? : m.minEntry? = m.toList.head? := by
  show Std.DTreeMap.Internal.Impl.Const.minEntry? m.inner.inner
    = (Std.DTreeMap.Internal.Impl.Const.toList m.inner.inner).head?
  rw [Std.DTreeMap.Internal.Impl.Const.toList_eq_toListModel_map]
  fun_induction Std.DTreeMap.Internal.Impl.Const.minEntry? m.inner.inner with
  | case1 => rfl
  | case2 => simp
  | case3 => simp_all

/-- the first entry is one of the map, and no entry comes before it -/
theorem minEntry?_cases :
    (m.minEntry? = none ∧ ∀ tick : Nat, m[tick]? = none) ∨
    ∃ (first : Nat) (key : κ), m.minEntry? = some (first, key) ∧ m[first]? = some key ∧
      ∀ (tick : Nat) (other : κ), m[tick]? = some other → first ≤ tick := by
  have hentry (tick : Nat) (key : κ) : m[tick]? = some key ↔ (tick, key) ∈ m.toList :=
    Std.TreeMap.mem_toList_iff_getElem?_eq_some.symm
  have hsorted := Std.TreeMap.ordered_keys_toList (t := m)
  rw [minEntry?_eq_head?]
  cases hl : m.toList with
  | nil =>
    refine .inl ⟨rfl, fun tick => Option.eq_none_iff_forall_ne_some.mpr fun key h => ?_⟩
    rw [hentry, hl] at h
    exact List.not_mem_nil h
  | cons p rest =>
    rw [hl, List.pairwise_cons] at hsorted
    refine .inr ⟨p.1, p.2, rfl, ?_, fun tick other h => ?_⟩
    · rw [hentry, hl]
      exact List.mem_cons_self
    · rw [hentry, hl] at h
      rcases List.mem_cons.mp h with rfl | h
      · exact Nat.le_refl _
      · have hlt : compare p.1 tick = .lt := hsorted.1 _ h
        rw [Nat.compare_eq_lt] at hlt
        omega

end

/-! ## the list -/

/-- keys with their values, the most recently used key first -/
abbrev RecencyList (κ α : Type) := List (κ × α)

/-- all but the last, if there are as many as there may be -/
def makingRoom {β : Type} (capacity : Nat) (l : List β) : List β :=
  if l.length < capacity then l else l.dropLast

theorem makingRoom_map {β γ : Type} (f : β → γ) (capacity : Nat) (l : List β) :
    makingRoom capacity (l.map f) = (makingRoom capacity l).map f := by
  unfold makingRoom
  rw [List.length_map]
  split
  · rfl
  · exact List.map_dropLast.symm

theorem sublist_makingRoom {β : Type} (capacity : Nat) (l : List β) :
    (makingRoom capacity l).Sublist l := by
  unfold makingRoom
  split
  · exact .refl l
  · exact List.dropLast_sublist l

namespace RecencyList
variable {κ α : Type} [BEq κ]

def without (key : κ) (l : RecencyList κ α) : RecencyList κ α := l.filter fun p => p.1 != key

/-- Stores a value.  A key that is held moves to the front, a new one may take another's place. -/
def store (capacity : Nat) (key : κ) (value : α) (l : RecencyList κ α) : RecencyList κ α :=
  match l.lookup key with
  | some _ => (key, value) :: l.without key
  | none => (key, value) :: makingRoom capacity l

/-- The value of a key, which moves to the front if it is held. -/
def get? (key : κ) (l : RecencyList κ α) : Option α × RecencyList κ α :=
  match l.lookup key with
  | some value => (some value, (key, value) :: l.without key)
  | none => (none, l)

/-- The value of a key, computed and stored if it is not held.  A computation that fails leaves the
room that was made for its value. -/
def fetch (capacity : Nat) (key : κ) (computed : Option α) (l : RecencyList κ α) :
    RecencyCache.Fetched α × RecencyList κ α :=
  match l.lookup key with
  | some value => (.held value, (key, value) :: l.without key)
  | none =>
    match computed with
    | some value => (.computed value, (key, value) :: makingRoom capacity l)
    | none => (.failed, makingRoom capacity l)

theorem without_of_lookup [LawfulBEq κ] {l : RecencyList κ α} {key : κ}
    (h : l.lookup key = none) : l.without key = l := by
  refine List.filter_eq_self.mpr fun p hp => ?_
  have hne := List.lookup_eq_none_iff.mp h p hp
  rw [bne_iff_ne] at hne ⊢
  exact hne.symm

/-- a key that was just used stays where it is -/
theorem store_front [LawfulBEq κ] (capacity : Nat) (key : κ) (held value : α)
    (l : RecencyList κ α) :
    store capacity key value ((key, held) :: l.without key) = (key, value) :: l.without key := by
  rw [store, List.lookup_cons_self]
  simp [without]

end RecencyList

/-! ## actions -/

namespace RecencyCache

/-- what is done to a cache -/
inductive Action (κ α : Type) where
  | store (key : κ) (value : α)
  | get (key : κ)
  /-- with what the computation gives, if it does not fail -/
  | fetch (key : κ) (computed : Option α)
  | clear

/-- what a cache answers -/
inductive Answer (α : Type) where
  | done
  | found (value : Option α)
  | fetched (result : Fetched α)
deriving DecidableEq

section
variable {κ α : Type} [BEq κ] [Hashable κ]

def act (a : Action κ α) (c : RecencyCache κ α) : Answer α × RecencyCache κ α :=
  match a with
  | .store key value => (.done, c.store key value)
  | .get key => (.found (c.get? key).1, (c.get? key).2)
  | .fetch key computed =>
    (.fetched (c.fetch key fun _ => computed).1, (c.fetch key fun _ => computed).2)
  | .clear => (.done, c.clear)

/-- the value that a key is held with; looking is not a use -/
def value? (c : RecencyCache κ α) (key : κ) : Option α := c.entries[key]?.map Prod.fst

end
end RecencyCache

def RecencyList.act {κ α : Type} [BEq κ] (capacity : Nat) (a : RecencyCache.Action κ α)
    (l : RecencyList κ α) : RecencyCache.Answer α × RecencyList κ α :=
  match a with
  | .store key value => (.done, l.store capacity key value)
  | .get key => (.found (l.get? key).1, (l.get? key).2)
  | .fetch key computed => (.fetched (l.fetch capacity key computed).1,
      (l.fetch capacity key computed).2)
  | .clear => (.done, [])

/-! ## what the maps record -/

/-- the last use of a key that is held -/
structure Use (κ α : Type) where
  key : κ
  value : α
  tick : Nat

def Use.entry {κ α : Type} (u : Use κ α) : κ × α := (u.key, u.value)

namespace RecencyCache
section
variable {κ α : Type} [BEq κ] [Hashable κ]

/-- the maps record these uses, the latest first -/
structure Records (c : RecencyCache κ α) (us : List (Use κ α)) : Prop where
  entries_iff : ∀ key value tick, c.entries[key]? = some (value, tick) ↔ ⟨key, value, tick⟩ ∈ us
  order_iff : ∀ tick key, c.order[tick]? = some key ↔ ∃ value, ⟨key, value, tick⟩ ∈ us
  recent : us.Pairwise fun u w => w.tick < u.tick
  tick_le : ∀ u ∈ us, u.tick ≤ c.tick
  size_eq : c.size = us.length
  length_le : us.length ≤ c.capacity

/-- the cache is this list -/
def Shows (c : RecencyCache κ α) (l : RecencyList κ α) : Prop :=
  ∃ us, c.Records us ∧ us.map Use.entry = l

variable {c : RecencyCache κ α} {us : List (Use κ α)} {l : RecencyList κ α}

theorem Records.advance (h : c.Records us) : c.advance.Records us where
  entries_iff := h.entries_iff
  order_iff := h.order_iff
  recent := h.recent
  tick_le := fun u hu => Nat.le_succ_of_le (h.tick_le u hu)
  size_eq := h.size_eq
  length_le := h.length_le

theorem Records.tick_lt_advance (h : c.Records us) : ∀ u ∈ us, u.tick < c.advance.tick :=
  fun u hu => Nat.lt_succ_of_le (h.tick_le u hu)

/-- a key has one use -/
theorem Records.eq_of_key (h : c.Records us) {u w : Use κ α} (hu : u ∈ us) (hw : w ∈ us)
    (hkey : u.key = w.key) : u = w := by
  have hu' := (h.entries_iff u.key u.value u.tick).mpr hu
  have hw' := (h.entries_iff w.key w.value w.tick).mpr hw
  rw [hkey, hw'] at hu'
  cases u
  cases w
  cases hu'
  cases hkey
  rfl

/-- without the tick that a key has, `order` leads to the other keys -/
theorem Records.order_others (h : c.Records us) (key k : κ) (t : Nat) :
    (if c.entries[key]?.map Prod.snd = some t then none else c.order[t]?) = some k
      ↔ (∃ value, ⟨k, value, t⟩ ∈ us) ∧ k ≠ key := by
  rw [← h.order_iff]
  by_cases hprevious : c.entries[key]?.map Prod.snd = some t
  · rw [if_pos hprevious]
    obtain ⟨p, hp, rfl⟩ := Option.map_eq_some_iff.mp hprevious
    have hu := (h.entries_iff key p.1 p.2).mp hp
    have horder := (h.order_iff p.2 key).mpr ⟨_, hu⟩
    simp [horder, eq_comm]
  · rw [if_neg hprevious]
    refine ⟨fun hk => ⟨hk, ?_⟩, And.left⟩
    rintro rfl
    obtain ⟨v, hu⟩ := (h.order_iff t k).mp hk
    have he := (h.entries_iff k v t).mpr hu
    rw [he] at hprevious
    exact hprevious rfl

theorem order_place (c : RecencyCache κ α) (key : κ) (value : α) (t : Nat) :
    (c.place key value (c.entries[key]?.map Prod.snd)).order[t]?
      = if c.tick = t then some key
        else if c.entries[key]?.map Prod.snd = some t then none else c.order[t]? := by
  unfold RecencyCache.place
  cases c.entries[key]? with
  | none => simp [Std.TreeMap.getElem?_insert]
  | some p => simp [Std.TreeMap.getElem?_insert, Std.TreeMap.getElem?_erase]

namespace Shows

theorem advance (h : c.Shows l) : c.advance.Shows l := by
  obtain ⟨us, hr, rfl⟩ := h
  exact ⟨us, hr.advance, rfl⟩

theorem mem_iff (h : c.Shows l) (key : κ) (value : α) :
    (key, value) ∈ l ↔ c.value? key = some value := by
  obtain ⟨us, hr, rfl⟩ := h
  rw [List.mem_map, value?, Option.map_eq_some_iff]
  constructor
  · rintro ⟨u, hu, he⟩
    cases he
    exact ⟨_, (hr.entries_iff _ _ _).mpr hu, rfl⟩
  · rintro ⟨⟨_, tick⟩, he, rfl⟩
    exact ⟨_, (hr.entries_iff _ _ _).mp he, rfl⟩

theorem nodup (h : c.Shows l) : (l.map Prod.fst).Nodup := by
  obtain ⟨us, hr, rfl⟩ := h
  rw [List.map_map]
  refine List.pairwise_map.mpr (hr.recent.imp_of_mem fun hu hw hlt hkey => ?_)
  have hsame := congrArg Use.tick (hr.eq_of_key hu hw hkey)
  omega

theorem size_eq (h : c.Shows l) : c.size = l.length := by
  obtain ⟨us, hr, rfl⟩ := h
  rw [hr.size_eq, List.length_map]

theorem length_le (h : c.Shows l) : l.length ≤ c.capacity := by
  obtain ⟨us, hr, rfl⟩ := h
  rw [List.length_map]
  exact hr.length_le

end Shows

/-! ## capacity and clock -/

theorem frame_makeRoomFor (key : κ) (c : RecencyCache κ α) :
    (c.makeRoomFor key).capacity = c.capacity ∧ (c.makeRoomFor key).tick = c.tick := by
  unfold makeRoomFor makeRoom
  split
  · exact ⟨rfl, rfl⟩
  · split
    · exact ⟨rfl, rfl⟩
    · split <;> exact ⟨rfl, rfl⟩

theorem frame_store (key : κ) (value : α) (c : RecencyCache κ α) :
    (c.store key value).capacity = c.capacity ∧ (c.store key value).tick = c.tick + 1 := by
  obtain ⟨hcapacity, htick⟩ := frame_makeRoomFor key c
  exact ⟨hcapacity, congrArg (· + 1) htick⟩

theorem frame_get? (key : κ) (c : RecencyCache κ α) :
    (c.get? key).2.capacity = c.capacity ∧ (c.get? key).2.tick = c.tick + 1 := by
  unfold get?
  simp only
  split <;> exact ⟨rfl, rfl⟩

theorem frame_fetch (key : κ) (compute : Unit → Option α) (c : RecencyCache κ α) :
    (c.fetch key compute).2.capacity = c.capacity ∧
      (c.fetch key compute).2.tick = c.tick + 1 := by
  obtain ⟨hcapacity, htick⟩ := frame_makeRoomFor key c
  unfold fetch
  simp only
  split
  · exact ⟨hcapacity, congrArg (· + 1) htick⟩
  · split <;> exact ⟨hcapacity, congrArg (· + 1) htick⟩

/-- an action moves the clock by one at most -/
theorem frame_act (a : Action κ α) (c : RecencyCache κ α) :
    (act a c).2.capacity = c.capacity ∧ (act a c).2.tick ≤ c.tick + 1 := by
  cases a with
  | store key value => exact (frame_store key value c).imp_right Nat.le_of_eq
  | get key => exact (frame_get? key c).imp_right Nat.le_of_eq
  | fetch key computed => exact (frame_fetch key _ c).imp_right Nat.le_of_eq
  | clear => exact ⟨rfl, Nat.le_succ _⟩

theorem tick_runAll (actions : List (Action κ α)) (c : RecencyCache κ α) :
    (runAll act actions c).2.tick ≤ c.tick + actions.length := by
  induction actions generalizing c with
  | nil => exact Nat.le_refl _
  | cons a actions ih =>
    have hstep := (frame_act a c).2
    have hrest := ih (act a c).2
    rw [runAll_cons, List.length_cons]
    show (runAll act actions (act a c).2).2.tick ≤ _
    omega

/-- a word is enough for the clock as long as one is enough for the number of actions -/
theorem tick_of_actions (capacity : Nat) (actions : List (Action κ α)) :
    (runAll act actions (empty capacity : RecencyCache κ α)).2.tick ≤ actions.length := by
  have hle := tick_runAll actions (empty capacity : RecencyCache κ α)
  rwa [show (empty capacity : RecencyCache κ α).tick = 0 from rfl, Nat.zero_add] at hle

variable [LawfulBEq κ]

theorem shows_empty (capacity : Nat) : (empty capacity : RecencyCache κ α).Shows [] := by
  refine ⟨[], ⟨?_, ?_, .nil, ?_, ?_, Nat.zero_le _⟩, rfl⟩ <;> simp [empty, size]

theorem shows_clear (c : RecencyCache κ α) : c.clear.Shows [] := by
  refine ⟨[], ⟨?_, ?_, .nil, ?_, ?_, Nat.zero_le _⟩, rfl⟩ <;> simp [clear, size]

/-! ## the two halves of an operation -/

namespace Records

/-- the other uses are those before and after that of a key -/
theorem split (h : c.Records us) {u : Use κ α} (hu : u ∈ us) :
    ∃ later earlier, us = later ++ u :: earlier ∧
      (us.filter fun w => w.key != u.key) = later ++ earlier := by
  obtain ⟨later, earlier, rfl⟩ := List.append_of_mem hu
  have hne {w : Use κ α} (hw : w ∈ later ++ u :: earlier) (htick : w.tick ≠ u.tick) :
      (w.key != u.key) = true := by
    rw [bne_iff_ne]
    intro hkey
    exact htick (congrArg Use.tick (h.eq_of_key hw hu hkey))
  have hrecent := List.pairwise_append.mp h.recent
  refine ⟨later, earlier, rfl, ?_⟩
  rw [List.filter_append, List.filter_cons_of_neg (by simp)]
  congr 1
  · refine List.filter_eq_self.mpr fun w hw => hne (by simp [hw]) ?_
    have hlt := hrecent.2.2 w hw u List.mem_cons_self
    omega
  · refine List.filter_eq_self.mpr fun w hw => hne (by simp [hw]) ?_
    have hlt := (List.pairwise_cons.mp hrecent.2.1).1 w hw
    omega

/-- a key is held with the value and the tick of its use, or it has none -/
theorem held_cases (h : c.Records us) (key : κ) :
    (∃ u ∈ us, u.key = key ∧ c.entries[key]? = some (u.value, u.tick) ∧
      (us.map Use.entry).lookup key = some u.value) ∨
    ((∀ u ∈ us, u.key ≠ key) ∧ c.entries[key]? = none ∧
      (us.map Use.entry).lookup key = none) := by
  cases he : c.entries[key]? with
  | none =>
    have hno : ∀ u ∈ us, u.key ≠ key := by
      rintro u hu rfl
      have hheld := (h.entries_iff u.key u.value u.tick).mpr hu
      rw [he] at hheld
      cases hheld
    refine .inr ⟨hno, rfl, List.lookup_eq_none_iff.mpr fun p hp => ?_⟩
    obtain ⟨u, hu, rfl⟩ := List.mem_map.mp hp
    simpa [Use.entry] using (hno u hu).symm
  | some p =>
    have hu := (h.entries_iff key p.1 p.2).mp he
    refine .inl ⟨_, hu, rfl, rfl, List.lookup_eq_some_iff.mpr ?_⟩
    obtain ⟨later, earlier, hus, -⟩ := h.split hu
    refine ⟨later.map Use.entry, earlier.map Use.entry, by simp [hus, Use.entry], fun q hq => ?_⟩
    obtain ⟨w, hw, rfl⟩ := List.mem_map.mp hq
    -- a later use of the same key would have the same tick
    have hrecent := (List.pairwise_append.mp (hus ▸ h.recent)).2.2 w hw _ List.mem_cons_self
    rw [bne_iff_ne]
    intro hkey
    have hsame := h.eq_of_key (hus ▸ List.mem_append_left _ hw) hu hkey.symm
    rw [hsame] at hrecent
    exact absurd hrecent (Nat.lt_irrefl _)

/-- the uses are those of the other keys, and that of the key if it is held -/
theorem length_others (h : c.Records us) (key : κ) :
    (us.filter fun u => u.key != key).length + (if key ∈ c.entries then 1 else 0) = us.length := by
  rcases h.held_cases key with ⟨u, hu, rfl, he, -⟩ | ⟨hno, he, -⟩
  · have hmem : u.key ∈ c.entries := by simp [Std.HashMap.mem_iff_isSome_getElem?, he]
    obtain ⟨later, earlier, hus, hothers⟩ := h.split hu
    rw [if_pos hmem, hothers, hus]
    simp only [List.length_append, List.length_cons]
    omega
  · have hmem : key ∉ c.entries := by simp [Std.HashMap.mem_iff_isSome_getElem?, he]
    rw [if_neg hmem, List.filter_eq_self.mpr fun u hu => bne_iff_ne.mpr (hno u hu), Nat.add_zero]

/-- **Placing a key.**  The use of a key that is held, or for which there is room, becomes the
latest. -/
theorem place (h : c.Records us) (hfresh : ∀ u ∈ us, u.tick < c.tick) (key : κ) (value : α)
    (hroom : key ∈ c.entries ∨ us.length < c.capacity) :
    (c.place key value (c.entries[key]?.map Prod.snd)).Records
      (⟨key, value, c.tick⟩ :: us.filter fun u => u.key != key) where
  entries_iff := by
    intro k v t
    show (c.entries.insert key (value, c.tick))[k]? = some (v, t) ↔ _
    rw [Std.HashMap.getElem?_insert, List.mem_cons, List.mem_filter, ← h.entries_iff]
    by_cases hk : key = k
    · subst hk
      simp [eq_comm]
    · simp [hk, Ne.symm hk]
  order_iff := by
    intro t k
    rw [order_place]
    by_cases htick : c.tick = t
    · -- the new use has a tick that no other has
      rw [if_pos htick]
      constructor
      · intro hk
        cases hk
        exact ⟨value, by simp [htick]⟩
      · rintro ⟨v, hmem⟩
        rcases List.mem_cons.mp hmem with hnew | hold
        · cases hnew
          rfl
        · have hlt : t < c.tick := hfresh _ (List.mem_filter.mp hold).1
          omega
    · rw [if_neg htick, h.order_others]
      constructor
      · rintro ⟨⟨v, hu⟩, hk⟩
        exact ⟨v, List.mem_cons_of_mem _ (List.mem_filter.mpr ⟨hu, bne_iff_ne.mpr hk⟩)⟩
      · rintro ⟨v, hmem⟩
        rcases List.mem_cons.mp hmem with hnew | hold
        · cases hnew
          exact absurd rfl htick
        · obtain ⟨hu, hk⟩ := List.mem_filter.mp hold
          exact ⟨⟨v, hu⟩, bne_iff_ne.mp hk⟩
  recent := by
    refine List.pairwise_cons.mpr ⟨fun u hu => ?_, h.recent.filter _⟩
    exact hfresh u (List.mem_filter.mp hu).1
  tick_le := by
    intro u hu
    rcases List.mem_cons.mp hu with rfl | hu
    · exact Nat.le_refl _
    · exact h.tick_le u (List.mem_filter.mp hu).1
  size_eq := by
    show (c.entries.insert key (value, c.tick)).size = _
    have hsize : c.entries.size = us.length := h.size_eq
    have hothers := h.length_others key
    rw [Std.HashMap.size_insert, List.length_cons]
    by_cases hmem : key ∈ c.entries
    · rw [if_pos hmem] at hothers ⊢
      omega
    · rw [if_neg hmem] at hothers ⊢
      omega
  length_le := by
    show _ ≤ c.capacity
    have hle := h.length_le
    have hothers := h.length_others key
    rw [List.length_cons]
    rcases hroom with hmem | hlt
    · rw [if_pos hmem] at hothers
      omega
    · omega

/-- the cache without one of its uses -/
private def forgetting (c : RecencyCache κ α) (u : Use κ α) : RecencyCache κ α :=
  { c with entries := c.entries.erase u.key, order := c.order.erase u.tick }

theorem forgetting_last {kept : List (Use κ α)} {oldest : Use κ α}
    (h : c.Records (kept ++ [oldest])) : (forgetting c oldest).Records kept := by
  have hrecent := List.pairwise_append.mp h.recent
  have hmem : oldest ∈ kept ++ [oldest] := by simp
  have htick : ∀ u ∈ kept, oldest.tick ≠ u.tick := by
    intro u hu
    have hlt := hrecent.2.2 u hu oldest (List.mem_singleton_self _)
    omega
  have hkey : ∀ u ∈ kept, oldest.key ≠ u.key := by
    intro u hu hsame
    exact htick u hu (congrArg Use.tick (h.eq_of_key hmem (List.mem_append_left _ hu) hsame))
  have hsize : c.entries.size = kept.length + 1 := by
    rw [← List.length_singleton (a := oldest), ← List.length_append]
    exact h.size_eq
  refine ⟨?_, ?_, hrecent.1, ?_, ?_, ?_⟩
  · intro key value tick
    show (c.entries.erase oldest.key)[key]? = some (value, tick) ↔ _
    rw [Std.HashMap.getElem?_erase]
    by_cases hsame : oldest.key = key
    · subst hsame
      simpa using fun hu => hkey ⟨oldest.key, value, tick⟩ hu rfl
    · rw [if_neg (by simpa using hsame), h.entries_iff, List.mem_append, List.mem_singleton]
      refine or_iff_left ?_
      rintro rfl
      exact hsame rfl
  · intro tick key
    show (c.order.erase oldest.tick)[tick]? = some key ↔ _
    rw [Std.TreeMap.getElem?_erase]
    by_cases hsame : oldest.tick = tick
    · subst hsame
      simpa using fun value hu => htick ⟨key, value, oldest.tick⟩ hu rfl
    · rw [if_neg (by simpa using hsame), h.order_iff]
      refine exists_congr fun value => ?_
      rw [List.mem_append, List.mem_singleton]
      refine or_iff_left ?_
      rintro rfl
      exact hsame rfl
  · exact fun u hu => h.tick_le u (List.mem_append_left _ hu)
  · show (c.entries.erase oldest.key).size = kept.length
    have hheld : oldest.key ∈ c.entries := by
      have he := (h.entries_iff oldest.key oldest.value oldest.tick).mpr hmem
      simp [Std.HashMap.mem_iff_isSome_getElem?, he]
    rw [Std.HashMap.size_erase, if_pos hheld, hsize]
    rfl
  · have hle := h.length_le
    rw [List.length_append, List.length_singleton] at hle
    show kept.length ≤ c.capacity
    omega

/-- **Making room.**  The use that lies back the longest is dropped if the cache is full. -/
theorem makeRoom (h : c.Records us) (hcapacity : 0 < c.capacity) :
    c.makeRoom.Records (makingRoom c.capacity us) ∧
      (makingRoom c.capacity us).length < c.capacity := by
  unfold RecencyCache.makeRoom makingRoom
  rw [h.size_eq]
  by_cases hroom : us.length < c.capacity
  · rw [if_pos hroom, if_pos hroom]
    exact ⟨h, hroom⟩
  rw [if_neg hroom, if_neg hroom]
  have hne : us ≠ [] := by
    rintro rfl
    exact hroom hcapacity
  obtain ⟨kept, oldest, rfl⟩ := (List.eq_nil_or_concat us).resolve_left hne
  rw [List.concat_eq_append] at h hroom ⊢
  have hle := h.length_le
  have hmem : oldest ∈ kept ++ [oldest] := by simp
  have horder := (h.order_iff oldest.tick oldest.key).mpr ⟨_, hmem⟩
  -- the first tick is that of the last use
  have hfirst : c.order.minEntry? = some (oldest.tick, oldest.key) := by
    rcases minEntry?_cases c.order with ⟨-, hnone⟩ | ⟨first, key, hentry, hfound, hleast⟩
    · rw [hnone] at horder
      cases horder
    · obtain ⟨value, hu⟩ := (h.order_iff first key).mp hfound
      have hfirst := hleast oldest.tick oldest.key horder
      rcases List.mem_append.mp hu with hkept | hlast
      · have hlt := (List.pairwise_append.mp h.recent).2.2 _ hkept oldest (by simp)
        simp only at hlt
        omega
      · rw [hentry, ← List.mem_singleton.mp hlast]
  rw [hfirst, List.dropLast_concat]
  rw [List.length_append, List.length_singleton] at hle
  exact ⟨h.forgetting_last, by omega⟩

end Records

/-! ## operations -/

namespace Shows

theorem lookup_eq (h : c.Shows l) (key : κ) : l.lookup key = c.value? key := by
  obtain ⟨us, hr, rfl⟩ := h
  rcases hr.held_cases key with ⟨u, -, -, he, hl⟩ | ⟨-, he, hl⟩
  · rw [hl, value?, he]
    rfl
  · rw [hl, value?, he]
    rfl

theorem entry_of_lookup (h : c.Shows l) {key : κ} {value : α} (hl : l.lookup key = some value) :
    ∃ tick, c.entries[key]? = some (value, tick) := by
  rw [h.lookup_eq, value?, Option.map_eq_some_iff] at hl
  obtain ⟨⟨_, tick⟩, he, rfl⟩ := hl
  exact ⟨tick, he⟩

theorem entry_of_lookup_none (h : c.Shows l) {key : κ} (hl : l.lookup key = none) :
    c.entries[key]? = none := by
  rwa [h.lookup_eq, value?, Option.map_eq_none_iff] at hl

/-- a key that is used becomes the first -/
theorem place (h : c.Shows l) (key : κ) (value : α)
    (hroom : key ∈ c.entries ∨ l.length < c.capacity) :
    (c.advance.place key value (c.entries[key]?.map Prod.snd)).Shows
      ((key, value) :: l.without key) := by
  obtain ⟨us, hr, rfl⟩ := h
  rw [List.length_map] at hroom
  refine ⟨_, hr.advance.place hr.tick_lt_advance key value hroom, ?_⟩
  rw [List.map_cons, RecencyList.without, List.filter_map]
  rfl

theorem place_held (h : c.Shows l) {key : κ} {held : α} {tick : Nat} (value : α)
    (he : c.entries[key]? = some (held, tick)) :
    (c.advance.place key value (some tick)).Shows ((key, value) :: l.without key) := by
  have hmem : key ∈ c.entries := by simp [Std.HashMap.mem_iff_isSome_getElem?, he]
  have hplaced := h.place key value (.inl hmem)
  rwa [he] at hplaced

theorem place_new (h : c.Shows l) {key : κ} (value : α) (hl : l.lookup key = none)
    (hroom : l.length < c.capacity) :
    (c.advance.place key value none).Shows ((key, value) :: l) := by
  have hplaced := h.place key value (.inr hroom)
  rwa [h.entry_of_lookup_none hl, RecencyList.without_of_lookup hl] at hplaced

/-- there is room already for a key that is held -/
theorem makeRoomFor_of_held (h : c.Shows l) {key : κ} {value : α}
    (hl : l.lookup key = some value) : c.makeRoomFor key = c := by
  obtain ⟨tick, he⟩ := h.entry_of_lookup hl
  rw [RecencyCache.makeRoomFor, Std.HashMap.contains_eq_isSome_getElem?, he]
  rfl

/-- a key that is not held gets the place of the last one if the cache is full -/
theorem makeRoomFor_of_new (h : c.Shows l) (hcapacity : 0 < c.capacity) {key : κ}
    (hl : l.lookup key = none) :
    (c.makeRoomFor key).Shows (makingRoom c.capacity l) ∧
      (makingRoom c.capacity l).length < (c.makeRoomFor key).capacity ∧
      (makingRoom c.capacity l).lookup key = none := by
  have he := h.entry_of_lookup_none hl
  have hmade : c.makeRoomFor key = c.makeRoom := by
    rw [RecencyCache.makeRoomFor, Std.HashMap.contains_eq_isSome_getElem?, he]
    rfl
  rw [(frame_makeRoomFor key c).1, hmade]
  obtain ⟨us, hr, rfl⟩ := h
  obtain ⟨hrecords, hlt⟩ := hr.makeRoom hcapacity
  rw [makingRoom_map, List.length_map]
  refine ⟨⟨_, hrecords, rfl⟩, hlt, ?_⟩
  exact ((sublist_makingRoom c.capacity us).map Use.entry).lookup_eq_none hl

theorem store (h : c.Shows l) (hcapacity : 0 < c.capacity) (key : κ) (value : α) :
    (c.store key value).Shows (l.store c.capacity key value) := by
  show ((c.makeRoomFor key).advance.place key value
    ((c.makeRoomFor key).entries[key]?.map Prod.snd)).Shows _
  rw [RecencyList.store]
  cases hl : l.lookup key with
  | some held =>
    obtain ⟨tick, he⟩ := h.entry_of_lookup hl
    rw [h.makeRoomFor_of_held hl, he]
    exact h.place_held value he
  | none =>
    obtain ⟨hmade, hlt, hnew⟩ := h.makeRoomFor_of_new hcapacity hl
    rw [hmade.entry_of_lookup_none hnew]
    exact hmade.place_new value hnew hlt

theorem get? (h : c.Shows l) (key : κ) :
    (c.get? key).1 = (l.get? key).1 ∧ (c.get? key).2.Shows (l.get? key).2 := by
  rw [RecencyList.get?, RecencyCache.get?]
  cases hl : l.lookup key with
  | some held =>
    obtain ⟨tick, he⟩ := h.entry_of_lookup hl
    have he' : c.advance.entries[key]? = some (held, tick) := he
    simp only [he']
    exact ⟨trivial, h.place_held held he⟩
  | none =>
    have he' : c.advance.entries[key]? = none := h.entry_of_lookup_none hl
    simp only [he']
    exact ⟨trivial, h.advance⟩

theorem fetch (h : c.Shows l) (hcapacity : 0 < c.capacity) (key : κ) (computed : Option α) :
    (c.fetch key fun _ => computed).1 = (l.fetch c.capacity key computed).1 ∧
      (c.fetch key fun _ => computed).2.Shows (l.fetch c.capacity key computed).2 := by
  unfold RecencyList.fetch RecencyCache.fetch
  cases hl : l.lookup key with
  | some held =>
    obtain ⟨tick, he⟩ := h.entry_of_lookup hl
    have he' : c.advance.entries[key]? = some (held, tick) := he
    simp only [h.makeRoomFor_of_held hl, he']
    exact ⟨trivial, h.place_held held he⟩
  | none =>
    obtain ⟨hmade, hlt, hnew⟩ := h.makeRoomFor_of_new hcapacity hl
    have he' : (c.makeRoomFor key).advance.entries[key]? = none := hmade.entry_of_lookup_none hnew
    simp only [he']
    cases computed with
    | some value => exact ⟨rfl, hmade.place_new value hnew hlt⟩
    | none => exact ⟨rfl, hmade.advance⟩

theorem act (h : c.Shows l) (hcapacity : 0 < c.capacity) (a : Action κ α) :
    (act a c).1 = (l.act c.capacity a).1 ∧ (act a c).2.Shows (l.act c.capacity a).2 := by
  cases a with
  | store key value => exact ⟨rfl, h.store hcapacity key value⟩
  | get key =>
    obtain ⟨hanswer, hshows⟩ := h.get? key
    exact ⟨congrArg Answer.found hanswer, hshows⟩
  | fetch key computed =>
    obtain ⟨hanswer, hshows⟩ := h.fetch hcapacity key computed
    exact ⟨congrArg Answer.fetched hanswer, hshows⟩
  | clear => exact ⟨rfl, shows_clear c⟩

end Shows

/-! ## runs -/

theorem shows_of_actions (h : c.Shows l) (hcapacity : 0 < c.capacity)
    (actions : List (Action κ α)) :
    let list := runAll (RecencyList.act c.capacity) actions l
    (runAll act actions c).1 = list.1 ∧ (runAll act actions c).2.Shows list.2 ∧
      (runAll act actions c).2.capacity = c.capacity := by
  let related (d : RecencyCache κ α) (l : RecencyList κ α) : Prop :=
    d.Shows l ∧ d.capacity = c.capacity
  have hstep (a : Action κ α) (d : RecencyCache κ α) (l : RecencyList κ α) (hd : related d l) :
      (act a d).1 = (RecencyList.act c.capacity a l).1 ∧
        related (act a d).2 (RecencyList.act c.capacity a l).2 := by
    obtain ⟨hd, hsame⟩ := hd
    obtain ⟨hanswer, hnext⟩ := hd.act (hsame ▸ hcapacity) a
    rw [hsame] at hanswer hnext
    exact ⟨hanswer, hnext, (frame_act a d).1.trans hsame⟩
  exact runAll_related hstep ⟨h, rfl⟩ actions

/-- **A cache is a list.**  After any actions on an empty cache it has given the answers of the
list, and holds what the list holds; its clock is at most at their number, so that a word is enough
for it as long as that is enough for their number. -/
theorem answers_of_actions {capacity : Nat} (hcapacity : 0 < capacity)
    (actions : List (Action κ α)) :
    let cache := runAll act actions (empty capacity : RecencyCache κ α)
    let list := runAll (RecencyList.act capacity) actions ([] : RecencyList κ α)
    cache.1 = list.1 ∧ cache.2.size = list.2.length ∧ cache.2.isEmpty = list.2.isEmpty ∧
      (∀ key value, cache.2.value? key = some value ↔ (key, value) ∈ list.2) ∧
      (list.2.map Prod.fst).Nodup ∧ list.2.length ≤ capacity ∧
      cache.2.tick ≤ actions.length := by
  intro cache list
  obtain ⟨hanswers, hshows, hsame⟩ : cache.1 = list.1 ∧ cache.2.Shows list.2 ∧
      cache.2.capacity = capacity := shows_of_actions (shows_empty capacity) hcapacity actions
  have hsize : cache.2.size = list.2.length := hshows.size_eq
  have hempty : cache.2.isEmpty = list.2.isEmpty := by
    rw [Bool.eq_iff_iff, isEmpty, Std.HashMap.isEmpty_eq_size_eq_zero, beq_iff_eq,
      List.isEmpty_iff_length_eq_zero, ← hsize]
    exact Iff.rfl
  have hlength : list.2.length ≤ capacity := hsame ▸ hshows.length_le
  exact ⟨hanswers, hsize, hempty, fun key value => (hshows.mem_iff key value).symm, hshows.nodup,
    hlength, tick_of_actions capacity actions⟩

/-- of two keys the one that was read stays, and a computation starts only for one that went -/
theorem answers_of_full_cache :
    let actions : List (Action String Nat) :=
      [.store "a" 1, .store "b" 2, .get "a", .fetch "c" (some 3), .fetch "a" (some 4), .get "b"]
    let cache := runAll act actions (empty 2)
    cache.1 = [.done, .done, .found (some 1), .fetched (.computed 3), .fetched (.held 1),
        .found none] ∧
      cache.2.size = 2 ∧ cache.2.value? "a" = some 1 ∧ cache.2.value? "c" = some 3 := by
  intro actions cache
  obtain ⟨hanswers, hsize, -, hheld, -⟩ := answers_of_actions (by decide : 0 < 2) actions
  have hlist : runAll (RecencyList.act 2) actions []
      = ([.done, .done, .found (some 1), .fetched (.computed 3), .fetched (.held 1),
        .found none], [("a", 1), ("c", 3)]) := by
    decide
  simp only [hlist] at hanswers hsize hheld
  exact ⟨hanswers, hsize, (hheld "a" 1).mpr (by decide), (hheld "c" 3).mpr (by decide)⟩

end
end RecencyCache
end RemoteGuard
