import RemoteGuard.Proofs.Sampling.FailedFetch

/-!
# The ticks of a recency cache

A cache keeps the tick of the last use of a key in two places: beside the value of the key, and in
`order`, which leads from the tick back to the key.  `RecencyCache.Indexed` says that the two agree:
no key is without its place in `order`, and no tick leads to a key that is gone.  So whatever is
first in `order` can be dropped, and the cache does not grow beyond its capacity.

* `Indexed.records`   the maps of such a cache record the uses that its entries stand for;
* `Indexed.act`       so every action keeps them together, a fetch whose computation fails too;
* `RecencyCache.ticks_of_actions`   what therefore holds of the ticks after any actions.
-/

namespace RemoteGuard
namespace RecencyCache
variable {κ α : Type} [BEq κ] [Hashable κ] {c : RecencyCache κ α} {us : List (Use κ α)}

/-- entries and order are inverse to each other, not ahead of the clock and within the capacity -/
structure Indexed (c : RecencyCache κ α) : Prop where
  order_iff : ∀ (tick : Nat) (key : κ),
    c.order[tick]? = some key ↔ ∃ value, c.entries[key]? = some (value, tick)
  tick_le : ∀ (tick : Nat) (key : κ) (value : α),
    c.entries[key]? = some (value, tick) → tick ≤ c.tick
  size_le : c.size ≤ c.capacity

theorem Records.indexed (h : c.Records us) : c.Indexed where
  order_iff tick key := by
    rw [h.order_iff]
    exact exists_congr fun value => (h.entries_iff key value tick).symm
  tick_le tick key value he := h.tick_le _ ((h.entries_iff key value tick).mp he)
  size_le := h.size_eq ▸ h.length_le

theorem Shows.indexed {l : RecencyList κ α} (h : c.Shows l) : c.Indexed := by
  obtain ⟨us, hr, -⟩ := h
  exact hr.indexed

/-- two keys are not used in one tick -/
theorem Indexed.key_eq (h : c.Indexed) {key other : κ} {value held : α} {tick : Nat}
    (hkey : c.entries[key]? = some (value, tick)) (hother : c.entries[other]? = some (held, tick)) :
    key = other := by
  have hfirst := (h.order_iff tick key).mpr ⟨value, hkey⟩
  have hsecond := (h.order_iff tick other).mpr ⟨held, hother⟩
  rw [hfirst] at hsecond
  exact Option.some_inj.mp hsecond

/-! ## the uses that the entries stand for -/

/-- the entries as uses, in no order -/
def uses (c : RecencyCache κ α) : List (Use κ α) :=
  c.entries.toList.map fun p => ⟨p.1, p.2.1, p.2.2⟩

def usesLatestFirst (c : RecencyCache κ α) : List (Use κ α) :=
  c.uses.mergeSort fun u w => decide (w.tick ≤ u.tick)

theorem usesLatestFirst_perm (c : RecencyCache κ α) : c.usesLatestFirst.Perm c.uses :=
  List.mergeSort_perm ..

theorem usesLatestFirst_pairwise (c : RecencyCache κ α) :
    c.usesLatestFirst.Pairwise fun u w => w.tick ≤ u.tick := by
  have hsorted : c.usesLatestFirst.Pairwise fun u w => decide (w.tick ≤ u.tick) = true :=
    List.pairwise_mergeSort
      (fun u v w huv hvw => by
        simp only [decide_eq_true_eq] at huv hvw ⊢
        exact Nat.le_trans hvw huv)
      (fun u w => by
        simp only [Bool.or_eq_true, decide_eq_true_eq]
        exact Nat.le_total w.tick u.tick) c.uses
  exact hsorted.imp of_decide_eq_true

variable [LawfulBEq κ]

theorem mem_uses {u : Use κ α} : u ∈ c.uses ↔ c.entries[u.key]? = some (u.value, u.tick) := by
  rw [uses, List.mem_map, ← Std.HashMap.mem_toList_iff_getElem?_eq_some]
  constructor
  · rintro ⟨p, hp, rfl⟩
    exact hp
  · exact fun hu => ⟨_, hu, rfl⟩

theorem nodup_keys_uses (c : RecencyCache κ α) : (c.uses.map Use.key).Nodup := by
  rw [uses, List.map_map]
  refine List.pairwise_map.mpr (Std.HashMap.distinct_keys_toList.imp fun {p q} hne he => ?_)
  have he : p.1 = q.1 := he
  rw [he, beq_self_eq_true] at hne
  cases hne

theorem mem_usesLatestFirst {key : κ} {value : α} {tick : Nat} :
    ⟨key, value, tick⟩ ∈ c.usesLatestFirst ↔ c.entries[key]? = some (value, tick) :=
  c.usesLatestFirst_perm.mem_iff.trans mem_uses

theorem length_usesLatestFirst (c : RecencyCache κ α) : c.usesLatestFirst.length = c.size := by
  rw [c.usesLatestFirst_perm.length_eq, uses, List.length_map]
  exact Std.HashMap.length_toList

/-- no two uses have one tick, so they are in strict order -/
theorem Indexed.recent (h : c.Indexed) :
    c.usesLatestFirst.Pairwise fun u w => w.tick < u.tick := by
  have hkeys : (c.usesLatestFirst.map Use.key).Nodup :=
    (c.usesLatestFirst_perm.map Use.key).nodup_iff.mpr c.nodup_keys_uses
  have hsorted := c.usesLatestFirst_pairwise.and (List.pairwise_map.mp hkeys)
  refine hsorted.imp_of_mem fun {u w} hu hw ⟨hle, hne⟩ => Nat.lt_of_le_of_ne hle fun htick => hne ?_
  exact h.key_eq (mem_usesLatestFirst.mp hu) (htick ▸ mem_usesLatestFirst.mp hw)

theorem Indexed.records (h : c.Indexed) : c.Records c.usesLatestFirst where
  entries_iff _ _ _ := mem_usesLatestFirst.symm
  order_iff tick key :=
    (h.order_iff tick key).trans (exists_congr fun _ => mem_usesLatestFirst.symm)
  recent := h.recent
  tick_le _ hu := h.tick_le _ _ _ (mem_usesLatestFirst.mp hu)
  size_eq := c.length_usesLatestFirst.symm
  length_le := c.length_usesLatestFirst ▸ h.size_le

/-! ## actions -/

theorem Indexed.shows (h : c.Indexed) : ∃ l, c.Shows l := ⟨_, _, h.records, rfl⟩

theorem indexed_empty (capacity : Nat) : (empty capacity : RecencyCache κ α).Indexed :=
  (shows_empty capacity).indexed

/-- **One action.**  The two maps stay together, also where a computation fails. -/
theorem Indexed.act (h : c.Indexed) (hcapacity : 0 < c.capacity) (a : Action κ α) :
    (act a c).2.Indexed := by
  obtain ⟨l, hl⟩ := h.shows
  exact (hl.act hcapacity a).2.indexed

theorem Indexed.actions (h : c.Indexed) (hcapacity : 0 < c.capacity)
    (actions : List (Action κ α)) :
    (runAll RecencyCache.act actions c).2.Indexed ∧
      (runAll RecencyCache.act actions c).2.capacity = c.capacity := by
  have hstep (a : Action κ α) (d : RecencyCache κ α) (hd : d.Indexed ∧ d.capacity = c.capacity) :
      (RecencyCache.act a d).2.Indexed ∧ (RecencyCache.act a d).2.capacity = c.capacity :=
    ⟨hd.1.act (hd.2 ▸ hcapacity) a, (frame_act a d).1.trans hd.2⟩
  exact runAll_keeps hstep ⟨h, rfl⟩ actions

/-- no tick is left over in `order` -/
theorem Indexed.size_order (h : c.Indexed) : c.order.size = c.size := by
  have hr := h.records
  rw [← Std.TreeMap.length_toList, hr.toList_order, List.length_map, List.length_reverse,
    hr.size_eq]

/-- **The ticks of a cache.**  After any actions on an empty cache, among them fetches whose
computation failed half-way, a tick leads to a key just when the key was last used then.  No two
keys have one tick, none is ahead of the clock, and the keys are within the capacity.  The clock is
at most at the number of actions, so that a word is enough for it as long as one is enough for
their number. -/
theorem ticks_of_actions {capacity : Nat} (hcapacity : 0 < capacity)
    (actions : List (Action κ α)) :
    let cache := (runAll act actions (empty capacity : RecencyCache κ α)).2
    (∀ (tick : Nat) (key : κ),
      cache.order[tick]? = some key ↔ ∃ value, cache.entries[key]? = some (value, tick)) ∧
    (∀ (tick : Nat) (key other : κ) (value held : α), cache.entries[key]? = some (value, tick) →
      cache.entries[other]? = some (held, tick) → key = other) ∧
    (∀ (tick : Nat) (key : κ) (value : α), cache.entries[key]? = some (value, tick) →
      tick ≤ cache.tick) ∧
    cache.order.size = cache.size ∧ cache.size ≤ capacity ∧ cache.tick ≤ actions.length := by
  intro cache
  obtain ⟨hindexed, hsame⟩ : cache.Indexed ∧ cache.capacity = capacity :=
    (indexed_empty capacity).actions hcapacity actions
  have hsize : cache.size ≤ capacity := hsame ▸ hindexed.size_le
  exact ⟨hindexed.order_iff, fun tick key other value held => hindexed.key_eq,
    hindexed.tick_le, hindexed.size_order, hsize, tick_of_actions capacity actions⟩

/-- a computation that failed half-way leaves neither map with the key whose room it took -/
theorem ticks_of_abandoned_fetch :
    let actions : List (Action String Nat) :=
      [.store "a" 1, .store "b" 2, .get "a", .fetch "c" none]
    let cache := (runAll act actions (empty 2)).2
    0 < 2 ∧ cache.size = 1 ∧ cache.order.size = 1 ∧
      (∀ tick : Nat, cache.order[tick]? ≠ some "b") ∧
      ∃ tick : Nat, tick ≤ 4 ∧ cache.order[tick]? = some "a" := by
  intro actions cache
  obtain ⟨hinverse, -, hclock, hsize, -, htick⟩ := ticks_of_actions (by decide : 0 < 2) actions
  obtain ⟨-, hshows, -⟩ := shows_of_actions (shows_empty 2) (by decide) actions
  have hlist : (runAll (RecencyList.act 2) actions []).2 = [("a", 1)] := by decide
  rw [show (empty 2 : RecencyCache String Nat).capacity = 2 from rfl, hlist] at hshows
  have hone : cache.size = 1 := hshows.size_eq
  have hgone : cache.entries["b"]? = none := hshows.entry_of_lookup_none (by decide)
  obtain ⟨tick, hheld⟩ : ∃ tick, cache.entries["a"]? = some (1, tick) :=
    hshows.entry_of_lookup (by decide)
  refine ⟨by decide, hone, hsize.trans hone, fun tick hb => ?_, tick, ?_, ?_⟩
  · obtain ⟨value, hvalue⟩ := (hinverse tick "b").mp hb
    rw [hgone] at hvalue
    cases hvalue
  · exact Nat.le_trans (hclock tick "a" 1 hheld) htick
  · exact (hinverse tick "a").mpr ⟨1, hheld⟩

end RecencyCache
end RemoteGuard
