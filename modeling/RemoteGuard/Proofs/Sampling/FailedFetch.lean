import RemoteGuard.Proofs.Sampling.Recency

/-!
# What a failed computation leaves

A fetch makes room for its value before it computes it.  If the computation fails, the room stays:
the cache is the one from before as long as it had room, and has lost the key used longest ago if
it was full.

`RecencyCache.recent` is what a cache holds, in the order in which it will forget it.

* `Shows.recent_eq`            it is the list that the cache shows;
* `answers_of_same_list`       caches that show the same list cannot be told apart by any actions;
* `RecencyCache.recent_of_failed_fetch`   what a failed computation leaves of it.
-/

namespace RemoteGuard
namespace RecencyCache
variable {κ α : Type} [BEq κ] [Hashable κ]

/-! ## what a cache holds, in order -/

/-- the keys that are held with their values, the most recently used key first -/
def recent (c : RecencyCache κ α) : RecencyList κ α :=
  c.order.toList.reverse.filterMap fun p => (c.value? p.2).map fun value => (p.2, value)

variable {c d : RecencyCache κ α} {us : List (Use κ α)} {l : RecencyList κ α}

/-- `order` lists the uses, the earliest first -/
theorem Records.toList_order (h : c.Records us) :
    c.order.toList = us.reverse.map fun u => (u.tick, u.key) := by
  have hsorted : c.order.toList.Pairwise fun p q => p.1 < q.1 :=
    Std.TreeMap.ordered_keys_toList.imp fun hlt => Nat.compare_eq_lt.mp hlt
  have hrecent : (us.reverse.map fun u => (u.tick, u.key)).Pairwise fun p q => p.1 < q.1 := by
    rw [List.pairwise_map, List.pairwise_reverse]
    exact h.recent
  have hnodup {ps : List (Nat × κ)} (hps : ps.Pairwise fun p q => p.1 < q.1) : ps.Nodup :=
    hps.imp fun {p q} (hlt : p.1 < q.1) (he : p = q) =>
      Nat.ne_of_lt hlt (congrArg Prod.fst he)
  -- both are in order of ticks, so it is enough that they have the same entries
  refine List.Perm.eq_of_pairwise (fun p q _ _ hlt hgt => absurd hlt (Nat.lt_asymm hgt))
    hsorted hrecent ((List.perm_ext_iff_of_nodup (hnodup hsorted) (hnodup hrecent)).mpr ?_)
  rintro ⟨tick, key⟩
  rw [Std.TreeMap.mem_toList_iff_getElem?_eq_some, h.order_iff, List.mem_map]
  constructor
  · rintro ⟨value, hu⟩
    exact ⟨_, List.mem_reverse.mpr hu, rfl⟩
  · rintro ⟨u, hu, he⟩
    cases he
    exact ⟨u.value, List.mem_reverse.mp hu⟩

theorem Records.value?_eq (h : c.Records us) {u : Use κ α} (hu : u ∈ us) :
    c.value? u.key = some u.value := by
  rw [value?, (h.entries_iff _ _ _).mpr hu]
  rfl

theorem Shows.recent_eq (h : c.Shows l) : c.recent = l := by
  obtain ⟨us, hr, rfl⟩ := h
  rw [recent, hr.toList_order, ← List.map_reverse, List.reverse_reverse, List.filterMap_map,
    ← List.filterMap_eq_map]
  refine List.filterMap_congr fun u hu => ?_
  show (c.value? u.key).map _ = _
  rw [hr.value?_eq hu]
  rfl

variable [LawfulBEq κ]

/-! ## runs -/

theorem answers_of_same_list (hc : c.Shows l) (hd : d.Shows l) (hcapacity : 0 < c.capacity)
    (hsame : d.capacity = c.capacity) (actions : List (Action κ α)) :
    (runAll act actions d).1 = (runAll act actions c).1 := by
  rw [(shows_of_actions hc hcapacity actions).1,
    (shows_of_actions hd (hsame ▸ hcapacity) actions).1, hsame]

/-! ## failed computations -/

/-- what a full cache has less than before: a key and its value -/
theorem value?_of_shorter {kept : RecencyList κ α} {oldest : κ × α}
    (hc : c.Shows (kept ++ [oldest])) (hd : d.Shows kept) (k : κ) :
    d.value? k = if k == oldest.1 then none else c.value? k := by
  have hnodup := hc.nodup
  rw [List.map_append, List.map_singleton] at hnodup
  have hlast : oldest.1 ∉ kept.map Prod.fst := by
    have hdisjoint := (List.nodup_append.mp hnodup).2.2
    exact fun hmem => hdisjoint _ hmem _ (List.mem_singleton_self _) rfl
  rw [← hd.lookup_eq, ← hc.lookup_eq, List.lookup_append]
  by_cases hk : k = oldest.1
  · subst hk
    rw [if_pos (beq_self_eq_true _), List.lookup_eq_none_iff]
    intro p hp
    exact bne_iff_ne.mpr fun he => hlast (he ▸ List.mem_map_of_mem hp)
  · rw [if_neg (by simpa using hk), List.lookup_cons, (beq_eq_false_iff_ne.mpr hk)]
    exact (Option.or_none).symm

/-- a full cache is told from one that has lost a key by asking for it -/
theorem answers_of_shorter {kept : RecencyList κ α} {oldest : κ × α}
    (hc : c.Shows (kept ++ [oldest])) (hd : d.Shows kept) :
    (runAll act [.get oldest.1] d).1 ≠ (runAll act [.get oldest.1] c).1 := by
  have hheld : c.value? oldest.1 = some oldest.2 :=
    (hc.mem_iff _ _).mp (List.mem_append_right _ (List.mem_singleton_self _))
  have hlost := value?_of_shorter hc hd oldest.1
  rw [if_pos (beq_self_eq_true _), ← hd.lookup_eq] at hlost
  rw [← hc.lookup_eq] at hheld
  simp only [runAll_cons, runAll_nil, act, (hc.get? _).1, (hd.get? _).1, RecencyList.get?, hheld,
    hlost]
  intro h
  cases h

namespace Shows

theorem fetch_fails_iff (h : c.Shows l) (hcapacity : 0 < c.capacity) (key : κ) :
    (c.fetch key fun _ => none).1 = .failed ↔ c.value? key = none := by
  rw [(h.fetch hcapacity key none).1, ← h.lookup_eq, RecencyList.fetch]
  cases l.lookup key with
  | some value => exact ⟨fun h => (by cases h), fun h => (by cases h)⟩
  | none => exact iff_of_true rfl rfl

theorem failedFetch (h : c.Shows l) (hcapacity : 0 < c.capacity) {key : κ}
    (hnew : c.value? key = none) :
    (c.fetch key fun _ => none).2.Shows (makingRoom c.capacity l) := by
  have hshows := (h.fetch hcapacity key none).2
  rw [RecencyList.fetch, h.lookup_eq, hnew] at hshows
  exact hshows

theorem failedFetch_of_room (h : c.Shows l) {key : κ} (hnew : c.value? key = none)
    (hroom : c.size < c.capacity) : (c.fetch key fun _ => none).2.Shows l := by
  have hshows := h.failedFetch (Nat.zero_lt_of_lt hroom) hnew
  rw [makingRoom, if_pos (h.size_eq ▸ hroom)] at hshows
  exact hshows

theorem failedFetch_of_full (h : c.Shows l) (hcapacity : 0 < c.capacity) {key : κ}
    (hnew : c.value? key = none) (hfull : c.capacity ≤ c.size) :
    ∃ kept oldest, l = kept ++ [oldest] ∧ (c.fetch key fun _ => none).2.Shows kept := by
  have hshows := h.failedFetch hcapacity hnew
  rw [h.size_eq] at hfull
  have hne : l ≠ [] := by
    rintro rfl
    exact absurd hfull (Nat.not_le_of_lt hcapacity)
  rw [makingRoom, if_neg (Nat.not_lt_of_le hfull)] at hshows
  exact ⟨_, _, (List.dropLast_append_getLast hne).symm, hshows⟩

end Shows

/-- **A computation that fails.**  It is started for a key that is not held.  If the cache has room,
the computation leaves no trace, and nothing that is done later can tell; if the cache is full, the
key used longest ago is gone. -/
theorem recent_of_failed_fetch {capacity : Nat} (hcapacity : 0 < capacity)
    (actions : List (Action κ α)) (key : κ) :
    let cache := (runAll act actions (empty capacity : RecencyCache κ α)).2
    let fetched := cache.fetch key fun _ => none
    (fetched.1 = .failed ↔ cache.value? key = none) ∧
    (fetched.1 = .failed →
      (cache.size < capacity → fetched.2.recent = cache.recent ∧
        ∀ k, fetched.2.value? k = cache.value? k) ∧
      (capacity ≤ cache.size → ∃ oldest, cache.recent = fetched.2.recent ++ [oldest] ∧
        ∀ k, fetched.2.value? k = if k == oldest.1 then none else cache.value? k) ∧
      ((∀ more : List (Action κ α),
          (runAll act more fetched.2).1 = (runAll act more cache).1) ↔ cache.size < capacity)) := by
  intro cache fetched
  obtain ⟨-, hshows, hsame⟩ := shows_of_actions (shows_empty capacity) hcapacity actions
  obtain ⟨list, hshows⟩ : ∃ list, cache.Shows list := ⟨_, hshows⟩
  have hcap : cache.capacity = capacity := hsame
  have hpositive : 0 < cache.capacity := hcap ▸ hcapacity
  have hframe : fetched.2.capacity = cache.capacity := (frame_fetch key _ cache).1
  have hstarted := hshows.fetch_fails_iff hpositive key
  refine ⟨hstarted, fun hfailed => ?_⟩
  have hnew := hstarted.mp hfailed
  rw [hshows.recent_eq, ← hcap]
  refine ⟨fun hroom => ?_, fun hfull => ?_, fun halike => ?_, fun hroom more => ?_⟩
  · have hafter : fetched.2.Shows list := hshows.failedFetch_of_room hnew hroom
    exact ⟨hafter.recent_eq, fun k => by rw [← hafter.lookup_eq, ← hshows.lookup_eq]⟩
  · obtain ⟨kept, oldest, rfl, hafter⟩ := hshows.failedFetch_of_full hpositive hnew hfull
    have hrecent : fetched.2.recent = kept := hafter.recent_eq
    exact ⟨oldest, by rw [hrecent], value?_of_shorter hshows hafter⟩
  · refine Nat.lt_of_not_le fun hfull => ?_
    obtain ⟨kept, oldest, rfl, hafter⟩ := hshows.failedFetch_of_full hpositive hnew hfull
    exact answers_of_shorter hshows hafter (halike _)
  · have hafter : fetched.2.Shows list := hshows.failedFetch_of_room hnew hroom
    exact answers_of_same_list hshows hafter hpositive hframe more

/-- a cache that has room goes on as if nothing had been fetched -/
theorem recent_of_failed_fetch_with_room :
    let actions : List (Action String Nat) := [.store "a" 1, .store "b" 2, .get "a"]
    let cache := (runAll act actions (empty 3)).2
    let fetched := cache.fetch "c" fun _ => none
    0 < 3 ∧ fetched.1 = .failed ∧ cache.recent = [("a", 1), ("b", 2)] ∧
      fetched.2.recent = [("a", 1), ("b", 2)] := by
  intro actions cache fetched
  have hlist : runAll (RecencyList.act 3) actions []
      = ([.done, .done, .found (some 1)], [("a", 1), ("b", 2)]) := by decide
  obtain ⟨-, hshows, -⟩ := shows_of_actions (shows_empty 3) (by decide) actions
  rw [show (empty 3 : RecencyCache String Nat).capacity = 3 from rfl, hlist] at hshows
  have hsize : cache.size = 2 := hshows.size_eq
  have hnew : cache.value? "c" = none := by
    rw [← hshows.lookup_eq]
    decide
  obtain ⟨hstarted, hleft⟩ := recent_of_failed_fetch (by decide : 0 < 3) actions "c"
  have hfailed := hstarted.mpr hnew
  obtain ⟨hrecent, -⟩ := (hleft hfailed).1 (by rw [hsize]; decide)
  exact ⟨by decide, hfailed, hshows.recent_eq, hrecent.trans hshows.recent_eq⟩

/-- a full cache does not: here it no longer holds the key used longest ago -/
theorem failed_fetch_forgets :
    ¬ ∀ (capacity : Nat) (actions : List (Action String Nat)) (key : String), 0 < capacity →
      let cache := (runAll act actions (empty capacity)).2
      let fetched := cache.fetch key fun _ => none
      fetched.1 = .failed → fetched.2.recent = cache.recent := by
  intro hall
  let actions : List (Action String Nat) := [.store "a" 1, .store "b" 2]
  have hlist : runAll (RecencyList.act 2) actions [] = ([.done, .done], [("b", 2), ("a", 1)]) := by
    decide
  obtain ⟨-, hshows, hsame⟩ := shows_of_actions (shows_empty 2) (by decide) actions
  rw [show (empty 2 : RecencyCache String Nat).capacity = 2 from rfl, hlist] at hshows
  have hpositive : 0 < (runAll act actions (empty 2 : RecencyCache String Nat)).2.capacity := by
    rw [hsame]
    decide
  have hnew : (runAll act actions (empty 2 : RecencyCache String Nat)).2.value? "c" = none := by
    rw [← hshows.lookup_eq]
    decide
  have hafter := hshows.failedFetch hpositive hnew
  have hsame' := hall 2 actions "c" (by decide) ((hshows.fetch_fails_iff hpositive "c").mpr hnew)
  simp only [hshows.recent_eq, hafter.recent_eq, hsame] at hsame'
  exact absurd hsame' (by decide)

end RecencyCache
end RemoteGuard
