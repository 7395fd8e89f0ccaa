import Mathlib.Data.List.Nodup
import RemoteGuard.FirstOccurrences
import RemoteGuard.Proofs.Sampling.Recency
import RemoteGuard.Sampling.RouteSampler

/-!
# Which routes are rejected

A sampler remembers as many routes as it may, those called most recently, with the times of their
last acceptances.  So whether it rejects a call can be read off the calls before it and what came of
them:

* `acceptedAt?`     when a route was last accepted;
* `othersSince`     which other routes were called since a route was called last;
* `rejected_iff`    a call is rejected if its route was called before, few others since, and the
                    delay is not over.

`Remembers` ties the list that the cache is to a history of calls.  `Remembers.sample` is its step;
`Follows.ask` is that of the sampler, and `follows_runAll` the run.
-/

namespace RemoteGuard

/-! ## the first members when one moves to the front -/

section
variable {β : Type} [BEq β] [LawfulBEq β]

/-- The first ones after a member has moved to the front. -/
theorem take_moved_to_front {n : Nat} (hn : 0 < n) (b : β) {l : List β} (hl : l.Nodup) :
    (b :: l.filter fun x => x != b).take n
      = if b ∈ l.take n then b :: (l.take n).filter fun x => x != b
        else b :: makingRoom n (l.take n) := by
  obtain ⟨n, rfl⟩ : ∃ m, n = m + 1 := ⟨n - 1, by omega⟩
  rw [List.take_succ_cons]
  have hothers : (l.filter fun x => x != b)
      = ((l.take (n + 1)).filter fun x => x != b) ++ (l.drop (n + 1)).filter fun x => x != b := by
    rw [← List.filter_append, List.take_append_drop]
  have hlength : (l.take (n + 1)).length = n + 1 ∨ l.drop (n + 1) = [] := by
    rw [List.length_take, List.drop_eq_nil_iff]
    omega
  have hle := List.length_take_le (n + 1) l
  split
  case isTrue hb =>
    -- of the first ones one is left out, so that all of them are among the first others
    have herase := List.length_erase_of_mem hb
    rw [(hl.sublist (List.take_sublist ..)).erase_eq_filter] at herase
    rw [hothers, List.take_append, List.take_of_length_le (by omega)]
    rcases hlength with hfull | hnil
    · rw [herase, hfull, Nat.add_sub_cancel, Nat.sub_self, List.take_zero, List.append_nil]
    · rw [hnil, List.filter_nil, List.take_nil, List.append_nil]
  case isFalse hb =>
    have hself : ((l.take (n + 1)).filter fun x => x != b) = l.take (n + 1) :=
      List.filter_eq_self.mpr fun x hx => bne_iff_ne.mpr fun h => hb (h ▸ hx)
    rw [hothers, hself, List.take_append, makingRoom]
    rcases hlength with hfull | hnil
    · rw [if_neg (by omega), hfull, Nat.sub_eq_zero_of_le (Nat.le_succ n), List.take_zero,
        List.append_nil, List.dropLast_eq_take, hfull]
      rfl
    · rw [hnil, List.filter_nil, List.take_nil, List.append_nil]
      split
      case isTrue hlt => rw [List.take_of_length_le (Nat.le_of_lt_succ hlt)]
      case isFalse hfull =>
        rw [List.dropLast_eq_take, show (l.take (n + 1)).length - 1 = n by omega]

theorem take_eraseDups_cons {n : Nat} (hn : 0 < n) (b : β) (l : List β) :
    (b :: l).eraseDups.take n
      = if b ∈ l.eraseDups.take n then b :: (l.eraseDups.take n).filter fun x => x != b
        else b :: makingRoom n (l.eraseDups.take n) := by
  rw [List.eraseDups_cons, ← take_moved_to_front hn b (nodup_eraseDups l), ← eraseDups_filter]
  rfl

end

namespace RouteSampler

/-! ## calls -/

structure Call where
  route : Route
  now : Nat

def ask (call : Call) (s : RouteSampler) : Bool × RouteSampler := s.sample call.route call.now

/-- when a route was last accepted, in a history of calls and what came of them -/
def acceptedAt? (route : Route) (history : List (Call × Bool)) : Option Nat :=
  (history.reverse.find? fun e => e.2 && e.1.route == route).map fun e => e.1.now

theorem acceptedAt?_snoc (route : Route) (history : List (Call × Bool)) (call : Call)
    (accepted : Bool) :
    acceptedAt? route (history ++ [(call, accepted)])
      = if accepted && call.route == route then some call.now else acceptedAt? route history := by
  unfold acceptedAt?
  rw [List.reverse_append, List.reverse_singleton, List.singleton_append, List.find?_cons]
  cases accepted && call.route == route <;> simp

theorem acceptedAt?_mem {route : Route} {history : List (Call × Bool)} {t : Nat}
    (h : acceptedAt? route history = some t) :
    ∃ call, (call, true) ∈ history ∧ call.route = route := by
  obtain ⟨⟨call, accepted⟩, hfound, -⟩ := Option.map_eq_some_iff.mp h
  have hmem := List.mem_reverse.mp (List.mem_of_find?_eq_some hfound)
  have hsome := List.find?_some hfound
  rw [Bool.and_eq_true, beq_iff_eq] at hsome
  obtain ⟨rfl, hroute⟩ := hsome
  exact ⟨call, hmem, hroute⟩

/-- the routes of calls, the last one first -/
def latest (calls : List Call) : List Route := (calls.map Call.route).reverse

/-- the other routes that were called since a route was called last -/
def othersSince (route : Route) (calls : List Call) : List Route :=
  ((latest calls).takeWhile fun r => r != route).eraseDups

/-! ## the list that the cache is -/

/-- What a call does to the list.  The route moves to the front, and its time changes only if it is
accepted. -/
def sampleList (delay : Nat) (call : Call) (l : RecencyList Route Nat) :
    Bool × RecencyList Route Nat :=
  match l.lookup call.route with
  | some t =>
    if isDue delay (some t) call.now then (true, (call.route, call.now) :: l.without call.route)
    else (false, (call.route, t) :: l.without call.route)
  | none => (true, (call.route, call.now) :: makingRoom maxTrackedRoutes l)

theorem sampleList_cases (delay : Nat) (call : Call) (l : RecencyList Route Nat) :
    (l.lookup call.route = none ∧
      sampleList delay call l = (true, (call.route, call.now) :: makingRoom maxTrackedRoutes l)) ∨
    (∃ t, l.lookup call.route = some t ∧ delay < call.now - t ∧
      sampleList delay call l = (true, (call.route, call.now) :: l.without call.route)) ∨
    (∃ t, l.lookup call.route = some t ∧ call.now - t ≤ delay ∧
      sampleList delay call l = (false, (call.route, t) :: l.without call.route)) := by
  unfold sampleList
  cases l.lookup call.route with
  | none => exact .inl ⟨rfl, rfl⟩
  | some t =>
    by_cases hdue : delay < call.now - t
    · exact .inr (.inl ⟨t, rfl, hdue, if_pos (decide_eq_true hdue)⟩)
    · exact .inr (.inr ⟨t, rfl, Nat.not_lt.mp hdue, if_neg (by simpa [isDue] using hdue)⟩)

theorem mem_of_lookup {l : RecencyList Route Nat} {route : Route} {t : Nat}
    (h : l.lookup route = some t) : (route, t) ∈ l := by
  obtain ⟨before, after, rfl, -⟩ := List.lookup_eq_some_iff.mp h
  simp

theorem mem_routes_of_lookup {l : RecencyList Route Nat} {route : Route} {t : Nat}
    (h : l.lookup route = some t) : route ∈ l.map Prod.fst :=
  List.mem_map_of_mem (mem_of_lookup h)

theorem not_mem_routes_of_lookup {l : RecencyList Route Nat} {route : Route}
    (h : l.lookup route = none) : route ∉ l.map Prod.fst := by
  intro hmem
  obtain ⟨p, hp, rfl⟩ := List.mem_map.mp hmem
  simpa using List.lookup_eq_none_iff.mp h p hp

theorem routes_sampleList (delay : Nat) (call : Call) (l : RecencyList Route Nat) :
    (sampleList delay call l).2.map Prod.fst
      = if call.route ∈ l.map Prod.fst
        then call.route :: (l.map Prod.fst).filter fun r => r != call.route
        else call.route :: makingRoom maxTrackedRoutes (l.map Prod.fst) := by
  rw [makingRoom_map, List.filter_map]
  rcases sampleList_cases delay call l with ⟨hl, h⟩ | ⟨t, hl, -, h⟩ | ⟨t, hl, -, h⟩
  · rw [h, if_neg (not_mem_routes_of_lookup hl)]
    rfl
  · rw [h, if_pos (mem_routes_of_lookup hl)]
    rfl
  · rw [h, if_pos (mem_routes_of_lookup hl)]
    rfl

/-- the route has the time of the call if it is accepted, and nothing else is new -/
theorem mem_sampleList {delay : Nat} {call : Call} {l : RecencyList Route Nat} {p : Route × Nat}
    (hp : p ∈ (sampleList delay call l).2) :
    if (sampleList delay call l).1 && call.route == p.1 then p.2 = call.now else p ∈ l := by
  have hother (h : p ∈ l.without call.route) : p ∈ l ∧ (call.route == p.1) = false := by
    obtain ⟨hold, hne⟩ := List.mem_filter.mp h
    exact ⟨hold, beq_false_of_ne fun hsame => by simp [hsame] at hne⟩
  rcases sampleList_cases delay call l with ⟨hl, h⟩ | ⟨t, hl, -, h⟩ | ⟨t, hl, -, h⟩ <;>
    rw [h] at hp ⊢ <;> rcases List.mem_cons.mp hp with rfl | hp
  · simp
  · have hold := (sublist_makingRoom ..).subset hp
    have hne := List.lookup_eq_none_iff.mp hl p hold
    rw [bne_iff_ne] at hne
    rw [beq_false_of_ne hne]
    exact hold
  · simp
  · rw [(hother hp).2]
    exact (hother hp).1
  · exact mem_of_lookup hl
  · exact (hother hp).1

/-! ## histories -/

/-- The routes that were called most recently are held, with the times of their last acceptances. -/
structure Remembers (l : RecencyList Route Nat) (history : List (Call × Bool)) : Prop where
  routes : l.map Prod.fst = (latest (history.map Prod.fst)).eraseDups.take maxTrackedRoutes
  times : ∀ p ∈ l, acceptedAt? p.1 history = some p.2

theorem Remembers.sample {l : RecencyList Route Nat} {history : List (Call × Bool)}
    (h : Remembers l history) (delay : Nat) (call : Call) :
    Remembers (sampleList delay call l).2
      (history ++ [(call, (sampleList delay call l).1)]) := by
  constructor
  · -- the route of the call is the latest one now
    have hlatest : latest ((history ++ [(call, (sampleList delay call l).1)]).map Prod.fst)
        = call.route :: latest (history.map Prod.fst) := by
      simp [latest]
    rw [hlatest, take_eraseDups_cons (by decide), ← h.routes, routes_sampleList]
  · intro p hp
    have hmem := mem_sampleList hp
    rw [acceptedAt?_snoc]
    split at hmem
    case isTrue haccepted => rw [if_pos haccepted, hmem]
    case isFalse hkept => rw [if_neg hkept, h.times p hmem]

/-- a call is rejected if its route is held and the delay is not over -/
theorem Remembers.sample_eq_false_iff {l : RecencyList Route Nat} {history : List (Call × Bool)}
    (h : Remembers l history) (delay : Nat) (call : Call) :
    (sampleList delay call l).1 = false ↔
      call.route ∈ l.map Prod.fst ∧
        ∃ t, acceptedAt? call.route history = some t ∧ call.now - t ≤ delay := by
  have htime {t : Nat} (hl : l.lookup call.route = some t) :
      acceptedAt? call.route history = some t := h.times _ (mem_of_lookup hl)
  rcases sampleList_cases delay call l with ⟨hl, hanswer⟩ | ⟨t, hl, hdue, hanswer⟩ |
    ⟨t, hl, hdue, hanswer⟩
  · rw [hanswer]
    exact iff_of_false Bool.noConfusion fun hheld => not_mem_routes_of_lookup hl hheld.1
  · rw [hanswer, htime hl]
    refine iff_of_false Bool.noConfusion fun ⟨_, t', ht, hle⟩ => ?_
    cases ht
    omega
  · rw [hanswer, htime hl]
    exact iff_of_true rfl ⟨mem_routes_of_lookup hl, t, rfl, hdue⟩

/-! ## the sampler -/

/-- what holds of a sampler after a history of calls -/
structure Follows (delay : Nat) (history : List (Call × Bool)) (s : RouteSampler) : Prop where
  delay_eq : s.delay = delay
  capacity_eq : s.lastAccepted.capacity = maxTrackedRoutes
  tick_le : s.lastAccepted.tick ≤ 2 * history.length
  shows : ∃ l, s.lastAccepted.Shows l ∧ Remembers l history

theorem follows_new (delay : Nat) : Follows delay [] (new delay) where
  delay_eq := rfl
  capacity_eq := rfl
  tick_le := Nat.le_refl _
  shows := ⟨[], RecencyCache.shows_empty _, rfl, fun _ hp => absurd hp List.not_mem_nil⟩

/-- a call does to the cache what it does to the list -/
theorem ask_eq {s : RouteSampler} {l : RecencyList Route Nat}
    (hcapacity : s.lastAccepted.capacity = maxTrackedRoutes) (h : s.lastAccepted.Shows l)
    (call : Call) :
    (ask call s).1 = (sampleList s.delay call l).1 ∧
      (ask call s).2.lastAccepted.Shows (sampleList s.delay call l).2 := by
  obtain ⟨hlast, hget⟩ := h.get? call.route
  have hframe := (RecencyCache.frame_get? call.route s.lastAccepted).1.trans hcapacity
  have hstore := hget.store (by rw [hframe]; decide) call.route call.now
  rw [hframe] at hstore
  have hask : ask call s
      = if isDue s.delay (s.lastAccepted.get? call.route).1 call.now
        then (true, ⟨s.delay, (s.lastAccepted.get? call.route).2.store call.route call.now⟩)
        else (false, ⟨s.delay, (s.lastAccepted.get? call.route).2⟩) := rfl
  rw [hask, hlast]
  rcases sampleList_cases s.delay call l with ⟨hl, hlist⟩ | ⟨t, hl, hdue, hlist⟩ |
    ⟨t, hl, hdue, hlist⟩
  · rw [hlist]
    rw [RecencyList.get?, hl] at hstore ⊢
    rw [RecencyList.store, hl] at hstore
    exact ⟨rfl, hstore⟩
  · rw [hlist]
    rw [RecencyList.get?, hl] at hstore ⊢
    rw [RecencyList.store_front] at hstore
    rw [if_pos (by simpa [isDue] using hdue)]
    exact ⟨rfl, hstore⟩
  · rw [hlist]
    rw [RecencyList.get?, hl] at hget ⊢
    rw [if_neg (by simpa [isDue] using hdue)]
    exact ⟨rfl, hget⟩

/-- a call moves the clock by two at most -/
theorem frame_ask (call : Call) (s : RouteSampler) :
    (ask call s).2.delay = s.delay ∧
      (ask call s).2.lastAccepted.capacity = s.lastAccepted.capacity ∧
      (ask call s).2.lastAccepted.tick ≤ s.lastAccepted.tick + 2 := by
  obtain ⟨hcapacity, htick⟩ := RecencyCache.frame_get? call.route s.lastAccepted
  obtain ⟨hcapacity', htick'⟩ :=
    RecencyCache.frame_store call.route call.now (s.lastAccepted.get? call.route).2
  unfold ask RouteSampler.sample
  dsimp only
  split
  · exact ⟨rfl, hcapacity'.trans hcapacity, by dsimp only; omega⟩
  · exact ⟨rfl, hcapacity, by dsimp only; omega⟩

theorem Follows.ask {delay : Nat} {history : List (Call × Bool)} {s : RouteSampler}
    (h : Follows delay history s) (call : Call) :
    Follows delay (history ++ [(call, (RouteSampler.ask call s).1)])
      (RouteSampler.ask call s).2 := by
  obtain ⟨l, hshows, hremembers⟩ := h.shows
  obtain ⟨hanswer, hnext⟩ := ask_eq h.capacity_eq hshows call
  obtain ⟨hdelay, hcapacity, htick⟩ := frame_ask call s
  have hle := h.tick_le
  refine ⟨hdelay.trans h.delay_eq, hcapacity.trans h.capacity_eq, ?_, _, hnext, ?_⟩
  · rw [List.length_append, List.length_singleton]
    omega
  · rw [hanswer]
    exact hremembers.sample s.delay call

theorem follows_runAll {delay : Nat} {history : List (Call × Bool)} {s : RouteSampler}
    (h : Follows delay history s) (calls : List Call) :
    Follows delay (history ++ calls.zip (runAll RouteSampler.ask calls s).1)
      (runAll RouteSampler.ask calls s).2 := by
  induction calls generalizing history s with
  | nil => simpa [runAll_nil] using h
  | cons call calls ih =>
    have hrest := ih (h.ask call)
    rwa [List.append_assoc] at hrest

/-- **What is rejected.**  After any calls of a new sampler, the next one is rejected if and only if
its route was called before, few others since, and no more than the delay has gone by since its last
acceptance.  So a route is accepted again within the delay only after as many others were called as
are remembered. -/
theorem rejected_iff (delay : Nat) (calls : List Call) (call : Call) :
    let run := runAll ask calls (new delay)
    let history := calls.zip run.1
    let others := othersSince call.route calls
    ((ask call run.2).1 = false ↔
      call.route ∈ calls.map Call.route ∧ others.length < maxTrackedRoutes ∧
        ∃ t, acceptedAt? call.route history = some t ∧ call.now - t ≤ delay) ∧
    (∀ t, acceptedAt? call.route history = some t → call.now - t ≤ delay →
      (ask call run.2).1 = true → maxTrackedRoutes ≤ others.length) ∧
    run.2.lastAccepted.tick ≤ 2 * calls.length := by
  intro run history others
  have h : Follows delay history run.2 := follows_runAll (follows_new delay) calls
  obtain ⟨l, hshows, hremembers⟩ := h.shows
  have hlength : history.length = calls.length := by
    rw [List.length_zip, length_runAll, Nat.min_self]
  have hcalls : history.map Prod.fst = calls :=
    List.map_fst_zip (Nat.le_of_eq (length_runAll ..).symm)
  have hheld : call.route ∈ l.map Prod.fst
      ↔ call.route ∈ calls.map Call.route ∧ others.length < maxTrackedRoutes := by
    rw [hremembers.routes, hcalls, mem_take_eraseDups, latest, List.mem_reverse]
    rfl
  have hrejected : (ask call run.2).1 = false ↔
      call.route ∈ calls.map Call.route ∧ others.length < maxTrackedRoutes ∧
        ∃ t, acceptedAt? call.route history = some t ∧ call.now - t ≤ delay := by
    rw [(ask_eq h.capacity_eq hshows call).1, h.delay_eq, hremembers.sample_eq_false_iff, hheld, and_assoc]
  refine ⟨hrejected, fun t htime hle haccepted => ?_, hlength ▸ h.tick_le⟩
  by_contra hfew
  obtain ⟨earlier, hearlier, hroute⟩ := acceptedAt?_mem htime
  have hcalled : call.route ∈ calls.map Call.route :=
    hroute ▸ List.mem_map_of_mem (List.of_mem_zip hearlier).1
  have hno := hrejected.mpr ⟨hcalled, Nat.not_le.mp hfew, t, htime, hle⟩
  rw [haccepted] at hno
  cases hno

end RouteSampler
end RemoteGuard
