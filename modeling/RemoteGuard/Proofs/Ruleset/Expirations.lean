import Mathlib.Algebra.Order.Monoid.WithTop
import Mathlib.Data.List.MinMax
import Mathlib.Order.Lattice.Nat
import RemoteGuard.Ruleset.Merge

/-!
# What merged data lists, and how long

Under a key, data lists values, each with the expirations of its items.  What counts of a value is
the latest of them: `latestUnder`, which is `⊤` when it never expires and `⊥` when it is not listed.
That is the join over all items of all entries, and every step of a merge keeps joins: adding an
item (`latestIn_addItem`), merging two lists of items (`latestIn_mergeItems`), adding an entry
(`exists_addEntry`).  So `combineData` keeps what is listed, and neither the order of the sources nor
merging them in stages matters (`listing_of_combineData`).
-/

namespace RemoteGuard
open Json

namespace Merge

/-! ## what data lists -/

/-- the id and the type of an entry that has both -/
def DataKey.ofEntry? (entry : Value) : Option DataKey :=
  match (entry.member? "id").bind Value.text?, (entry.member? "type").bind Value.text? with
  | some id, some type => some ⟨id, type⟩
  | _, _ => none

/-- how long an item is listed, without an expiration for ever -/
def DataItem.lasts (item : DataItem) : WithTop Nat :=
  match item.expiration with
  | some e => e
  | none => ⊤

def itemsOf (entry : Value) : List DataItem :=
  (entry.memberOrNull "data").itemsOrNone.map DataItem.ofValue

/-- how long each of the items with value `v` is listed -/
def lasting (v : Value) (items : List DataItem) : List (WithTop Nat) :=
  (items.filter fun item => item.value.same v).map DataItem.lasts

/-- how long `v` is listed at each place where it occurs under `key` -/
def expirations (key : DataKey) (v : Value) (entries : List Value) : List (WithTop Nat) :=
  (entries.filter fun entry => DataKey.ofEntry? entry = some key).flatMap fun entry =>
    lasting v (itemsOf entry)

/-- some entry of the key has `v` -/
def Occurs (key : DataKey) (v : Value) (entries : List Value) : Prop :=
  ∃ entry ∈ entries, DataKey.ofEntry? entry = some key ∧
    ∃ item ∈ itemsOf entry, item.value.same v = true

theorem occurs_iff {key : DataKey} {v : Value} {entries : List Value} :
    Occurs key v entries ↔ expirations key v entries ≠ [] := by
  simp only [Occurs, expirations, lasting, ne_eq, List.flatMap_eq_nil_iff, List.map_eq_nil_iff,
    List.filter_eq_nil_iff, List.mem_filter, decide_eq_true_eq]
  push Not
  constructor
  · rintro ⟨entry, hentry, hkey, hitem⟩
    exact ⟨entry, ⟨hentry, hkey⟩, hitem⟩
  · rintro ⟨entry, ⟨hentry, hkey⟩, hitem⟩
    exact ⟨entry, hentry, hkey, hitem⟩

def latestIn (v : Value) (items : List DataItem) : WithBot (WithTop Nat) :=
  (lasting v items).maximum

def latestUnder (key : DataKey) (v : Value) (entries : List Value) : WithBot (WithTop Nat) :=
  (expirations key v entries).maximum

/-- The same values occur under the same keys, and are listed as long. -/
def SameListing (entries entries' : List Value) : Prop :=
  ∀ key v, (Occurs key v entries ↔ Occurs key v entries') ∧
    latestUnder key v entries = latestUnder key v entries'

theorem sameListing_of_latest {entries entries' : List Value}
    (h : ∀ key v, latestUnder key v entries = latestUnder key v entries') :
    SameListing entries entries' := by
  intro key v
  refine ⟨?_, h key v⟩
  have hbot : latestUnder key v entries = ⊥ ↔ latestUnder key v entries' = ⊥ := by rw [h]
  rw [latestUnder, latestUnder, List.maximum_eq_bot, List.maximum_eq_bot] at hbot
  rw [occurs_iff, occurs_iff]
  exact not_congr hbot

/-! ## joins -/

theorem latestIn_append (v : Value) (items items' : List DataItem) :
    latestIn v (items ++ items') = max (latestIn v items) (latestIn v items') := by
  rw [latestIn, lasting, List.filter_append, List.map_append, List.maximum_append]
  rfl

theorem latestIn_cons (v : Value) (item : DataItem) (items : List DataItem) :
    latestIn v (item :: items) = max (latestIn v [item]) (latestIn v items) :=
  latestIn_append v [item] items

theorem latestIn_single (v : Value) (item : DataItem) :
    latestIn v [item] = if item.value.same v then (item.lasts : WithBot (WithTop Nat)) else ⊥ := by
  rw [latestIn, lasting, List.filter_singleton]
  cases item.value.same v <;> rfl

theorem latestUnder_append (key : DataKey) (v : Value) (entries entries' : List Value) :
    latestUnder key v (entries ++ entries')
      = max (latestUnder key v entries) (latestUnder key v entries') := by
  rw [latestUnder, expirations, List.filter_append, List.flatMap_append, List.maximum_append]
  rfl

theorem latestUnder_cons (key : DataKey) (v : Value) (entry : Value) (entries : List Value) :
    latestUnder key v (entry :: entries)
      = max (latestUnder key v [entry]) (latestUnder key v entries) :=
  latestUnder_append key v [entry] entries

theorem latestUnder_single (key : DataKey) (v : Value) (entry : Value) :
    latestUnder key v [entry]
      = if DataKey.ofEntry? entry = some key then latestIn v (itemsOf entry) else ⊥ := by
  rw [latestUnder, expirations]
  by_cases h : DataKey.ofEntry? entry = some key
  · rw [if_pos h, List.filter_cons_of_pos (by simpa using h), List.filter_nil,
      List.flatMap_singleton, latestIn]
  · rw [if_neg h, List.filter_cons_of_neg (by simpa using h)]
    rfl

theorem latestUnder_perm (key : DataKey) (v : Value) {entries entries' : List Value}
    (h : entries.Perm entries') : latestUnder key v entries = latestUnder key v entries' :=
  ((h.filter _).flatMap_right _).maximum_eq

/-! ## items -/

theorem lasts_latest (v w : Value) (a b : Option Nat) :
    DataItem.lasts ⟨v, latest a b⟩ = max (DataItem.lasts ⟨v, a⟩) (DataItem.lasts ⟨w, b⟩) := by
  cases a with
  | none => exact (max_eq_left le_top).symm
  | some a =>
    cases b with
    | none => exact (max_eq_right le_top).symm
    | some b => exact WithTop.coe_max a b

/-- an added item joins what was listed, whether it is kept or merged into another -/
theorem latestIn_addItem (v : Value) (item : DataItem) (kept : List DataItem) :
    latestIn v (addItem item kept) = max (latestIn v [item]) (latestIn v kept) := by
  induction kept with
  | nil => exact (max_bot_right _).symm
  | cons first rest ih =>
    rw [addItem]
    split
    · next hsame =>
      have hv : first.value.same v = item.value.same v := Value.same_congr hsame v
      rw [latestIn_cons, latestIn_cons v first rest, ← max_assoc]
      congr 1
      rw [latestIn_single, latestIn_single, latestIn_single]
      show (if first.value.same v = true then _ else _) = _
      rw [hv]
      split
      · rw [lasts_latest first.value item.value, WithBot.coe_max, max_comm]
      · exact (max_bot_left _).symm
    · rw [latestIn_cons v first (addItem item rest), ih, latestIn_cons v first rest, max_left_comm]

theorem latestIn_foldl (v : Value) (items kept : List DataItem) :
    latestIn v (items.foldl (fun kept item => addItem item kept) kept)
      = max (latestIn v kept) (latestIn v items) := by
  induction items generalizing kept with
  | nil => exact (max_bot_right _).symm
  | cons item items ih =>
    rw [List.foldl_cons, ih, latestIn_addItem, latestIn_cons v item items, max_assoc,
      max_left_comm]

/-- the expiration of an item that was read is a word -/
def DataItem.Fits (item : DataItem) : Prop := ∀ e, item.expiration = some e → e < wordLimit

theorem DataItem.fits_ofValue (v : Value) : (DataItem.ofValue v).Fits := by
  intro e h
  obtain ⟨w, -, hw⟩ := Option.bind_eq_some_iff.mp h
  cases w with
  | number n =>
    cases n with
    | integer n =>
      rw [Value.word64?, intWord64?] at hw
      split at hw
      · exact (fits64_eq_some_iff.mp hw).2
      · cases hw
    | float x => cases hw
  | _ => cases hw

/-- an item is read back from what is written for it -/
theorem DataItem.ofValue_toValue {item : DataItem} (h : item.Fits) :
    DataItem.ofValue item.toValue = item := by
  obtain ⟨v, expiration⟩ := item
  cases expiration with
  | none => rfl
  | some e =>
    have hword : (Value.nat e).word64? = some e := by
      rw [Value.nat, Value.word64?, intWord64?, if_pos (Int.natCast_nonneg e), Int.toNat_natCast]
      exact fits64_eq_some_iff.mpr ⟨rfl, h e rfl⟩
    show DataItem.mk v ((some (Value.nat e)).bind Value.word64?) = _
    rw [Option.bind_some, hword]

theorem fits_latest {v : Value} {a b : DataItem} (ha : a.Fits) (hb : b.Fits) :
    DataItem.Fits ⟨v, latest a.expiration b.expiration⟩ := by
  intro e h
  obtain ⟨_, a⟩ := a
  obtain ⟨_, b⟩ := b
  cases a with
  | none => cases h
  | some a =>
    cases b with
    | none => cases h
    | some b =>
      cases h
      have hlta : a < wordLimit := ha a rfl
      have hltb : b < wordLimit := hb b rfl
      show max a b < wordLimit
      omega

theorem fits_addItem {item : DataItem} (hitem : item.Fits) {kept : List DataItem}
    (hkept : ∀ i ∈ kept, i.Fits) : ∀ i ∈ addItem item kept, i.Fits := by
  induction kept with
  | nil => exact List.forall_mem_singleton.mpr hitem
  | cons first rest ih =>
    obtain ⟨hfirst, hrest⟩ := List.forall_mem_cons.mp hkept
    rw [addItem]
    split
    · exact List.forall_mem_cons.mpr ⟨fits_latest hfirst hitem, hrest⟩
    · exact List.forall_mem_cons.mpr ⟨hfirst, ih hrest⟩

theorem fits_foldl {items kept : List DataItem} (hitems : ∀ i ∈ items, i.Fits)
    (hkept : ∀ i ∈ kept, i.Fits) :
    ∀ i ∈ items.foldl (fun kept item => addItem item kept) kept, i.Fits := by
  induction items generalizing kept with
  | nil => exact hkept
  | cons item items ih =>
    obtain ⟨hitem, hitems⟩ := List.forall_mem_cons.mp hitems
    exact ih hitems (fits_addItem hitem hkept)

/-- the items that are read back of merged ones -/
theorem map_ofValue_mergeItems (current incoming : Value) :
    (mergeItems current incoming).map DataItem.ofValue
      = ((current.itemsOrNone ++ incoming.itemsOrNone).map DataItem.ofValue).foldl
          (fun kept item => addItem item kept) [] := by
  have hread : ∀ i ∈ (current.itemsOrNone ++ incoming.itemsOrNone).map DataItem.ofValue, i.Fits := by
    intro i hi
    obtain ⟨w, -, rfl⟩ := List.mem_map.mp hi
    exact DataItem.fits_ofValue w
  have hfits := fits_foldl hread (List.forall_mem_nil DataItem.Fits)
  rw [mergeItems, List.map_map]
  exact (List.map_congr_left fun i hi => DataItem.ofValue_toValue (hfits i hi)).trans
    (List.map_id _)

/-- two lists of items, written and read again, list what both list -/
theorem latestIn_mergeItems (v current incoming : Value) :
    latestIn v ((mergeItems current incoming).map DataItem.ofValue)
      = max (latestIn v (current.itemsOrNone.map DataItem.ofValue))
        (latestIn v (incoming.itemsOrNone.map DataItem.ofValue)) := by
  rw [map_ofValue_mergeItems, latestIn_foldl, List.map_append, latestIn_append]
  exact max_bot_left _

/-! ## entries -/

theorem ofEntry_eq {entry : Value} {key : DataKey} (h : DataKey.ofEntry? entry = some key) :
    DataKey.ofEntry entry = key := by
  rw [DataKey.ofEntry?] at h
  split at h
  · next id type hid htype =>
    cases h
    obtain ⟨v, hv, hid⟩ := Option.bind_eq_some_iff.mp hid
    obtain ⟨w, hw, htype⟩ := Option.bind_eq_some_iff.mp htype
    rw [DataKey.ofEntry, Value.memberOrNull, Value.memberOrNull, hv, hw, Option.getD_some,
      Option.getD_some, hid, htype]
    rfl
  · cases h

/-- an object takes items, and keeps its other members -/
theorem exists_setItems_of_object {entry : Value} (h : entry.members?.isSome = true)
    (items : List Value) :
    ∃ entry', setItems entry items = .ok entry' ∧ entry'.members?.isSome = true ∧
      (∀ member, member ≠ "data" → entry'.member? member = entry.member? member) ∧
      itemsOf entry' = items.map DataItem.ofValue := by
  cases entry with
  | object ms =>
    refine ⟨_, rfl, rfl, fun member hne => Dictionary.find?_insert_of_ne hne _ _, ?_⟩
    have hdata : (Value.object (Dictionary.insert "data" (.array items) ms)).member? "data"
        = some (.array items) := Dictionary.find?_insert_self _ _ _
    rw [itemsOf, Value.memberOrNull, hdata]
    rfl
  | _ => cases h

theorem isObject_of_key {entry : Value} {key : DataKey}
    (h : DataKey.ofEntry? entry = some key) : entry.members?.isSome = true := by
  cases entry with
  | object ms => rfl
  | _ => cases h

/-- an entry with id and type takes items, and keeps both -/
theorem exists_setItems {entry : Value} {key : DataKey} (h : DataKey.ofEntry? entry = some key)
    (items : List Value) :
    ∃ entry', setItems entry items = .ok entry' ∧ DataKey.ofEntry? entry' = some key ∧
      itemsOf entry' = items.map DataItem.ofValue := by
  obtain ⟨entry', hset, -, hmember, hitems⟩ :=
    exists_setItems_of_object (isObject_of_key h) items
  refine ⟨entry', hset, ?_, hitems⟩
  rw [DataKey.ofEntry?, hmember "id" (by decide), hmember "type" (by decide)]
  exact h

/-- every entry stands under its own key -/
def Keyed (merged : List (DataKey × Value)) : Prop :=
  ∀ p ∈ merged, DataKey.ofEntry? p.2 = some p.1

theorem exists_addEntry {entry : Value} {key : DataKey} (h : DataKey.ofEntry? entry = some key)
    {merged : List (DataKey × Value)} (hm : Keyed merged) :
    ∃ merged', addEntry entry merged = .ok merged' ∧ Keyed merged' ∧ merged' ≠ [] ∧
      ∀ k v, latestUnder k v (merged'.map Prod.snd)
        = max (latestUnder k v (merged.map Prod.snd)) (latestUnder k v [entry]) := by
  induction merged with
  | nil =>
    rw [addEntry, ofEntry_eq h]
    exact ⟨_, rfl, List.forall_mem_singleton.mpr h, List.cons_ne_nil _ _,
      fun k v => (max_bot_left _).symm⟩
  | cons head rest ih =>
    obtain ⟨k₀, first⟩ := head
    obtain ⟨hfirst, hrest⟩ := List.forall_mem_cons.mp hm
    rw [addEntry, ofEntry_eq h]
    split
    · next hk =>
      obtain ⟨first', hset, hfirst', hitems⟩ := exists_setItems hfirst
        (mergeItems (first.memberOrNull "data") (entry.memberOrNull "data"))
      rw [hset]
      refine ⟨_, rfl, List.forall_mem_cons.mpr ⟨hfirst', hrest⟩, List.cons_ne_nil _ _, ?_⟩
      intro k v
      have hjoin : latestUnder k v [first']
          = max (latestUnder k v [first]) (latestUnder k v [entry]) := by
        rw [latestUnder_single, latestUnder_single, latestUnder_single, hfirst', hfirst, h, hk,
          hitems, latestIn_mergeItems]
        split
        · rfl
        · exact (max_bot_left _).symm
      show latestUnder k v (first' :: rest.map Prod.snd) = max (latestUnder k v (first :: _)) _
      rw [latestUnder_cons, hjoin, latestUnder_cons k v first (rest.map Prod.snd), max_right_comm]
    · obtain ⟨rest', hadd, hkeyed, -, hjoin⟩ := ih hrest
      rw [hadd]
      refine ⟨_, rfl, List.forall_mem_cons.mpr ⟨hfirst, hkeyed⟩, List.cons_ne_nil _ _, ?_⟩
      intro k v
      show latestUnder k v (first :: rest'.map Prod.snd) = max (latestUnder k v (first :: _)) _
      rw [latestUnder_cons, hjoin, latestUnder_cons k v first (rest.map Prod.snd), max_assoc]

/-- every entry has an id and a type -/
def AllNamed (entries : List Value) : Prop :=
  ∀ entry ∈ entries, (DataKey.ofEntry? entry).isSome = true

theorem exists_addEntries {entries : List Value} (h : AllNamed entries)
    {merged : List (DataKey × Value)} (hm : Keyed merged) :
    ∃ merged', addEntries entries merged = .ok merged' ∧ Keyed merged' ∧
      (merged' = [] ↔ merged = [] ∧ entries = []) ∧
      ∀ k v, latestUnder k v (merged'.map Prod.snd)
        = max (latestUnder k v (merged.map Prod.snd)) (latestUnder k v entries) := by
  induction entries generalizing merged with
  | nil => exact ⟨merged, rfl, hm, by simp, fun k v => (max_bot_right _).symm⟩
  | cons entry entries ih =>
    obtain ⟨hentry, hentries⟩ := List.forall_mem_cons.mp h
    obtain ⟨key, hkey⟩ := Option.isSome_iff_exists.mp hentry
    obtain ⟨merged', hadd, hkeyed, hne, hjoin⟩ := exists_addEntry hkey hm
    obtain ⟨merged'', hadds, hkeyed', hnil, hjoins⟩ := ih hentries hkeyed
    refine ⟨merged'', ?_, hkeyed', ?_, ?_⟩
    · rw [addEntries, hadd]
      exact hadds
    · rw [hnil]
      exact ⟨fun hn => absurd hn.1 hne, fun hn => absurd hn.2 (List.cons_ne_nil _ _)⟩
    · intro k v
      rw [hjoins, hjoin, latestUnder_cons k v entry entries, max_assoc]

/-! ## merges -/

theorem exists_combineData {sources : List (List Value)} (h : AllNamed sources.flatten) :
    ∃ result, combineData sources = .ok result ∧ (result = none ↔ sources.flatten = []) ∧
      AllNamed (result.getD []) ∧
      ∀ k v, latestUnder k v (result.getD []) = latestUnder k v sources.flatten := by
  have hnone : Keyed [] := List.forall_mem_nil _
  obtain ⟨merged, hadd, hkeyed, hnil, hjoin⟩ := exists_addEntries h hnone
  have hlatest : ∀ k v, latestUnder k v (merged.map Prod.snd) = latestUnder k v sources.flatten :=
    fun k v => (hjoin k v).trans (max_bot_left _)
  have hnamed : AllNamed (merged.map Prod.snd) := by
    intro entry hentry
    obtain ⟨p, hp, rfl⟩ := List.mem_map.mp hentry
    rw [hkeyed p hp]
    rfl
  rw [combineData, hadd]
  cases merged with
  | nil => exact ⟨none, rfl, iff_of_true rfl (hnil.mp rfl).2, hnamed, hlatest⟩
  | cons p rest =>
    have hne : sources.flatten ≠ [] := fun he => List.cons_ne_nil p rest (hnil.mpr ⟨rfl, he⟩)
    exact ⟨_, rfl, iff_of_false (Option.some_ne_none _) hne, hnamed, hlatest⟩

/-- merging groups of sources keeps what they list -/
theorem exists_stages {groups : List (List (List Value))}
    (h : AllNamed groups.flatten.flatten) :
    ∃ parts : List (Option (List Value)),
      List.Forall₂ (fun group part => combineData group = .ok part) groups parts ∧
      AllNamed (parts.map fun part => part.getD []).flatten ∧
      ∀ k v, latestUnder k v (parts.map fun part => part.getD []).flatten
        = latestUnder k v groups.flatten.flatten := by
  induction groups with
  | nil => exact ⟨[], .nil, h, fun k v => rfl⟩
  | cons group groups ih =>
    rw [List.flatten_cons, List.flatten_append] at h
    obtain ⟨hgroup, hgroups⟩ := List.forall_mem_append.mp h
    obtain ⟨part, hpart, -, hnamed, hlatest⟩ := exists_combineData hgroup
    obtain ⟨parts, hparts, hnameds, hlatests⟩ := ih hgroups
    refine ⟨part :: parts, .cons hpart hparts, List.forall_mem_append.mpr ⟨hnamed, hnameds⟩, ?_⟩
    intro k v
    rw [List.map_cons, List.flatten_cons, latestUnder_append, hlatest, hlatests, List.flatten_cons,
      List.flatten_append, latestUnder_append]

/-- **What merged data lists.**  Data whose entries have ids and types is merged; under each key the
result has a value if an entry of the key has it, listed as long as its last occurrence; and there is
no result only when there is no entry.  So any order of the entries, in any sources, gives the same
listing, and so does merging the sources in groups and then the results. -/
theorem listing_of_combineData {sources : List (List Value)} (h : AllNamed sources.flatten) :
    ∃ result, combineData sources = .ok result ∧ (result = none ↔ sources.flatten = []) ∧
      SameListing (result.getD []) sources.flatten ∧
      (∀ sources' : List (List Value), sources'.flatten.Perm sources.flatten →
        ∃ result', combineData sources' = .ok result' ∧
          SameListing (result'.getD []) (result.getD [])) ∧
      ∀ groups : List (List (List Value)), groups.flatten.Perm sources →
        ∃ parts result', List.Forall₂ (fun group part => combineData group = .ok part) groups parts ∧
          combineData (parts.map fun part => part.getD []) = .ok result' ∧
          SameListing (result'.getD []) (result.getD []) := by
  obtain ⟨result, hok, hnone, -, hlatest⟩ := exists_combineData h
  refine ⟨result, hok, hnone, sameListing_of_latest hlatest, ?_, ?_⟩
  · intro sources' hperm
    have h' : AllNamed sources'.flatten := fun entry he => h entry (hperm.mem_iff.mp he)
    obtain ⟨result', hok', -, -, hlatest'⟩ := exists_combineData h'
    refine ⟨result', hok', sameListing_of_latest fun k v => ?_⟩
    rw [hlatest', hlatest, latestUnder_perm k v hperm]
  · intro groups hperm
    have hflat : groups.flatten.flatten.Perm sources.flatten := hperm.flatten
    have h' : AllNamed groups.flatten.flatten := fun entry he => h entry (hflat.mem_iff.mp he)
    obtain ⟨parts, hparts, hnamed, hstages⟩ := exists_stages h'
    obtain ⟨result', hok', -, -, hlatest'⟩ := exists_combineData hnamed
    refine ⟨parts, result', hparts, hok', sameListing_of_latest fun k v => ?_⟩
    rw [hlatest', hstages, hlatest, latestUnder_perm k v hflat]

/-- A value that one of three sources lists for ever is listed for ever, in any order. -/
theorem listing_of_three_sources :
    let item (v : String) (e : Nat) : Value := .object [("expiration", .nat e), ("value", .string v)]
    let entry (items : List Value) : Value :=
      .object [("data", .array items), ("id", .string "x"), ("type", .string "t")]
    let sources := [[entry [item "a" 100, item "b" 7]], [entry [.object [("value", .string "a")]]],
      [entry [item "a" 500, item "b" 3]]]
    AllNamed sources.flatten ∧ ∃ result, combineData sources = .ok result ∧
      latestUnder ⟨"x", "t"⟩ (.string "a") (result.getD []) = (⊤ : WithTop Nat) ∧
      latestUnder ⟨"x", "t"⟩ (.string "b") (result.getD []) = ((7 : Nat) : WithTop Nat) ∧
      ∃ result', combineData sources.reverse = .ok result' ∧
        SameListing (result'.getD []) (result.getD []) := by
  intro item entry sources
  have hnamed : AllNamed sources.flatten := by
    simp only [AllNamed]
    decide +kernel
  obtain ⟨result, hok, -, hlisting, hperm, -⟩ := listing_of_combineData hnamed
  refine ⟨hnamed, result, hok, ?_, ?_, ?_⟩
  · rw [(hlisting _ _).2]
    decide +kernel
  · rw [(hlisting _ _).2]
    decide +kernel
  · exact hperm _ sources.reverse_perm.flatten

end Merge
end RemoteGuard
