import Mathlib.Data.List.Basic
import RemoteGuard.Component

/-!
# The ruleset as a function of documents

`rulesetOf` keeps a ledger and reports to a host while it goes through the contents of a snapshot.
What it answers depends on neither, only on the documents that the snapshot holds for the ruleset,
in their order.

* `rulesetOf_fst`           its answer is the ruleset that the documents describe
                            (`describedRuleset`);
* `addDocuments_rules`, `addDocuments_data`   which documents the rules and the data come from;
* `activationOf_fst`        likewise, the answer of `activationOf`;
* `documents_of_subscribed`, `toggle?_of_subscribed`   contents of other products do not matter.
-/

namespace RemoteGuard
open Json

/-! ## documents -/

/-- the document of a content that contributes to the ruleset, with its product -/
def Content.document? (c : Content) : Option (String × Value) :=
  if c.path.product ∈ Product.ofRuleset then (Value.read? c.data).map fun v => (c.path.product, v)
  else none

namespace Snapshot

/-- the documents that contribute to the ruleset -/
def documents (s : Snapshot) : List (String × Value) := s.contents.filterMap Content.document?

/-- the documents of base rules -/
def baseDocuments (s : Snapshot) : List Value :=
  (s.documents.filter fun p => p.1 = Product.baseRules).map Prod.snd

/-- the data entries of all documents of data -/
def dataEntries (s : Snapshot) : List Value :=
  (s.documents.filter fun p => p.1 = Product.protectionData).flatMap
    fun p => (arrayField p.2 "rules_data").flatten

/-- what the first content of features says -/
def toggle? (s : Snapshot) : Option Bool :=
  (s.contents.find? fun c => c.path.product = Product.features).bind
    fun c => RemoteGuard.toggle? c.data

end Snapshot

/-- documents added one after another -/
def addDocuments (s : Merge.Sources) (documents : List (String × Value)) : Merge.Sources :=
  documents.foldl (fun s p => addDocument p.1 p.2 s) s

theorem addDocuments_cons (s : Merge.Sources) (p : String × Value)
    (documents : List (String × Value)) :
    addDocuments s (p :: documents) = addDocuments (addDocument p.1 p.2 s) documents := rfl

theorem addDocuments_rules (s : Merge.Sources) (documents : List (String × Value)) :
    (addDocuments s documents).rules
      = s.rules ++ (documents.filter fun p => p.1 = Product.baseRules).map Prod.snd := by
  induction documents generalizing s with
  | nil => exact (List.append_nil _).symm
  | cons p ps ih =>
    rw [addDocuments_cons, ih, addDocument, List.filter_cons]
    by_cases hbase : p.1 = Product.baseRules
    · rw [if_pos hbase, if_pos (decide_eq_true hbase), List.map_cons]
      exact List.append_assoc ..
    · rw [if_neg hbase, if_neg fun h => hbase (of_decide_eq_true h)]
      split <;> rfl

theorem addDocuments_data (s : Merge.Sources) (documents : List (String × Value)) :
    (addDocuments s documents).data.flatten
      = s.data.flatten ++ (documents.filter fun p => p.1 = Product.protectionData).flatMap
          fun p => (arrayField p.2 "rules_data").flatten := by
  induction documents generalizing s with
  | nil => exact (List.append_nil _).symm
  | cons p ps ih =>
    rw [addDocuments_cons, ih, addDocument, List.filter_cons]
    by_cases hbase : p.1 = Product.baseRules
    · have hdata : ¬ p.1 = Product.protectionData := by
        rw [hbase]
        decide
      rw [if_pos hbase, if_neg fun h => hdata (of_decide_eq_true h)]
    · rw [if_neg hbase]
      by_cases hdata : p.1 = Product.protectionData
      · rw [if_pos hdata, if_pos (decide_eq_true hdata), List.flatMap_cons, ← List.append_assoc]
        congr 1
        exact List.flatten_append
      · rw [if_neg hdata, if_neg fun h => hdata (of_decide_eq_true h)]

/-! ## rulesets -/

/-- the base rules: documents of them, else those that the settings select -/
def rulesInUse (files : Files) (settings : Settings) (s : Snapshot) : Option (List Value) :=
  if s.baseDocuments.isEmpty then (settings.ruleset.load files).1.toOption.map fun rules => [rules]
  else some s.baseDocuments

/-- what the ruleset is merged of -/
def sourcesInUse (files : Files) (settings : Settings) (s : Snapshot) : Option Merge.Sources :=
  (rulesInUse files settings s).map fun rules =>
    { addDocuments {} s.documents with rules := rules }

/-- a merge, with its failures as those of remote configuration -/
def mergedRuleset (sources : Merge.Sources) : Except RemoteError Value :=
  match Merge.merge sources with
  | .ok merged => .ok merged
  | .error (.rules e) => .error (.merge e)
  | .error (.data e) => .error (.collapse e)

/-- the ruleset that the documents of a snapshot describe -/
def describedRuleset (files : Files) (settings : Settings) (s : Snapshot) :
    Except RemoteError Value :=
  match sourcesInUse files settings s with
  | none => .error .noRules
  | some sources => mergedRuleset sources

theorem mergedRuleset_of_ok {sources : Merge.Sources} {merged : Value}
    (h : Merge.merge sources = .ok merged) : mergedRuleset sources = .ok merged := by
  rw [mergedRuleset, h]

theorem mergedRuleset_collapse_iff (sources : Merge.Sources) (e : Merge.DataClash) :
    mergedRuleset sources = .error (.collapse e) ↔ Merge.merge sources = .error (.data e) := by
  rw [mergedRuleset]
  cases Merge.merge sources with
  | ok merged => exact ⟨fun h => (by cases h), fun h => (by cases h)⟩
  | error failure =>
    cases failure with
    | rules e => exact ⟨fun h => (by cases h), fun h => (by cases h)⟩
    | data e => exact ⟨fun h => (by cases h; rfl), fun h => (by cases h; rfl)⟩

theorem collectContents_sources (col : Collection) (l : Ledger) (cs : List Content) :
    (collectContents col l cs).1.sources
      = addDocuments col.sources (cs.filterMap Content.document?) := by
  induction cs generalizing col l with
  | nil => rfl
  | cons c cs ih =>
    show (collectContents (col.add l c).1 (col.add l c).2 cs).1.sources = _
    rw [ih, Collection.add, List.filterMap_cons, Content.document?]
    by_cases hp : c.path.product ∈ Product.ofRuleset
    · rw [if_pos hp, if_pos hp]
      cases Value.read? c.data with
      | none => rfl
      | some document => rfl
    · rw [if_neg hp, if_neg hp]

theorem mergeCollection_fst (col : Collection) (l : Ledger) :
    (mergeCollection col l).1 = mergedRuleset col.sources := by
  rw [mergeCollection, mergedRuleset]
  cases Merge.merge col.sources with
  | ok merged => rfl
  | error e => cases e <;> rfl

theorem loadRuleset_fst (files : Files) (settings : Settings) (h : Host) :
    (loadRuleset files settings h).1 = (settings.ruleset.load files).1.toOption := by
  rw [loadRuleset]
  cases (settings.ruleset.load files).1 <;> rfl

theorem rulesetOf_fst (files : Files) (settings : Settings) (s : Snapshot) (l : Ledger)
    (h : Host) : (rulesetOf files settings s l h).1 = describedRuleset files settings s := by
  have hsources : (collectContents {} l s.contents).1.sources = addDocuments {} s.documents :=
    collectContents_sources {} l s.contents
  have hrules : (collectContents {} l s.contents).1.sources.rules = s.baseDocuments := by
    rw [hsources, addDocuments_rules]
    rfl
  rw [rulesetOf, describedRuleset, sourcesInUse, rulesInUse]
  simp only
  rw [hrules]
  cases hb : s.baseDocuments.isEmpty with
  | true =>
    rw [if_pos rfl, if_pos rfl, ← loadRuleset_fst files settings h]
    match loadRuleset files settings h with
    | (none, h) => rfl
    | (some rules, h) =>
      show (mergeCollection _ _).1 = _
      rw [mergeCollection_fst, Collection.withRules, hsources]
      rfl
  | false =>
    rw [if_neg Bool.false_ne_true, if_neg Bool.false_ne_true]
    show (mergeCollection _ _).1 = _
    rw [mergeCollection_fst, hsources, ← hrules, hsources]
    rfl

/-! ## activation -/

theorem activationOf_fst (s : Snapshot) (l : Ledger) : (activationOf s l).1 = s.toggle? := by
  rw [activationOf, Snapshot.toggle?]
  cases s.contents.find? fun c => c.path.product = Product.features with
  | none => rfl
  | some c =>
    show _ = RemoteGuard.toggle? c.data
    simp only
    cases RemoteGuard.toggle? c.data <;> rfl

/-! ## what they depend on -/

/-- the path is one of request protection -/
def ConfigPath.isSubscribed (path : ConfigPath) : Bool :=
  Product.subscribed.contains path.product

/-- the contents of request protection -/
def Snapshot.subscribed (s : Snapshot) : List Content :=
  s.contents.filter fun c => c.path.isSubscribed

theorem documents_of_subscribed (s : Snapshot) :
    s.documents = s.subscribed.filterMap Content.document? := by
  rw [Snapshot.subscribed, List.filterMap_filter]
  refine List.filterMap_congr fun c _ => ?_
  by_cases hc : c.path.isSubscribed = true
  · rw [if_pos hc]
  · rw [if_neg hc, Content.document?, if_neg]
    intro hp
    refine hc (List.contains_iff_mem.mpr ?_)
    exact List.mem_append_left [Product.features] hp

theorem toggle?_of_subscribed (s : Snapshot) :
    s.toggle? = (s.subscribed.find? fun c => c.path.product = Product.features).bind
      fun c => RemoteGuard.toggle? c.data := by
  rw [Snapshot.toggle?, Snapshot.subscribed, List.find?_filter]
  congr 2
  funext c
  by_cases hp : c.path.product = Product.features
  · have hc : c.path.isSubscribed = true := by
      rw [ConfigPath.isSubscribed, hp]
      decide
    simp only [hc, decide_eq_true_eq, true_and]
  · simp only [hp, decide_false, Bool.false_eq_true, and_false]

end RemoteGuard
