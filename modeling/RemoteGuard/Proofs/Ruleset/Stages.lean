import RemoteGuard.Ruleset.Merge

/-!
# Rules combined in stages

A document adds rules and, perhaps, a version (`CombinedRules.ofDocument`).  Adding it joins them to
what is there (`add_object`): the versions must fit, the first one counts, the rules are appended.
Joining is associative, also in when it is allowed (`fit_assoc`); so what some documents add can be
worked out on its own and joined at once (`addAll_eq_ok_iff`).

A single document is combined as it is, several by joining.  Both ways the result, read as a document,
adds what the documents add (`combineRules_adds_iff`).

The main statement is `combineRules_append`: rules may be combined in two stages.
-/

namespace RemoteGuard
open Json

namespace Merge

/-! ## versions -/

/-- the versions are the same, where both are there -/
def Fit (a b : Option Value) : Prop := ∀ v ∈ a, ∀ w ∈ b, v.same w = true

theorem fit_none (b : Option Value) : Fit none b := fun _ h => (by cases h)

theorem fit_right_none (a : Option Value) : Fit a none := fun _ _ _ h => (by cases h)

theorem fit_some {v w : Value} : Fit (some v) (some w) ↔ v.same w = true := by
  simp only [Fit, Option.mem_def, Option.some.injEq, forall_eq']

theorem fit_assoc (a b c : Option Value) :
    Fit a b ∧ Fit (a.or b) c ↔ Fit b c ∧ Fit a (b.or c) := by
  match a, b, c with
  | none, b, c => simp only [fit_none, Option.none_or, true_and, and_true]
  | some v, none, c => simp only [fit_none, fit_right_none, Option.or_none, Option.none_or, true_and]
  | some v, some w, none => simp only [fit_right_none, Option.or_none, and_true, true_and]
  | some v, some w, some x =>
    simp only [Option.some_or, fit_some]
    constructor
    · rintro ⟨hvw, hvx⟩
      exact ⟨(Value.same_congr hvw x).symm.trans hvx, hvw⟩
    · rintro ⟨hwx, hvw⟩
      exact ⟨hvw, (Value.same_congr hvw x).trans hwx⟩

theorem declaredVersion_ne_null (document : Object) : declaredVersion document ≠ some .null := by
  rw [declaredVersion]
  split
  · exact Option.some_ne_none _ |>.symm
  · next hnull => exact hnull

namespace CombinedRules

/-! ## joining -/

/-- what a document adds -/
def ofDocument (document : Object) : CombinedRules := ⟨declaredVersion document, rulesOf document⟩

def join (c d : CombinedRules) : CombinedRules := ⟨c.version.or d.version, c.rules ++ d.rules⟩

theorem empty_join (d : CombinedRules) : join {} d = d := rfl

theorem join_empty (c : CombinedRules) : c.join {} = c := by
  rw [join, Option.or_none, List.append_nil]

theorem join_assoc (c d e : CombinedRules) : (c.join d).join e = c.join (d.join e) := by
  rw [join, join, join, join, Option.or_assoc, List.append_assoc]

theorem add_object {c c' : CombinedRules} {document : Object} :
    c.add (.object document) = .ok c' ↔
      Fit c.version (ofDocument document).version ∧ c.join (ofDocument document) = c' := by
  obtain ⟨version, rules⟩ := c
  rw [add, ofDocument, join]
  simp only [Value.members?]
  generalize declaredVersion document = declared
  match version, declared with
  | version, none => simp [fit_right_none]
  | none, some found => simp [fit_none]
  | some expected, some found =>
    by_cases h : expected.same found = true <;> simp [h, fit_some]

theorem addAll_object_cons {c c' : CombinedRules} {document : Object} {documents : List Value} :
    c.addAll (.object document :: documents) = .ok c' ↔
      Fit c.version (ofDocument document).version ∧
        (c.join (ofDocument document)).addAll documents = .ok c' := by
  rw [addAll]
  cases hadd : c.add (.object document) with
  | ok next =>
    obtain ⟨hfit, rfl⟩ := add_object.mp hadd
    exact (and_iff_right hfit).symm
  | error e =>
    refine iff_of_false (fun h => (by cases h)) fun h => ?_
    cases hadd.symm.trans (add_object.mpr ⟨h.1, rfl⟩)

theorem addAll_append {c c' : CombinedRules} {xs ys : List Value} :
    c.addAll (xs ++ ys) = .ok c' ↔ ∃ d, c.addAll xs = .ok d ∧ d.addAll ys = .ok c' := by
  induction xs generalizing c with
  | nil => exact ⟨fun h => ⟨c, rfl, h⟩, fun ⟨d, hd, h⟩ => (by cases hd; exact h)⟩
  | cons x xs ih =>
    rw [List.cons_append, addAll, addAll]
    cases c.add x with
    | ok d => exact ih
    | error e => exact iff_of_false (fun h => (by cases h)) fun ⟨_, h, _⟩ => (by cases h)

/-- documents add what they add on their own -/
theorem addAll_eq_ok_iff {c c' : CombinedRules} {documents : List Value} :
    c.addAll documents = .ok c' ↔
      ∃ d, addAll {} documents = .ok d ∧ Fit c.version d.version ∧ c.join d = c' := by
  induction documents generalizing c c' with
  | nil =>
    constructor
    · intro h
      cases h
      exact ⟨{}, rfl, fit_right_none _, c.join_empty⟩
    · rintro ⟨d, hd, -, rfl⟩
      cases hd
      exact congrArg _ c.join_empty.symm
  | cons document documents ih =>
    cases document with
    | object ms =>
      -- `e` is what the rest adds: the document is joined to `c` before it, or to it before `c`
      rw [addAll_object_cons, ih]
      constructor
      · rintro ⟨hfit, e, he, hfit', rfl⟩
        obtain ⟨hrest, hall⟩ := (fit_assoc _ _ _).mp ⟨hfit, hfit'⟩
        refine ⟨(ofDocument ms).join e, ?_, hall, (join_assoc ..).symm⟩
        rw [addAll_object_cons, ih]
        exact ⟨fit_none _, e, he, hrest, rfl⟩
      · rintro ⟨d, hd, hall, rfl⟩
        rw [addAll_object_cons, ih] at hd
        obtain ⟨-, e, he, hrest, rfl⟩ := hd
        obtain ⟨hfit, hfit'⟩ := (fit_assoc _ _ _).mpr ⟨hrest, hall⟩
        exact ⟨hfit, e, he, hfit', join_assoc ..⟩
    | _ => exact iff_of_false (fun h => (by cases h)) fun ⟨_, h, _⟩ => (by cases h)

/-! ## reading the result -/

theorem version_addAll {c c' : CombinedRules} {documents : List Value}
    (h : c.addAll documents = .ok c') (hc : c.version ≠ some .null) : c'.version ≠ some .null := by
  induction documents generalizing c with
  | nil =>
    cases h
    exact hc
  | cons document documents ih =>
    cases document with
    | object ms =>
      refine ih (addAll_object_cons.mp h).2 ?_
      rw [join, ne_eq, Option.or_eq_some_iff, not_or, not_and]
      exact ⟨hc, fun _ => declaredVersion_ne_null ms⟩
    | _ => cases h

/-- what was collected is what its object adds -/
theorem ofDocument_object {c : CombinedRules} (h : c.version ≠ some .null) :
    ofDocument c.object = c := by
  obtain ⟨version, rules⟩ := c
  rw [ofDocument, object]
  match version with
  | none => rfl
  | some .null => exact absurd rfl h
  | some (.bool _) | some (.number _) | some (.string _) | some (.array _) | some (.object _) => rfl

end CombinedRules

open CombinedRules

theorem combineRules_of_several {documents : List Value} (h : documents.length ≠ 1)
    {merged : Object} :
    combineRules documents = .ok merged ↔
      ∃ c, addAll {} documents = .ok c ∧ c.object = merged := by
  have hnot : ∀ document, documents ≠ [document] := by
    rintro document rfl
    exact h rfl
  rw [combineRules]
  · cases addAll {} documents with
    | ok c => simp
    | error e => simp
  · exact hnot

/-- the result adds what the documents add, whether it is one document or several -/
theorem combineRules_adds_iff {documents : List Value} {c : CombinedRules} :
    addAll {} documents = .ok c ↔
      ∃ merged, combineRules documents = .ok merged ∧ ofDocument merged = c := by
  have hstart : ({} : CombinedRules).version ≠ some .null := (Option.some_ne_none _).symm
  by_cases hone : documents.length = 1
  · obtain ⟨document, rfl⟩ := List.length_eq_one_iff.mp hone
    cases document with
    | object ms =>
      -- the document itself is the result
      rw [addAll_object_cons, empty_join, and_iff_right (fit_none _)]
      constructor
      · intro h
        cases h
        exact ⟨ms, rfl, rfl⟩
      · rintro ⟨merged, h, rfl⟩
        cases h
        rfl
    | _ => exact iff_of_false (fun h => (by cases h)) fun ⟨_, h, _⟩ => (by cases h)
  · simp only [combineRules_of_several hone]
    constructor
    · intro h
      exact ⟨_, ⟨c, h, rfl⟩, ofDocument_object (version_addAll h hstart)⟩
    · rintro ⟨_, ⟨d, hd, rfl⟩, rfl⟩
      rw [hd, ofDocument_object (version_addAll hd hstart)]

theorem combineRules_pair {first second merged : Object} :
    combineRules [.object first, .object second] = .ok merged ↔
      Fit (ofDocument first).version (ofDocument second).version ∧
        ((ofDocument first).join (ofDocument second)).object = merged := by
  rw [combineRules_of_several (by simp)]
  simp only [addAll_object_cons, empty_join, fit_none, true_and]
  constructor
  · rintro ⟨c, ⟨hfit, h⟩, rfl⟩
    cases h
    exact ⟨hfit, rfl⟩
  · rintro ⟨hfit, rfl⟩
    exact ⟨_, ⟨hfit, rfl⟩, rfl⟩

/-- **Rules in two stages.**  Documents of rules, when they are not a single one, are combined just
if those of two parts are, and then the two results; and the outcome is the same. -/
theorem combineRules_append {xs ys : List Value} (h : (xs ++ ys).length ≠ 1) (merged : Object) :
    combineRules (xs ++ ys) = .ok merged ↔
      ∃ first second, combineRules xs = .ok first ∧ combineRules ys = .ok second ∧
        combineRules [.object first, .object second] = .ok merged := by
  rw [combineRules_of_several h]
  constructor
  · rintro ⟨c, hc, rfl⟩
    obtain ⟨a, ha, hrest⟩ := addAll_append.mp hc
    obtain ⟨b, hb, hfit, rfl⟩ := addAll_eq_ok_iff.mp hrest
    obtain ⟨first, hfirst, rfl⟩ := combineRules_adds_iff.mp ha
    obtain ⟨second, hsecond, rfl⟩ := combineRules_adds_iff.mp hb
    exact ⟨first, second, hfirst, hsecond, combineRules_pair.mpr ⟨hfit, rfl⟩⟩
  · rintro ⟨first, second, hfirst, hsecond, hpair⟩
    obtain ⟨hfit, rfl⟩ := combineRules_pair.mp hpair
    have hb := combineRules_adds_iff.mpr ⟨second, hsecond, rfl⟩
    refine ⟨_, addAll_append.mpr ⟨ofDocument first, ?_, ?_⟩, rfl⟩
    · exact combineRules_adds_iff.mpr ⟨first, hfirst, rfl⟩
    · exact addAll_eq_ok_iff.mpr ⟨_, hb, hfit, rfl⟩

/-- A first document that is combined on its own keeps a member that the outcome does not have. -/
theorem combineRules_of_first_alone :
    let rule (id : String) : Value := .object [("id", .string id)]
    let document : Object := [("metadata", .null), ("rules", .array [rule "a"])]
    let xs : List Value := [.object document]
    let ys : List Value := [.object [("rules", .array [rule "b"]), ("version", .string "2.2")],
      .object [("rules", .null), ("version", .string "2.2")]]
    let merged : Object := [("rules", .array [rule "a", rule "b"]), ("version", .string "2.2")]
    (xs ++ ys).length ≠ 1 ∧ combineRules (xs ++ ys) = .ok merged ∧
      combineRules xs = .ok document ∧
      ∃ first second, combineRules xs = .ok first ∧ combineRules ys = .ok second ∧
        combineRules [.object first, .object second] = .ok merged := by
  intro rule document xs ys merged
  have hlength : (xs ++ ys).length ≠ 1 := by decide
  have hok : combineRules (xs ++ ys) = .ok merged := rfl
  exact ⟨hlength, hok, rfl, (combineRules_append hlength merged).mp hok⟩

end Merge
end RemoteGuard
