import RemoteGuard.Ruleset.Merge

/-!
# The members of a merged ruleset

A merge takes the members of the combined rules and writes its own over them (`merge_eq`): the lists
that its sources have, and always processors and scanners (`Sources.written`).  All others stay.

The main statement is `members_of_single_document`: what becomes of a document of rules that is
merged with nothing.
-/

namespace RemoteGuard
open Json

namespace Merge

/-! ## what a merge writes -/

def listMember (key : String) (list : Option (List Value)) : List (String × Value) :=
  list.toList.map fun vs => (key, .array vs)

/-- the members that a merge writes, in this order; `data` are the merged data -/
def Sources.written (s : Sources) (data : Option (List Value)) : List (String × Value) :=
  listMember "rules_data" data ++ listMember "rules_override" (concatenate s.overrides) ++
    listMember "exclusions" (concatenate s.exclusions) ++
    listMember "custom_rules" (concatenate s.customRules) ++
    [("processors", s.processors.getD (.array Builtin.processors)),
      ("scanners", s.scanners.getD (.array Builtin.scanners))]

theorem insertList_eq (key : String) (list : Option (List Value)) (o : Object) :
    insertList key list o = Dictionary.insertAll o (listMember key list) := by
  cases list <;> rfl

theorem merge_eq {s : Sources} {rules : Object} {data : Option (List Value)}
    (hrules : combineRules s.rules = .ok rules) (hdata : combineData s.data = .ok data) :
    merge s = .ok (.object (Dictionary.insertAll rules (s.written data))) := by
  rw [merge, hrules, hdata, Sources.written, Dictionary.insertAll_append,
    Dictionary.insertAll_append, Dictionary.insertAll_append, Dictionary.insertAll_append]
  simp only [insertList_eq]
  rfl

/-! ## a single document -/

/-- what a document of rules becomes that is merged with nothing -/
def mergedAlone (document : Object) : Object :=
  Dictionary.insertAll document
    [("processors", .array Builtin.processors), ("scanners", .array Builtin.scanners)]

theorem merge_document (document : Object) :
    merge { rules := [.object document] } = .ok (.object (mergedAlone document)) :=
  merge_eq (s := { rules := [.object document] }) rfl rfl

theorem processors_mergedAlone (document : Object) :
    Dictionary.find? "processors" (mergedAlone document) = some (.array Builtin.processors) :=
  (Dictionary.find?_insert_of_ne (by decide) _ _).trans (Dictionary.find?_insert_self _ _ _)

theorem scanners_mergedAlone (document : Object) :
    Dictionary.find? "scanners" (mergedAlone document) = some (.array Builtin.scanners) :=
  Dictionary.find?_insert_self _ _ _

/-- **A document of rules that is merged with nothing.**  It keeps its members, and gets no others
but the built-in processors and scanners.  It gets these whether it has some or not, so it keeps all
its members just if its processors and scanners, where it has them, are the built-in ones. -/
theorem members_of_single_document (document : Object) :
    ∃ merged : Object, merge { rules := [.object document] } = .ok (.object merged) ∧
      (∀ key, key ≠ "processors" → key ≠ "scanners" → merged.find? key = document.find? key) ∧
      merged.find? "processors" = some (.array Builtin.processors) ∧
      merged.find? "scanners" = some (.array Builtin.scanners) ∧
      ((∀ key value, document.find? key = some value → merged.find? key = some value) ↔
        (∀ value, document.find? "processors" = some value → value = .array Builtin.processors) ∧
        ∀ value, document.find? "scanners" = some value → value = .array Builtin.scanners) := by
  have hp := processors_mergedAlone document
  have hs := scanners_mergedAlone document
  have hothers : ∀ key, key ≠ "processors" → key ≠ "scanners" →
      Dictionary.find? key (mergedAlone document) = document.find? key := by
    intro key hkp hks
    refine Dictionary.find?_insertAll_of_not_mem ?_ document
    exact List.forall_mem_cons.mpr ⟨hkp.symm, List.forall_mem_singleton.mpr hks.symm⟩
  refine ⟨mergedAlone document, merge_document document, hothers, hp, hs, ?_, ?_⟩
  · intro hkept
    refine ⟨fun value hv => ?_, fun value hv => ?_⟩
    · exact Option.some.inj ((hkept _ _ hv).symm.trans hp)
    · exact Option.some.inj ((hkept _ _ hv).symm.trans hs)
  · rintro ⟨hprocessors, hscanners⟩ key value hv
    by_cases hkp : key = "processors"
    · subst hkp
      rw [hp, hprocessors value hv]
    · by_cases hks : key = "scanners"
      · subst hks
        rw [hs, hscanners value hv]
      · rw [hothers key hkp hks, hv]

/-- a document that has no processors, and says so, loses this member -/
theorem document_loses_processors :
    ¬ ∀ document : Object, ∃ merged : Object,
      merge { rules := [.object document] } = .ok (.object merged) ∧
        ∀ key value, document.find? key = some value → merged.find? key = some value := by
  intro h
  obtain ⟨merged, hok, hkept⟩ := h [("processors", .array [])]
  cases (merge_document _).symm.trans hok
  cases (hkept "processors" (.array []) rfl).symm.trans (processors_mergedAlone _)

end Merge
end RemoteGuard
