import Mathlib.Data.List.Nodup
import RemoteGuard.Content.Basic

/-!
# Lists with one content per path

A list of contents may hold several at one path.  `Distinct` says that it does not.  On such a list

* `Distinct.get?_eq_some_iff`   look-up finds exactly the members;
* `Distinct.findVerified?_eq`   the checked look-up checks the one content at the path.

`Distinct` survives `erase`, a replacement, and an addition at a free path.
-/

namespace RemoteGuard
namespace ContentList

/-- one content per path -/
def Distinct (cs : List Content) : Prop := (cs.map Content.path).Nodup

theorem distinct_nil : Distinct [] := List.nodup_nil

theorem distinct_cons {c : Content} {cs : List Content} :
    Distinct (c :: cs) ↔ get? c.path cs = none ∧ Distinct cs := by
  rw [Distinct, List.map_cons, List.nodup_cons, get?_eq_none_iff]
  constructor
  · rintro ⟨hc, hcs⟩
    exact ⟨fun d hd e => hc (e ▸ List.mem_map_of_mem hd), hcs⟩
  · rintro ⟨hc, hcs⟩
    refine ⟨fun hmem => ?_, hcs⟩
    obtain ⟨d, hd, e⟩ := List.mem_map.mp hmem
    exact hc d hd e

/-! ## look-up in a distinct list -/

theorem Distinct.get?_eq_some_iff {path : ConfigPath} {cs : List Content} {c : Content}
    (h : Distinct cs) : get? path cs = some c ↔ c ∈ cs ∧ c.path = path := by
  refine ⟨get?_eq_some, ?_⟩
  rintro ⟨hc, rfl⟩
  induction cs with
  | nil => exact absurd hc List.not_mem_nil
  | cons d cs ih =>
    obtain ⟨hd, hcs⟩ := distinct_cons.mp h
    rw [get?_cons]
    rcases List.mem_cons.mp hc with rfl | hc'
    · rw [if_pos rfl]
    · have hne : d.path ≠ c.path := fun e => get?_eq_none_iff.mp hd c hc' e.symm
      rw [if_neg hne, ih hcs hc']

theorem get?_isSome_iff {path : ConfigPath} {cs : List Content} :
    (get? path cs).isSome = true ↔ path ∈ paths cs := by
  rw [mem_paths, get?, List.find?_isSome]
  simp only [beq_iff_eq]

theorem get?_eq_none_iff_not_mem {path : ConfigPath} {cs : List Content} :
    get? path cs = none ↔ path ∉ paths cs := by
  rw [← get?_isSome_iff, Bool.not_eq_true, Option.isSome_eq_false_iff, Option.isNone_iff_eq_none]

theorem Distinct.findVerified?_eq {hexDigest : HexDigest} {path : ConfigPath} {target : Target}
    {cs : List Content} (h : Distinct cs) :
    findVerified? hexDigest path target cs
      = (get? path cs).filter fun c => target.check hexDigest c.data := by
  cases hv : findVerified? hexDigest path target cs with
  | some c =>
    obtain ⟨hc, hp, hcheck⟩ := findVerified?_eq_some hv
    rw [h.get?_eq_some_iff.mpr ⟨hc, hp⟩, Option.filter_some, if_pos hcheck]
  | none =>
    cases hg : get? path cs with
    | none => rfl
    | some c =>
      obtain ⟨hc, hp⟩ := get?_eq_some hg
      rw [Option.filter_some, if_neg]
      intro hcheck
      have hsome := isSome_findVerified?.mpr ⟨c, hc, hp, hcheck⟩
      rw [hv] at hsome
      exact absurd hsome Bool.false_ne_true

/-- every content of the list has a path of its own -/
theorem Distinct.paths_eq {cs : List Content} (h : Distinct cs) :
    paths cs = cs.map Content.path := by
  unfold paths
  induction cs with
  | nil => rfl
  | cons c cs ih =>
    obtain ⟨hc, hcs⟩ := List.nodup_cons.mp h
    have hrest : (cs.map Content.path).filter (fun p => !p == c.path) = cs.map Content.path := by
      rw [List.filter_eq_self]
      intro p hp
      have hne : p ≠ c.path := fun e => hc (e ▸ hp)
      simp [hne]
    rw [List.map_cons, List.eraseDups_cons, hrest, ih hcs]

/-! ## operations -/

theorem Distinct.filter {cs : List Content} (h : Distinct cs) (p : Content → Bool) :
    Distinct (cs.filter p) :=
  List.Nodup.sublist (List.filter_sublist.map _) h

theorem Distinct.erase {cs : List Content} (h : Distinct cs) (path : ConfigPath) :
    Distinct (erase path cs) := h.filter _

theorem Distinct.append_single {cs : List Content} {c : Content} (h : Distinct cs)
    (hc : get? c.path cs = none) : Distinct (cs ++ [c]) := by
  rw [Distinct, List.map_append]
  refine List.Nodup.append h (List.nodup_singleton _) ?_
  intro p hp hp'
  obtain ⟨d, hd, rfl⟩ := List.mem_map.mp hp
  exact get?_eq_none_iff.mp hc d hd (List.mem_singleton.mp hp')

/-- a replacement leaves the paths as they were -/
theorem map_path_of_replace? {c previous : Content} {cs ds : List Content}
    (h : replace? c cs = some (previous, ds)) : ds.map Content.path = cs.map Content.path := by
  induction cs generalizing ds with
  | nil => cases h
  | cons d cs ih =>
    rw [replace?] at h
    split at h
    · next e =>
      cases h
      rw [List.map_cons, List.map_cons, e]
    · obtain ⟨⟨q, es⟩, he, heq⟩ := Option.map_eq_some_iff.mp h
      cases heq
      rw [List.map_cons, List.map_cons, ih he]

theorem mem_of_replace? {c previous d : Content} {cs ds : List Content}
    (h : replace? c cs = some (previous, ds)) (hd : d ∈ ds) : d = c ∨ d ∈ cs := by
  induction cs generalizing ds with
  | nil => cases h
  | cons e cs ih =>
    rw [replace?] at h
    split at h
    · cases h
      exact (List.mem_cons.mp hd).imp_right (List.mem_cons_of_mem _)
    · obtain ⟨⟨q, es⟩, he, heq⟩ := Option.map_eq_some_iff.mp h
      cases heq
      rcases List.mem_cons.mp hd with rfl | hd
      · exact .inr List.mem_cons_self
      · exact (ih he hd).imp_right (List.mem_cons_of_mem _)

/-- a content that stands at its path can be replaced by itself -/
theorem replace?_of_get? {c : Content} {cs : List Content}
    (h : get? c.path cs = some c) : replace? c cs = some (c, cs) := by
  induction cs with
  | nil => cases h
  | cons d cs ih =>
    rw [get?_cons] at h
    rw [replace?]
    split at h
    · next e =>
      cases h
      rw [if_pos rfl]
    · next e =>
      rw [if_neg e, ih h]
      rfl

theorem Distinct.replace? {c previous : Content} {cs ds : List Content} (h : Distinct cs)
    (hr : replace? c cs = some (previous, ds)) : Distinct ds := by
  rw [Distinct, map_path_of_replace? hr]
  exact h

end ContentList
end RemoteGuard
