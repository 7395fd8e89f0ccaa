import Mathlib.Tactic.TFAE
import RemoteGuard.Content.TargetFile
import RemoteGuard.Proofs.Json.Printed
import RemoteGuard.Proofs.Json.Standing
import RemoteGuard.Proofs.Text.Base64

/-!
# Target files, written and read

A target file that is printed is read back, whatever its path and its octets
(`read?_print`).  The other way, a record is read as a target file just if its fields are the path
and the Base64 text of the octets (`ofTree?_eq_some_iff`): there is one payload text for each file,
the encoding of its octets.
-/

namespace RemoteGuard
open Json

theorem Json.Tree.text?_eq_some_iff {t : Tree} {s : String} :
    Tree.text? t = some s ↔ t = .string (some s) := by
  cases t <;> simp [Tree.text?]

namespace TargetFile

theorem payload?_eq_some_iff {t : Tree} {b : Bytes} :
    payload? t = some b ↔ t = .string (some (Base64.encode b)) := by
  rw [payload?, Option.bind_eq_some_iff]
  simp only [Tree.text?_eq_some_iff, Base64.decode?_eq_some_iff]
  exact ⟨fun ⟨s, ht, hs⟩ => hs ▸ ht, fun ht => ⟨_, ht, rfl⟩⟩

/-- the fields that a target file is read from -/
def fields (f : TargetFile) : List (Option Tree) :=
  [some (.string (some f.path)), some (.string (some (Base64.encode f.raw)))]

theorem ofTree?_eq_some_iff {t : Tree} {f : TargetFile} :
    ofTree? t = some f ↔ Tree.fields? ["path", "raw"] t = some f.fields := by
  rw [ofTree?]
  constructor
  · intro h
    split at h
    · next path raw hfields =>
      simp only [Option.bind_eq_bind, Option.bind_eq_some_iff, Option.pure_def,
        Option.some_inj] at h
      obtain ⟨p, hp, b, hb, rfl⟩ := h
      rw [hfields, fields, Tree.text?_eq_some_iff.mp hp, payload?_eq_some_iff.mp hb]
    · cases h
  · intro h
    rw [h, fields]
    simp only [Tree.text?_eq_some_iff.mpr rfl, payload?_eq_some_iff.mpr rfl]
    rfl

theorem read?_print (f : TargetFile) : read? (utf8 f.print) = some f := by
  have hprint : f.print = (texts [("path", f.path), ("raw", Base64.encode f.raw)]).print := rfl
  rw [read?, hprint, read?_print_texts, Option.bind_some, ofTree?_eq_some_iff]
  rfl

/-- **Target files survive the wire.**  What is printed is read back.  A text is read as a target file
just if it is a record of the file's path and of the encoding of its octets; and of payload texts only
this encoding stands for the octets, as the format has it: digits of the alphabet that hold the bits
of the octets and zero bits for each pad. -/
theorem read_and_printed (f : TargetFile) :
    read? (utf8 f.print) = some f ∧
    (∀ bs, read? bs = some f ↔
      ∃ t, Tree.read? bs = some t ∧ Tree.fields? ["path", "raw"] t = some f.fields) ∧
    (∀ v : Value, ofTree? v.tree = some f ↔ Tree.fields? ["path", "raw"] v.tree = some f.fields) ∧
    ∀ raw, [Base64.decode? raw = some f.raw, raw = Base64.encode f.raw,
      Base64.Spells raw f.raw].TFAE := by
  refine ⟨read?_print f, fun bs => ?_, fun v => ofTree?_eq_some_iff, fun raw => ?_⟩
  · rw [read?, Option.bind_eq_some_iff]
    simp only [ofTree?_eq_some_iff]
  · tfae_have 1 ↔ 2 := Base64.decode?_eq_some_iff
    tfae_have 1 ↔ 3 := Base64.decode?_iff_spells
    tfae_finish

end TargetFile
end RemoteGuard
