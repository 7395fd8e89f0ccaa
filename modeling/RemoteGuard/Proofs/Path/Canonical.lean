import Mathlib.Tactic.TFAE
import RemoteGuard.Bytes
import RemoteGuard.Proofs.Path.Grammar

/-!
# Paths and their parts

A path is compared, hashed and ordered by the text that it was read from.  `ConfigPath.rendered`
writes its parts down again, and `ConfigPath.spelled` does so with zeros before the number of the
organisation; these zeros are all that a text can have beyond its parts.

* `text_eq_spelled`        a path's text is its parts with the path's own padding;
* `eq_iff_parts`           so paths are equal just if their parts and their paddings are;
* `equality_of_parsed`     and hashes and the order of paths tell no more.

Without padding the parts determine the path; `padded_path_is_another` shows that with it they do
not.
-/

namespace RemoteGuard

/-- the issuer as it stands in a path, with zeros before the number of an organisation -/
def Issuer.padded (zeros : Nat) : Issuer → String
  | .organisation id => "datadog/" ++ String.ofList (List.replicate zeros '0') ++ id.repr
  | .employee => "employee"

theorem Issuer.padded_zero (issuer : Issuer) : issuer.padded 0 = issuer.text := by
  cases issuer with
  | organisation id => rfl
  | employee => rfl

namespace ConfigPath

/-- the parts of a path, written down with zeros before the number of the organisation -/
def spelled (p : ConfigPath) (zeros : Nat) : String :=
  p.issuer.padded zeros ++ "/" ++ p.product ++ "/" ++ p.configId ++ "/" ++ p.name

def rendered (p : ConfigPath) : String :=
  p.issuer.text ++ "/" ++ p.product ++ "/" ++ p.configId ++ "/" ++ p.name

/-- by how many characters the text is longer than the parts need -/
def padding (p : ConfigPath) : Nat := p.text.length - p.rendered.length

/-- what a path feeds to a hash: its text, ended by an octet that stands in no text -/
def hashed (p : ConfigPath) : Bytes := utf8 p.text ++ [0xFF]

theorem spelled_zero (p : ConfigPath) : p.spelled 0 = p.rendered := by
  rw [spelled, Issuer.padded_zero, rendered]

theorem length_spelled_organisation {p : ConfigPath} {id : Nat} (h : p.issuer = .organisation id)
    (zeros : Nat) : (p.spelled zeros).length = p.rendered.length + zeros := by
  simp only [← spelled_zero, spelled, h, Issuer.padded, String.length_append, String.length_ofList,
    List.length_replicate]
  omega

/-- the parts determine the text but for the zeros before the organisation's number -/
theorem exists_text_eq_spelled (p : ConfigPath) : ∃ zeros, p.text = p.spelled zeros := by
  obtain ⟨w, hvalid, htext, hparts⟩ := WrittenPath.exists_valid_of_ofText? p.parts_eq
  have hissuer : p.issuer = w.issuer := congrArg PathParts.issuer hparts.symm
  have hproduct : p.product = w.product := congrArg PathParts.product hparts.symm
  have hconfigId : p.configId = w.configId := congrArg PathParts.configId hparts.symm
  have hsource : ∃ zeros, w.source = w.issuer.padded zeros := by
    rw [WrittenPath.source, WrittenPath.issuer, WrittenPath.organisation?]
    cases hdigits : w.digits with
    | none => exact ⟨0, rfl⟩
    | some digits =>
      obtain ⟨zeros, hzeros⟩ := Text.exists_eq_zeros_append (hvalid.digits digits hdigits).1
      refine ⟨zeros, ?_⟩
      show "datadog/" ++ digits = "datadog/" ++ _ ++ _
      rw [String.append_assoc]
      congr 1
      rw [← String.toList_inj, String.toList_append, String.toList_ofList, Nat.toList_repr]
      exact hzeros
  obtain ⟨zeros, hzeros⟩ := hsource
  have hend : "/config" = "/" ++ p.name := rfl
  refine ⟨zeros, ?_⟩
  rw [← htext, WrittenPath.text, spelled, hissuer, hproduct, hconfigId, hzeros, hend,
    ← String.append_assoc]

theorem text_eq_spelled (p : ConfigPath) : p.text = p.spelled p.padding := by
  obtain ⟨zeros, hzeros⟩ := p.exists_text_eq_spelled
  cases hissuer : p.issuer with
  | employee =>
    rw [hzeros, spelled, spelled, hissuer]
    rfl
  | organisation id =>
    have hpadding : p.padding = zeros := by
      rw [padding, hzeros, length_spelled_organisation hissuer, Nat.add_sub_cancel_left]
    rw [hpadding, hzeros]

theorem text_eq_rendered_iff (p : ConfigPath) : p.text = p.rendered ↔ p.padding = 0 := by
  constructor
  · intro h
    rw [padding, h, Nat.sub_self]
  · intro h
    rw [text_eq_spelled, h, spelled_zero]

/-- the parts of both are the same -/
def SameParts (p q : ConfigPath) : Prop :=
  p.issuer = q.issuer ∧ p.product = q.product ∧ p.configId = q.configId ∧ p.name = q.name

theorem eq_iff_parts {p q : ConfigPath} : p = q ↔ p.SameParts q ∧ p.padding = q.padding := by
  constructor
  · rintro rfl
    exact ⟨⟨rfl, rfl, rfl, rfl⟩, rfl⟩
  · rintro ⟨⟨hissuer, hproduct, hconfigId, hname⟩, hpadding⟩
    refine ext_text ?_
    rw [text_eq_spelled p, text_eq_spelled q, hpadding]
    rw [spelled, spelled, hissuer, hproduct, hconfigId, hname]

theorem hashed_inj {p q : ConfigPath} : p.hashed = q.hashed ↔ p = q := by
  rw [hashed, hashed, List.append_left_inj, eq_iff_text]
  refine ⟨fun h => ?_, fun h => h ▸ rfl⟩
  exact Option.some.inj (by rw [← ofUtf8?_utf8, h, ofUtf8?_utf8])

theorem le_antisymm_iff {p q : ConfigPath} : (p.le q = true ∧ q.le p = true) ↔ p = q := by
  rw [le, le, decide_eq_true_iff, decide_eq_true_iff, eq_iff_text]
  exact ⟨fun h => String.le_antisymm h.1 h.2, fun h => ⟨h ▸ String.le_refl _, h ▸ String.le_refl _⟩⟩

/-- **Equality of paths.**  The text of a path is its parts, with as many zeros before the number of
its organisation as the path has padding, and so its parts alone just if it has none.  Two paths are
equal, and hash and order as equal, just if they were read from the same text, which is if they have
the same parts and the same padding. -/
theorem equality_of_parsed {s t : String} {p q : ConfigPath} (hp : parse s = .ok p)
    (hq : parse t = .ok q) :
    s = p.spelled p.padding ∧ (p.text = p.rendered ↔ p.padding = 0) ∧
    [p = q, s = t, p.hashed = q.hashed, p.le q = true ∧ q.le p = true,
      p.SameParts q ∧ p.padding = q.padding].TFAE := by
  obtain rfl := parse_eq_ok_iff.mp hp
  obtain rfl := parse_eq_ok_iff.mp hq
  refine ⟨p.text_eq_spelled, p.text_eq_rendered_iff, ?_⟩
  tfae_have 1 ↔ 2 := eq_iff_text
  tfae_have 1 ↔ 3 := hashed_inj.symm
  tfae_have 1 ↔ 4 := le_antisymm_iff.symm
  tfae_have 1 ↔ 5 := eq_iff_parts
  tfae_finish

/-- two spellings of one organisation: the parts are the same, the padding is not -/
theorem equality_of_two_spellings :
    ∃ p q : ConfigPath, parse "datadog/0070/ASM/x/config" = .ok p ∧
      parse "datadog/70/ASM/x/config" = .ok q ∧ p.SameParts q ∧ p.padding = 2 ∧ q.padding = 0 ∧
      "datadog/0070/ASM/x/config" = p.spelled 2 ∧ q.text = q.rendered ∧ p ≠ q ∧
      p.hashed ≠ q.hashed := by
  let p : ConfigPath :=
    ⟨"datadog/0070/ASM/x/config", ⟨.organisation 70, "ASM", "x"⟩, by decide +kernel⟩
  let q : ConfigPath :=
    ⟨"datadog/70/ASM/x/config", ⟨.organisation 70, "ASM", "x"⟩, by decide +kernel⟩
  have hp : parse "datadog/0070/ASM/x/config" = .ok p := parse_text p
  have hq : parse "datadog/70/ASM/x/config" = .ok q := parse_text q
  have hpadding : p.padding = 2 := by decide +kernel
  have hpadding' : q.padding = 0 := by decide +kernel
  obtain ⟨hspelled, -, hall⟩ := equality_of_parsed hp hq
  have hparts : p = q ↔ p.SameParts q ∧ p.padding = q.padding := hall.out 0 4
  have hhash : p.hashed = q.hashed ↔ p = q := hall.out 2 0
  have hne : p ≠ q := by
    rw [Ne, hparts, hpadding, hpadding']
    exact fun h => absurd h.2 (by decide)
  exact ⟨p, q, hp, hq, ⟨rfl, rfl, rfl, rfl⟩, hpadding, hpadding', hpadding ▸ hspelled,
    (equality_of_parsed hq hq).2.1.mpr hpadding', hne, fun h => hne (hhash.mp h)⟩

/-- With zeros before the organisation's number the text is not that of the parts, and the path with
these parts written down is another one. -/
theorem padded_path_is_another :
    ∃ p q : ConfigPath, parse "datadog/01/ASM/x/config" = .ok p ∧
      parse "datadog/1/ASM/x/config" = .ok q ∧ p.rendered = "datadog/1/ASM/x/config" ∧
      p.text ≠ p.rendered ∧ p.SameParts q ∧ p ≠ q := by
  let p : ConfigPath :=
    ⟨"datadog/01/ASM/x/config", ⟨.organisation 1, "ASM", "x"⟩, by decide +kernel⟩
  let q : ConfigPath :=
    ⟨"datadog/1/ASM/x/config", ⟨.organisation 1, "ASM", "x"⟩, by decide +kernel⟩
  have hrendered : p.rendered = "datadog/1/ASM/x/config" := by decide +kernel
  have htexts : "datadog/01/ASM/x/config" ≠ "datadog/1/ASM/x/config" := by decide
  exact ⟨p, q, parse_text p, parse_text q, hrendered, fun h => htexts (h.trans hrendered),
    ⟨rfl, rfl, rfl, rfl⟩, fun h => htexts (congrArg ConfigPath.text h)⟩

end ConfigPath
end RemoteGuard
