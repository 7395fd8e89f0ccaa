import Mathlib.Algebra.Group.Nat.Defs
import Mathlib.Data.List.Induction
import RemoteGuard.Text.Numeral

/-!
# The value of a numeral

A numeral is a run of ASCII digits, and its value is that of its digits in base ten.
`digits64?_eq_some_iff` says which numerals are read, and as what, and `word64?_eq_some_iff` does so
for the texts of words.  A digit weighs by its place (`decimalValue_cons`), and numerals of one
value differ in their leading zeros only (`exists_eq_zeros_append`).
-/

namespace RemoteGuard.Text

def IsDigit (c : Char) : Prop := '0' ≤ c ∧ c ≤ '9'

instance : DecidablePred IsDigit := fun c => inferInstanceAs (Decidable ('0' ≤ c ∧ c ≤ '9'))

/-- a run of digits, leading zeros among them -/
def IsNumeral (cs : List Char) : Prop := cs ≠ [] ∧ ∀ c ∈ cs, IsDigit c

-- by the list, not over all characters
instance : DecidablePred IsNumeral := fun cs =>
  decidable_of_iff (cs ≠ [] ∧ cs.all (fun c => decide (IsDigit c)) = true)
    (and_congr_right fun _ => List.all_eq_true.trans
      (forall₂_congr fun _ _ => decide_eq_true_iff))

def digitValue (c : Char) : Nat := c.toNat - '0'.toNat

/-- the value of the digits `cs` in base ten, written after digits of value `n` -/
def valueFrom (n : Nat) (cs : List Char) : Nat :=
  cs.foldl (fun value c => 10 * value + digitValue c) n

def decimalValue (cs : List Char) : Nat := valueFrom 0 cs

theorem digit?_eq_some_iff {c : Char} {d : Nat} :
    digit? c = some d ↔ IsDigit c ∧ digitValue c = d := by
  show (if IsDigit c then some (digitValue c) else none) = some d ↔ _
  by_cases h : IsDigit c
  · rw [if_pos h, Option.some_inj, and_iff_right h]
  · rw [if_neg h]
    exact ⟨fun h => (by cases h), fun h' => absurd h'.1 h⟩

theorem decimalFrom_eq_some_iff {n m : Nat} {cs : List Char} :
    decimalFrom n cs = some m ↔ (∀ c ∈ cs, IsDigit c) ∧ valueFrom n cs = m := by
  induction cs generalizing n with
  | nil => simp [decimalFrom, valueFrom]
  | cons c cs ih =>
    rw [decimalFrom, List.forall_mem_cons]
    cases hd : digit? c with
    | none =>
      refine ⟨fun h => (by cases h), fun h => ?_⟩
      rw [digit?_eq_some_iff.mpr ⟨h.1.1, rfl⟩] at hd
      cases hd
    | some d =>
      obtain ⟨hc, rfl⟩ := digit?_eq_some_iff.mp hd
      show decimalFrom (10 * n + digitValue c) cs = some m ↔ _
      rw [ih, and_iff_right hc]
      rfl

theorem decimal?_eq_some_iff {cs : List Char} {n : Nat} :
    decimal? cs = some n ↔ IsNumeral cs ∧ decimalValue cs = n := by
  cases cs with
  | nil => exact ⟨fun h => (by cases h), fun h => absurd rfl h.1.1⟩
  | cons c cs =>
    show decimalFrom 0 (c :: cs) = some n ↔ _
    rw [decimalFrom_eq_some_iff, IsNumeral, and_iff_right (List.cons_ne_nil c cs)]
    rfl

/-- what is read: the numerals whose value fits a word -/
theorem digits64?_eq_some_iff {cs : List Char} {n : Nat} :
    digits64? cs = some n ↔ IsNumeral cs ∧ decimalValue cs = n ∧ n < wordLimit := by
  rw [digits64?_eq, Option.bind_eq_some_iff]
  simp only [fits64_eq_some_iff, decimal?_eq_some_iff]
  constructor
  · rintro ⟨m, ⟨hcs, hvalue⟩, rfl, hm⟩
    exact ⟨hcs, hvalue, hm⟩
  · rintro ⟨hcs, hvalue, hn⟩
    exact ⟨n, ⟨hcs, hvalue⟩, rfl, hn⟩

/-- the text of a word: an optional `+` before a numeral -/
def IsWord (cs : List Char) (n : Nat) : Prop :=
  ∃ digits, (cs = digits ∨ cs = '+' :: digits) ∧ IsNumeral digits ∧ decimalValue digits = n ∧
    n < wordLimit

theorem not_isNumeral_plus (cs : List Char) : ¬ IsNumeral ('+' :: cs) :=
  fun h => absurd (h.2 '+' List.mem_cons_self) (by decide)

theorem word64?_eq_some_iff {cs : List Char} {n : Nat} : word64? cs = some n ↔ IsWord cs n := by
  rw [IsWord]
  fun_cases word64? cs with
  | case1 digits =>
    rw [digits64?_eq_some_iff]
    constructor
    · exact fun h => ⟨digits, .inr rfl, h⟩
    · rintro ⟨_, rfl | h, hnumeral⟩
      · exact absurd hnumeral.1 (not_isNumeral_plus digits)
      · cases h
        exact hnumeral
  | case2 cs hplus =>
    rw [digits64?_eq_some_iff]
    constructor
    · exact fun h => ⟨cs, .inl rfl, h⟩
    · rintro ⟨digits, rfl | h, hnumeral⟩
      · exact hnumeral
      · exact absurd h (hplus digits)

/-! ## runs of digits -/

/-- the digits that a text begins with, and the rest of it -/
theorem exists_digits_append (cs : List Char) :
    ∃ digits rest, cs = digits ++ rest ∧ (∀ c ∈ digits, IsDigit c) ∧
      ∀ c ∈ rest.head?, ¬ IsDigit c := by
  induction cs with
  | nil => exact ⟨[], [], rfl, by simp, by simp⟩
  | cons c cs ih =>
    by_cases hc : IsDigit c
    · obtain ⟨digits, rest, rfl, hdigits, hrest⟩ := ih
      exact ⟨c :: digits, rest, rfl, List.forall_mem_cons.mpr ⟨hc, hdigits⟩, hrest⟩
    · exact ⟨[], c :: cs, rfl, by simp, by simpa using hc⟩

/-! ## places -/

theorem valueFrom_append (n : Nat) (cs ds : List Char) :
    valueFrom n (cs ++ ds) = valueFrom (valueFrom n cs) ds := List.foldl_append

theorem valueFrom_eq (n : Nat) (cs : List Char) :
    valueFrom n cs = n * 10 ^ cs.length + decimalValue cs := by
  induction cs generalizing n with
  | nil => simp [valueFrom, decimalValue]
  | cons c cs ih =>
    show valueFrom (10 * n + digitValue c) cs
      = n * 10 ^ (cs.length + 1) + valueFrom (10 * 0 + digitValue c) cs
    rw [ih, ih (10 * 0 + digitValue c), Nat.pow_succ, Nat.mul_zero, Nat.zero_add, Nat.add_mul,
      Nat.add_assoc, Nat.mul_comm 10 n, Nat.mul_assoc, Nat.mul_comm 10]

theorem decimalValue_cons (c : Char) (cs : List Char) :
    decimalValue (c :: cs) = digitValue c * 10 ^ cs.length + decimalValue cs := by
  rw [← valueFrom_eq]
  show valueFrom (10 * 0 + digitValue c) cs = _
  rw [Nat.mul_zero, Nat.zero_add]

/-! ## leading zeros -/

theorem digitChar_digitValue {c : Char} (h : IsDigit c) :
    digitValue c < 10 ∧ Nat.digitChar (digitValue c) = c := by
  have hall : ∀ k : Fin 128, IsDigit (Char.ofNat k) →
      digitValue (Char.ofNat k) < 10 ∧ Nat.digitChar (digitValue (Char.ofNat k)) = Char.ofNat k := by
    decide +kernel
  have hlt : c.toNat < 128 := Nat.lt_of_le_of_lt (UInt32.le_iff_toNat_le.mp h.2) (by decide)
  have hc := hall ⟨c.toNat, hlt⟩
  rw [Char.ofNat_toNat] at hc
  exact hc h

/-- A numeral is the shortest one with its value, after some zeros. -/
theorem exists_eq_zeros_append {cs : List Char} (h : IsNumeral cs) :
    ∃ zeros, cs = List.replicate zeros '0' ++ Nat.toDigits 10 (decimalValue cs) := by
  induction cs using List.reverseRecOn with
  | nil => exact absurd rfl h.1
  | append_singleton cs c ih =>
    obtain ⟨hdigit, hchar⟩ := digitChar_digitValue (h.2 c (by simp))
    have hvalue : decimalValue (cs ++ [c]) = 10 * decimalValue cs + digitValue c :=
      valueFrom_append 0 cs [c]
    have hlast : Nat.toDigits 10 (digitValue c) = [c] := by
      rw [Nat.toDigits_of_lt_base hdigit, hchar]
    by_cases hcs : cs = []
    · subst hcs
      refine ⟨0, ?_⟩
      rw [hvalue]
      show [c] = Nat.toDigits 10 (10 * 0 + digitValue c)
      rw [Nat.mul_zero, Nat.zero_add, hlast]
    · obtain ⟨zeros, hzeros⟩ := ih ⟨hcs, fun d hd => h.2 d (List.mem_append_left _ hd)⟩
      rcases Nat.eq_zero_or_pos (decimalValue cs) with hzero | hpos
      · -- only zeros stand before the last digit
        rw [hzero, Nat.toDigits_zero, ← List.replicate_succ'] at hzeros
        refine ⟨zeros + 1, ?_⟩
        rw [hvalue, hzero, Nat.mul_zero, Nat.zero_add, hlast, ← hzeros]
      · refine ⟨zeros, ?_⟩
        rw [hvalue, ← Nat.toDigits_append_toDigits (by decide) hpos hdigit, hlast,
          ← List.append_assoc, ← hzeros]

end RemoteGuard.Text
