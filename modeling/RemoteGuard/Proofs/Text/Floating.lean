import RemoteGuard.Binary64.Reading
import RemoteGuard.Proofs.Text.Decimal

/-!
# The grammar of floating point text

A decimal is a numeral with at most one point before, in or after it, and with an exponent or none.
A quantity is a decimal or the word for infinity, with a sign or none.

* `Binary64.decimal?_isSome_iff`   the reader takes the decimals;
* `Binary64.isNaN_nearest`         no rounding ends in something that is no number;
* `Binary64.read?_quantity_iff`    so the texts that are read as a number are the quantities.
-/

namespace RemoteGuard
namespace Text

/-- a text of a kind, with a sign before it or none -/
def Signed (kind : List Char → Prop) (cs : List Char) : Prop :=
  kind cs ∨ ∃ rest, (cs = '-' :: rest ∨ cs = '+' :: rest) ∧ kind rest

/-- an exponent, or nothing -/
def IsExponent (cs : List Char) : Prop :=
  cs = [] ∨ ∃ e rest, cs = e :: rest ∧ (e = 'e' ∨ e = 'E') ∧ Signed IsNumeral rest

def IsDecimal (cs : List Char) : Prop :=
  ∃ whole fraction exponent,
    (cs = whole ++ exponent ∧ fraction = [] ∨ cs = whole ++ '.' :: (fraction ++ exponent)) ∧
    IsNumeral (whole ++ fraction) ∧ IsExponent exponent

/-- a word in any mixture of cases -/
def InAnyCase (word : String) (cs : List Char) : Prop := cs.map Char.toLower = word.toList

def IsUnsignedQuantity (cs : List Char) : Prop :=
  InAnyCase "inf" cs ∨ InAnyCase "infinity" cs ∨ IsDecimal cs

/-- a number or an infinity -/
def IsQuantity (cs : List Char) : Prop := Signed IsUnsignedQuantity cs

section
variable {kind : List Char → Prop}

theorem signed_minus (h : ∀ rest, ¬ kind ('-' :: rest)) (rest : List Char) :
    Signed kind ('-' :: rest) ↔ kind rest := by
  simp [Signed, h]

theorem signed_plus (h : ∀ rest, ¬ kind ('+' :: rest)) (rest : List Char) :
    Signed kind ('+' :: rest) ↔ kind rest := by
  simp [Signed, h]

theorem signed_of_no_sign {cs : List Char} (hminus : ∀ rest, cs ≠ '-' :: rest)
    (hplus : ∀ rest, cs ≠ '+' :: rest) : Signed kind cs ↔ kind cs := by
  simp [Signed, hminus, hplus]

end

theorem not_isNumeral_minus (cs : List Char) : ¬ IsNumeral ('-' :: cs) :=
  fun h => absurd (h.2 '-' List.mem_cons_self) (by decide)

/-! ## how a decimal begins and ends -/

/-- a decimal begins with a digit or with the point -/
theorem IsDecimal.head {cs : List Char} (h : IsDecimal cs) :
    ∃ c rest, cs = c :: rest ∧ (IsDigit c ∨ c = '.') := by
  obtain ⟨whole, fraction, exponent, hcs, ⟨hne, hdigits⟩, -⟩ := h
  cases whole with
  | cons c whole =>
    have hc : IsDigit c := hdigits c (by simp)
    rcases hcs with ⟨rfl, -⟩ | rfl
    · exact ⟨c, _, rfl, .inl hc⟩
    · exact ⟨c, _, rfl, .inl hc⟩
  | nil =>
    rcases hcs with ⟨-, rfl⟩ | rfl
    · exact absurd rfl hne
    · exact ⟨'.', _, rfl, .inr rfl⟩

theorem toLower_of_isDigit {c : Char} (h : IsDigit c) : c.toLower = c :=
  dif_neg fun hupper => absurd (UInt32.le_trans hupper.1 h.2) (by decide)

/-- no decimal is a word -/
theorem IsDecimal.not_nan {cs : List Char} (h : IsDecimal cs) : ¬ InAnyCase "nan" cs := by
  obtain ⟨c, rest, rfl, hc⟩ := h.head
  intro hword
  have hfirst : c.toLower = 'n' := List.head_eq_of_cons_eq hword
  rcases hc with hc | rfl
  · rw [toLower_of_isDigit hc] at hfirst
    exact absurd (hfirst ▸ hc) (by decide)
  · exact absurd hfirst (by decide)

theorem IsExponent.head {cs : List Char} (h : IsExponent cs) {c : Char} (hc : c ∈ cs.head?) :
    ¬ IsDigit c ∧ c ≠ '.' := by
  rcases h with rfl | ⟨e, rest, rfl, he, -⟩
  · cases hc
  · cases hc
    rcases he with rfl | rfl <;> decide

end Text

namespace Binary64
open Text

/-! ## runs of digits -/

theorem takeDigits_append {digits rest : List Char} (hdigits : ∀ c ∈ digits, IsDigit c)
    (hrest : ∀ c ∈ rest.head?, ¬ IsDigit c) (run : DigitRun) :
    takeDigits run (digits ++ rest)
      = (⟨valueFrom run.value digits, run.count + digits.length⟩, rest) := by
  induction digits generalizing run with
  | nil =>
    cases rest with
    | nil => rfl
    | cons c rest =>
      have hc : digit? c = none := if_neg (hrest c rfl)
      simp only [List.nil_append, takeDigits, hc]
      rfl
  | cons c digits ih =>
    obtain ⟨hc, hdigits⟩ := List.forall_mem_cons.mp hdigits
    have hd : digit? c = some (digitValue c) := digit?_eq_some_iff.mpr ⟨hc, rfl⟩
    simp only [List.cons_append, takeDigits, hd, ih hdigits, List.length_cons]
    rw [Nat.add_assoc, Nat.add_comm 1]
    rfl

theorem exponent?_isSome_iff (cs : List Char) :
    (exponent? cs).isSome = true ↔ Signed IsNumeral cs := by
  -- the numeral is taken for an integer before its sign is put to it
  have hsome (ds : List Char) (f : Int → Int) :
      (Option.map f do return ((← Text.decimal? ds : Nat) : Int)).isSome = true ↔ IsNumeral ds := by
    cases h : Text.decimal? ds with
    | none =>
      refine ⟨fun hsome => (by cases hsome), fun hnumeral => ?_⟩
      rw [decimal?_eq_some_iff.mpr ⟨hnumeral, rfl⟩] at h
      cases h
    | some n => exact iff_of_true rfl (decimal?_eq_some_iff.mp h).1
  fun_cases exponent? cs with
  | case1 cs => rw [hsome, signed_minus not_isNumeral_minus]
  | case2 cs => rw [hsome, signed_plus not_isNumeral_plus]
  | case3 cs hminus hplus => rw [hsome, signed_of_no_sign hminus hplus]

/-! ## decimals -/

/-- what is made of the digits of a decimal and of the text after them -/
def afterDigits? (negative : Bool) (run : DigitRun) (places : Int) (rest : List Char) :
    Option Binary64 :=
  if run.count = 0 then none
  else
    match rest with
    | [] => some (ofDecimalWithin negative run (-places))
    | c :: cs =>
      if c = 'e' ∨ c = 'E' then
        (exponent? cs).map fun e => ofDecimalWithin negative run (e - places)
      else none

theorem afterDigits?_isSome_iff (negative : Bool) (run : DigitRun) (places : Int)
    (rest : List Char) :
    (afterDigits? negative run places rest).isSome = true ↔ run.count ≠ 0 ∧ IsExponent rest := by
  unfold afterDigits?
  by_cases hcount : run.count = 0
  · simp [hcount]
  rw [if_neg hcount, and_iff_right hcount]
  cases rest with
  | nil => simp [IsExponent]
  | cons c cs =>
    by_cases he : c = 'e' ∨ c = 'E'
    · simp [he, exponent?_isSome_iff, IsExponent]
    · simp [he, IsExponent]

theorem decimal?_of_whole (negative : Bool) {whole rest : List Char}
    (hwhole : ∀ c ∈ whole, IsDigit c) (hrest : ∀ c ∈ rest.head?, ¬ IsDigit c ∧ c ≠ '.') :
    decimal? negative (whole ++ rest)
      = afterDigits? negative ⟨decimalValue whole, whole.length⟩ 0 rest := by
  have hpoint : ∀ tail, rest ≠ '.' :: tail := by
    rintro tail rfl
    exact (hrest '.' rfl).2 rfl
  simp only [decimal?, takeDigits_append hwhole fun c hc => (hrest c hc).1, Nat.zero_add,
    Int.sub_self]
  rfl

theorem decimal?_of_fraction (negative : Bool) {whole fraction rest : List Char}
    (hwhole : ∀ c ∈ whole, IsDigit c) (hfraction : ∀ c ∈ fraction, IsDigit c)
    (hrest : ∀ c ∈ rest.head?, ¬ IsDigit c) :
    decimal? negative (whole ++ '.' :: (fraction ++ rest))
      = afterDigits? negative ⟨decimalValue (whole ++ fraction), (whole ++ fraction).length⟩
          fraction.length rest := by
  have hpoint : ∀ c ∈ ('.' :: (fraction ++ rest)).head?, ¬ IsDigit c := by
    rintro c ⟨⟩
    decide
  have hplaces :
      ((whole.length + fraction.length : Nat) : Int) - whole.length = fraction.length := by omega
  simp only [decimal?, takeDigits_append hwhole hpoint, takeDigits_append hfraction hrest,
    Nat.zero_add, hplaces, decimalValue, valueFrom_append, List.length_append]
  rfl

theorem decimal?_of_isDecimal (negative : Bool) {cs : List Char} (h : IsDecimal cs) :
    ∃ (run : DigitRun) (places : Int) (exponent : List Char), run.count ≠ 0 ∧
      IsExponent exponent ∧ decimal? negative cs = afterDigits? negative run places exponent := by
  obtain ⟨whole, fraction, exponent, hcs, ⟨hne, hdigits⟩, hexponent⟩ := h
  obtain ⟨hwhole, hfraction⟩ := List.forall_mem_append.mp hdigits
  have hcount : (whole ++ fraction).length ≠ 0 := fun h => hne (List.length_eq_zero_iff.mp h)
  rcases hcs with ⟨rfl, rfl⟩ | rfl
  · rw [List.append_nil] at hcount
    exact ⟨_, _, exponent, hcount, hexponent,
      decimal?_of_whole negative hwhole fun c => hexponent.head⟩
  · exact ⟨_, _, exponent, hcount, hexponent,
      decimal?_of_fraction negative hwhole hfraction fun c hc => (hexponent.head hc).1⟩

/-- **Decimals.**  The reader takes those of the grammar and no other. -/
theorem decimal?_isSome_iff (negative : Bool) (cs : List Char) :
    (decimal? negative cs).isSome = true ↔ IsDecimal cs := by
  constructor
  · intro hsome
    obtain ⟨whole, rest, rfl, hwhole, hrest⟩ := exists_digits_append cs
    by_cases hpoint : ∃ tail, rest = '.' :: tail
    · obtain ⟨tail, rfl⟩ := hpoint
      obtain ⟨fraction, exponent, rfl, hfraction, hexponent⟩ := exists_digits_append tail
      rw [decimal?_of_fraction negative hwhole hfraction hexponent,
        afterDigits?_isSome_iff] at hsome
      refine ⟨whole, fraction, exponent, .inr rfl, ⟨?_, ?_⟩, hsome.2⟩
      · exact List.length_pos_iff.mp (Nat.pos_of_ne_zero hsome.1)
      · exact List.forall_mem_append.mpr ⟨hwhole, hfraction⟩
    · have hhead : ∀ c ∈ rest.head?, ¬ IsDigit c ∧ c ≠ '.' := by
        refine fun c hc => ⟨hrest c hc, ?_⟩
        rintro rfl
        exact hpoint (List.head?_eq_some_iff.mp hc)
      rw [decimal?_of_whole negative hwhole hhead, afterDigits?_isSome_iff] at hsome
      refine ⟨whole, [], rest, .inl ⟨rfl, rfl⟩, ?_, hsome.2⟩
      rw [List.append_nil]
      exact ⟨List.length_pos_iff.mp (Nat.pos_of_ne_zero hsome.1), hwhole⟩
  · intro h
    obtain ⟨run, places, exponent, hcount, hexponent, heq⟩ := decimal?_of_isDecimal negative h
    rw [heq, afterDigits?_isSome_iff]
    exact ⟨hcount, hexponent⟩

/-! ## what is no number -/

theorem magnitude_neg (x : Binary64) : x.neg.magnitude = x.magnitude := by
  have hsign : signBit.toNat = 2 ^ 63 := by decide
  rw [magnitude, magnitude, neg, UInt64.toNat_mod, UInt64.toNat_mod, UInt64.toNat_xor, hsign,
    Nat.xor_mod_two_pow, Nat.mod_self, Nat.xor_zero]

theorem isNaN_neg (x : Binary64) : x.neg.isNaN = x.isNaN := by
  rw [isNaN, isNaN, magnitude_neg]

theorem nearestBits_le (num den : Nat) : nearestBits num den ≤ infinityBits := Nat.min_le_right ..

theorem isNaN_ofNat {n : Nat} (h : n ≤ infinityBits) :
    (⟨UInt64.ofNat n⟩ : Binary64).isNaN = false := by
  have hmagnitude : (⟨UInt64.ofNat n⟩ : Binary64).magnitude ≤ n := by
    rw [magnitude, UInt64.toNat_mod, UInt64.toNat_ofNat']
    exact Nat.le_trans (Nat.mod_le ..) (Nat.mod_le ..)
  exact decide_eq_false (Nat.not_lt_of_le (Nat.le_trans hmagnitude h))

/-- **Rounding.**  It ends in a number or in an infinity. -/
theorem isNaN_nearest (negative : Bool) (num den : Nat) :
    (nearest negative num den).isNaN = false := by
  have hbits : (if num = 0 then 0 else nearestBits num den) ≤ infinityBits := by
    split
    · exact Nat.zero_le _
    · exact nearestBits_le num den
  have hnumber := isNaN_ofNat hbits
  cases negative with
  | false => exact hnumber
  | true => exact (isNaN_neg _).trans hnumber

theorem isNaN_ofDecimalWithin (negative : Bool) (run : DigitRun) (exponent : Int) :
    (ofDecimalWithin negative run exponent).isNaN = false := by
  unfold ofDecimalWithin
  split
  · exact isNaN_nearest ..
  · split
    · cases negative <;> decide
    · split
      · exact isNaN_nearest ..
      · exact isNaN_nearest ..

theorem isNaN_of_afterDigits? {negative : Bool} {run : DigitRun} {places : Int}
    {rest : List Char} {x : Binary64} (h : afterDigits? negative run places rest = some x) :
    x.isNaN = false := by
  unfold afterDigits? at h
  rw [Option.ite_none_left_eq_some] at h
  obtain ⟨-, h⟩ := h
  cases rest with
  | nil =>
    cases h
    exact isNaN_ofDecimalWithin ..
  | cons c cs =>
    rw [Option.ite_none_right_eq_some, Option.map_eq_some_iff] at h
    obtain ⟨-, e, -, rfl⟩ := h
    exact isNaN_ofDecimalWithin ..

theorem isNaN_of_decimal? {negative : Bool} {cs : List Char} {x : Binary64}
    (h : decimal? negative cs = some x) : x.isNaN = false := by
  have hdecimal := (decimal?_isSome_iff negative cs).mp (Option.isSome_of_eq_some h)
  obtain ⟨run, places, exponent, -, -, heq⟩ := decimal?_of_isDecimal negative hdecimal
  exact isNaN_of_afterDigits? (heq ▸ h)

/-! ## quantities -/

theorem unsigned?_quantity_iff (negative : Bool) (cs : List Char) :
    (∃ x, unsigned? negative cs = some x ∧ x.isNaN = false) ↔ IsUnsignedQuantity cs := by
  have hsigned (x : Binary64) : (if negative then x.neg else x).isNaN = x.isNaN := by
    cases negative with
    | false => rfl
    | true => exact isNaN_neg x
  fun_cases unsigned? negative cs with
  | case1 word signed hword =>
    refine iff_of_true ⟨_, rfl, hsigned infinity⟩ ?_
    exact hword.imp id Or.inl
  | case2 word signed hword hnan =>
    refine iff_of_false ?_ ?_
    · rintro ⟨x, hx, hnumber⟩
      cases hx
      rw [hsigned] at hnumber
      exact absurd hnumber (by decide)
    · rintro (hinf | hinf | hdecimal)
      · exact hword (.inl hinf)
      · exact hword (.inr hinf)
      · exact hdecimal.not_nan hnan
  | case3 word hword hnan =>
    have hwords : IsUnsignedQuantity cs ↔ IsDecimal cs := by
      rw [IsUnsignedQuantity, ← or_assoc]
      exact or_iff_right hword
    rw [hwords, ← decimal?_isSome_iff negative, Option.isSome_iff_exists]
    exact exists_congr fun x => and_iff_left_of_imp isNaN_of_decimal?

/-- an unsigned quantity does not begin with a sign -/
theorem not_isUnsignedQuantity_of_sign {c : Char} (hc : c = '-' ∨ c = '+') (rest : List Char) :
    ¬ IsUnsignedQuantity (c :: rest) := by
  have hletter : c.toLower ≠ 'i' := by rcases hc with rfl | rfl <;> decide
  rintro (hinf | hinf | hdecimal)
  · exact hletter (List.head_eq_of_cons_eq hinf)
  · exact hletter (List.head_eq_of_cons_eq hinf)
  · obtain ⟨d, ds, h, hd⟩ := hdecimal.head
    cases h
    rcases hc with rfl | rfl <;> exact absurd hd (by decide)

/-- **Quantities.**  They are the texts that are read as a number or as an infinity. -/
theorem read?_quantity_iff (s : String) :
    (∃ x, read? s = some x ∧ x.isNaN = false) ↔ IsQuantity s.toList := by
  rw [IsQuantity]
  fun_cases read? s with
  | case1 cs h =>
    rw [h, signed_minus (not_isUnsignedQuantity_of_sign (.inl rfl)), unsigned?_quantity_iff]
  | case2 cs h =>
    rw [h, signed_plus (not_isUnsignedQuantity_of_sign (.inr rfl)), unsigned?_quantity_iff]
  | case3 hminus hplus => rw [signed_of_no_sign hminus hplus, unsigned?_quantity_iff]

end Binary64
end RemoteGuard
