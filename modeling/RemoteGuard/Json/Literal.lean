import RemoteGuard.Bytes
import RemoteGuard.Json.Value

/-!
# Literals of JSON texts

`takeString` reads a string literal after its opening quote into `Piece`s: raw octets, and the
16-bit units of `\u` escapes.  `Piece.text?` is the text they stand for; a lone surrogate or
ill-formed UTF-8 stands for none.

`takeNumber` reads a number literal into its `Numeral`, and `Numeral.number?` is the number it
stands for.  A literal without fraction and exponent that fits 64 bits is an integer, except `-0`.
Any other is a floating point number: of its digits those count that fit a 64-bit word, further
digits only keep their weight, and the word is scaled by a power of ten with one rounding each.  A
number too large to be finite stands for none.
-/

namespace RemoteGuard.Json

/-! ## strings -/

inductive Piece where
  | octet (b : UInt8)
  | unit (n : Nat)
deriving DecidableEq, Repr

def hexValue? (b : UInt8) : Option Nat :=
  let n := b.toNat
  if 0x30 ≤ n ∧ n ≤ 0x39 then some (n - 0x30)
  else if 0x41 ≤ n ∧ n ≤ 0x46 then some (n - 0x41 + 10)
  else if 0x61 ≤ n ∧ n ≤ 0x66 then some (n - 0x61 + 10)
  else none

/-- the unit written as four hexadecimal digits -/
def unit? (a b c d : UInt8) : Option Nat := do
  return (((← hexValue? a) * 16 + (← hexValue? b)) * 16 + (← hexValue? c)) * 16 + (← hexValue? d)

/-- the octet of a two-character escape, by its second character -/
def escaped? (b : UInt8) : Option UInt8 :=
  match b with
  | 0x22 => some 0x22
  | 0x5C => some 0x5C
  | 0x2F => some 0x2F
  | 0x62 => some 0x08
  | 0x66 => some 0x0C
  | 0x6E => some 0x0A
  | 0x72 => some 0x0D
  | 0x74 => some 0x09
  | _ => none

/-- Reads up to the closing quote; `done` holds the pieces read so far, the last one first. -/
def takePieces (done : List Piece) : Bytes → Option (List Piece × Bytes)
  | [] => none
  | 0x22 :: rest => some (done.reverse, rest)
  | 0x5C :: 0x75 :: a :: b :: c :: d :: rest =>
    match unit? a b c d with
    | some n => takePieces (.unit n :: done) rest
    | none => none
  | 0x5C :: e :: rest =>
    match escaped? e with
    | some b => takePieces (.octet b :: done) rest
    | none => none
  | b :: rest => if b < 0x20 ∨ b = 0x5C then none else takePieces (.octet b :: done) rest

def isHighSurrogate (n : Nat) : Bool := 0xD800 ≤ n && n < 0xDC00
def isLowSurrogate (n : Nat) : Bool := 0xDC00 ≤ n && n < 0xE000

/-- the code point of a pair of surrogates -/
def surrogatePair (high low : Nat) : Nat := (high - 0xD800) * 0x400 + (low - 0xDC00) + 0x10000

/-- The octets of a list of pieces, appended to `done`, which is in reverse. -/
def octetsOnto? (done : Bytes) : List Piece → Option Bytes
  | [] => some done.reverse
  | .octet b :: ps => octetsOnto? (b :: done) ps
  | .unit n :: ps =>
    if isLowSurrogate n then none
    else if isHighSurrogate n then
      match ps with
      | .unit m :: ps =>
        if isLowSurrogate m then
          octetsOnto? ((String.utf8EncodeChar (Char.ofNat (surrogatePair n m))).reverse ++ done) ps
        else none
      | _ => none
    else octetsOnto? ((String.utf8EncodeChar (Char.ofNat n)).reverse ++ done) ps

def Piece.text? (ps : List Piece) : Option String := (octetsOnto? [] ps).bind ofUtf8?

/-- Reads a string literal after its opening quote. -/
def takeString (bs : Bytes) : Option (Option String × Bytes) :=
  (takePieces [] bs).map fun (ps, rest) => (Piece.text? ps, rest)

/-! ## numbers -/

/-- a number literal: the digits before the point, after it, and the exponent -/
structure Numeral where
  negative : Bool
  whole : List Nat
  fraction : Option (List Nat)
  exponent : Option Int
deriving DecidableEq, Repr

def digitValue? (b : UInt8) : Option Nat :=
  if 0x30 ≤ b.toNat ∧ b.toNat ≤ 0x39 then some (b.toNat - 0x30) else none

/-- Reads the digits at the front; `done` is in reverse. -/
def takeDigits (done : List Nat) : Bytes → List Nat × Bytes
  | [] => (done.reverse, [])
  | b :: rest =>
    match digitValue? b with
    | some d => takeDigits (d :: done) rest
    | none => (done.reverse, b :: rest)

@[inline] def takeDigits1 (bs : Bytes) : Option (List Nat × Bytes) :=
  match takeDigits [] bs with
  | ([], _) => none
  | r => some r

def ofDigits (ds : List Nat) : Nat := ds.foldl (fun n d => 10 * n + d) 0

def ofDigitsUpTo (limit : Nat) (ds : List Nat) : Nat :=
  min limit (ds.foldl (fun n d => if limit ≤ n then n else 10 * n + d) 0)

private theorem foldl_upTo (limit n m : Nat) (ds : List Nat)
    (h : n = m ∨ limit ≤ n ∧ limit ≤ m) :
    min limit (ds.foldl (fun n d => if limit ≤ n then n else 10 * n + d) n)
      = min limit (ds.foldl (fun n d => 10 * n + d) m) := by
  induction ds generalizing n m with
  | nil => simp only [List.foldl_nil]; omega
  | cons d ds ih =>
    rw [List.foldl_cons, List.foldl_cons]
    refine ih _ _ ?_
    split <;> omega

theorem ofDigitsUpTo_eq (limit : Nat) (ds : List Nat) :
    ofDigitsUpTo limit ds = min limit (ofDigits ds) := foldl_upTo limit 0 0 ds (.inl rfl)

/-- the largest exponent that is told from larger ones -/
def exponentLimit : Nat := 0x7FFFFFFF

/-- the value of an exponent's digits; one beyond the limit counts as the next after it -/
def exponentOf (ds : List Nat) : Int := ofDigitsUpTo (exponentLimit + 1) ds

/-- Reads the part before the point: `0`, or digits that do not start with `0`. -/
@[inline] def takeWhole (bs : Bytes) : Option (List Nat × Bytes) :=
  match bs with
  | 0x30 :: rest => some ([0], rest)
  | bs => takeDigits1 bs

@[inline] def takeFraction (bs : Bytes) : Option (Option (List Nat) × Bytes) :=
  match bs with
  | 0x2E :: rest => (takeDigits1 rest).map fun (ds, rest) => (some ds, rest)
  | bs => some (none, bs)

@[inline] def takeSigned (bs : Bytes) : Option (Int × Bytes) :=
  match bs with
  | 0x2B :: rest => (takeDigits1 rest).map fun (ds, rest) => (exponentOf ds, rest)
  | 0x2D :: rest => (takeDigits1 rest).map fun (ds, rest) => (-exponentOf ds, rest)
  | bs => (takeDigits1 bs).map fun (ds, rest) => (exponentOf ds, rest)

@[inline] def takeExponent (bs : Bytes) : Option (Option Int × Bytes) :=
  match bs with
  | 0x65 :: rest => (takeSigned rest).map fun (e, rest) => (some e, rest)
  | 0x45 :: rest => (takeSigned rest).map fun (e, rest) => (some e, rest)
  | bs => some (none, bs)

def takeUnsigned (negative : Bool) (bs : Bytes) : Option (Numeral × Bytes) := do
  let (whole, bs) ← takeWhole bs
  let (fraction, bs) ← takeFraction bs
  let (exponent, bs) ← takeExponent bs
  return (⟨negative, whole, fraction, exponent⟩, bs)

/-- digits that fit a word, with the power of ten that the last of them weighs -/
structure Significand where
  word : Nat
  scale : Int

/-- the digits of the word do not leave room for `d` -/
def Significand.isFull (s : Significand) (d : Nat) : Bool := wordLimit ≤ 10 * s.word + d

/-- Once a digit before the point does not fit, it and those after it only add to the scale. -/
def wholeDigits (s : Significand) : List Nat → Significand
  | [] => s
  | d :: ds =>
    if s.isFull d then ⟨s.word, s.scale + (ds.length + 1)⟩
    else wholeDigits ⟨10 * s.word + d, s.scale⟩ ds

/-- Once a digit after the point does not fit, it and those after it are left out. -/
def fractionDigits (s : Significand) : List Nat → Significand
  | [] => s
  | d :: ds => if s.isFull d then s else fractionDigits ⟨10 * s.word + d, s.scale - 1⟩ ds

/-- the first `count` powers of ten -/
def firstPowersOfTen (count : Nat) : Array Binary64 :=
  ⟨(List.range count).map fun (n : Nat) => .ofDecimal false 1 n⟩

def powersOfTen : Array Binary64 := firstPowersOfTen 309

/-- `10 ^ n` for `n ≤ 308` -/
def powerOfTen (n : Nat) : Binary64 :=
  match powersOfTen[n]? with
  | some x => x
  | none => .ofDecimal false 1 n

theorem eq_of_getElem?_firstPowersOfTen {count n : Nat} {x : Binary64}
    (h : (firstPowersOfTen count)[n]? = some x) : x = .ofDecimal false 1 n := by
  simp only [firstPowersOfTen, List.getElem?_toArray, List.getElem?_map] at h
  obtain ⟨k, hk, rfl⟩ := Option.map_eq_some_iff.1 h
  obtain ⟨_, rfl⟩ := List.getElem?_eq_some_iff.1 hk
  rw [List.getElem_range]

theorem powerOfTen_eq (n : Nat) : powerOfTen n = .ofDecimal false 1 n := by
  unfold powerOfTen
  cases h : powersOfTen[n]? with
  | none => rfl
  | some x => exact eq_of_getElem?_firstPowersOfTen h

/-- `x * 10 ^ e` by one multiplication or division, or by several when `e` is below `-308` -/
def scaled? (x : Binary64) (e : Int) : Option Binary64 :=
  if x.isZero then some x
  else if 308 < e then none
  else if 0 ≤ e then
    let y := x.mul (powerOfTen e.toNat)
    if y.isFinite then some y else none
  else if -308 ≤ e then some (x.div (powerOfTen (-e).toNat))
  else scaled? (x.div (powerOfTen 308)) (e + 308)
termination_by (-e).toNat
decreasing_by omega

namespace Numeral

/-- the integer, when the literal is written as one and fits 64 bits; `-0` is none -/
def integer? (m : Numeral) : Option Int :=
  match m.fraction, m.exponent with
  | none, none =>
    let n := ofDigitsUpTo wordLimit m.whole
    if m.negative then if 0 < n ∧ 2 * n ≤ wordLimit then some (-(n : Int)) else none
    else if n < wordLimit then some n else none
  | _, _ => none

def significand (m : Numeral) : Significand :=
  let s := fractionDigits (wholeDigits ⟨0, 0⟩ m.whole) (m.fraction.getD [])
  ⟨s.word, s.scale + m.exponent.getD 0⟩

def float? (m : Numeral) : Option Binary64 :=
  let s := m.significand
  (scaled? (.nearest false s.word 1) s.scale).map fun x => if m.negative then x.neg else x

def number? (m : Numeral) : Option Number :=
  match m.integer? with
  | some n => some (.integer n)
  | none => m.float?.map .float

end Numeral

def takeNumber (bs : Bytes) : Option (Option Number × Bytes) :=
  let numeral :=
    match bs with
    | 0x2D :: rest => takeUnsigned true rest
    | bs => takeUnsigned false bs
  numeral.map fun (m, rest) => (m.number?, rest)

end RemoteGuard.Json
