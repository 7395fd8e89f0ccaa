import RemoteGuard.Binary64.Basic

/-!
# Shortest decimal digits

`shortest` gives the fewest decimal digits that read back as a given positive finite number, and of
those the closest to it.  The reals that read back as `m * 2 ^ q` form an interval around it, whose
ends belong to it when `m` is even; for one digit, two digits and so on, the two neighbours of the
number on that decimal grid are tried, up to seventeen digits, which always suffice.

`decimalText` lays the digits out: positional from `1e-5` up to below `1e16`, with at least one
digit on either side of the point, and otherwise with an exponent that carries its sign.
-/

namespace RemoteGuard.Binary64

/-- decimal digits and the power of ten of the last of them -/
structure Decimal where
  digits : Nat
  scale : Int
deriving DecidableEq, Repr, Inhabited

def width (n : Nat) : Nat := (Nat.toDigits 10 n).length

/-- the exponent `e` with `10 ^ e ≤ num / den < 10 ^ (e + 1)` -/
def decimalExponent (num den : Nat) : Int :=
  if den ≤ num then (width (num / den) : Int) - 1
  else
    let d := width (den / num)
    if den = num * tenTo (d - 1) then 1 - (d : Int) else -d

/-- `num / den` lies between the two ends of the interval that rounds to `m * 2 ^ q` -/
def roundsTo (m : Nat) (q : Int) (num den : Nat) : Bool :=
  let below := if m = leadingBit ∧ -1074 < q then 1 else 2
  let scaled := num * 4 * twoTo (-q).toNat
  let low := (4 * m - below) * twoTo q.toNat * den
  let high := (4 * m + 2) * twoTo q.toNat * den
  if m % 2 = 0 then low ≤ scaled && scaled ≤ high else low < scaled && scaled < high

/-- the neighbour of `m * 2 ^ q` with last digit at `10 ^ scale` that reads back, if one does -/
def onGrid? (m : Nat) (q : Int) (scale : Int) : Option Decimal :=
  let num := m * twoTo q.toNat * tenTo (-scale).toNat
  let den := twoTo (-q).toNat * tenTo scale.toNat
  let n := num / den
  let reads (k : Nat) : Bool := roundsTo m q (k * tenTo scale.toNat) (tenTo (-scale).toNat)
  let lowFirst := decide (2 * (num % den) < den) || (decide (2 * (num % den) = den) && n % 2 == 0)
  let (near, far) := if lowFirst then (n, n + 1) else (n + 1, n)
  if near ≠ 0 ∧ reads near then some ⟨near, scale⟩
  else if far ≠ 0 ∧ reads far then some ⟨far, scale⟩
  else none

/-- takes zeros off the end, at most `fuel` of them -/
def dropZeros : Nat → Decimal → Decimal
  | 0, d => d
  | fuel + 1, d => if d.digits % 10 = 0 then dropZeros fuel ⟨d.digits / 10, d.scale + 1⟩ else d

/-- the first of the grids of `n`, `n + 1`, … digits with a neighbour that reads back -/
def firstGrid (m : Nat) (q : Int) (e : Int) : Nat → Nat → Decimal
  | 0, n => ⟨m, e - n⟩
  | fuel + 1, n => (onGrid? m q (e - n)).getD (firstGrid m q e fuel (n + 1))

def shortest (x : Binary64) : Decimal :=
  let e := decimalExponent x.numerator x.denominator
  dropZeros 18 (firstGrid x.mantissa x.exponent e 18 0)

/-! ## text -/

def zeros (n : Nat) : List Char := List.replicate n '0'

def exponentText (e : Int) : List Char :=
  'e' :: (if e < 0 then '-' else '+') :: Nat.toDigits 10 e.natAbs

/-- a positive decimal, whose first digit has the weight `10 ^ e` -/
def layOut (digits : List Char) (e : Int) : List Char :=
  if 0 ≤ e ∧ e < 16 then
    let whole := e.toNat + 1
    if digits.length ≤ whole then digits ++ zeros (whole - digits.length) ++ ['.', '0']
    else digits.take whole ++ '.' :: digits.drop whole
  else if -5 ≤ e ∧ e < 0 then '0' :: '.' :: zeros ((-e).toNat - 1) ++ digits
  else
    match digits with
    | [] => []
    | [d] => d :: exponentText e
    | d :: ds => d :: '.' :: ds ++ exponentText e

def decimalText (x : Binary64) : List Char :=
  let body :=
    if x.isZero then ['0', '.', '0']
    else
      let d := x.shortest
      let digits := Nat.toDigits 10 d.digits
      layOut digits (d.scale + digits.length - 1)
  if x.isNegative then '-' :: body else body

example : String.ofList (decimalText (ofDecimal false 1 (-1))) = "0.1" := by decide +kernel
example : String.ofList (decimalText (ofDecimal true 0 0)) = "-0.0" := by decide +kernel
example : String.ofList (decimalText (ofDecimal false 1 22)) = "1e+22" := by decide +kernel
example : String.ofList (decimalText (ofDecimal false 5 (-324))) = "5e-324" := by decide +kernel
example : String.ofList (decimalText (ofDecimal false 1 15)) = "1000000000000000.0" := by
  decide +kernel
example : String.ofList (decimalText (ofDecimal false 17976931348623157 292))
    = "1.7976931348623157e+308" := by decide +kernel

end RemoteGuard.Binary64
