/-!
# Binary floating point numbers of 64 bits

A `Binary64` is kept as its bit pattern, and all arithmetic is done on natural numbers: a finite
number is `mantissa * 2 ^ exponent` (`mantissa`, `exponent`), `nearest` rounds a quotient of natural
numbers to the closest representable one (a tie goes to the even pattern, what is too large goes to
infinity), and `mul` and `div` round the exact product and quotient once.

`same` is equality of numbers: it takes the two zeros for one (`same_iff`).
-/

namespace RemoteGuard

def twoTo (n : Nat) : Nat := if n = 0 then 1 else Nat.pow 2 n

def tenTo (n : Nat) : Nat := Nat.pow 10 n

theorem twoTo_eq (n : Nat) : twoTo n = Nat.pow 2 n := by
  unfold twoTo
  split
  · next h => subst h; rfl
  · rfl

structure Binary64 where
  bits : UInt64
deriving DecidableEq, Repr, Inhabited

namespace Binary64

@[noinline] def infinityBits : Nat := 0x7FF0000000000000

/-- the bit of the sign, two to the power 63 -/
def signBit : UInt64 := 0x8000000000000000

/-- the leading bit of a mantissa, two to the power 52 -/
@[noinline] def leadingBit : Nat := 0x10000000000000

def infinity : Binary64 := ⟨0x7FF0000000000000⟩
def nan : Binary64 := ⟨0x7FF8000000000000⟩
def zero : Binary64 := ⟨0⟩
def one : Binary64 := ⟨0x3FF0000000000000⟩

def magnitude (x : Binary64) : Nat := (x.bits % signBit).toNat

def isNegative (x : Binary64) : Bool := signBit ≤ x.bits
def isZero (x : Binary64) : Bool := x.magnitude == 0
def isNaN (x : Binary64) : Bool := infinityBits < x.magnitude
def isFinite (x : Binary64) : Bool := x.magnitude < infinityBits

def neg (x : Binary64) : Binary64 := ⟨x.bits ^^^ signBit⟩

def same (x y : Binary64) : Bool := x == y || (x.isZero && y.isZero)

/-- the number, with one zero for both -/
def canonical (x : Binary64) : Binary64 := if x.isZero then zero else x

theorem same_iff {x y : Binary64} : x.same y = true ↔ x.canonical = y.canonical := by
  have hzero : zero.isZero = true := by decide
  have hne : ∀ {x y : Binary64}, x.isZero = true → y.isZero = false → x ≠ y := by
    intro x y hx hy e
    rw [e, hy] at hx
    cases hx
  rw [same, canonical, canonical]
  cases hx : x.isZero with
  | false =>
    cases hy : y.isZero with
    | false => simp
    | true => simp [(hne hy hx).symm, (hne hzero hx).symm]
  | true =>
    cases hy : y.isZero with
    | false => simp [hne hx hy, hne hzero hy]
    | true => simp

def isBelowZero (x : Binary64) : Bool := x.isNegative && !x.isZero && !x.isNaN

def isAboveOne (x : Binary64) : Bool := !x.isNegative && one.magnitude < x.magnitude && !x.isNaN

/-! ## value of a finite number -/

def mantissa (x : Binary64) : Nat :=
  if x.magnitude < leadingBit then x.magnitude else leadingBit + x.magnitude % leadingBit

def exponent (x : Binary64) : Int :=
  if x.magnitude < leadingBit then -1074 else (x.magnitude / leadingBit : Nat) - 1075

def numerator (x : Binary64) : Nat := x.mantissa * twoTo x.exponent.toNat

def denominator (x : Binary64) : Nat := twoTo (-x.exponent).toNat

/-! ## rounding -/

/-- `num / den` rounded to a natural number, a tie to the even one -/
def roundHalfEven (num den : Nat) : Nat :=
  let q := num / den
  let r := num % den
  if 2 * r < den then q
  else if den < 2 * r then q + 1
  else q + q % 2

/-- the exponent `e` with `2 ^ e ≤ num / den < 2 ^ (e + 1)` -/
def binaryExponent (num den : Nat) : Int :=
  let e : Int := (num.log2 : Int) - den.log2
  if den * twoTo e.toNat ≤ num * twoTo (-e).toNat then e else e - 1

/-- the pattern of the number closest to `num / den` -/
def nearestBits (num den : Nat) : Nat :=
  let q := max (binaryExponent num den - 52) (-1074)
  let m := roundHalfEven (num * twoTo (-q).toNat) (den * twoTo q.toNat)
  min ((q + 1074).toNat * leadingBit + m) infinityBits

/-- The number closest to `num / den`, with the given sign. -/
def nearest (negative : Bool) (num den : Nat) : Binary64 :=
  let x : Binary64 := ⟨UInt64.ofNat (if num = 0 then 0 else nearestBits num den)⟩
  if negative then x.neg else x

def mul (x y : Binary64) : Binary64 :=
  nearest (x.isNegative != y.isNegative) (x.numerator * y.numerator) (x.denominator * y.denominator)

def div (x y : Binary64) : Binary64 :=
  nearest (x.isNegative != y.isNegative) (x.numerator * y.denominator) (x.denominator * y.numerator)

/-- `digits * 10 ^ exponent`, rounded once -/
def ofDecimal (negative : Bool) (digits : Nat) (exponent : Int) : Binary64 :=
  nearest negative (digits * tenTo exponent.toNat) (tenTo (-exponent).toNat)

example : nearest false 1 10 = ⟨0x3FB999999999999A⟩ := by decide +kernel
example : ofDecimal false 5 (-324) = ⟨1⟩ := by decide +kernel
example : ofDecimal false 2 308 = infinity := by decide +kernel

end Binary64
end RemoteGuard
