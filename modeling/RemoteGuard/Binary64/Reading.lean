import RemoteGuard.Binary64.Basic
import RemoteGuard.Text.Numeral

/-!
# Reading floating point text

`read?` reads an optional sign and then `inf`, `infinity` or `nan` in any mixture of cases, or a
decimal: digits with at most one point (a digit on one side of it is enough) and an optional
exponent.  The result is the number closest to the decimal.
-/

namespace RemoteGuard.Binary64

/-- digits of a decimal, as a value and a count -/
structure DigitRun where
  value : Nat
  count : Nat

/-- Takes the digits at the front of a text, after those already in `run`. -/
def takeDigits (run : DigitRun) : List Char → DigitRun × List Char
  | [] => (run, [])
  | c :: cs =>
    match Text.digit? c with
    | some d => takeDigits ⟨10 * run.value + d, run.count + 1⟩ cs
    | none => (run, c :: cs)

/-- A decimal whose leading digit lies beyond these exponents is infinite or zero. -/
def ofDecimalWithin (negative : Bool) (run : DigitRun) (exponent : Int) : Binary64 :=
  if run.value = 0 then nearest negative 0 1
  else if 310 < exponent + (Nat.log2 run.value / 4 : Nat) then
    if negative then infinity.neg else infinity
  else if exponent + run.count < -330 then nearest negative 0 1
  else ofDecimal negative run.value exponent

def exponent? (cs : List Char) : Option Int :=
  match cs with
  | '-' :: cs => (Text.decimal? cs).map fun n => -(n : Int)
  | '+' :: cs => (Text.decimal? cs).map fun n => (n : Int)
  | cs => (Text.decimal? cs).map fun n => (n : Int)

def decimal? (negative : Bool) (cs : List Char) : Option Binary64 :=
  let (whole, rest) := takeDigits ⟨0, 0⟩ cs
  let (run, rest) :=
    match rest with
    | '.' :: rest => takeDigits whole rest
    | rest => (whole, rest)
  if run.count = 0 then none
  else
    let places : Int := (run.count : Int) - whole.count
    match rest with
    | [] => some (ofDecimalWithin negative run (-places))
    | c :: cs =>
      if c = 'e' ∨ c = 'E' then
        (exponent? cs).map fun e => ofDecimalWithin negative run (e - places)
      else none

def unsigned? (negative : Bool) (cs : List Char) : Option Binary64 :=
  let word := cs.map Char.toLower
  let signed (x : Binary64) : Binary64 := if negative then x.neg else x
  if word = "inf".toList ∨ word = "infinity".toList then some (signed infinity)
  else if word = "nan".toList then some (signed nan)
  else decimal? negative cs

def read? (s : String) : Option Binary64 :=
  match s.toList with
  | '-' :: cs => unsigned? true cs
  | '+' :: cs => unsigned? false cs
  | cs => unsigned? false cs

example : read? "1e-320" = some ⟨0x7E8⟩ := by decide +kernel
example : read? ".5" = some ⟨0x3FE0000000000000⟩ := by decide +kernel
example : read? "." = none := by decide +kernel
example : read? "1e99999999999999999999" = some infinity := by decide +kernel

end RemoteGuard.Binary64
