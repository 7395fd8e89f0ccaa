import RemoteGuard.Text.Numeral

/-!
# Timestamps

`Timestamp.read?` reads the internet date and time format: a date, any one ASCII character, a time
with an optional fraction of a second, and an offset from UTC or `Z`.  Of the fraction nine digits
count.  A second `60` is read as the last nanosecond before it, and only where a leap second can be:
at the end of the last day of a month in UTC.
-/

namespace RemoteGuard

/-- a point in time, with the offset it was written in -/
structure Timestamp where
  /-- whole seconds since 1970-01-01T00:00:00Z -/
  unixSeconds : Int
  nanoseconds : Nat
  offsetSeconds : Int
deriving DecidableEq, Repr, Inhabited

namespace Timestamp

/-! ## calendar -/

def isLeapYear (y : Int) : Bool := y % 4 == 0 && (y % 100 != 0 || y % 400 == 0)

def daysInMonth (y : Int) (m : Nat) : Nat :=
  if m = 2 then if isLeapYear y then 29 else 28
  else if m = 4 ∨ m = 6 ∨ m = 9 ∨ m = 11 then 30
  else 31

/-- days from the first of January of the year 0 to that of the year `y` -/
def daysBeforeYear (y : Int) : Int :=
  365 * y + (y + 3) / 4 - (y + 99) / 100 + (y + 399) / 400

def daysBeforeMonth (y : Int) (m : Nat) : Nat :=
  (List.range (m - 1)).foldl (fun days i => days + daysInMonth y (i + 1)) 0

def dayNumber (y : Int) (m d : Nat) : Int :=
  daysBeforeYear y + daysBeforeMonth y m + d - 1 - daysBeforeYear 1970

def secondsPerDay : Int := 86400

/-! ## reading -/

def takeDigits (n : Nat) (cs : List Char) : Option (Nat × List Char) :=
  if (cs.take n).length = n then (Text.decimal? (cs.take n)).map fun v => (v, cs.drop n) else none

def takeChar (c : Char) : List Char → Option (List Char)
  | d :: cs => if c = d then some cs else none
  | [] => none

def takePair (low high : Nat) (cs : List Char) : Option (Nat × List Char) := do
  let (n, cs) ← takeDigits 2 cs
  if low ≤ n ∧ n ≤ high then some (n, cs) else none

/-- the digits of a fraction, of which the first weighs `weight` nanoseconds -/
def fractionFrom (weight total : Nat) : List Char → Nat × List Char
  | [] => (total, [])
  | c :: cs =>
    match Text.digit? c with
    | some d => fractionFrom (weight / 10) (total + d * weight) cs
    | none => (total, c :: cs)

/-- a fraction of a second in nanoseconds, if a point comes first -/
def takeFraction (cs : List Char) : Option (Nat × List Char) :=
  match cs with
  | '.' :: c :: cs =>
    if (Text.digit? c).isSome then some (fractionFrom 100000000 0 (c :: cs)) else none
  | ['.'] => none
  | cs => some (0, cs)

def takeOffset (cs : List Char) : Option (Int × List Char) :=
  match cs with
  | 'Z' :: cs => some (0, cs)
  | 'z' :: cs => some (0, cs)
  | '+' :: cs => hoursMinutes cs
  | '-' :: cs => (hoursMinutes cs).map fun (n, cs) => (-n, cs)
  | _ => none
where
  hoursMinutes (cs : List Char) : Option (Int × List Char) := do
    let (h, cs) ← takePair 0 23 cs
    let cs ← takeChar ':' cs
    let (m, cs) ← takePair 0 59 cs
    return ((h * 3600 + m * 60 : Nat), cs)

def takeSeparator : List Char → Option (List Char)
  | c :: cs => if c.toNat < 0x80 then some cs else none
  | [] => none

/-- the last second of a month in UTC, in seconds since the epoch -/
def isMonthEnd (y : Int) (m : Nat) (seconds : Int) : Bool :=
  seconds == (dayNumber y m (daysInMonth y m) + 1) * secondsPerDay - 1

/-- The month of `seconds` is the one written, the one before or the one after. -/
def endsSomeMonth (y : Int) (m : Nat) (seconds : Int) : Bool :=
  isMonthEnd y m seconds
    || (if m = 1 then isMonthEnd (y - 1) 12 seconds else isMonthEnd y (m - 1) seconds)

def read? (s : String) : Option Timestamp := do
  let (year, cs) ← takeDigits 4 s.toList
  let cs ← takeChar '-' cs
  let (month, cs) ← takePair 1 12 cs
  let cs ← takeChar '-' cs
  let (day, cs) ← takePair 1 (daysInMonth year month) cs
  let cs ← takeSeparator cs
  let (hour, cs) ← takePair 0 23 cs
  let cs ← takeChar ':' cs
  let (minute, cs) ← takePair 0 59 cs
  let cs ← takeChar ':' cs
  let (second, cs) ← takePair 0 60 cs
  let (fraction, cs) ← takeFraction cs
  let (offset, cs) ← takeOffset cs
  let time : Int := (hour * 3600 + minute * 60 + min second 59 : Nat)
  let seconds := dayNumber year month day * secondsPerDay + time - offset
  if cs ≠ [] then none
  else if second = 60 then
    if endsSomeMonth year month seconds then some ⟨seconds, 999999999, offset⟩ else none
  else some ⟨seconds, fraction, offset⟩

example : read? "1970-01-01T00:00:00Z" = some ⟨0, 0, 0⟩ := by decide +kernel
example : read? "2016-12-31T23:59:60Z" = some ⟨1483228799, 999999999, 0⟩ := by decide +kernel
example : read? "2017-01-01T01:59:60+02:00" = some ⟨1483228799, 999999999, 7200⟩ := by
  decide +kernel
example : read? "2023-02-29T00:00:00Z" = none := by decide +kernel

end Timestamp
end RemoteGuard
