import RemoteGuard.Word

/-!
# Unsigned decimal numerals

`digit?` reads one ASCII digit and `decimal?` a non-empty run of them.  `digits64?` reads a run
whose value fits a 64-bit word (`digits64?_eq`), never going far beyond on the way.  `word64?` reads
the text of a word: an optional `+`, then digits whose value fits.
-/

namespace RemoteGuard.Text

def digit? (c : Char) : Option Nat :=
  if '0' ≤ c ∧ c ≤ '9' then some (c.toNat - '0'.toNat) else none

/-- the value of the digits `cs` written after digits of value `n` -/
def decimalFrom (n : Nat) : List Char → Option Nat
  | [] => some n
  | c :: cs =>
    match digit? c with
    | some d => decimalFrom (10 * n + d) cs
    | none => none

/-- Reads a non-empty run of ASCII digits; leading zeros are fine. -/
def decimal? : List Char → Option Nat
  | [] => none
  | cs => decimalFrom 0 cs

/-- the value of the digits `cs` written after digits of value `n`, or `limit` if it is beyond; then
further digits do not add to it -/
def decimalUpTo (limit n : Nat) : List Char → Option Nat
  | [] => some (min limit n)
  | c :: cs =>
    match digit? c with
    | some d => decimalUpTo limit (if limit ≤ n then n else 10 * n + d) cs
    | none => none

/-- Reads a non-empty run of ASCII digits whose value fits a word. -/
def digits64? : List Char → Option Nat
  | [] => none
  | cs => (decimalUpTo wordLimit 0 cs).bind fits64

/-- Reads a 64-bit word: an optional `+`, then at least one digit. -/
def word64? : List Char → Option Nat
  | '+' :: cs => digits64? cs
  | cs => digits64? cs

private theorem decimalUpTo_of_beyond (limit n m : Nat) (cs : List Char)
    (h : n = m ∨ limit ≤ n ∧ limit ≤ m) :
    decimalUpTo limit n cs = (decimalFrom m cs).map (min limit) := by
  induction cs generalizing n m with
  | nil => simp only [decimalUpTo, decimalFrom, Option.map_some, Option.some.injEq]; omega
  | cons c cs ih =>
    rw [decimalUpTo, decimalFrom]
    cases digit? c with
    | none => rfl
    | some d =>
      refine ih _ _ ?_
      split <;> omega

theorem decimalUpTo_eq (limit n : Nat) (cs : List Char) :
    decimalUpTo limit n cs = (decimalFrom n cs).map (min limit) :=
  decimalUpTo_of_beyond limit n n cs (.inl rfl)

theorem digits64?_eq (cs : List Char) : digits64? cs = (decimal? cs).bind fits64 := by
  cases cs with
  | nil => rfl
  | cons c cs =>
    have h := decimalUpTo_eq wordLimit 0 (c :: cs)
    change (decimalUpTo wordLimit 0 (c :: cs)).bind fits64 =
      (decimalFrom 0 (c :: cs)).bind fits64
    rw [h]
    cases decimalFrom 0 (c :: cs) with
    | none => rfl
    | some n =>
      simp only [Option.map_some, Option.bind_some, fits64]
      by_cases hn : n < wordLimit
      · rw [Nat.min_eq_right (Nat.le_of_lt hn)]
      · rw [Nat.min_eq_left (Nat.le_of_not_lt hn), if_neg (Nat.lt_irrefl _), if_neg hn]

end RemoteGuard.Text
