/-!
# 64-bit words

Many numbers of the formats read here have to fit a 64-bit word: `wordLimit` is the first number
that does not, and `fits64` lets through those that do.
-/

namespace RemoteGuard

@[noinline] def wordLimit : Nat := 0x10000000000000000

/-- a number that fits a 64-bit word -/
def fits64 (n : Nat) : Option Nat := if n < wordLimit then some n else none

theorem fits64_eq_some_iff {n m : Nat} : fits64 n = some m ↔ n = m ∧ m < wordLimit := by
  unfold fits64
  split
  · constructor
    · rintro ⟨⟩; exact ⟨rfl, by assumption⟩
    · rintro ⟨rfl, _⟩; rfl
  · constructor
    · rintro ⟨⟩
    · rintro ⟨rfl, h⟩; contradiction

/-- the word that an integer is, if it is one -/
def intWord64? (n : Int) : Option Nat := if 0 ≤ n then fits64 n.toNat else none

end RemoteGuard
