import RemoteGuard.Binary64.Basic
import RemoteGuard.Word

/-!
# Sampling at a rate

A `SampleRate` accepts a fraction of the requests.  The rate lies between zero and one: what is
below or above is taken for the nearer end, and what is no number for zero.  Strictly between the
ends a draw decides, a 64-bit word that comes from outside.
-/

namespace RemoteGuard

/-- a number taken into the unit interval; a negative zero stays -/
def Binary64.clampUnit (x : Binary64) : Binary64 :=
  if x.isBelowZero then .zero else if x.isAboveOne then .one else x

structure SampleRate where
  rate : Binary64
deriving DecidableEq, Repr, Inhabited

namespace SampleRate

def new (rate : Binary64) : SampleRate := ⟨if rate.isNaN then .zero else rate.clampUnit⟩

/-- how many of the `wordLimit` draws are accepted at a rate below one -/
def threshold (r : SampleRate) : Nat := r.rate.numerator * wordLimit / r.rate.denominator

def accepts (r : SampleRate) (draw : BitVec 64) : Bool :=
  if r.rate == .one then true
  else if r.rate.isZero then false
  else draw.toNat < r.threshold

end SampleRate
end RemoteGuard
