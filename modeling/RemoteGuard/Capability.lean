import RemoteGuard.Text.Base64

/-!
# Capabilities

A client tells the backend what it can do as a set of bits in a 64-bit word.  The set is sent as
the shortest big-endian byte string that holds every bit (`toBytes`), in Base64; the empty set is
one zero byte.
-/

namespace RemoteGuard

structure Capabilities where
  bits : BitVec 64
deriving DecidableEq, Repr, Inhabited

namespace Capabilities

def empty : Capabilities := ⟨0⟩

def single (index : Fin 64) : Capabilities := ⟨1#64 <<< index.val⟩

/-- the single capability with the given index, if the word has a bit for it -/
def single? (index : Nat) : Option Capabilities :=
  if h : index < 64 then some (single ⟨index, h⟩) else none

def union (a b : Capabilities) : Capabilities := ⟨a.bits ||| b.bits⟩

def contains (a b : Capabilities) : Bool := a.bits &&& b.bits == b.bits

def isEmpty (a : Capabilities) : Bool := a.bits == 0

def collect (cs : List Capabilities) : Capabilities := cs.foldl union empty

/-- the octets of a number, the most significant first -/
def octets : Nat → Nat → Bytes
  | 0, _ => []
  | n + 1, k => octets n (k / 256) ++ [UInt8.ofNat k]

/-- Takes zero octets off the front, but leaves at least one octet. -/
def stripZeros : Bytes → Bytes
  | 0 :: b :: bs => stripZeros (b :: bs)
  | bs => bs

def toBytes (a : Capabilities) : Bytes := stripZeros (octets 8 a.bits.toNat)

def toBase64 (a : Capabilities) : String := Base64.encode a.toBytes

/-- the set as shown to a developer, in hexadecimal -/
def debug (a : Capabilities) : String :=
  "Capabilities(0x" ++ String.ofList (Nat.toDigits 16 a.bits.toNat) ++ ")"

example : (single 8).toBytes = [1, 0] := by decide
example : empty.toBase64 = "AA==" := by decide +kernel

end Capabilities
end RemoteGuard
