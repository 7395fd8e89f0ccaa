import RemoteGuard.Bytes

/-!
# Base64

The standard alphabet with mandatory padding, read canonically: `decode?` refuses blanks, other
alphabets, missing or misplaced padding, and a last group whose unused bits are not zero.
-/

namespace RemoteGuard.Base64

/-- the character of a number below 64 -/
def symbol (n : Nat) : Char :=
  if n < 26 then Char.ofNat ('A'.toNat + n)
  else if n < 52 then Char.ofNat ('a'.toNat + (n - 26))
  else if n < 62 then Char.ofNat ('0'.toNat + (n - 52))
  else if n = 62 then '+' else '/'

def value? (c : Char) : Option Nat :=
  if 'A' ≤ c ∧ c ≤ 'Z' then some (c.toNat - 'A'.toNat)
  else if 'a' ≤ c ∧ c ≤ 'z' then some (c.toNat - 'a'.toNat + 26)
  else if '0' ≤ c ∧ c ≤ '9' then some (c.toNat - '0'.toNat + 52)
  else if c = '+' then some 62
  else if c = '/' then some 63
  else none

/-- four characters for every three octets; a short last group is padded -/
def encodeChars : Bytes → List Char
  | [] => []
  | [a] => [symbol (a.toNat / 4), symbol (a.toNat % 4 * 16), '=', '=']
  | [a, b] =>
    [symbol (a.toNat / 4), symbol (a.toNat % 4 * 16 + b.toNat / 16), symbol (b.toNat % 16 * 4), '=']
  | a :: b :: c :: rest =>
    symbol (a.toNat / 4) :: symbol (a.toNat % 4 * 16 + b.toNat / 16)
      :: symbol (b.toNat % 16 * 4 + c.toNat / 64) :: symbol (c.toNat % 64) :: encodeChars rest

/-- the last group, when it holds one octet -/
def oneOctet? (p q : Nat) : Option Bytes :=
  if q % 16 = 0 then some [UInt8.ofNat (p * 4 + q / 16)] else none

/-- the last group, when it holds two octets -/
def twoOctets? (p q r : Nat) : Option Bytes :=
  if r % 4 = 0 then some [UInt8.ofNat (p * 4 + q / 16), UInt8.ofNat (q % 16 * 16 + r / 4)] else none

def threeOctets (p q r s : Nat) : Bytes :=
  [UInt8.ofNat (p * 4 + q / 16), UInt8.ofNat (q % 16 * 16 + r / 4), UInt8.ofNat (r % 4 * 64 + s)]

def decodeChars? : List Char → Option Bytes
  | [] => some []
  | [a, b, '=', '='] => do oneOctet? (← value? a) (← value? b)
  | [a, b, c, '='] => do twoOctets? (← value? a) (← value? b) (← value? c)
  | a :: b :: c :: d :: rest => do
    let group := threeOctets (← value? a) (← value? b) (← value? c) (← value? d)
    return group ++ (← decodeChars? rest)
  | _ => none

def encode (b : Bytes) : String := String.ofList (encodeChars b)

def decode? (s : String) : Option Bytes := decodeChars? s.toList

example : encode [0x01, 0xFC] = "Afw=" := by decide +kernel
example : decode? "AB==" = none := by decide +kernel

end RemoteGuard.Base64
