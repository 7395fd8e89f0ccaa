/-!
# Blank characters and trimming

`isBlank` is the Unicode property White_Space.  `trim` takes blank characters off both ends of a
text.  Zero-width characters (U+200B, U+FEFF) and the separators U+001C to U+001F do not have the
property and stay.
-/

namespace RemoteGuard.Text

/-- the code points with the property White_Space, as closed ranges -/
def blankRanges : List (Nat × Nat) :=
  [(0x9, 0xD), (0x20, 0x20), (0x85, 0x85), (0xA0, 0xA0), (0x1680, 0x1680), (0x2000, 0x200A),
   (0x2028, 0x2029), (0x202F, 0x202F), (0x205F, 0x205F), (0x3000, 0x3000)]

def isBlank (c : Char) : Bool :=
  blankRanges.any fun r => r.1 ≤ c.toNat && c.toNat ≤ r.2

def trimEnds (cs : List Char) : List Char :=
  ((cs.dropWhile isBlank).reverse.dropWhile isBlank).reverse

def trim (s : String) : String := String.ofList (trimEnds s.toList)

end RemoteGuard.Text
