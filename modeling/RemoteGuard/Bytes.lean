/-!
# Bytes

`Bytes` is a list of octets.  `Bytes.hex` writes it as lowercase hexadecimal digits, two per octet.
`utf8` and `ofUtf8?` go between texts and their UTF-8 encodings; each undoes the other
(`ofUtf8?_utf8`, `utf8_of_ofUtf8?`).  `illFormedRest` tells where octets that encode no text go
wrong.
-/

namespace RemoteGuard

abbrev Bytes := List UInt8

/-- the lowercase hexadecimal digit of a number below 16 -/
def hexDigit (n : Nat) : Char :=
  if n < 10 then Char.ofNat ('0'.toNat + n) else Char.ofNat ('a'.toNat + (n - 10))

def Bytes.hex (b : Bytes) : String :=
  String.ofList (b.flatMap fun x => [hexDigit (x.toNat / 16), hexDigit (x.toNat % 16)])

def utf8 (s : String) : Bytes := s.toByteArray.data.toList

/-- the text encoded by `b`, if `b` is well-formed UTF-8 -/
def ofUtf8? (b : Bytes) : Option String := String.fromUTF8? ⟨b.toArray⟩

/-- where UTF-8 that is well-formed up to `i` has its first ill-formed sequence, or its end -/
def wellFormedEnd (b : ByteArray) (i : Nat) : Nat :=
  if i < b.size then
    match b.utf8DecodeChar? i with
    | some c => wellFormedEnd b (i + c.utf8Size)
    | none => i
  else i
termination_by b.size - i
decreasing_by
  have := c.utf8Size_pos
  omega

/-- the octets from the first ill-formed sequence on -/
def illFormedRest (b : Bytes) : Bytes := b.drop (wellFormedEnd ⟨b.toArray⟩ 0)

theorem ofUtf8?_utf8 (s : String) : ofUtf8? (utf8 s) = some s := by
  have h : (⟨(utf8 s).toArray⟩ : ByteArray) = s.toByteArray := by simp [utf8]
  rw [ofUtf8?, h, String.fromUTF8?, dif_pos s.isValidUTF8]
  rfl

theorem utf8_of_ofUtf8? {b : Bytes} {s : String} (h : ofUtf8? b = some s) : utf8 s = b := by
  unfold ofUtf8? String.fromUTF8? at h
  split at h
  · cases h
    simp [utf8, String.fromUTF8]
  · cases h

end RemoteGuard
