import RemoteGuard.Json.Printing
import RemoteGuard.Json.Tree
import RemoteGuard.Proofs.Text.Utf8

/-!
# Printed strings and records are read

A string is printed with escapes, and read as pieces: octets, and the units of escapes.  `piecesOf`
gives the pieces that a printed character is read as (`takePieces_escapedChar`), and they stand for
the octets of the character (`octetsOnto?_piecesOf`).  So a printed string is read as the string
(`takeString_printed`), and a printed record of strings as its members (`read?_print_texts`).
-/

namespace RemoteGuard.Json

/-! ## pieces of a printed string -/

/-- an octet that stands for itself in a string -/
def IsPlain (b : UInt8) : Prop := 0x20 ≤ b.toNat ∧ b.toNat ≠ 0x22 ∧ b.toNat ≠ 0x5C

theorem takePieces_plain {b : UInt8} (h : IsPlain b) (done : List Piece) (rest : Bytes) :
    takePieces done (b :: rest) = takePieces (.octet b :: done) rest := by
  have hquote : b ≠ 0x22 := fun hb => h.2.1 (hb ▸ rfl)
  have hbackslash : b ≠ 0x5C := fun hb => h.2.2 (hb ▸ rfl)
  have hlow : ¬ b < 0x20 := fun hlt => absurd h.1 (Nat.not_le.mpr (UInt8.lt_iff_toNat_lt.mp hlt))
  rw [takePieces.eq_5 _ _ _ hquote (fun _ _ _ _ _ hb => absurd hb hbackslash)
    (fun _ _ hb => absurd hb hbackslash), if_neg (not_or.mpr ⟨hlow, hbackslash⟩)]

theorem takePieces_octets {bs : Bytes} (h : ∀ b ∈ bs, IsPlain b) (done : List Piece)
    (rest : Bytes) :
    takePieces done (bs ++ rest) = takePieces ((bs.map .octet).reverse ++ done) rest := by
  induction bs generalizing done with
  | nil => rfl
  | cons b bs ih =>
    obtain ⟨hb, hbs⟩ := List.forall_mem_cons.mp h
    rw [List.cons_append, takePieces_plain hb, ih hbs]
    simp

theorem takePieces_escape {e b : UInt8} (he : e ≠ 0x75) (hb : escaped? e = some b)
    (done : List Piece) (rest : Bytes) :
    takePieces done (0x5C :: e :: rest) = takePieces (.octet b :: done) rest := by
  rw [takePieces.eq_4 _ _ _ fun _ _ _ _ _ h => absurd h he, hb]

theorem takePieces_unit {x y : UInt8} {n : Nat} (h : unit? 0x30 0x30 x y = some n)
    (done : List Piece) (rest : Bytes) :
    takePieces done (0x5C :: 0x75 :: 0x30 :: 0x30 :: x :: y :: rest)
      = takePieces (.unit n :: done) rest := by
  rw [takePieces, h]

/-- characters that are escaped without a number -/
def isShortEscaped (c : Char) : Bool :=
  c ∈ ['"', '\\', '\n', '\r', '\t', '\x08', '\x0c']

/-- the pieces that a printed character is read as -/
def piecesOf (c : Char) : List Piece :=
  if c.toNat < 0x20 ∧ isShortEscaped c = false then [.unit c.toNat]
  else (String.utf8EncodeChar c).map .octet

theorem shortEscape {c : Char} (h : isShortEscaped c = true) :
    ∃ e b : UInt8, (escapedChar c).flatMap String.utf8EncodeChar = [0x5C, e] ∧
      piecesOf c = [.octet b] ∧ escaped? e = some b ∧ e ≠ 0x75 := by
  simp only [isShortEscaped, decide_eq_true_eq, List.mem_cons, List.not_mem_nil, or_false] at h
  rcases h with rfl | rfl | rfl | rfl | rfl | rfl | rfl <;>
    exact ⟨_, _, rfl, rfl, rfl, by decide⟩

theorem escapedChar_of_not_short {c : Char} (h : isShortEscaped c = false) :
    escapedChar c = if c.toNat < 0x20 then controlEscape c else [c] := by
  simp only [isShortEscaped, decide_eq_false_iff_not, List.mem_cons, List.not_mem_nil, or_false,
    not_or] at h
  simp [escapedChar, h]

/-- the octet of a hexadecimal digit -/
def hexOctet (n : Nat) : UInt8 := (Nat.digitChar n).val.toUInt8

theorem controlEscape_octets {c : Char} (h : c.toNat < 0x20) :
    (controlEscape c).flatMap String.utf8EncodeChar
      = [0x5C, 0x75, 0x30, 0x30, hexOctet (c.toNat / 16), hexOctet (c.toNat % 16)] ∧
    unit? 0x30 0x30 (hexOctet (c.toNat / 16)) (hexOctet (c.toNat % 16)) = some c.toNat := by
  have hall : ∀ k : Fin 0x20, let c := Char.ofNat k
      (controlEscape c).flatMap String.utf8EncodeChar
        = [0x5C, 0x75, 0x30, 0x30, hexOctet (c.toNat / 16), hexOctet (c.toNat % 16)] ∧
      unit? 0x30 0x30 (hexOctet (c.toNat / 16)) (hexOctet (c.toNat % 16)) = some c.toNat := by
    decide +kernel
  have hc := hall ⟨c.toNat, h⟩
  rwa [Char.ofNat_toNat] at hc

theorem isPlain_of_high {n : Nat} (hlow : 0x80 ≤ n) (h : n < 0x100) : IsPlain (UInt8.ofNat n) := by
  rw [IsPlain, UInt8.toNat_ofNat_of_lt' h]
  omega

theorem isPlain_of_utf8EncodeChar {c : Char} (hlow : ¬ c.toNat < 0x20)
    (hshort : isShortEscaped c = false) : ∀ b ∈ String.utf8EncodeChar c, IsPlain b := by
  have hne : ∀ n ∈ [0x22, 0x5C], c.toNat ≠ n := by
    rintro n hn rfl
    have hshort' : ∀ n ∈ [0x22, 0x5C], isShortEscaped (Char.ofNat n) = true := by decide
    have hc := hshort' c.toNat hn
    rw [Char.ofNat_toNat, hshort] at hc
    cases hc
  have hval : c.val.toNat = c.toNat := rfl
  intro b hb
  rw [String.utf8EncodeChar, hval] at hb
  split at hb
  · next hsmall =>
    obtain rfl := List.mem_singleton.mp hb
    rw [IsPlain, UInt8.toNat_ofNat_of_lt' (Nat.lt_of_le_of_lt hsmall (by decide))]
    exact ⟨Nat.not_lt.mp hlow, hne _ (by simp), hne _ (by simp)⟩
  · -- every octet of a longer encoding is beyond ASCII
    split at hb
    · simp only [List.mem_cons, List.not_mem_nil, or_false] at hb
      rcases hb with rfl | rfl <;> exact isPlain_of_high (by omega) (by omega)
    · split at hb
      · simp only [List.mem_cons, List.not_mem_nil, or_false] at hb
        rcases hb with rfl | rfl | rfl <;> exact isPlain_of_high (by omega) (by omega)
      · simp only [List.mem_cons, List.not_mem_nil, or_false] at hb
        rcases hb with rfl | rfl | rfl | rfl <;> exact isPlain_of_high (by omega) (by omega)

theorem takePieces_escapedChar (c : Char) (done : List Piece) (rest : Bytes) :
    takePieces done ((escapedChar c).flatMap String.utf8EncodeChar ++ rest)
      = takePieces ((piecesOf c).reverse ++ done) rest := by
  cases hshort : isShortEscaped c with
  | true =>
    obtain ⟨e, b, hoctets, hpieces, hb, he⟩ := shortEscape hshort
    rw [hoctets, hpieces]
    exact takePieces_escape he hb done rest
  | false =>
    rw [escapedChar_of_not_short hshort, piecesOf]
    by_cases hlow : c.toNat < 0x20
    · obtain ⟨hoctets, hunit⟩ := controlEscape_octets hlow
      rw [if_pos hlow, if_pos ⟨hlow, hshort⟩, hoctets]
      exact takePieces_unit hunit done rest
    · rw [if_neg hlow, if_neg fun h => hlow h.1, List.flatMap_singleton]
      exact takePieces_octets (isPlain_of_utf8EncodeChar hlow hshort) done rest

theorem octetsOnto?_octets (done bs : Bytes) (ps : List Piece) :
    octetsOnto? done (bs.map .octet ++ ps) = octetsOnto? (bs.reverse ++ done) ps := by
  induction bs generalizing done with
  | nil => rfl
  | cons b bs ih =>
    rw [List.map_cons, List.cons_append, octetsOnto?, ih]
    simp

/-- a unit that is no surrogate -/
theorem octetsOnto?_unit {n : Nat} (hlow : isLowSurrogate n = false)
    (hhigh : isHighSurrogate n = false) (done : Bytes) (ps : List Piece) :
    octetsOnto? done (.unit n :: ps)
      = octetsOnto? ((String.utf8EncodeChar (Char.ofNat n)).reverse ++ done) ps := by
  rw [octetsOnto?.eq_def]
  simp [hlow, hhigh]

theorem octetsOnto?_piecesOf (c : Char) (done : Bytes) (ps : List Piece) :
    octetsOnto? done (piecesOf c ++ ps)
      = octetsOnto? ((String.utf8EncodeChar c).reverse ++ done) ps := by
  rw [piecesOf]
  split
  · next h =>
    have hlow : isLowSurrogate c.toNat = false := by
      simp only [isLowSurrogate, Bool.and_eq_false_iff, decide_eq_false_iff_not]
      omega
    have hhigh : isHighSurrogate c.toNat = false := by
      simp only [isHighSurrogate, Bool.and_eq_false_iff, decide_eq_false_iff_not]
      omega
    rw [List.singleton_append, octetsOnto?_unit hlow hhigh, Char.ofNat_toNat]
  · exact octetsOnto?_octets done _ ps

theorem octetsOnto?_printed (cs : List Char) (done : Bytes) :
    octetsOnto? done (cs.flatMap piecesOf)
      = some (done.reverse ++ cs.flatMap String.utf8EncodeChar) := by
  induction cs generalizing done with
  | nil => simp [octetsOnto?]
  | cons c cs ih =>
    rw [List.flatMap_cons, octetsOnto?_piecesOf, ih, List.flatMap_cons]
    simp

theorem takePieces_printed (cs : List Char) (done : List Piece) (rest : Bytes) :
    takePieces done ((cs.flatMap escapedChar).flatMap String.utf8EncodeChar ++ 0x22 :: rest)
      = some (done.reverse ++ cs.flatMap piecesOf, rest) := by
  induction cs generalizing done with
  | nil => simp [takePieces]
  | cons c cs ih =>
    rw [List.flatMap_cons, List.flatMap_append, List.append_assoc, takePieces_escapedChar, ih,
      List.flatMap_cons]
    simp

/-- the octets of a printed string between its quotes -/
def printedOctets (s : String) : Bytes :=
  (s.toList.flatMap escapedChar).flatMap String.utf8EncodeChar

theorem takeString_printed (s : String) (rest : Bytes) :
    takeString (printedOctets s ++ 0x22 :: rest) = some (some s, rest) := by
  have htext : Piece.text? (s.toList.flatMap piecesOf) = some s := by
    rw [Piece.text?, octetsOnto?_printed, List.reverse_nil, List.nil_append, ← utf8_eq_flatMap]
    exact ofUtf8?_utf8 s
  rw [takeString, printedOctets, takePieces_printed, List.reverse_nil, List.nil_append,
    Option.map_some]
  exact congrArg (fun text => some (text, rest)) htext

theorem utf8_literal (s : String) : utf8 (literal s) = 0x22 :: printedOctets s ++ [0x22] := by
  rw [literal, utf8_ofList, List.flatMap_append, List.flatMap_cons]
  rfl

/-! ## records of texts -/

theorem takeTree_literal (fuel : Nat) (s : String) (rest : Bytes) :
    takeTree (fuel + 1) (utf8 (literal s) ++ rest) = some (.string (some s), rest) := by
  have hspace : skipSpace (0x22 :: (printedOctets s ++ 0x22 :: rest))
      = 0x22 :: (printedOctets s ++ 0x22 :: rest) := rfl
  rw [utf8_literal, List.append_assoc, List.cons_append, List.singleton_append, takeTree, hspace]
  show (takeString (printedOctets s ++ 0x22 :: rest)).map _ = _
  rw [takeString_printed]
  rfl

theorem takeKey_literal (s : String) (rest : Bytes) :
    takeKey (utf8 (literal s) ++ 0x3A :: rest) = some (some s, rest) := by
  have hquote : ∀ bs : Bytes, expect [0x22] (skipSpace (0x22 :: bs)) = some bs := fun _ => rfl
  rw [utf8_literal, List.append_assoc, List.cons_append, List.singleton_append, takeKey, hquote,
    Option.bind_eq_bind, Option.bind_some, takeString_printed]
  rfl

/-- an object of strings -/
def texts (ms : List (String × String)) : Value := .object (ms.map fun m => (m.1, .string m.2))

/-- the members that a printed object of strings is read as -/
def textMembers (ms : List (String × String)) : List (Option String × Tree) :=
  ms.map fun m => (some m.1, .string (some m.2))

def printText (m : String × String) : String := literal m.1 ++ ":" ++ literal m.2

theorem printMembers_texts (ms : List (String × String)) :
    printMembers (ms.map fun m => (m.1, .string m.2)) = ms.map printText := by
  induction ms with
  | nil => rfl
  | cons m ms ih =>
    rw [List.map_cons, printMembers, ih, List.map_cons]
    rfl

theorem utf8_printText (m : String × String) (rest : Bytes) :
    utf8 (printText m) ++ rest = utf8 (literal m.1) ++ 0x3A :: (utf8 (literal m.2) ++ rest) := by
  have hcolon : utf8 ":" = [0x3A] := by decide +kernel
  rw [printText, utf8_append, utf8_append, hcolon]
  simp only [List.append_assoc, List.cons_append, List.nil_append]

theorem takeMembers_texts (m : String × String) (ms : List (String × String)) (rest : Bytes)
    {fuel : Nat} (h : ms.length + 2 ≤ fuel) :
    takeMembers fuel (utf8 (",".intercalate ((m :: ms).map printText)) ++ 0x7D :: rest)
      = some (textMembers (m :: ms), rest) := by
  obtain ⟨fuel, rfl⟩ : ∃ k, fuel = k + 1 + 1 := ⟨fuel - 2, by omega⟩
  induction ms generalizing m fuel with
  | nil =>
    rw [List.map_singleton, String.intercalate_singleton, utf8_printText, takeMembers,
      takeKey_literal]
    simp only [takeTree_literal]
    rfl
  | cons n ms ih =>
    have hcomma : utf8 "," = [0x2C] := by decide +kernel
    rw [List.length_cons] at h
    obtain ⟨fuel, rfl⟩ : ∃ k, fuel = k + 1 := ⟨fuel - 1, by omega⟩
    rw [List.map_cons, List.map_cons, String.intercalate_cons_cons, utf8_append, utf8_append,
      hcomma, List.append_assoc, List.append_assoc, utf8_printText, takeMembers, takeKey_literal]
    simp only [takeTree_literal]
    show (takeMembers (fuel + 1 + 1)
      (utf8 (",".intercalate ((n :: ms).map printText)) ++ 0x7D :: rest)).map _ = _
    rw [ih n fuel (by omega)]
    rfl

theorem print_texts (ms : List (String × String)) :
    (texts ms).print = "\x7b" ++ ",".intercalate (ms.map printText) ++ "\x7d" := by
  rw [texts, Value.print, printMembers_texts]

theorem length_le_printTexts (ms : List (String × String)) :
    ms.length ≤ (utf8 (",".intercalate (ms.map printText))).length := by
  have hpos : ∀ m, 1 ≤ (utf8 (printText m)).length := by
    intro m
    have hmember := utf8_printText m []
    rw [List.append_nil] at hmember
    rw [hmember, List.length_append, List.length_cons]
    omega
  induction ms with
  | nil => exact Nat.zero_le _
  | cons m ms ih =>
    cases ms with
    | nil => simpa using hpos m
    | cons n ms =>
      rw [List.map_cons, List.map_cons, String.intercalate_cons_cons, utf8_append, utf8_append,
        List.length_append, List.length_append, ← List.map_cons]
      have hm := hpos m
      rw [List.length_cons]
      omega

/-- a printed object of strings starts with a quote -/
theorem exists_printTexts (m : String × String) (ms : List (String × String)) (rest : Bytes) :
    ∃ tail, utf8 (",".intercalate ((m :: ms).map printText)) ++ rest = 0x22 :: tail := by
  cases ms with
  | nil =>
    rw [List.map_singleton, String.intercalate_singleton, utf8_printText, utf8_literal]
    exact ⟨_, rfl⟩
  | cons n ms =>
    rw [List.map_cons, List.map_cons, String.intercalate_cons_cons, utf8_append, utf8_append,
      List.append_assoc, List.append_assoc, utf8_printText, utf8_literal]
    exact ⟨_, rfl⟩

/-- a printed object of strings is read as its members -/
theorem read?_print_texts (m : String × String) (ms : List (String × String)) :
    Tree.read? (utf8 (texts (m :: ms)).print) = some (.object (textMembers (m :: ms))) := by
  have hopen : utf8 "\x7b" = [0x7B] := by decide +kernel
  have hclose : utf8 "\x7d" = [0x7D] := by decide +kernel
  have hfuel := length_le_printTexts (m :: ms)
  obtain ⟨tail, htail⟩ := exists_printTexts m ms [0x7D]
  have hlength := congrArg List.length htail
  rw [List.length_append, List.length_singleton, List.length_cons] at hlength
  rw [List.length_cons] at hfuel
  have hmembers : ∀ fuel, ms.length + 2 ≤ fuel →
      takeMembers fuel (0x22 :: tail) = some (textMembers (m :: ms), []) := by
    intro fuel h
    rw [← htail]
    exact takeMembers_texts m ms [] h
  have htree : takeTree (2 * (0x7B :: 0x22 :: tail).length + 2) (0x7B :: 0x22 :: tail)
      = some (.object (textMembers (m :: ms)), []) := by
    rw [takeTree]
    show (takeMembers _ (0x22 :: tail)).map _ = _
    rw [hmembers _ (by rw [List.length_cons, List.length_cons]; omega)]
    rfl
  rw [print_texts, utf8_append, utf8_append, hopen, hclose, List.append_assoc, htail,
    List.singleton_append, Tree.read?, htree]
  rfl

end RemoteGuard.Json
