import RemoteGuard.Proofs.Text.Positional
import RemoteGuard.Text.Base64

/-!
# Base64 texts and what they stand for

`Spells s b` is the format, said without an encoder: the characters of `s` are digits in base 64,
written in the alphabet, and at most two `=`; the digits hold the bits of the octets `b` in order,
followed by two zero bits for every `=`.

Every row of octets is spelled by its encoding (`spells_encode`), and there is only one row of
digits that holds its bits (`Holds.unique`).  So a reader takes nothing but encodings
(`decode?_eq_some_iff`), and these are the texts that spell something (`decode?_iff_spells`).
-/

namespace RemoteGuard.Base64

/-! ## digits in base 64 -/

/-- the characters of the digits, in order -/
def alphabet : List Char :=
  "ABCDEFGHIJKLMNOPQRSTUVWXYZabcdefghijklmnopqrstuvwxyz0123456789+/".toList

theorem symbol_eq_alphabet {n : Nat} (h : n < 64) : symbol n = alphabet.getD n '=' := by
  have hall : ∀ n : Fin 64, symbol n = alphabet.getD n '=' := by decide +kernel
  exact hall ⟨n, h⟩

theorem symbol_ne_pad {n : Nat} (h : n < 64) : symbol n ≠ '=' := by
  have hall : ∀ n : Fin 64, symbol n ≠ '=' := by decide +kernel
  exact hall ⟨n, h⟩

theorem value?_symbol {n : Nat} (h : n < 64) : value? (symbol n) = some n := by
  have hall : ∀ n : Fin 64, value? (symbol n) = some n.val := by decide +kernel
  exact hall ⟨n, h⟩

theorem toNat_lt_of_value? {c : Char} {n : Nat} (h : value? c = some n) : c.toNat < 128 := by
  unfold value? at h
  split at h
  · next hc => exact Nat.lt_of_le_of_lt (UInt32.le_iff_toNat_le.mp hc.2) (by decide)
  · split at h
    · next hc => exact Nat.lt_of_le_of_lt (UInt32.le_iff_toNat_le.mp hc.2) (by decide)
    · split at h
      · next hc => exact Nat.lt_of_le_of_lt (UInt32.le_iff_toNat_le.mp hc.2) (by decide)
      · split at h
        · next hc => exact hc ▸ by decide
        · split at h
          · next hc => exact hc ▸ by decide
          · cases h

/-- only symbols have a value -/
theorem symbol_of_value? {c : Char} {n : Nat} (h : value? c = some n) : n < 64 ∧ symbol n = c := by
  have hall : ∀ k : Fin 128, ∀ m ∈ value? (Char.ofNat k), m < 64 ∧ symbol m = Char.ofNat k := by
    decide +kernel
  have hc := hall ⟨c.toNat, toNat_lt_of_value? h⟩
  rw [Char.ofNat_toNat] at hc
  exact hc n h

/-! ## rows of digits -/

/-- The digits hold the bits of `b`, followed by two zero bits for each of at most two pads. -/
structure Holds (digits : List Nat) (pads : Nat) (b : Bytes) : Prop where
  digit_lt : ∀ d ∈ digits, d < 64
  pads_lt : pads < 3
  length_eq : 6 * digits.length = 8 * b.length + 2 * pads
  value_eq : bigEndian 64 digits = b.number * 4 ^ pads

namespace Holds
variable {ds es : List Nat} {j k : Nat} {b c : Bytes}

theorem pow_length (h : Holds ds k b) : 64 ^ ds.length = 256 ^ b.length * 4 ^ k := by
  calc 64 ^ ds.length = 2 ^ (6 * ds.length) := by rw [Nat.pow_mul]
    _ = 2 ^ (8 * b.length) * 2 ^ (2 * k) := by rw [h.length_eq, Nat.pow_add]
    _ = 256 ^ b.length * 4 ^ k := by rw [Nat.pow_mul, Nat.pow_mul]

/-- what follows digits without pads -/
theorem append (h : Holds ds 0 b) (h' : Holds es k c) : Holds (ds ++ es) k (b ++ c) where
  digit_lt := fun d hd => (List.mem_append.mp hd).elim (h.digit_lt d) (h'.digit_lt d)
  pads_lt := h'.pads_lt
  length_eq := by
    have hlength := h.length_eq
    have hlength' := h'.length_eq
    simp only [List.length_append]
    omega
  value_eq := by
    rw [bigEndian_append, Bytes.number_append, h.value_eq, h'.value_eq, h'.pow_length]
    ring

theorem nil : Holds [] 0 [] := ⟨by simp, by decide, rfl, rfl⟩

theorem one (x : UInt8) : Holds [x.toNat / 4, x.toNat % 4 * 16] 2 [x] where
  digit_lt := by
    have hx := x.toNat_lt
    simp only [List.forall_mem_cons, List.not_mem_nil, false_implies, implies_true, and_true]
    omega
  pads_lt := by decide
  length_eq := rfl
  value_eq := by
    simp only [bigEndian_cons, bigEndian_nil, Bytes.number_single, List.length_cons,
      List.length_nil]
    omega

theorem two (x y : UInt8) :
    Holds [x.toNat / 4, x.toNat % 4 * 16 + y.toNat / 16, y.toNat % 16 * 4] 1 [x, y] where
  digit_lt := by
    have hx := x.toNat_lt
    have hy := y.toNat_lt
    simp only [List.forall_mem_cons, List.not_mem_nil, false_implies, implies_true, and_true]
    omega
  pads_lt := by decide
  length_eq := rfl
  value_eq := by
    simp only [bigEndian_cons, bigEndian_nil, Bytes.number_cons, Bytes.number_nil,
      List.length_cons, List.length_nil]
    omega

theorem three (x y z : UInt8) :
    Holds [x.toNat / 4, x.toNat % 4 * 16 + y.toNat / 16, y.toNat % 16 * 4 + z.toNat / 64,
      z.toNat % 64] 0 [x, y, z] where
  digit_lt := by
    have hx := x.toNat_lt
    have hy := y.toNat_lt
    have hz := z.toNat_lt
    simp only [List.forall_mem_cons, List.not_mem_nil, false_implies, implies_true, and_true]
    omega
  pads_lt := by decide
  length_eq := rfl
  value_eq := by
    simp only [bigEndian_cons, bigEndian_nil, Bytes.number_cons, Bytes.number_nil,
      List.length_cons, List.length_nil]
    omega

/-- the bits of octets are held in one way -/
theorem unique (h : Holds ds j b) (h' : Holds es k b) : ds = es ∧ j = k := by
  have hlength := h.length_eq
  have hlength' := h'.length_eq
  have hj := h.pads_lt
  have hk := h'.pads_lt
  obtain rfl : j = k := by omega
  have hvalue : bigEndian 64 ds = bigEndian 64 es := h.value_eq.trans h'.value_eq.symm
  exact ⟨bigEndian_inj (by decide) (by omega) h.digit_lt h'.digit_lt hvalue, rfl⟩

end Holds

/-! ## texts -/

/-- The text `s` stands for the octets `b`. -/
def Spells (s : String) (b : Bytes) : Prop :=
  ∃ digits pads, Holds digits pads b ∧
    s.toList = digits.map (fun d => alphabet.getD d '=') ++ List.replicate pads '='

theorem exists_holds (b : Bytes) : ∃ digits pads, Holds digits pads b ∧
    encodeChars b = digits.map symbol ++ List.replicate pads '=' := by
  induction b using encodeChars.induct with
  | case1 => exact ⟨[], 0, .nil, rfl⟩
  | case2 x => exact ⟨_, 2, .one x, rfl⟩
  | case3 x y => exact ⟨_, 1, .two x y, rfl⟩
  | case4 x y z rest ih =>
    obtain ⟨digits, pads, hholds, hchars⟩ := ih
    refine ⟨_, pads, (Holds.three x y z).append hholds, ?_⟩
    rw [encodeChars, hchars]
    rfl

/-- symbols are characters of the alphabet -/
theorem spells_of_symbols {s : String} {digits : List Nat} {pads : Nat} {b : Bytes}
    (h : Holds digits pads b) (hs : s.toList = digits.map symbol ++ List.replicate pads '=') :
    Spells s b := by
  refine ⟨digits, pads, h, hs.trans ?_⟩
  congr 1
  exact List.map_congr_left fun d hd => symbol_eq_alphabet (h.digit_lt d hd)

theorem spells_encode (b : Bytes) : Spells (encode b) b := by
  obtain ⟨digits, pads, hholds, hchars⟩ := exists_holds b
  exact spells_of_symbols hholds (by rw [encode, String.toList_ofList, hchars])

theorem Spells.unique {s t : String} {b : Bytes} (hs : Spells s b) (ht : Spells t b) : s = t := by
  obtain ⟨ds, j, hds, hs⟩ := hs
  obtain ⟨es, k, hes, ht⟩ := ht
  obtain ⟨rfl, rfl⟩ := hds.unique hes
  exact String.toList_inj.mp (hs.trans ht.symm)

/-! ## reading -/

theorem holds_of_oneOctet? {p q : Nat} {b : Bytes} (hp : p < 64) (hq : q < 64)
    (h : oneOctet? p q = some b) : Holds [p, q] 2 b := by
  rw [oneOctet?, Option.ite_none_right_eq_some, Option.some_inj] at h
  obtain ⟨hzero, rfl⟩ := h
  refine ⟨by simp [hp, hq], by decide, rfl, ?_⟩
  rw [Bytes.number_single, UInt8.toNat_ofNat']
  simp only [bigEndian_cons, bigEndian_nil, List.length_cons, List.length_nil]
  omega

theorem holds_of_twoOctets? {p q r : Nat} {b : Bytes} (hp : p < 64) (hq : q < 64) (hr : r < 64)
    (h : twoOctets? p q r = some b) : Holds [p, q, r] 1 b := by
  rw [twoOctets?, Option.ite_none_right_eq_some, Option.some_inj] at h
  obtain ⟨hzero, rfl⟩ := h
  refine ⟨by simp [hp, hq, hr], by decide, rfl, ?_⟩
  rw [Bytes.number_cons, Bytes.number_single, UInt8.toNat_ofNat',
    UInt8.toNat_ofNat']
  simp only [bigEndian_cons, bigEndian_nil, List.length_cons, List.length_nil]
  omega

theorem holds_threeOctets {p q r s : Nat} (hp : p < 64) (hq : q < 64) (hr : r < 64) (hs : s < 64) :
    Holds [p, q, r, s] 0 (threeOctets p q r s) := by
  refine ⟨by simp [hp, hq, hr, hs], by decide, rfl, ?_⟩
  rw [threeOctets, Bytes.number_cons, Bytes.number_cons, Bytes.number_single,
    UInt8.toNat_ofNat', UInt8.toNat_ofNat', UInt8.toNat_ofNat']
  simp only [bigEndian_cons, bigEndian_nil, List.length_cons, List.length_nil]
  omega

/-- what is read is held by the digits of the text -/
theorem holds_of_decodeChars? {cs : List Char} {b : Bytes} (h : decodeChars? cs = some b) :
    ∃ digits pads, Holds digits pads b ∧ cs = digits.map symbol ++ List.replicate pads '=' := by
  fun_induction decodeChars? cs generalizing b with
  | case1 =>
    cases h
    exact ⟨[], 0, .nil, rfl⟩
  | case2 c d =>
    simp only [Option.bind_eq_bind, Option.bind_eq_some_iff] at h
    obtain ⟨p, hp, q, hq, h⟩ := h
    obtain ⟨hp', rfl⟩ := symbol_of_value? hp
    obtain ⟨hq', rfl⟩ := symbol_of_value? hq
    exact ⟨[p, q], 2, holds_of_oneOctet? hp' hq' h, rfl⟩
  | case3 c d e =>
    simp only [Option.bind_eq_bind, Option.bind_eq_some_iff] at h
    obtain ⟨p, hp, q, hq, r, hr, h⟩ := h
    obtain ⟨hp', rfl⟩ := symbol_of_value? hp
    obtain ⟨hq', rfl⟩ := symbol_of_value? hq
    obtain ⟨hr', rfl⟩ := symbol_of_value? hr
    exact ⟨[p, q, r], 1, holds_of_twoOctets? hp' hq' hr' h, rfl⟩
  | case4 c d e f rest _ _ ih =>
    simp only [Option.bind_eq_bind, Option.bind_eq_some_iff, Option.pure_def,
      Option.some_inj] at h
    obtain ⟨p, hp, q, hq, r, hr, s, hs, b', hb', rfl⟩ := h
    obtain ⟨hp', rfl⟩ := symbol_of_value? hp
    obtain ⟨hq', rfl⟩ := symbol_of_value? hq
    obtain ⟨hr', rfl⟩ := symbol_of_value? hr
    obtain ⟨hs', rfl⟩ := symbol_of_value? hs
    obtain ⟨digits, pads, hholds, rfl⟩ := ih hb'
    exact ⟨_, pads, (holds_threeOctets hp' hq' hr' hs').append hholds, rfl⟩
  | case5 => cases h

theorem octet_eq {n : Nat} {x : UInt8} (h : n = x.toNat) : UInt8.ofNat n = x := by
  rw [h, UInt8.ofNat_toNat]

theorem decodeChars?_encodeChars (b : Bytes) : decodeChars? (encodeChars b) = some b := by
  induction b using encodeChars.induct with
  | case1 => rfl
  | case2 x =>
    have hx := x.toNat_lt
    rw [encodeChars, decodeChars?, value?_symbol (by omega), value?_symbol (by omega)]
    show oneOctet? _ _ = _
    rw [oneOctet?, if_pos (by omega), octet_eq (x := x) (by omega)]
  | case3 x y =>
    have hx := x.toNat_lt
    have hy := y.toNat_lt
    rw [encodeChars, decodeChars?.eq_3 _ _ _ (symbol_ne_pad (by omega)), value?_symbol (by omega),
      value?_symbol (by omega), value?_symbol (by omega)]
    show twoOctets? _ _ _ = _
    rw [twoOctets?, if_pos (by omega), octet_eq (x := x) (by omega), octet_eq (x := y) (by omega)]
  | case4 x y z rest ih =>
    have hx := x.toNat_lt
    have hy := y.toNat_lt
    have hz := z.toNat_lt
    have hlast : symbol (z.toNat % 64) ≠ '=' := symbol_ne_pad (by omega)
    rw [encodeChars, decodeChars?.eq_4 _ _ _ _ _ (fun _ h => absurd h hlast)
      (fun h => absurd h hlast), value?_symbol (by omega), value?_symbol (by omega),
      value?_symbol (by omega), value?_symbol (by omega), ih]
    show some (threeOctets _ _ _ _ ++ rest) = _
    rw [threeOctets, octet_eq (x := x) (by omega), octet_eq (x := y) (by omega),
      octet_eq (x := z) (by omega)]
    rfl

theorem decode?_encode (b : Bytes) : decode? (encode b) = some b := by
  rw [decode?, encode, String.toList_ofList, decodeChars?_encodeChars]

theorem spells_of_decode? {s : String} {b : Bytes} (h : decode? s = some b) : Spells s b := by
  obtain ⟨digits, pads, hholds, hchars⟩ := holds_of_decodeChars? h
  exact spells_of_symbols hholds hchars

/-- nothing but encodings is read -/
theorem decode?_eq_some_iff {s : String} {b : Bytes} : decode? s = some b ↔ s = encode b :=
  ⟨fun h => (spells_of_decode? h).unique (spells_encode b), fun h => h ▸ decode?_encode b⟩

/-- and these are all the texts that stand for something -/
theorem decode?_iff_spells {s : String} {b : Bytes} : decode? s = some b ↔ Spells s b :=
  ⟨spells_of_decode?, fun h => decode?_eq_some_iff.mpr (h.unique (spells_encode b))⟩

end RemoteGuard.Base64
