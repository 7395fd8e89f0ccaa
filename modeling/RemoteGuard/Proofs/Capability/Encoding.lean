import Mathlib.Tactic.TFAE
import RemoteGuard.Capability
import RemoteGuard.Proofs.Text.Base64

/-!
# Capabilities as octets

A set of capabilities is told by the indices of its bits.  `Bytes.HasBits b is` is that the number
with the octets `b` has just the bits `is`, and `Bytes.ShortestWithBits b is` that no fewer octets
have them.

* `getLsbD_collect`           the bits of a set that is collected are those collected;
* `length_stripZeros_le`      without zeros in front octets are as few as can be;
* `toBytes_collect_iff`       a set is sent as the only shortest octets that have its bits;
* `encoding_of_indices`       so a set is read back from what is sent.
-/

namespace RemoteGuard

/-! ## octets with given bits -/

namespace Bytes

/-- the bits of the number with the octets `b` are those with an index in `is` -/
def HasBits (b : Bytes) (is : List (Fin 64)) : Prop :=
  ∀ k : Nat, b.number.testBit k = true ↔ ∃ i ∈ is, i.val = k

structure ShortestWithBits (b : Bytes) (is : List (Fin 64)) : Prop where
  ne_nil : b ≠ []
  hasBits : b.HasBits is
  shortest : ∀ c : Bytes, c ≠ [] → c.HasBits is → b.length ≤ c.length

theorem HasBits.number_eq {b c : Bytes} {is : List (Fin 64)} (hb : b.HasBits is)
    (hc : c.HasBits is) : b.number = c.number := by
  apply Nat.eq_of_testBit_eq
  intro k
  rw [Bool.eq_iff_iff, hb k, hc k]

theorem ShortestWithBits.unique {b c : Bytes} {is : List (Fin 64)} (hb : b.ShortestWithBits is)
    (hc : c.ShortestWithBits is) : b = c :=
  eq_of_number (Nat.le_antisymm (hb.shortest c hc.ne_nil hc.hasBits)
    (hc.shortest b hb.ne_nil hb.hasBits)) (hb.hasBits.number_eq hc.hasBits)

end Bytes

namespace Capabilities

/-! ## collecting -/

theorem getLsbD_single (i : Fin 64) (k : Nat) :
    (single i).bits.getLsbD k = decide (i.val = k) := by
  have hi := i.isLt
  rw [single, BitVec.getLsbD_shiftLeft, BitVec.getLsbD_one, Bool.eq_iff_iff]
  simp only [Bool.and_eq_true, Bool.not_eq_true', decide_eq_true_eq, decide_eq_false_iff_not]
  omega

theorem getLsbD_foldl_union (cs : List Capabilities) (a : Capabilities) (k : Nat) :
    (cs.foldl union a).bits.getLsbD k
      = (a.bits.getLsbD k || cs.any fun c => c.bits.getLsbD k) := by
  induction cs generalizing a with
  | nil => simp
  | cons c cs ih =>
    rw [List.foldl_cons, ih, List.any_cons, ← Bool.or_assoc]
    congr 1
    exact BitVec.getLsbD_or

/-- a bit is collected just if its index is -/
theorem getLsbD_collect (is : List (Fin 64)) (k : Nat) :
    (collect (is.map single)).bits.getLsbD k = true ↔ ∃ i ∈ is, i.val = k := by
  rw [collect, getLsbD_foldl_union]
  simp [empty, getLsbD_single]

theorem contains_single_iff (a : Capabilities) (i : Fin 64) :
    a.contains (single i) = true ↔ a.bits.getLsbD i = true := by
  rw [contains, beq_iff_eq, BitVec.eq_of_getLsbD_eq_iff]
  simp only [BitVec.getLsbD_and, getLsbD_single]
  constructor
  · intro h
    simpa using h i i.isLt
  · intro h k hk
    by_cases hik : i.val = k
    · rw [← hik, h, Bool.true_and]
    · simp [hik]

/-! ## octets -/

theorem length_octets (n k : Nat) : (octets n k).length = n := by
  induction n generalizing k with
  | zero => rfl
  | succ n ih => rw [octets, List.length_append, ih, List.length_singleton]

theorem number_octets (n k : Nat) : (octets n k).number = k % 256 ^ n := by
  induction n generalizing k with
  | zero => rw [octets, Bytes.number_nil, Nat.pow_zero, Nat.mod_one]
  | succ n ih =>
    rw [octets, Bytes.number_append, ih, Bytes.number_single, UInt8.toNat_ofNat',
      List.length_singleton, Nat.pow_one, Nat.pow_succ', Nat.mod_mul, Nat.add_comm, Nat.mul_comm]

theorem number_stripZeros (b : Bytes) : (stripZeros b).number = b.number := by
  fun_induction stripZeros b with
  | case1 x bs ih => rw [ih, Bytes.number_cons 0]; simp
  | case2 => rfl

theorem stripZeros_ne_nil {b : Bytes} (h : b ≠ []) : stripZeros b ≠ [] := by
  fun_induction stripZeros b with
  | case1 x bs ih => exact ih (List.cons_ne_nil x bs)
  | case2 => exact h

/-- Octets that do not start with a zero are as few as their number allows. -/
theorem length_stripZeros_le {b c : Bytes} (hc : c ≠ []) (h : c.number = b.number) :
    (stripZeros b).length ≤ c.length := by
  fun_induction stripZeros b with
  | case1 x bs ih => exact ih (by rw [h, Bytes.number_cons 0]; simp)
  | case2 b hb =>
    have hpos : 1 ≤ c.length := List.length_pos_iff.mpr hc
    match b with
    | [] => exact Nat.zero_le _
    | [_] => exact hpos
    | x :: y :: bs =>
      have hx : 1 ≤ x.toNat := by
        by_contra hzero
        have hzero : x = 0 := UInt8.toNat_inj.mp (by simpa using hzero)
        exact hb y bs (hzero ▸ rfl)
      have hlow : 256 ^ (y :: bs).length ≤ Bytes.number (x :: y :: bs) := by
        rw [Bytes.number_cons x]
        exact Nat.le_add_right_of_le (Nat.le_mul_of_pos_left _ hx)
      have hlt : 256 ^ (y :: bs).length < 256 ^ c.length := by
        calc 256 ^ (y :: bs).length ≤ c.number := h ▸ hlow
          _ < 256 ^ c.length := Bytes.number_lt c
      exact (Nat.pow_lt_pow_iff_right (by decide)).mp hlt

theorem number_toBytes (a : Capabilities) : a.toBytes.number = a.bits.toNat := by
  rw [toBytes, number_stripZeros, number_octets]
  exact Nat.mod_eq_of_lt a.bits.isLt

theorem hasBits_toBytes_collect (is : List (Fin 64)) :
    (collect (is.map single)).toBytes.HasBits is := by
  intro k
  rw [number_toBytes, ← getLsbD_collect]
  rfl

/-- A set is sent as the only shortest octets that have its bits. -/
theorem toBytes_collect_iff {is : List (Fin 64)} {b : Bytes} :
    b = (collect (is.map single)).toBytes ↔ b.ShortestWithBits is := by
  have hset : (collect (is.map single)).toBytes.ShortestWithBits is := by
    refine ⟨stripZeros_ne_nil (List.ne_nil_of_length_eq_add_one (length_octets 8 _)),
      hasBits_toBytes_collect is, fun c hc hbits => length_stripZeros_le hc ?_⟩
    have hnumber : c.number = (collect (is.map single)).toBytes.number :=
      hbits.number_eq (hasBits_toBytes_collect is)
    rw [hnumber, toBytes, number_stripZeros]
  exact ⟨fun h => h ▸ hset, fun h => h.unique hset⟩

/-! ## reading back -/

/-- the set whose word has the octets `b` -/
def ofBytes (b : Bytes) : Capabilities := ⟨BitVec.ofNat 64 b.number⟩

def ofBase64? (s : String) : Option Capabilities := (Base64.decode? s).map ofBytes

theorem ofBytes_toBytes (a : Capabilities) : ofBytes a.toBytes = a := by
  rw [ofBytes, number_toBytes, BitVec.ofNat_toNat, BitVec.setWidth_eq]

theorem ofBase64?_toBase64 (a : Capabilities) : ofBase64? a.toBase64 = some a := by
  rw [ofBase64?, toBase64, Base64.decode?_encode, Option.map_some, ofBytes_toBytes]

theorem toBytes_inj {a b : Capabilities} : a.toBytes = b.toBytes ↔ a = b :=
  ⟨fun h => by rw [← ofBytes_toBytes a, h, ofBytes_toBytes], fun h => h ▸ rfl⟩

theorem toBase64_inj {a b : Capabilities} : a.toBase64 = b.toBase64 ↔ a = b :=
  ⟨fun h => Option.some.inj (by rw [← ofBase64?_toBase64 a, h, ofBase64?_toBase64]),
    fun h => h ▸ rfl⟩

theorem mem_iff_getLsbD_collect {is : List (Fin 64)} {i : Fin 64} :
    (collect (is.map single)).bits.getLsbD i = true ↔ i ∈ is := by
  rw [getLsbD_collect]
  exact ⟨fun ⟨j, hj, h⟩ => Fin.ext h ▸ hj, fun h => ⟨i, h, rfl⟩⟩

/-- neither order nor repetition counts -/
theorem collect_eq_collect_iff {is js : List (Fin 64)} :
    collect (is.map single) = collect (js.map single) ↔ ∀ i, i ∈ is ↔ i ∈ js := by
  constructor
  · intro h i
    rw [← mem_iff_getLsbD_collect, h, mem_iff_getLsbD_collect]
  · intro h
    have hbits : (collect (is.map single)).bits = (collect (js.map single)).bits := by
      refine BitVec.eq_of_getLsbD_eq fun k hk => ?_
      rw [Bool.eq_iff_iff]
      have hiff := h ⟨k, hk⟩
      rwa [← mem_iff_getLsbD_collect, ← mem_iff_getLsbD_collect] at hiff
    exact congrArg Capabilities.mk hbits

/-- **Capabilities survive their encoding.**  A set that is collected is the one that is joined bit
by bit, and contains just the bits of the list.  It is sent as the only shortest octets with these
bits, the empty set as a zero octet, and is read back from its text; so sets with different bits are
sent as different octets and as different texts. -/
theorem encoding_of_indices (is : List (Fin 64)) :
    let set := collect (is.map single)
    is.foldl (fun joined i => joined.union (single i)) empty = set ∧
    (∀ i, set.contains (single i) = true ↔ i ∈ is) ∧
    (∀ b : Bytes, b = set.toBytes ↔ b.ShortestWithBits is) ∧
    (set.toBytes = [0] ↔ is = []) ∧
    ofBase64? set.toBase64 = some set ∧
    ∀ js : List (Fin 64), let other := collect (js.map single)
      [set = other, set.toBytes = other.toBytes, set.toBase64 = other.toBase64,
        ∀ i, i ∈ is ↔ i ∈ js].TFAE := by
  intro set
  refine ⟨List.foldl_map.symm, ?_, fun b => toBytes_collect_iff, ?_, ofBase64?_toBase64 set, ?_⟩
  · intro i
    rw [contains_single_iff, mem_iff_getLsbD_collect]
  · have hempty : (collect (([] : List (Fin 64)).map single)).toBytes = [0] := by decide
    rw [← hempty, toBytes_inj, collect_eq_collect_iff, List.eq_nil_iff_forall_not_mem]
    simp
  · intro js other
    tfae_have 1 ↔ 2 := toBytes_inj.symm
    tfae_have 1 ↔ 3 := toBase64_inj.symm
    tfae_have 1 ↔ 4 := collect_eq_collect_iff
    tfae_finish

/-- bits on both sides of an octet's boundary, the higher one repeated -/
example : (collect ([8, 2, 8].map single)).toBytes = [1, 4] := by decide

end Capabilities
end RemoteGuard
