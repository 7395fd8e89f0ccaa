import Mathlib.Data.Nat.Digits.Defs
import RemoteGuard.Bytes

/-!
# Digits and octets as numbers

`bigEndian base ds` is the number with the digits `ds` in a base, the most significant first, and
`Bytes.number` that of octets.  Digits written one after another weigh as they stand
(`bigEndian_append`), and a number has only one row of digits of a given length (`bigEndian_inj`).
-/

namespace RemoteGuard

def bigEndian (base : Nat) (ds : List Nat) : Nat := Nat.ofDigits base ds.reverse

section
variable {base : Nat}

@[simp] theorem bigEndian_nil : bigEndian base [] = 0 := rfl

theorem bigEndian_append (xs ys : List Nat) :
    bigEndian base (xs ++ ys) = bigEndian base xs * base ^ ys.length + bigEndian base ys := by
  rw [bigEndian, List.reverse_append, Nat.ofDigits_append, List.length_reverse, bigEndian,
    bigEndian, Nat.mul_comm, Nat.add_comm]

@[simp] theorem bigEndian_single (d : Nat) : bigEndian base [d] = d := Nat.ofDigits_singleton

theorem bigEndian_cons (d : Nat) (ds : List Nat) :
    bigEndian base (d :: ds) = d * base ^ ds.length + bigEndian base ds := by
  rw [← List.singleton_append, bigEndian_append, bigEndian_single]

theorem bigEndian_lt (hbase : 1 < base) {ds : List Nat} (h : ∀ d ∈ ds, d < base) :
    bigEndian base ds < base ^ ds.length := by
  rw [bigEndian, ← List.length_reverse]
  exact Nat.ofDigits_lt_base_pow_length hbase fun d hd => h d (List.mem_reverse.mp hd)

theorem bigEndian_inj (hbase : 1 < base) {xs ys : List Nat} (hlength : xs.length = ys.length)
    (hx : ∀ d ∈ xs, d < base) (hy : ∀ d ∈ ys, d < base)
    (h : bigEndian base xs = bigEndian base ys) : xs = ys := by
  apply List.reverse_inj.mp
  refine Nat.ofDigits_inj_of_len_eq hbase ?_ (fun d hd => hx d (List.mem_reverse.mp hd))
    (fun d hd => hy d (List.mem_reverse.mp hd)) h
  rw [List.length_reverse, List.length_reverse, hlength]

end

/-! ## octets -/

namespace Bytes

/-- the number of which `b` are the octets, the most significant first -/
def number (b : Bytes) : Nat := bigEndian 256 (b.map UInt8.toNat)

@[simp] theorem number_nil : number [] = 0 := rfl

@[simp] theorem number_single (x : UInt8) : number [x] = x.toNat := bigEndian_single _

theorem number_append (b c : Bytes) : number (b ++ c) = number b * 256 ^ c.length + number c := by
  rw [number, List.map_append, bigEndian_append, List.length_map, number, number]

theorem number_cons (x : UInt8) (b : Bytes) :
    number (x :: b) = x.toNat * 256 ^ b.length + number b := by
  rw [number, List.map_cons, bigEndian_cons, List.length_map, number]

theorem toNat_lt_of_mem_map {b : Bytes} : ∀ d ∈ b.map UInt8.toNat, d < 256 := by
  intro d hd
  obtain ⟨x, -, rfl⟩ := List.mem_map.mp hd
  exact x.toNat_lt

theorem number_lt (b : Bytes) : number b < 256 ^ b.length := by
  have hlength : (b.map UInt8.toNat).length = b.length := List.length_map _
  rw [number, ← hlength]
  exact bigEndian_lt (by decide) toNat_lt_of_mem_map

theorem eq_of_number {b c : Bytes} (hlength : b.length = c.length) (h : number b = number c) :
    b = c := by
  have hdigits : b.map UInt8.toNat = c.map UInt8.toNat :=
    bigEndian_inj (by decide) (by simpa using hlength) toNat_lt_of_mem_map toNat_lt_of_mem_map h
  exact List.map_inj_right (fun x y => UInt8.toNat_inj.mp) |>.mp hdigits

end Bytes
end RemoteGuard
