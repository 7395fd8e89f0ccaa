import RemoteGuard.Binary64.Basic
import RemoteGuard.Dictionary
import RemoteGuard.Word

/-!
# JSON values

A number is an integer or a binary floating point number, and the two are never equal: `1` and `1.0`
are different values.  An object is a `Dictionary`, so the order in which its members were written
is not part of it.

`Value.same` is equality of values; it differs from `=` only in taking `0.0` and `-0.0` for the same
number: it is equality of the values with one zero for both (`same_iff`).
-/

namespace RemoteGuard.Json

inductive Number where
  | integer (n : Int)
  | float (x : Binary64)
deriving DecidableEq, Repr, Inhabited

def Number.same : Number → Number → Bool
  | .integer a, .integer b => a == b
  | .float a, .float b => a.same b
  | _, _ => false

inductive Value where
  | null
  | bool (b : Bool)
  | number (n : Number)
  | string (s : String)
  | array (items : List Value)
  | object (members : List (String × Value))
deriving Repr, Inhabited

abbrev Object := Dictionary Value

namespace Value

def nat (n : Nat) : Value := .number (.integer n)

def strings (xs : List String) : Value := .array (xs.map .string)

/-! ## equality -/

mutual

/-- Equality of values: members are compared in key order, the two float zeros are the same. -/
def same : Value → Value → Bool
  | .null, .null => true
  | .bool a, .bool b => a == b
  | .number a, .number b => a.same b
  | .string a, .string b => a == b
  | .array as, .array bs => sameItems as bs
  | .object as, .object bs => sameMembers as bs
  | _, _ => false

def sameItems : List Value → List Value → Bool
  | [], [] => true
  | a :: as, b :: bs => a.same b && sameItems as bs
  | _, _ => false

def sameMembers : List (String × Value) → List (String × Value) → Bool
  | [], [] => true
  | (k, a) :: as, (l, b) :: bs => k == l && a.same b && sameMembers as bs
  | _, _ => false

end

/-! ## parts of a value -/

def text? : Value → Option String
  | .string s => some s
  | _ => none

def bool? : Value → Option Bool
  | .bool b => some b
  | _ => none

def items? : Value → Option (List Value)
  | .array xs => some xs
  | _ => none

def members? : Value → Option Object
  | .object ms => some ms
  | _ => none

def word64? : Value → Option Nat
  | .number (.integer n) => intWord64? n
  | _ => none

/-- the member of an object under `key`; other values have none -/
def member? (key : String) (v : Value) : Option Value := v.members?.bind (Dictionary.find? key)

/-- the member under `key`, `null` when there is none -/
def memberOrNull (key : String) (v : Value) : Value := (v.member? key).getD .null

/-- the items of an array; other values have none -/
def itemsOrNone (v : Value) : List Value := v.items?.getD []

end Value

/-! ## laws of equality -/

def Number.canonical : Number → Number
  | .integer n => .integer n
  | .float x => .float x.canonical

theorem Number.same_iff {m n : Number} : m.same n = true ↔ m.canonical = n.canonical := by
  cases m <;> cases n <;> simp [Number.same, Number.canonical, Binary64.same_iff]

namespace Value

mutual

/-- the value, with one zero for both -/
def canonical : Value → Value
  | .number n => .number n.canonical
  | .array vs => .array (canonicalItems vs)
  | .object ms => .object (canonicalMembers ms)
  | v => v

def canonicalItems : List Value → List Value
  | [] => []
  | v :: vs => v.canonical :: canonicalItems vs

def canonicalMembers : List (String × Value) → List (String × Value)
  | [] => []
  | (k, v) :: ms => (k, v.canonical) :: canonicalMembers ms

end

mutual

theorem same_iff : (v w : Value) → (v.same w = true ↔ v.canonical = w.canonical)
  | .null, w => by cases w <;> simp [same, canonical]
  | .bool b, w => by cases w <;> simp [same, canonical]
  | .number n, w => by cases w <;> simp [same, canonical, Number.same_iff]
  | .string s, w => by cases w <;> simp [same, canonical]
  | .array vs, w => by cases w <;> simp [same, canonical, sameItems_iff vs]
  | .object ms, w => by cases w <;> simp [same, canonical, sameMembers_iff ms]

theorem sameItems_iff : (vs ws : List Value) →
    (sameItems vs ws = true ↔ canonicalItems vs = canonicalItems ws)
  | [], ws => by cases ws <;> simp [sameItems, canonicalItems]
  | v :: vs, ws => by cases ws <;> simp [sameItems, canonicalItems, same_iff v, sameItems_iff vs]

theorem sameMembers_iff : (ms ns : List (String × Value)) →
    (sameMembers ms ns = true ↔ canonicalMembers ms = canonicalMembers ns)
  | [], ns => by cases ns <;> simp [sameMembers, canonicalMembers]
  | (k, v) :: ms, ns => by
    cases ns <;> simp [sameMembers, canonicalMembers, same_iff v, sameMembers_iff ms, and_assoc]

end

theorem same_refl (v : Value) : v.same v = true := (same_iff v v).mpr rfl

/-- equal values are equal to the same values -/
theorem same_congr {v w : Value} (h : v.same w = true) (x : Value) : v.same x = w.same x := by
  rw [Bool.eq_iff_iff, same_iff, same_iff, (same_iff v w).mp h]

end Value
end RemoteGuard.Json
