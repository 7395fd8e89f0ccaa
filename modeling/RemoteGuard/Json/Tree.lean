import RemoteGuard.Json.Literal

/-!
# JSON texts

`Tree` is a JSON text read by its grammar alone: members stand in the order of the text, repeated
keys included, nesting is unlimited, and a literal that stands for nothing (an ill-formed string,
a number out of range) is kept as `none`.  `Tree.read?` accepts exactly one value with blanks
around it.

`Tree.value?` is the value of a tree: every literal must stand for something, at most 127 arrays
and objects may be nested in each other, and of members with one key the last counts.
`Value.read?` reads a text into its value.  `Value.tree` is a tree of a value.
-/

namespace RemoteGuard.Json

inductive Tree where
  | null
  | bool (b : Bool)
  | number (n : Option Number)
  | string (s : Option String)
  | array (items : List Tree)
  | object (members : List (Option String × Tree))
deriving Repr, Inhabited

/-! ## reading -/

/-- space, tab, line feed, carriage return -/
def isSpace (b : UInt8) : Bool := b == 0x20 || b == 0x09 || b == 0x0A || b == 0x0D

def skipSpace (bs : Bytes) : Bytes := bs.dropWhile isSpace

/-- Takes the given octets off the front. -/
def expect (word : Bytes) (bs : Bytes) : Option Bytes :=
  match word, bs with
  | [], bs => some bs
  | w :: ws, b :: bs => if w = b then expect ws bs else none
  | _ :: _, [] => none

def takeKey (bs : Bytes) : Option (Option String × Bytes) := do
  let (key, bs) ← takeString (← expect [0x22] (skipSpace bs))
  let bs ← expect [0x3A] (skipSpace bs)
  return (key, bs)

mutual

/-- Reads a value, `fuel` being at least twice the number of octets. -/
def takeTree (fuel : Nat) (bs : Bytes) : Option (Tree × Bytes) :=
  match fuel with
  | 0 => none
  | fuel + 1 =>
    match skipSpace bs with
    | [] => none
    | 0x6E :: rest => (expect [0x75, 0x6C, 0x6C] rest).map fun rest => (.null, rest)
    | 0x74 :: rest => (expect [0x72, 0x75, 0x65] rest).map fun rest => (.bool true, rest)
    | 0x66 :: rest => (expect [0x61, 0x6C, 0x73, 0x65] rest).map fun rest => (.bool false, rest)
    | 0x22 :: rest => (takeString rest).map fun (s, rest) => (.string s, rest)
    | 0x5B :: rest =>
      match skipSpace rest with
      | 0x5D :: rest => some (.array [], rest)
      | rest => (takeItems fuel rest).map fun (ts, rest) => (.array ts, rest)
    | 0x7B :: rest =>
      match skipSpace rest with
      | 0x7D :: rest => some (.object [], rest)
      | rest => (takeMembers fuel rest).map fun (ms, rest) => (.object ms, rest)
    | rest => (takeNumber rest).map fun (n, rest) => (.number n, rest)

/-- Reads at least one item of an array and the closing bracket. -/
def takeItems (fuel : Nat) (bs : Bytes) : Option (List Tree × Bytes) :=
  match fuel with
  | 0 => none
  | fuel + 1 =>
    match takeTree fuel bs with
    | none => none
    | some (t, bs) =>
      match skipSpace bs with
      | 0x5D :: rest => some ([t], rest)
      | 0x2C :: rest => (takeItems fuel rest).map fun (ts, rest) => (t :: ts, rest)
      | _ => none

/-- Reads at least one member of an object and the closing brace. -/
def takeMembers (fuel : Nat) (bs : Bytes) : Option (List (Option String × Tree) × Bytes) :=
  match fuel with
  | 0 => none
  | fuel + 1 =>
    match takeKey bs with
    | none => none
    | some (key, bs) =>
      match takeTree fuel bs with
      | none => none
      | some (t, bs) =>
        match skipSpace bs with
        | 0x7D :: rest => some ([(key, t)], rest)
        | 0x2C :: rest => (takeMembers fuel rest).map fun (ms, rest) => ((key, t) :: ms, rest)
        | _ => none

end

def Tree.read? (bs : Bytes) : Option Tree :=
  match takeTree (2 * bs.length + 2) bs with
  | some (t, rest) => if skipSpace rest = [] then some t else none
  | none => none

/-! ## the value of a tree -/

/-- how many arrays and objects may be nested in each other -/
def depthLimit : Nat := 127

mutual

/-- The value of a tree with at most `depth` nested arrays and objects. -/
def Tree.valueWithin? (depth : Nat) : Tree → Option Value
  | .null => some .null
  | .bool b => some (.bool b)
  | .number n => n.map .number
  | .string s => s.map .string
  | .array ts =>
    match depth with
    | 0 => none
    | depth + 1 => (itemValues? depth ts).map .array
  | .object ms =>
    match depth with
    | 0 => none
    | depth + 1 => (memberValues? depth ms).map fun vs => .object (Dictionary.ofPairs vs)

def itemValues? (depth : Nat) : List Tree → Option (List Value)
  | [] => some []
  | t :: ts =>
    match t.valueWithin? depth, itemValues? depth ts with
    | some v, some vs => some (v :: vs)
    | _, _ => none

def memberValues? (depth : Nat) : List (Option String × Tree) → Option (List (String × Value))
  | [] => some []
  | (key, t) :: ms =>
    match key, t.valueWithin? depth, memberValues? depth ms with
    | some k, some v, some vs => some ((k, v) :: vs)
    | _, _, _ => none

end

def Tree.value? (t : Tree) : Option Value := t.valueWithin? depthLimit

def Value.read? (bs : Bytes) : Option Value := (Tree.read? bs).bind Tree.value?

/-! ## a tree of a value -/

mutual

/-- A tree of a value, its members in key order. -/
def Value.tree : Value → Tree
  | .null => .null
  | .bool b => .bool b
  | .number n => .number (some n)
  | .string s => .string (some s)
  | .array vs => .array (itemTrees vs)
  | .object ms => .object (memberTrees ms)

def itemTrees : List Value → List Tree
  | [] => []
  | v :: vs => v.tree :: itemTrees vs

def memberTrees : List (String × Value) → List (Option String × Tree)
  | [] => []
  | (k, v) :: ms => (some k, v.tree) :: memberTrees ms

end

end RemoteGuard.Json
