import RemoteGuard.Binary64.Shortest
import RemoteGuard.Json.Value

/-!
# Printing JSON

`Value.print` writes a value without blanks, the members of an object in key order.  In strings only
quotes, backslashes and controls below U+0020 are escaped.
-/

namespace RemoteGuard.Json

/-- the four hexadecimal digits of a control character below U+0020 -/
def controlEscape (c : Char) : List Char :=
  ['\\', 'u', '0', '0', Nat.digitChar (c.toNat / 16), Nat.digitChar (c.toNat % 16)]

def escapedChar (c : Char) : List Char :=
  if c = '"' ∨ c = '\\' then ['\\', c]
  else if c = '\n' then ['\\', 'n']
  else if c = '\r' then ['\\', 'r']
  else if c = '\t' then ['\\', 't']
  else if c = '\x08' then ['\\', 'b']
  else if c = '\x0c' then ['\\', 'f']
  else if c.toNat < 0x20 then controlEscape c
  else [c]

def literal (s : String) : String :=
  String.ofList ('"' :: s.toList.flatMap escapedChar ++ ['"'])

def Number.print : Number → String
  | .integer n => n.repr
  | .float x => String.ofList x.decimalText

mutual

def Value.print : Value → String
  | .null => "null"
  | .bool b => if b then "true" else "false"
  | .number n => n.print
  | .string s => literal s
  | .array vs => "[" ++ ",".intercalate (printItems vs) ++ "]"
  | .object ms => "\x7b" ++ ",".intercalate (printMembers ms) ++ "\x7d"

def printItems : List Value → List String
  | [] => []
  | v :: vs => v.print :: printItems vs

def printMembers : List (String × Value) → List String
  | [] => []
  | (k, v) :: ms => (literal k ++ ":" ++ v.print) :: printMembers ms

end

end RemoteGuard.Json
