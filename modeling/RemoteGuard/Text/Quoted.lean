import RemoteGuard.Text.Hidden

/-!
# Quoted texts

`quote` shows a text between double quotes so that every character of it can be told: quotes and
backslashes are escaped, the usual controls have their short escapes, and any other character that
would not be seen is written as its code point in hexadecimal.  Apostrophes stay as they are.
-/

namespace RemoteGuard.Text

/-- `\u` and the code point in braces, lowercase and without leading zeros -/
def codePointEscape (c : Char) : List Char :=
  ['\\', 'u', '\x7b'] ++ Nat.toDigits 16 c.toNat ++ ['\x7d']

def quotedChar (c : Char) : List Char :=
  if c = '"' ∨ c = '\\' then ['\\', c]
  else if c = '\n' then ['\\', 'n']
  else if c = '\r' then ['\\', 'r']
  else if c = '\t' then ['\\', 't']
  else if c = '\x00' then ['\\', '0']
  else if isHidden c then codePointEscape c
  else [c]

def quote (s : String) : String :=
  String.ofList ('"' :: s.toList.flatMap quotedChar ++ ['"'])

example : quote "a\"b'\n\u200b" = "\"a\\\"b'\\n\\u\x7b200b\x7d\"" := by decide +kernel

end RemoteGuard.Text
