import RemoteGuard.Json.Tree

/-!
# Why a text is no JSON

A reader that takes one octet at a time from a source fails at the first octet that no JSON text
can have there.  `Fault` is why, and `faultMessage?` tells it with the line and the column.  What
the reader has taken is gone, the octet it failed at, too, if it looked at it: `unread` is what is
left of the source after it gave up.

The reader works without going back.  On its way out of every array and object that it had entered
it still tries to take the closing bracket.  `walkValue` follows it through a text.
-/

namespace RemoteGuard.Json

inductive Fault where
  | endInList
  | endInObject
  | endInString
  | endInValue
  | noColon
  | noListCommaOrEnd
  | noObjectCommaOrEnd
  | noIdent
  | noValue
  | badEscape
  | badNumber
  | numberOutOfRange
  | badCodePoint
  | controlCharacter
  | keyNoString
  | loneSurrogate
  | trailingComma
  | trailingCharacters
  | shortEscape
  | tooDeep
deriving DecidableEq, Repr

def Fault.text : Fault → String
  | .endInList => "EOF while parsing a list"
  | .endInObject => "EOF while parsing an object"
  | .endInString => "EOF while parsing a string"
  | .endInValue => "EOF while parsing a value"
  | .noColon => "expected `:`"
  | .noListCommaOrEnd => "expected `,` or `]`"
  | .noObjectCommaOrEnd => "expected `,` or `\x7d`"
  | .noIdent => "expected ident"
  | .noValue => "expected value"
  | .badEscape => "invalid escape"
  | .badNumber => "invalid number"
  | .numberOutOfRange => "number out of range"
  | .badCodePoint => "invalid unicode code point"
  | .controlCharacter => "control character (\\u0000-\\u001F) found while parsing a string"
  | .keyNoString => "key must be a string"
  | .loneSurrogate => "lone leading surrogate in hex escape"
  | .trailingComma => "trailing comma"
  | .trailingCharacters => "trailing characters"
  | .shortEscape => "unexpected end of hex escape"
  | .tooDeep => "recursion limit exceeded"

namespace Reader

/-- A failure: the fault, how many octets were ahead of it, and where the reader stands. -/
structure Failure where
  fault : Fault
  ahead : Nat
  rest : Bytes
  /-- the first octet of `rest` is taken already -/
  looked : Bool
deriving DecidableEq, Repr

/-- the octets ahead after a step that succeeded -/
abbrev Walk := Except Failure Bytes

/-- a failure after the octets before `rest` were taken -/
def failPast {α : Type} (f : Fault) (rest : Bytes) : Except Failure α :=
  .error ⟨f, rest.length, rest, false⟩

/-- a failure at the first octet of `rest`, which the reader looked at -/
def failAt {α : Type} (f : Fault) (rest : Bytes) : Except Failure α :=
  .error ⟨f, rest.length - 1, rest, !rest.isEmpty⟩

/-- a failure before `rest`, whose first octet the reader looked at -/
def failBefore {α : Type} (f : Fault) (rest : Bytes) : Except Failure α :=
  .error ⟨f, rest.length, rest, !rest.isEmpty⟩

/-- a failure at the first octet of `rest`, or at the end of the text if nothing is ahead -/
def failAtOr {α : Type} (atEnd f : Fault) (rest : Bytes) : Except Failure α :=
  if rest.isEmpty then failPast atEnd [] else failAt f rest

def walkWord (word bs : Bytes) : Walk :=
  match word, bs with
  | [], bs => .ok bs
  | _ :: _, [] => failPast .endInValue []
  | w :: ws, b :: bs => if w = b then walkWord ws bs else failPast .noIdent bs

/-! ## strings -/

/-- the end of a string, of which `done` are the octets in reverse: whether they are UTF-8 is judged
at the closing quote -/
def walkQuote (done rest : Bytes) : Walk :=
  if (ofUtf8? done.reverse).isSome then .ok rest
  else .error ⟨.badCodePoint, rest.length + (illFormedRest done.reverse).length, rest, false⟩

/-- Takes the octets of a character after those in `done`. -/
def pushChar (n : Nat) (done : Bytes) : Bytes :=
  (String.utf8EncodeChar (Char.ofNat n)).reverse ++ done

/-- A string after its opening quote, `done` being its octets so far in reverse.  The four digits of
a unit are taken before they are judged.  The place told of ill-formed UTF-8 is as many octets
before the end of the string as its ill-formed rest has, which an escape after the fault moves on.
-/
def walkString (done : Bytes) : Bytes → Walk
  | [] => failPast .endInString []
  | 0x22 :: rest => walkQuote done rest
  | 0x5C :: 0x75 :: a :: b :: c :: d :: rest =>
    match unit? a b c d with
    | none => failPast .badEscape rest
    | some n =>
      if isLowSurrogate n then failPast .loneSurrogate rest
      else if isHighSurrogate n then
        match rest with
        | 0x5C :: 0x75 :: a :: b :: c :: d :: rest =>
          match unit? a b c d with
          | none => failPast .badEscape rest
          | some low =>
            if isLowSurrogate low then walkString (pushChar (surrogatePair n low) done) rest
            else failPast .loneSurrogate rest
        | 0x5C :: 0x75 :: _ => failPast .endInString []
        | [0x5C] => failPast .endInString []
        | 0x5C :: _ :: rest => failPast .shortEscape rest
        | _ :: rest => failPast .shortEscape rest
        | [] => failPast .endInString []
      else walkString (pushChar n done) rest
  | 0x5C :: 0x75 :: _ => failPast .endInString []
  | 0x5C :: e :: rest =>
    match escaped? e with
    | some b => walkString (b :: done) rest
    | none => failPast .badEscape rest
  | [0x5C] => failPast .endInString []
  | b :: rest => if b < 0x20 then failPast .controlCharacter rest else walkString (b :: done) rest

/-! ## numbers -/

/-- What follows the digit that takes an exponent beyond the limit, if one does; such an exponent is
not read to its end. -/
def pastLimit? (e : Nat) (bs : Bytes) : Option Bytes :=
  match bs with
  | [] => none
  | b :: rest =>
    match digitValue? b with
    | none => none
    | some d => if exponentLimit < 10 * e + d then some rest else pastLimit? (10 * e + d) rest

/-- the end of a number literal, whose number has to be finite -/
def walkEnd (m : Numeral) (rest : Bytes) : Walk :=
  if m.number?.isSome then .ok rest else failBefore .numberOutOfRange rest

def walkExponentDigits (m : Numeral) (negative : Bool) (bs : Bytes) : Walk :=
  match bs with
  | [] => failPast .endInValue []
  | b :: rest =>
    if (digitValue? b).isNone then failPast .badNumber rest
    else
      match pastLimit? 0 bs with
      | some rest' =>
        if m.significand.word ≠ 0 ∧ ¬negative then failPast .numberOutOfRange rest'
        else .ok (takeDigits [] bs).2
      | none =>
        let (ds, rest) := takeDigits [] bs
        let e : Int := ofDigits ds
        walkEnd { m with exponent := some (if negative then -e else e) } rest

def walkExponent (m : Numeral) (bs : Bytes) : Walk :=
  match bs with
  | [] => walkEnd m []
  | b :: rest =>
    if b = 0x65 ∨ b = 0x45 then
      match rest with
      | 0x2B :: rest => walkExponentDigits m false rest
      | 0x2D :: rest => walkExponentDigits m true rest
      | rest => walkExponentDigits m false rest
    else walkEnd m bs

def walkFraction (m : Numeral) (bs : Bytes) : Walk :=
  match bs with
  | 0x2E :: rest =>
    match takeDigits [] rest with
    | ([], rest) => failAtOr .endInValue .badNumber rest
    | (ds, rest) => walkExponent { m with fraction := some ds } rest
  | bs => walkExponent m bs

def walkNumber (negative : Bool) (bs : Bytes) : Walk :=
  match bs with
  | [] => failPast .endInValue []
  | b :: rest =>
    if b = 0x30 then
      if (rest.head?.bind digitValue?).isSome then failAt .badNumber rest
      else walkFraction ⟨negative, [0], none, none⟩ rest
    else
      match digitValue? b with
      | none => failPast .badNumber rest
      | some _ =>
        let (ds, rest) := takeDigits [] bs
        walkFraction ⟨negative, ds, none, none⟩ rest

/-! ## values -/

/-- The way out of an array; a failure inside stays the failure. -/
def closeArray (w : Walk) : Walk :=
  match w with
  | .ok rest =>
    match skipSpace rest with
    | 0x5D :: rest => .ok rest
    | rest => failAtOr .endInList .trailingCharacters rest
  | .error p =>
    match skipSpace p.rest with
    | 0x5D :: rest => .error { p with rest := rest, looked := false }
    | 0x2C :: rest =>
      let rest := skipSpace rest
      .error { p with rest := rest, looked := !rest.isEmpty }
    | rest => .error { p with rest := rest, looked := !rest.isEmpty }

def closeObject (w : Walk) : Walk :=
  match w with
  | .ok rest =>
    match skipSpace rest with
    | 0x7D :: rest => .ok rest
    | rest => failAtOr .endInObject .trailingCharacters rest
  | .error p =>
    match skipSpace p.rest with
    | 0x7D :: rest => .error { p with rest := rest, looked := false }
    | rest => .error { p with rest := rest, looked := !rest.isEmpty }

def walkKey (bs : Bytes) : Walk :=
  match bs with
  | 0x22 :: rest =>
    match walkString [] rest with
    | .error p => .error p
    | .ok rest =>
      match skipSpace rest with
      | 0x3A :: rest => .ok rest
      | rest => failAtOr .endInObject .noColon rest
  | bs => failAtOr .endInValue .keyNoString bs

/-- what tells arrays and objects apart on the way through -/
structure Bracket where
  close : UInt8
  atEnd : Fault
  noComma : Fault

def square : Bracket := ⟨0x5D, .endInList, .noListCommaOrEnd⟩
def curly : Bracket := ⟨0x7D, .endInObject, .noObjectCommaOrEnd⟩

/-- The next item or member, or the closing bracket; a comma before it is taken. -/
def walkComma (k : Bracket) (first : Bool) (bs : Bytes) : Walk :=
  match skipSpace bs with
  | [] => failPast k.atEnd []
  | b :: rest =>
    if b = k.close ∨ first then .ok (b :: rest)
    else if b = 0x2C then
      let rest := skipSpace rest
      if rest.head? = some k.close then failAt .trailingComma rest else .ok rest
    else failAt k.noComma (b :: rest)

mutual

/-- A value with at most `depth` nested arrays and objects. -/
def walkValue (fuel depth : Nat) (bs : Bytes) : Walk :=
  match fuel with
  | 0 => failPast .endInValue []
  | fuel + 1 =>
    match skipSpace bs with
    | [] => failPast .endInValue []
    | 0x6E :: rest => walkWord [0x75, 0x6C, 0x6C] rest
    | 0x74 :: rest => walkWord [0x72, 0x75, 0x65] rest
    | 0x66 :: rest => walkWord [0x61, 0x6C, 0x73, 0x65] rest
    | 0x22 :: rest => walkString [] rest
    | 0x2D :: rest => walkNumber true rest
    | 0x5B :: rest =>
      match depth with
      | 0 => failAt .tooDeep (0x5B :: rest)
      | depth + 1 => closeArray (walkItems fuel depth true rest)
    | 0x7B :: rest =>
      match depth with
      | 0 => failAt .tooDeep (0x7B :: rest)
      | depth + 1 => closeObject (walkMembers fuel depth true rest)
    | b :: rest =>
      if (digitValue? b).isSome then walkNumber false (b :: rest) else failAt .noValue (b :: rest)

def walkItems (fuel depth : Nat) (first : Bool) (bs : Bytes) : Walk :=
  match fuel with
  | 0 => failPast .endInList []
  | fuel + 1 =>
    match walkComma square first bs with
    | .error p => .error p
    | .ok (0x5D :: rest) => .ok (0x5D :: rest)
    | .ok rest =>
      match walkValue fuel depth rest with
      | .error p => .error p
      | .ok rest => walkItems fuel depth false rest

def walkMembers (fuel depth : Nat) (first : Bool) (bs : Bytes) : Walk :=
  match fuel with
  | 0 => failPast .endInObject []
  | fuel + 1 =>
    match walkComma curly first bs with
    | .error p => .error p
    | .ok (0x7D :: rest) => .ok (0x7D :: rest)
    | .ok rest =>
      match walkKey rest with
      | .error p => .error p
      | .ok rest =>
        match walkValue fuel depth rest with
        | .error p => .error p
        | .ok rest => walkMembers fuel depth false rest

end

def walk (bs : Bytes) : Walk :=
  match walkValue (2 * bs.length + 2) depthLimit bs with
  | .error p => .error p
  | .ok rest =>
    match skipSpace rest with
    | [] => .ok []
    | rest => failAt .trailingCharacters rest

end Reader

/-- What is left of a source after reading one text from it. -/
def unread (bs : Bytes) : Bytes :=
  match Reader.walk bs with
  | .ok rest => rest
  | .error p => if p.looked then p.rest.tail else p.rest

/-- the line of a text that `before` leads to, counted from 1, and how far into it -/
def lineColumn (before : Bytes) : Nat × Nat :=
  (before.countP (· == 0x0A) + 1, (before.reverse.takeWhile (· != 0x0A)).length)

/-- Why and where a text is no JSON, or nothing for one that is. -/
def faultMessage? (bs : Bytes) : Option String :=
  match Reader.walk bs with
  | .ok _ => none
  | .error p =>
    let (line, column) := lineColumn (bs.take (bs.length - p.ahead))
    some (p.fault.text ++ " at line " ++ line.repr ++ " column " ++ column.repr)

end RemoteGuard.Json
