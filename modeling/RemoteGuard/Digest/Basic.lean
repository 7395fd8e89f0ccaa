import RemoteGuard.Digest.Sha2
import RemoteGuard.Table

/-!
# Digests

A `Digest` is the hexadecimal digest that some bytes are expected to have under one algorithm.
Bytes satisfy a list of digests when they have every one of them, so an empty list asks for
nothing.

The function that computes digests is a parameter (`HexDigest`); `hexDigest` is the one in use.
-/

namespace RemoteGuard

inductive Algorithm where
  | sha256
  | sha512
deriving DecidableEq, Repr, Inhabited

namespace Algorithm

def name : Algorithm → String
  | .sha256 => "sha256"
  | .sha512 => "sha512"

def ofName? (s : String) : Option Algorithm :=
  if s = "sha256" then some .sha256 else if s = "sha512" then some .sha512 else none

theorem ofName?_name (a : Algorithm) : ofName? a.name = some a := by cases a <;> decide

end Algorithm

/-- a name that is no algorithm -/
structure DigestError where
  name : String
deriving DecidableEq, Repr, Inhabited

def DigestError.message (e : DigestError) : String := "invalid hash type '" ++ e.name ++ "'"

def Algorithm.parse (s : String) : Except DigestError Algorithm :=
  match ofName? s with
  | some a => .ok a
  | none => .error ⟨s⟩

/-- a function that computes lowercase hexadecimal digests -/
abbrev HexDigest := Algorithm → Bytes → String

def hexDigest : HexDigest
  | .sha256, data => (Sha2.sha256 data).hex
  | .sha512, data => (Sha2.sha512 data).hex

structure Digest where
  algorithm : Algorithm
  hex : String
deriving DecidableEq, Repr, Inhabited

abbrev DigestList := List Digest

namespace DigestList

/-- which digests of the list `data` has, one by one; an algorithm runs at most once -/
def met (hexDigest : HexDigest) (ds : DigestList) (data : Bytes) : List Bool :=
  let actual := Table.ofKeys (fun a => hexDigest a data) (ds.map Digest.algorithm)
  ds.map fun d => actual.valueOf (fun a => hexDigest a data) d.algorithm == d.hex

/-- `data` has every digest of the list. -/
def check (hexDigest : HexDigest) (ds : DigestList) (data : Bytes) : Bool :=
  (ds.met hexDigest data).all id

/-- Parses pairs of an algorithm's name and a digest, or gives the first unknown name. -/
def ofPairs : List (String × String) → Except DigestError DigestList
  | [] => .ok []
  | (name, hex) :: rest =>
    match Algorithm.parse name with
    | .error e => .error e
    | .ok a =>
      match ofPairs rest with
      | .error e => .error e
      | .ok ds => .ok (⟨a, hex⟩ :: ds)

theorem met_eq (hexDigest : HexDigest) (ds : DigestList) (data : Bytes) :
    met hexDigest ds data = ds.map fun d => hexDigest d.algorithm data == d.hex := by
  simp only [met, Table.valueOf_ofKeys]

theorem check_iff {hexDigest : HexDigest} {ds : DigestList} {data : Bytes} :
    check hexDigest ds data = true ↔ ∀ d ∈ ds, hexDigest d.algorithm data = d.hex := by
  simp [check, met_eq]

end DigestList
end RemoteGuard
