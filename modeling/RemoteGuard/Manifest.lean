import RemoteGuard.Digest.Basic
import RemoteGuard.Json.Typed
import RemoteGuard.Path
import RemoteGuard.Timestamp

/-!
# Targets manifests

A manifest gives, for every path a client may hold, the `Target` that the document there must meet:
its length, its digests and its version.  It has a version of its own, may have an expiry, and may
carry a state for the backend that the client hands back unread.

A manifest is read in two steps.  `ManifestShape.ofTree?` reads the typed shape; what fails there is
`malformed`.  `Manifest.ofShape` then interprets texts: for each target in key order the path and
after it the names of its digests, and the expiry last.  The first failure is the answer.

The readers of JSON and of timestamps are libraries of their own, and so are their `Accounts` of what
they refuse.  An error carries what was refused, and its message quotes the account of it.
-/

namespace RemoteGuard
open Json

/-! ## typed shapes -/

structure TargetShape where
  length : Nat
  hashes : Dictionary String
  version : Nat
deriving Repr, Inhabited

structure ManifestShape where
  version : Nat
  targets : Dictionary TargetShape
  backendState : Option String
  expires : Option String
deriving Repr, Inhabited

/-- Reads a required field. -/
def required? {α : Type} (read : Tree → Option α) (field : Option Tree) : Option α :=
  field.bind read

/-- Reads a field that may be missing or `null`. -/
def omittable? {α : Type} (read : Tree → Option α) (field : Option Tree) : Option (Option α) :=
  match field with
  | none => some none
  | some t => Tree.optional? read t

namespace TargetShape

def customVersion? (t : Tree) : Option Nat :=
  match Tree.fields? ["v"] t with
  | some [v] => required? Tree.word64? v
  | _ => none

def ofTree? (t : Tree) : Option TargetShape :=
  match Tree.fields? ["length", "hashes", "custom"] t with
  | some [length, hashes, custom] => do
    let length ← required? Tree.word64? length
    let hashes ← required? (Tree.dictionary? Tree.text?) hashes
    let version ← required? customVersion? custom
    return ⟨length, hashes, version⟩
  | _ => none

end TargetShape

namespace ManifestShape

def backendState? (t : Tree) : Option (Option String) :=
  match Tree.fields? ["opaque_backend_state"] t with
  | some [state] => omittable? Tree.text? state
  | _ => none

def signed? (t : Tree) : Option ManifestShape :=
  match Tree.fields? ["version", "targets", "custom", "expires"] t with
  | some [version, targets, custom, expires] => do
    let version ← required? Tree.word64? version
    let targets ← required? (Tree.dictionary? TargetShape.ofTree?) targets
    let state ← omittable? backendState? custom
    let expires ← omittable? Tree.text? expires
    return ⟨version, targets, state.join, expires⟩
  | _ => none

def ofTree? (t : Tree) : Option ManifestShape :=
  match Tree.fields? ["signed"] t with
  | some [signed] => required? signed? signed
  | _ => none

end ManifestShape

/-! ## targets -/

/-- what the document at a path must meet -/
structure Target where
  length : Nat
  digests : DigestList
  version : Nat
deriving DecidableEq, Repr, Inhabited

/-- why what was to be read, a text or a value, is no manifest -/
inductive ManifestError (σ : Type) where
  /-- It has not the shape of one. -/
  | malformed (source : σ)
  | path (e : PathError)
  | digest (e : DigestError)
  /-- The expiry is no timestamp. -/
  | expires (text : String)
deriving DecidableEq, Repr, Inhabited

/-- what the readers tell of what they refuse -/
structure Accounts (σ : Type) where
  json : σ → String
  timestamp : String → String

def ManifestError.message {σ : Type} (accounts : Accounts σ) : ManifestError σ → String
  | .malformed source => "malformed targets metadata: " ++ accounts.json source
  | .path e => e.message
  | .digest e => e.message
  | .expires text => "invalid expiration timestamp: " ++ accounts.timestamp text

namespace Target
variable {σ : Type}

/-- The advertised length is not part of the check. -/
def check (hexDigest : HexDigest) (t : Target) (data : Bytes) : Bool :=
  DigestList.check hexDigest t.digests data

def lengthMatches (t : Target) (data : Bytes) : Bool := data.length == t.length

def ofShape (s : TargetShape) : Except (ManifestError σ) Target :=
  match DigestList.ofPairs s.hashes with
  | .ok digests => .ok ⟨s.length, digests, s.version⟩
  | .error e => .error (.digest e)

def parse (v : Value) : Except (ManifestError Value) Target :=
  match TargetShape.ofTree? v.tree with
  | some s => ofShape s
  | none => .error (.malformed v)

end Target

/-! ## manifests -/

structure Manifest where
  version : Nat
  /-- in the order of the paths -/
  targets : List (ConfigPath × Target)
  backendState : Option String
  expires : Option Timestamp

namespace Manifest
variable {σ : Type}

def targetsOf :
    List (String × TargetShape) → Except (ManifestError σ) (List (ConfigPath × Target))
  | [] => .ok []
  | (key, shape) :: rest =>
    match ConfigPath.parse key with
    | .error e => .error (.path e)
    | .ok path =>
      match Target.ofShape shape with
      | .error e => .error e
      | .ok target =>
        match targetsOf rest with
        | .error e => .error e
        | .ok ts => .ok ((path, target) :: ts)

def expiryOf : Option String → Except (ManifestError σ) (Option Timestamp)
  | none => .ok none
  | some s =>
    match Timestamp.read? s with
    | some t => .ok (some t)
    | none => .error (.expires s)

def ofShape (s : ManifestShape) : Except (ManifestError σ) Manifest :=
  match targetsOf s.targets with
  | .error e => .error e
  | .ok targets =>
    match expiryOf s.expires with
    | .error e => .error e
    | .ok expires => .ok ⟨s.version, targets, s.backendState, expires⟩

/-- Interprets the shape that the source has, if it has one. -/
def ofShape? (source : σ) : Option ManifestShape → Except (ManifestError σ) Manifest
  | some s => ofShape s
  | none => .error (.malformed source)

/-- Reads a manifest from a value that is already there. -/
def parse (v : Value) : Except (ManifestError Value) Manifest :=
  ofShape? v (ManifestShape.ofTree? v.tree)

/-- Reads a manifest from a text. -/
def parseBytes (bs : Bytes) : Except (ManifestError Bytes) Manifest :=
  ofShape? bs ((Tree.read? bs).bind ManifestShape.ofTree?)

/-- the target of a path -/
def target? (m : Manifest) (p : ConfigPath) : Option Target := m.targets.lookup p

end Manifest
end RemoteGuard
