import RemoteGuard.Repository.Basic
import RemoteGuard.Table

/-!
# Applying a response of the backend

A `Response` lists every path that the client is to hold, carries the manifest that describes them,
and the files that the client may lack.  An empty response says that nothing changed.

`Repository.sync` parses the paths, the manifest and the files, in this order, and builds one
transaction on the current snapshot (`plan`): stored paths that are not listed are deleted; a
listed path without a verified content is inserted or updated with the first delivered content
that meets its target; the metadata come last.  A listed path without a target, or without a
content that meets it, fails the whole response.  `Repository.applyResponse` also records the
outcome for the next report.
-/

namespace RemoteGuard
open Json

/-! ## responses -/

structure Response where
  /-- the manifest as a JSON text -/
  targets : Option Bytes := none
  files : List TargetFile := []
  /-- every path the client is to hold -/
  paths : List String := []
deriving DecidableEq, Repr, Inhabited

namespace Response

def isEmpty (r : Response) : Bool :=
  (r.targets.getD []).isEmpty && r.files.isEmpty && r.paths.isEmpty

/-- Reads a field whose default is the empty list; it may be missing, but not `null`. -/
def listField? {α : Type} (read : Tree → Option α) : Option Tree → Option (List α)
  | none => some []
  | some t => Tree.list? read t

def ofTree? (t : Tree) : Option Response :=
  match Tree.fields? ["targets", "target_files", "client_configs"] t with
  | some [targets, files, paths] => do
    let targets ← omittable? TargetFile.payload? targets
    let files ← listField? TargetFile.ofTree? files
    let paths ← listField? Tree.text? paths
    return ⟨targets, files, paths⟩
  | _ => none

def read? (bs : Bytes) : Option Response := (Tree.read? bs).bind ofTree?

def ofValue? (v : Value) : Option Response := ofTree? v.tree

end Response

/-! ## the transaction -/

namespace Sync

/-- a stored path that is not listed goes -/
def deletions (current : Snapshot) (listed : List ConfigPath) : List Operation :=
  (current.paths.filter fun p => p ∉ listed).map .delete

/-- what a listed path asks for, given the delivered contents -/
def operationAt (hexDigest : HexDigest) (current : Snapshot) (manifest : Manifest)
    (delivered : List Content) (path : ConfigPath) : Except SyncError (List Operation) :=
  match manifest.target? path with
  | none => .error (.missingTarget path)
  | some target =>
    let isNew := path ∉ current.paths
    let stored := ContentList.findVerified? hexDigest path target current.contents
    if ¬isNew ∧ stored.isSome then .ok []
    else
      match ContentList.findVerified? hexDigest path target delivered with
      | none => .error (.missingContent path)
      | some c => .ok [if isNew then .insert path target c else .update path target c]

/-- what the listed paths ask for, or the first failure, given what each path asks for -/
def operationsAt (ask : ConfigPath → Except SyncError (List Operation)) :
    List ConfigPath → Except SyncError (List Operation)
  | [] => .ok []
  | p :: ps =>
    match ask p with
    | .error e => .error e
    | .ok ops =>
      match operationsAt ask ps with
      | .error e => .error e
      | .ok rest => .ok (ops ++ rest)

def metadata (manifest : Manifest) : MetadataUpdate :=
  ⟨manifest.backendState, some manifest.version⟩

/-- A path that is listed again asks for the same again, and is worked out once. -/
def plan (hexDigest : HexDigest) (manifest : Manifest) (delivered : List Content)
    (listed : List ConfigPath) (current : Snapshot) : Except SyncError (List Operation) :=
  let ask := operationAt hexDigest current manifest delivered
  let asked := Table.ofKeys ask listed
  match operationsAt (asked.valueOf ask) listed with
  | .error e => .error e
  | .ok ops => .ok (deletions current listed ++ ops ++ [.set (metadata manifest)])

/-- The plan is what the listed paths ask for, one by one. -/
theorem plan_eq (hexDigest : HexDigest) (manifest : Manifest) (delivered : List Content)
    (listed : List ConfigPath) (current : Snapshot) :
    plan hexDigest manifest delivered listed current =
      (operationsAt (operationAt hexDigest current manifest delivered) listed).map fun ops =>
        deletions current listed ++ ops ++ [.set (metadata manifest)] := by
  have h (f : ConfigPath → Except SyncError (List Operation)) :
      (Table.ofKeys f listed).valueOf f = f := funext (Table.valueOf_ofKeys f listed)
  simp only [plan, h]
  cases operationsAt (operationAt hexDigest current manifest delivered) listed <;> rfl

end Sync

/-! ## responses applied to a repository -/

namespace Repository

def sync (hexDigest : HexDigest) (r : Repository) (response : Response) :
    Except SyncError (ChangeSet × Repository) :=
  if response.isEmpty then .ok ([], r)
  else
    match parsePaths response.paths with
    | .error e => .error (.path e)
    | .ok listed =>
      match Manifest.parseBytes (response.targets.getD []) with
      | .error e => .error (.manifest e)
      | .ok manifest =>
        match r.ledger.receiveAll manifest.expires response.files with
        | .error e => .error (.path e)
        | .ok (delivered, ledger) =>
          { r with ledger := ledger }.transaction (Sync.plan hexDigest manifest delivered listed)

/-- Applies a response and records the outcome for the next report. -/
def applyResponse (hexDigest : HexDigest) (r : Repository) (response : Response) :
    Except SyncError ChangeSet × Repository :=
  match r.sync hexDigest response with
  | .ok (changes, r) => (.ok changes, r.recordError none)
  | .error e => (.error e, r.recordError (some (.sync e)))

end Repository
end RemoteGuard
