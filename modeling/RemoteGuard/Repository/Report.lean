import RemoteGuard.Repository.Basic

/-!
# The state a client reports

`Repository.report` is what a client tells the backend with each poll: the metadata versions, for
each stored content its version and what became of it, and the last error.  `cachedFiles` tells
which files it holds already, by path, length and digest.
-/

namespace RemoteGuard
open Json

structure ConfigReport where
  id : String
  version : Nat
  product : String
  state : ApplyState
deriving DecidableEq, Repr, Inhabited

/-- a file the client holds, with its SHA-256 digest -/
structure CachedFile where
  path : String
  length : Nat
  digest : Digest
deriving DecidableEq, Repr, Inhabited

structure ClientReport where
  rootVersion : Nat
  targetsVersion : Nat
  backendState : Option String
  configs : List ConfigReport
  lastError : Option RecordedError
  cachedFiles : List CachedFile
deriving DecidableEq, Inhabited

namespace ClientReport

def hasError (r : ClientReport) : Bool := r.lastError.isSome

/-- the text of the last error, empty if there is none -/
def error (accounts : Accounts Bytes) (r : ClientReport) : String :=
  (r.lastError.map (RecordedError.message accounts)).getD ""

end ClientReport

def Ledger.report (l : Ledger) (c : Content) : ConfigReport :=
  ⟨c.path.configId, l.version c, c.path.product, l.state c⟩

def Content.cachedFile (hexDigest : HexDigest) (c : Content) : CachedFile :=
  ⟨c.path.text, c.data.length, ⟨.sha256, hexDigest .sha256 c.data⟩⟩

def Repository.report (hexDigest : HexDigest) (r : Repository) : ClientReport where
  rootVersion := r.current.rootVersion
  targetsVersion := r.current.targetsVersion
  backendState := r.current.backendState
  configs := r.current.contents.map r.ledger.report
  lastError := r.lastError
  cachedFiles := r.current.contents.map (Content.cachedFile hexDigest)

/-! ## wire form -/

def ConfigReport.value (c : ConfigReport) : Value :=
  .object (Dictionary.ofPairs ([("id", .string c.id), ("version", .nat c.version),
    ("product", .string c.product), ("apply_state", .nat c.state.code)]
    ++ (c.state.message?.toList.map fun m => ("apply_error", .string m))))

def CachedFile.value (f : CachedFile) : Value :=
  .object [
    ("hashes", .array [.object [("algorithm", .string f.digest.algorithm.name),
      ("hash", .string f.digest.hex)]]),
    ("length", .nat f.length),
    ("path", .string f.path)]

/-- The cached files are reported apart from the state. -/
def ClientReport.value (accounts : Accounts Bytes) (r : ClientReport) : Value :=
  .object [
    ("backend_client_state", (r.backendState.map Value.string).getD .null),
    ("config_states", .array (r.configs.map ConfigReport.value)),
    ("error", .string (r.error accounts)),
    ("has_error", .bool r.hasError),
    ("root_version", .nat r.rootVersion),
    ("targets_version", .nat r.targetsVersion)]

end RemoteGuard
