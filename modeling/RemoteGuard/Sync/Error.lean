import RemoteGuard.Manifest

/-!
# Why a response is rejected

A response of the backend is rejected for a path or a manifest that cannot be read, for a path that
the manifest does not describe, and for a file that is missing or is not what the manifest describes.
A `RecordedError` is what a repository keeps to report: the reason of a rejection, or a text.
-/

namespace RemoteGuard
open Json

inductive SyncError where
  | path (e : PathError)
  | manifest (e : ManifestError Bytes)
  | missingTarget (path : ConfigPath)
  | missingContent (path : ConfigPath)
deriving DecidableEq

def SyncError.message (accounts : Accounts Bytes) : SyncError → String
  | .path e => e.message
  | .manifest e => e.message accounts
  | .missingTarget p => "no target for path '" ++ p.text ++ "'"
  | .missingContent p => "no valid content for target at path '" ++ p.text ++ "'"

inductive RecordedError where
  | text (message : String)
  | sync (e : SyncError)
deriving DecidableEq

def RecordedError.message (accounts : Accounts Bytes) : RecordedError → String
  | .text message => message
  | .sync e => e.message accounts

end RemoteGuard
