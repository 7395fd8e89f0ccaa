import RemoteGuard.Json.Printing
import RemoteGuard.Json.Typed
import RemoteGuard.Text.Base64

/-!
# Target files

A target file is delivered as a JSON record of a path and the document in Base64.  The path is any
text here.
-/

namespace RemoteGuard
open Json

structure TargetFile where
  path : String
  raw : Bytes
deriving DecidableEq, Repr, Inhabited

namespace TargetFile

def payload? (t : Tree) : Option Bytes := (Tree.text? t).bind Base64.decode?

def ofTree? (t : Tree) : Option TargetFile :=
  match Tree.fields? ["path", "raw"] t with
  | some [some path, some raw] => do
    let path ← Tree.text? path
    let raw ← payload? raw
    return ⟨path, raw⟩
  | _ => none

def read? (bs : Bytes) : Option TargetFile := (Tree.read? bs).bind ofTree?

def value (f : TargetFile) : Value :=
  .object [("path", .string f.path), ("raw", .string (Base64.encode f.raw))]

def print (f : TargetFile) : String := f.value.print

end TargetFile
end RemoteGuard
