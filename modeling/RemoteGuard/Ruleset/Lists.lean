import RemoteGuard.Json.Value

/-!
# Documents made of user lists

`denylistData` makes data entries of denied addresses and users, which never expire in practice.
`passlistExclusions` makes exclusions of the addresses that bypass the rules; an exclusion of
monitored addresses only flags what it matches.  Their ids come from outside.
-/

namespace RemoteGuard
open Json

/-- the expiration of denied items, two to the power 63 -/
def denylistExpiration : Nat := 0x8000000000000000

def denyItem (value : String) : Value :=
  .object [("expiration", .nat denylistExpiration), ("value", .string value)]

/-- a data entry, unless there is nothing to list -/
def denyEntry (id : String) (values : List String) : List Value :=
  if values.isEmpty then []
  else [.object [
    ("data", .array (values.map denyItem)),
    ("id", .string id),
    ("type", .string "data_with_expiration")]]

def denylistData (addresses users : List String) : List Value :=
  denyEntry "blocked_ips" addresses ++ denyEntry "blocked_users" users

/-- addresses that bypass the rules -/
inductive Passlist where
  | all (pass : List String)
  /-- monitored addresses are only flagged -/
  | split (pass monitor : List String)
deriving DecidableEq, Repr, Inhabited

namespace Passlist

def pass : Passlist → List String
  | .all pass => pass
  | .split pass _ => pass

def monitor : Passlist → List String
  | .all _ => []
  | .split _ monitor => monitor

end Passlist

/-- an exclusion of addresses, its members in key order around `extra` -/
def addressExclusion (id : String) (addresses : List String) (extra : Object) : Value :=
  .object ([
    ("conditions", .array [.object [
      ("operator", .string "ip_match"),
      ("parameters", .object [
        ("inputs", .array [.object [("address", .string "http.client_ip")]]),
        ("list", .strings addresses)])]]),
    ("id", .string id)] ++ extra)

/-- The exclusions of a passlist, the first with the id `freshId 0`, the second with the next. -/
def passlistExclusions (freshId : Nat → String) (list : Passlist) : List Value :=
  let passed :=
    if list.pass.isEmpty then [] else [addressExclusion (freshId 0) list.pass []]
  let monitored :=
    if list.monitor.isEmpty then []
    else [addressExclusion (freshId passed.length) list.monitor [("on_match", .string "monitor")]]
  passed ++ monitored

end RemoteGuard
