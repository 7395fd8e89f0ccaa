import RemoteGuard.Json.Printing
import RemoteGuard.Ruleset.Builtin

/-!
# Merging rulesets

`merge` makes one ruleset document of its sources: documents of rules, lists of data, overrides,
exclusions and custom rules, and processors and scanners, which default to the built-in ones and
overwrite what a document of rules says under their keys.

* `combineRules` takes a single document as it is; of several it concatenates the rules, and their
  versions, where they declare one, must agree.
* `combineData` goes through the entries of all sources in order.  The first entry of a key, that
  is an id and a type, stays as it is; the items of a later one are merged into it: each value
  once, with the latest of its expirations, where having none is later than any (`latest`).  An
  entry that cannot hold items refuses the merge (`DataClash`).
* `concatenate` joins lists, and is absent when no list is given.
-/

namespace RemoteGuard
open Json

inductive MergeError where
  | versionMismatch (expected found : String)
  | invalidRules
deriving DecidableEq, Repr, Inhabited

def MergeError.message : MergeError → String
  | .versionMismatch expected found =>
    "appsec: rules version mismatch, expected '" ++ expected ++ "' but found '" ++ found ++ "'"
  | .invalidRules => "appsec: rules document is not a JSON object"

namespace Merge

/-! ## rules -/

/-- a version as it appears in a message: a string bare, any other value as JSON -/
def versionText : Value → String
  | .string s => s
  | v => v.print

/-- the version an object declares; `null` declares none -/
def declaredVersion (document : Object) : Option Value :=
  match document.find? "version" with
  | some .null => none
  | v => v

def rulesOf (document : Object) : List Value := ((document.find? "rules").bind Value.items?).getD []

/-- the version and the rules collected so far -/
structure CombinedRules where
  version : Option Value := none
  rules : List Value := []

def CombinedRules.add (c : CombinedRules) (document : Value) : Except MergeError CombinedRules :=
  match document.members? with
  | none => .error .invalidRules
  | some ms =>
    match c.version, declaredVersion ms with
    | expected, none => .ok ⟨expected, c.rules ++ rulesOf ms⟩
    | none, some found => .ok ⟨some found, c.rules ++ rulesOf ms⟩
    | some expected, some found =>
      if expected.same found then .ok ⟨some expected, c.rules ++ rulesOf ms⟩
      else .error (.versionMismatch (versionText expected) (versionText found))

def CombinedRules.addAll (c : CombinedRules) : List Value → Except MergeError CombinedRules
  | [] => .ok c
  | d :: ds =>
    match c.add d with
    | .error e => .error e
    | .ok c => c.addAll ds

def CombinedRules.object (c : CombinedRules) : Object :=
  ("rules", .array c.rules) :: (c.version.toList.map fun v => ("version", v))

def combineRules (documents : List Value) : Except MergeError Object :=
  match documents with
  | [single] =>
    match single.members? with
    | some ms => .ok ms
    | none => .error .invalidRules
  | documents =>
    match CombinedRules.addAll {} documents with
    | .ok c => .ok c.object
    | .error e => .error e

/-! ## data -/

/-- the later of two expirations; having none is later than any -/
def latest : Option Nat → Option Nat → Option Nat
  | some a, some b => some (max a b)
  | _, _ => none

/-- an item of a data list: a value and when it expires -/
structure DataItem where
  value : Value
  expiration : Option Nat
deriving Repr, Inhabited

/-- An item without a value lists `null`; an expiration that is no word counts as none. -/
def DataItem.ofValue (v : Value) : DataItem :=
  ⟨v.memberOrNull "value", (v.member? "expiration").bind Value.word64?⟩

def DataItem.toValue (i : DataItem) : Value :=
  match i.expiration with
  | some e => .object [("expiration", .nat e), ("value", i.value)]
  | none => .object [("value", i.value)]

/-- Adds an item to items with distinct values. -/
def addItem (item : DataItem) : List DataItem → List DataItem
  | [] => [item]
  | kept :: rest =>
    if kept.value.same item.value then ⟨kept.value, latest kept.expiration item.expiration⟩ :: rest
    else kept :: addItem item rest

/-- the items of two data lists, each value once; what is no array lists nothing -/
def mergeItems (current incoming : Value) : List Value :=
  let items := (current.itemsOrNone ++ incoming.itemsOrNone).map DataItem.ofValue
  (items.foldl (fun kept item => addItem item kept) []).map DataItem.toValue

/-- what a data entry is merged by; an id or type that is no string counts as empty -/
structure DataKey where
  id : String
  type : String
deriving DecidableEq, Repr, Inhabited

def DataKey.ofEntry (entry : Value) : DataKey :=
  ⟨((entry.memberOrNull "id").text?).getD "", ((entry.memberOrNull "type").text?).getD ""⟩

/-- two entries of one key cannot be merged, as the first can hold no items -/
inductive DataClash where
  | noRoomForItems
deriving DecidableEq, Repr, Inhabited

/-- Puts items into an entry; `null` becomes an object. -/
def setItems (entry : Value) (items : List Value) : Except DataClash Value :=
  match entry with
  | .object ms => .ok (.object (Dictionary.insert "data" (.array items) ms))
  | .null => .ok (.object [("data", .array items)])
  | _ => .error .noRoomForItems

/-- Merges an entry into the first one of its key, or adds it at the end. -/
def addEntry (entry : Value) : List (DataKey × Value) → Except DataClash (List (DataKey × Value))
  | [] => .ok [(DataKey.ofEntry entry, entry)]
  | (key, first) :: rest =>
    if key = DataKey.ofEntry entry then
      match setItems first (mergeItems (first.memberOrNull "data") (entry.memberOrNull "data")) with
      | .ok merged => .ok ((key, merged) :: rest)
      | .error e => .error e
    else
      match addEntry entry rest with
      | .ok rest => .ok ((key, first) :: rest)
      | .error e => .error e

def addEntries (entries : List Value) (merged : List (DataKey × Value)) :
    Except DataClash (List (DataKey × Value)) :=
  match entries with
  | [] => .ok merged
  | e :: es =>
    match addEntry e merged with
    | .ok merged => addEntries es merged
    | .error e => .error e

def combineData (sources : List (List Value)) : Except DataClash (Option (List Value)) :=
  match addEntries sources.flatten [] with
  | .ok [] => .ok none
  | .ok merged => .ok (some (merged.map Prod.snd))
  | .error e => .error e

/-! ## everything -/

/-- the lists joined; none when there is no list -/
def concatenate (sources : List (List Value)) : Option (List Value) :=
  if sources.isEmpty then none else some sources.flatten

structure Sources where
  rules : List Value := []
  data : List (List Value) := []
  overrides : List (List Value) := []
  exclusions : List (List Value) := []
  customRules : List (List Value) := []
  /-- in place of the built-in ones -/
  processors : Option Value := none
  /-- in place of the built-in ones -/
  scanners : Option Value := none
deriving Inhabited

def insertList (key : String) (list : Option (List Value)) (o : Object) : Object :=
  match list with
  | some vs => o.insert key (.array vs)
  | none => o

/-- why there is no merged ruleset -/
inductive Failure where
  /-- the rules do not fit together -/
  | rules (e : MergeError)
  /-- the data do not, which no caller expects -/
  | data (e : DataClash)
deriving DecidableEq, Repr, Inhabited

def merge (s : Sources) : Except Failure Value :=
  match combineRules s.rules with
  | .error e => .error (.rules e)
  | .ok rules =>
    match combineData s.data with
    | .error e => .error (.data e)
    | .ok data =>
      let o := insertList "rules_data" data rules
      let o := insertList "rules_override" (concatenate s.overrides) o
      let o := insertList "exclusions" (concatenate s.exclusions) o
      let o := insertList "custom_rules" (concatenate s.customRules) o
      let o := o.insert "processors" (s.processors.getD (.array Builtin.processors))
      let o := o.insert "scanners" (s.scanners.getD (.array Builtin.scanners))
      .ok (.object o)

end Merge
end RemoteGuard
