import RemoteGuard.Json.Tree

/-!
# Typed reading

A typed shape is read from a `Tree`, so that a text and a value that is already there are read by
the same rules.  `Tree.fields?` reads a record: from an object, whose unknown members are passed
over whatever they hold but whose known ones may not be repeated; or from an array of the fields
in order, which may be short at the end but not long.  What a missing field means is up to the
shape.
-/

namespace RemoteGuard.Json.Tree
variable {α : Type}

def text? : Tree → Option String
  | .string s => s
  | _ => none

def word64? : Tree → Option Nat
  | .number (some (.integer n)) => intWord64? n
  | _ => none

/-- `null`, or what `read` reads -/
def optional? (read : Tree → Option α) : Tree → Option (Option α)
  | .null => some none
  | t => (read t).map some

def list? (read : Tree → Option α) : Tree → Option (List α)
  | .array ts => ts.mapM read
  | _ => none

/-- Reads the members of a dictionary one by one. -/
def pairs? (read : Tree → Option α) : List (Option String × Tree) → Option (List (String × α))
  | [] => some []
  | (key, t) :: ms =>
    match key, read t, pairs? read ms with
    | some k, some x, some xs => some ((k, x) :: xs)
    | _, _, _ => none

/-- an object with keys of its own; of members with one key the last counts -/
def dictionary? (read : Tree → Option α) : Tree → Option (Dictionary α)
  | .object ms => (pairs? read ms).map Dictionary.ofPairs
  | _ => none

/-! ## records -/

def valuesOf (name : String) (ms : List (Option String × Tree)) : List Tree :=
  (ms.filter fun m => m.1 = some name).map Prod.snd

/-- the member under `name`, `none` inside when there is none, and no reading when it is repeated -/
def field? (name : String) (ms : List (Option String × Tree)) : Option (Option Tree) :=
  match valuesOf name ms with
  | [] => some none
  | [t] => some (some t)
  | _ => none

/-- The fields of a record in the order of `names`, a missing one as `none`. -/
def fields? (names : List String) : Tree → Option (List (Option Tree))
  | .object ms => if ms.all fun m => m.1.isSome then names.mapM fun name => field? name ms else none
  | .array ts =>
    if ts.length ≤ names.length then
      some (ts.map some ++ List.replicate (names.length - ts.length) none)
    else none
  | _ => none

end RemoteGuard.Json.Tree
