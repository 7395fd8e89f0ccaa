/-!
# Functions worked out beforehand

A `Table` holds values of a function.  `Table.ofKeys` works the function out at some keys, at each
of them once, and `Table.valueOf` takes a value from a table that has it: the same value as the
function's (`valueOf_ofKeys`), for less work where keys repeat.
-/

namespace RemoteGuard

abbrev Table (α β : Type) := List (α × β)

namespace Table
variable {α β : Type} [BEq α]

def ofKeys (f : α → β) (keys : List α) : Table α β := keys.eraseDups.map fun x => (x, f x)

/-- the value at `x`, worked out if the table lacks it -/
def valueOf (f : α → β) (t : Table α β) (x : α) : β :=
  match t.lookup x with
  | some y => y
  | none => f x

theorem eq_of_lookup_graph [LawfulBEq α] {f : α → β} {keys : List α} {x : α} {y : β}
    (h : (keys.map fun x => (x, f x)).lookup x = some y) : y = f x := by
  induction keys with
  | nil => cases h
  | cons k keys ih =>
    rw [List.map_cons, List.lookup_cons] at h
    split at h
    · next hk => rw [eq_of_beq hk]; exact (Option.some.inj h).symm
    · exact ih h

@[simp] theorem valueOf_ofKeys [LawfulBEq α] (f : α → β) (keys : List α) (x : α) :
    valueOf f (ofKeys f keys) x = f x := by
  rw [valueOf]
  split
  · next h => exact eq_of_lookup_graph h
  · rfl

end Table
end RemoteGuard
