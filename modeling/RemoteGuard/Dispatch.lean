import RemoteGuard.Repository.Basic

/-!
# Routing of changes

A dispatcher holds receivers in the order of their registration; each asks for the changes of some
products or for all.  `Dispatcher.deliveries` is who gets what of a change set: every receiver at
most once, with its changes in order, and none that would get nothing.
-/

namespace RemoteGuard

/-- which paths a receiver asks for -/
inductive ProductMatcher where
  | products (names : List String)
  | any
deriving DecidableEq, Repr, Inhabited

def ProductMatcher.isMatch (m : ProductMatcher) (path : ConfigPath) : Bool :=
  match m with
  | .products names => names.contains path.product
  | .any => true

/-- a receiver, known to its dispatcher by a label -/
structure Receiver (ι : Type) where
  matcher : ProductMatcher
  label : ι
deriving Repr, Inhabited

structure Dispatcher (ι : Type) where
  receivers : List (Receiver ι) := []
deriving Repr, Inhabited

namespace Dispatcher
variable {ι : Type}

def register (d : Dispatcher ι) (r : Receiver ι) : Dispatcher ι := ⟨d.receivers ++ [r]⟩

def namesOf (r : Receiver ι) : List String :=
  match r.matcher with
  | .products names => names
  | .any => []

/-- the products that some receiver names, each once, in the order of registration -/
def products (d : Dispatcher ι) : List String :=
  (d.receivers.flatMap namesOf).eraseDups

/-- the changes that a receiver asks for -/
def matching (r : Receiver ι) (changes : List Change) : List Change :=
  changes.filter fun c => r.matcher.isMatch c.path

/-- the receivers to call, in order, with their changes -/
def deliveries (d : Dispatcher ι) (changes : List Change) : List (ι × List Change) :=
  (d.receivers.map fun r => (r.label, matching r changes)).filter fun p => !p.2.isEmpty

theorem mem_matching {r : Receiver ι} {changes : List Change} {c : Change} :
    c ∈ matching r changes ↔ c ∈ changes ∧ r.matcher.isMatch c.path = true := by simp [matching]

/-- Who is called is who would get something. -/
theorem mem_deliveries {d : Dispatcher ι} {changes : List Change} {p : ι × List Change} :
    p ∈ d.deliveries changes
      ↔ (∃ r ∈ d.receivers, (r.label, matching r changes) = p) ∧ p.2 ≠ [] := by
  simp [deliveries]

end Dispatcher
end RemoteGuard
