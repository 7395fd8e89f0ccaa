import RemoteGuard.Component
import RemoteGuard.Dispatch
import RemoteGuard.Sync

/-!
# A client

A `Client` puts the parts together: a repository, a dispatcher that feeds receivers from it, among
them request protection, the host they run in, and the contexts of the requests in flight by name.

Changes are dispatched with the snapshot that was published by their commit.  Receivers are called
in order; one that collapses takes those after it along.  What observers were told, also before a
collapse, is kept in the order of the calls.
-/

namespace RemoteGuard
open Json

/-- who receives changes -/
inductive Subscriber where
  /-- an observer, by its number among the receivers -/
  | observer (number : Nat)
  /-- request protection, as long as the client has it -/
  | protection
deriving DecidableEq, Repr, Inhabited

/-- what an observer was told, and the snapshot it was told with -/
structure Delivery where
  receiver : Nat
  changes : List Change
  snapshot : Snapshot

structure Client where
  repository : Repository := {}
  dispatcher : Dispatcher Subscriber := {}
  component : Option Component := none
  host : Host := {}
  /-- requests in flight, by name -/
  requests : List (String × RequestContext) := []
  /-- what observers were told, in the order of the calls -/
  deliveries : List Delivery := []

namespace Client

/-! ## configuration -/

/-- Reconfigures request protection from the current snapshot; nothing without a component. -/
def reconfigureFrom (engine : Engine) (files : Files) (c : Client) :
    Option (Except RemoteError Bool) × Client :=
  match c.component with
  | none => (none, c)
  | some component =>
    let (result, component, ledger, host) :=
      component.reconfigureFrom engine files c.repository.current c.repository.ledger c.host
    (some result,
      { c with
        component := some component
        repository := { c.repository with ledger := ledger }
        host := host })

def tell (c : Client) (receiver : Nat) (changes : List Change) : Client :=
  { c with deliveries := c.deliveries ++ [⟨receiver, changes, c.repository.current⟩] }

/-- Calls receivers in order, up to one that collapses. -/
def deliver (engine : Engine) (files : Files) (c : Client) :
    List (Subscriber × List Change) → Except Merge.DataClash Unit × Client
  | [] => (.ok (), c)
  | (.observer n, changes) :: rest => deliver engine files (c.tell n changes) rest
  | (.protection, _) :: rest =>
    match c.reconfigureFrom engine files with
    | (some (.error (.collapse e)), c) => (.error e, c)
    | (_, c) => deliver engine files c rest

def dispatch (engine : Engine) (files : Files) (c : Client) (changes : List Change) :
    Except Merge.DataClash Unit × Client :=
  c.deliver engine files (c.dispatcher.deliveries changes)

/-- Compiles a ruleset and puts it to use, or keeps the processor in use. -/
def reconfigure (engine : Engine) (c : Client) (ruleset : Value) : Option Bool × Client :=
  match c.component with
  | none => (none, c)
  | some component =>
    let (installed, component, host) := component.reconfigure engine ruleset c.host
    (some installed, { c with component := some component, host := host })

/-- Lets go of request protection; requests in flight go on. -/
def dropComponent (c : Client) : Client := { c with component := none }

/-! ## requests -/

def request? (c : Client) (name : String) : Option RequestContext := c.requests.lookup name

def others (c : Client) (name : String) : List (String × RequestContext) :=
  c.requests.filter fun p => p.1 != name

def closeRequest (c : Client) (name : String) : Client :=
  match c.request? name with
  | none => c
  | some r => { c with requests := c.others name, host := r.finalize c.host }

/-- Opens a context for a request; an earlier one of that name is finalized after. -/
def openRequest (c : Client) (p : Processor) (name : String) : Bool × Client :=
  match p.activate c.host with
  | (none, host) => (false, { c with host := host })
  | (some r, host) =>
    let c := ({ c with host := host } : Client).closeRequest name
    (true, { c with requests := (name, r) :: c.requests })

/-- Puts a request back after a run. -/
def keepRequest (c : Client) (name : String) (r : RequestContext) (host : Host) : Client :=
  { c with requests := (name, r) :: c.others name, host := host }

def runRequest (engine : Engine) (c : Client) (name : String) (input : Object) (timeoutUs : Nat) :
    Option (Except EngineError Evaluation) × Client :=
  match c.request? name with
  | none => (none, c)
  | some r =>
    let (result, r, host) := r.run engine input timeoutUs c.host
    (some result, c.keepRequest name r host)

/-- The inner `none` is a request whose schema was not asked for. -/
def extractSchema (engine : Engine) (c : Client) (name : String) (draw : BitVec 64) :
    Option (Option (Except EngineError Evaluation)) × Client :=
  match c.request? name with
  | none => (none, c)
  | some r =>
    let (result, r, host) := r.extractSchema engine draw c.host
    (some result, c.keepRequest name r host)

end Client
end RemoteGuard
