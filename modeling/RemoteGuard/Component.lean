import RemoteGuard.Capability
import RemoteGuard.Processor
import RemoteGuard.Repository.Basic
import RemoteGuard.Ruleset.Merge

/-!
# Request protection under remote configuration

A `Component` owns the processor in use and swaps it when the ruleset changes.  `rulesetOf` builds
the ruleset that the contents of a snapshot describe: documents of `ASM_DD` replace the base
rules, those of `ASM` and `ASM_DATA` add to them.  Contents that are no JSON text, or whose merge
fails, are marked errored with the reason, the others applied.  `activationOf` reads whether
protection is switched on from the first content of `ASM_FEATURES`.

A reconfiguration whose ruleset does not compile keeps the processor in use.  The route sampler is
handed on from one processor to the next.
-/

namespace RemoteGuard
open Json

namespace Product

def baseRules : String := "ASM_DD"
def protection : String := "ASM"
def protectionData : String := "ASM_DATA"
def features : String := "ASM_FEATURES"

/-- the products that contribute to the ruleset -/
def ofRuleset : List String := [baseRules, protection, protectionData]

/-- the products that request protection subscribes to -/
def subscribed : List String := [baseRules, protection, protectionData, features]

end Product

namespace Capabilities

def activation : Capabilities := single 1
def addressBlocking : Capabilities := single 2
def baseRules : Capabilities := single 3
def exclusions : Capabilities := single 4
def requestBlocking : Capabilities := single 5
def responseBlocking : Capabilities := single 6
def userBlocking : Capabilities := single 7
def customRules : Capabilities := single 8
def customBlockingResponse : Capabilities := single 9

def known : List Capabilities :=
  [activation, addressBlocking, baseRules, exclusions, requestBlocking, responseBlocking,
   userBlocking, customRules, customBlockingResponse]

/-- what request protection tells the backend it can do -/
def advertised : Capabilities :=
  collect [addressBlocking, userBlocking, customRules, exclusions, requestBlocking,
    responseBlocking, baseRules]

end Capabilities

inductive RemoteError where
  | noRules
  | merge (e : MergeError)
  /-- data entries that cannot be merged, which no caller expects -/
  | collapse (e : Merge.DataClash)
deriving DecidableEq, Repr, Inhabited

def RemoteError.message : RemoteError → String
  | .noRules => "appsec: no ruleset available"
  | .merge e => e.message
  | .collapse _ => "data entries cannot be merged"

/-! ## rulesets of snapshots -/

/-- what the contents looked at so far make of a ruleset -/
structure Collection where
  sources : Merge.Sources := {}
  /-- the contents that went into it -/
  used : List Content := []

/-- The collection with one document as its base rules. -/
def Collection.withRules (col : Collection) (rules : Value) : Collection :=
  { col with sources := { col.sources with rules := [rules] } }

/-- the array under a key of a document, as a list of its own -/
def arrayField (document : Value) (key : String) : List (List Value) :=
  ((document.member? key).bind Value.items?).toList

def addDocument (product : String) (document : Value) (s : Merge.Sources) : Merge.Sources :=
  if product = Product.baseRules then { s with rules := s.rules ++ [document] }
  else if product = Product.protectionData then
    { s with data := s.data ++ arrayField document "rules_data" }
  else
    { s with
      overrides := s.overrides ++ arrayField document "rules_override"
      exclusions := s.exclusions ++ arrayField document "exclusions"
      customRules := s.customRules ++ arrayField document "custom_rules" }

/-- Looks at one content, if its product contributes to the ruleset. -/
def Collection.add (col : Collection) (l : Ledger) (c : Content) : Collection × Ledger :=
  if c.path.product ∈ Product.ofRuleset then
    match Value.read? c.data with
    | none => (col, l.errored c ((faultMessage? c.data).getD ""))
    | some document => (⟨addDocument c.path.product document col.sources, col.used ++ [c]⟩, l)
  else (col, l)

def collectContents (col : Collection) (l : Ledger) : List Content → Collection × Ledger
  | [] => (col, l)
  | c :: cs =>
    let (col, l) := col.add l c
    collectContents col l cs

/-- Merges what was collected, and marks the contents that went into it. -/
def mergeCollection (col : Collection) (l : Ledger) : Except RemoteError Value × Ledger :=
  match Merge.merge col.sources with
  | .ok merged => (.ok merged, l.setStates col.used .acknowledged)
  | .error (.rules e) => (.error (.merge e), l.setStates col.used (.error e.message))
  | .error (.data e) => (.error (.collapse e), l)

/-- The ruleset that the settings select; a failure is reported. -/
def loadRuleset (files : Files) (settings : Settings) (h : Host) : Option Value × Host :=
  match (settings.ruleset.load files).1 with
  | .ok rules => (some rules, h)
  | .error e => (none, h.reportLoad e)

/-- The merged ruleset that the contents of a snapshot describe. -/
def rulesetOf (files : Files) (settings : Settings) (s : Snapshot) (l : Ledger) (h : Host) :
    Except RemoteError Value × Ledger × Host :=
  let (col, l) := collectContents {} l s.contents
  if col.sources.rules.isEmpty then
    match loadRuleset files settings h with
    | (none, h) => (.error .noRules, l, h)
    | (some rules, h) =>
      let (result, l) := mergeCollection (col.withRules rules) l
      (result, l, h)
  else
    let (result, l) := mergeCollection col l
    (result, l, h)

/-! ## activation -/

def toggle? (data : Bytes) : Option Bool :=
  (((Value.read? data).bind (Value.member? "asm")).bind (Value.member? "enabled")).bind Value.bool?

/-- Whether protection is switched on remotely, by the first content of features. -/
def activationOf (s : Snapshot) (l : Ledger) : Option Bool × Ledger :=
  match s.contents.find? fun c => c.path.product = Product.features with
  | none => (none, l)
  | some c =>
    match toggle? c.data with
    | some b => (some b, l.applied c)
    | none => (none, l.errored c "missing asm.enabled")

/-! ## the component -/

structure Component where
  settings : Settings
  processor : Processor
  remoteActivation : Option Bool := none

namespace Component

/-- A component on the ruleset that the settings select, compiled or not. -/
def build (engine : Engine) (files : Files) (settings : Settings) (h : Host) :
    Except RemoteError Component × Host :=
  match loadRuleset files settings h with
  | (none, h) => (.error .noRules, h)
  | (some rules, h) =>
    match Merge.merge { rules := [rules] } with
    | .error (.rules e) => (.error (.merge e), h)
    | .error (.data e) => (.error (.collapse e), h)
    | .ok merged =>
      let (p, h) := Processor.compile engine settings merged h
      (.ok ⟨settings, p, none⟩, h)

/-- Protection is on; a remote toggle takes precedence over the settings. -/
def isEnabled (c : Component) : Bool := c.remoteActivation.getD c.settings.enabled

/-- Compiles a ruleset and puts it to use, or keeps the processor in use. -/
def reconfigure (engine : Engine) (c : Component) (ruleset : Value) (h : Host) :
    Bool × Component × Host :=
  let (candidate, h) := Processor.compile engine c.settings ruleset h
  let candidate := candidate.withSampler c.processor.sampler
  if candidate.isReady then (true, { c with processor := candidate }, h) else (false, c, h)

def reconfigureFrom (engine : Engine) (files : Files) (c : Component) (s : Snapshot) (l : Ledger)
    (h : Host) : Except RemoteError Bool × Component × Ledger × Host :=
  let (activation, l) := activationOf s l
  let c := { c with remoteActivation := activation }
  match rulesetOf files c.settings s l h with
  | (.error e, l, h) => (.error e, c, l, h)
  | (.ok ruleset, l, h) =>
    let (installed, c, h) := c.reconfigure engine ruleset h
    (.ok installed, c, l, h)

end Component
end RemoteGuard
