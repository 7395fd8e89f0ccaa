import RemoteGuard.Proofs.Component.Handover
import RemoteGuard.Proofs.Request.Accounting

/-!
# What may happen to contexts

Contexts are opened through processors that were obtained from a component at any time, run,
released, and meanwhile the component is reconfigured.

* `InFlight.Event`, `InFlight.step`   what may happen, one event after another and one within another;
* `Situation.activate_cases`, `run_cases`, `extractSchema_cases`, `release_cases`   all that a single
                                      use does;
* `InFlight.Keeps`                    what all uses keep is kept by all events.
-/

namespace RemoteGuard
open Json

theorem Processor.activate_of_some {p : Processor} {r : CompiledRuleset} (hr : p.ruleset = some r)
    (h : Host) :
    p.activate h = (some ⟨h.openings, r.version, p.schemaSampling, 0, 0, []⟩,
      h.call (.openContext h.openings r.number)) := by
  rw [activate, hr]
  rfl

theorem RequestContext.extractSchema_cases (engine : Engine) (c : RequestContext)
    (draw : BitVec 64) (h : Host) :
    c.extractSchema engine draw h = (none, c, h) ∨
    c.extractSchema engine draw h
      = (some (c.run engine schemaInput unlimitedTimeoutUs h).1,
          (c.run engine schemaInput unlimitedTimeoutUs h).2) := by
  unfold extractSchema
  split
  · exact .inl rfl
  · split
    · exact .inr rfl
    · exact .inl rfl

namespace InFlight
open RequestContext (Request callFor answerTo)

/-! ## what may happen -/

/-- a context that was opened, and what became of it -/
structure Opened where
  /-- the one it was activated on -/
  processor : Processor
  context : RequestContext
  /-- the runs made of it so far, with their answers -/
  runs : List (Request × Except EngineError Evaluation) := []
  /-- not released yet -/
  live : Bool := true

def Opened.ran (o : Opened) (q : Request) (answer : Except EngineError Evaluation)
    (c : RequestContext) : Opened :=
  { o with context := c, runs := o.runs ++ [(q, answer)] }

/-- the contexts opened so far, the first one first, next to a component -/
structure Situation extends Handover.Situation where
  contexts : List Opened := []

/-- what an extraction of schemas runs -/
def schemaRequest : Request := ⟨RequestContext.schemaInput, unlimitedTimeoutUs⟩

/-- what may happen to contexts, which are referred to by number, and to the component -/
inductive Event where
  /-- through a processor obtained before, by its number, or else through the one in use -/
  | activate (obtained : Nat)
  | run (context : Nat) (q : Request)
  | extractSchema (context : Nat) (draw : BitVec 64)
  /-- deactivated or dropped, which is the same to the engine -/
  | release (context : Nat)
  /-- opens a context for the time of some events -/
  | within (obtained : Nat) (events : List Event)
  | component (e : Handover.Event)

namespace Situation

def processor (x : Situation) (obtained : Nat) : Processor :=
  x.obtained.getD obtained x.component.processor

/-- a context that can be used, as it is not released -/
def live? (x : Situation) (i : Nat) : Option Opened := x.contexts[i]?.filter Opened.live

def activate (x : Situation) (obtained : Nat) : Situation :=
  match (x.processor obtained).activate x.host with
  | (none, h) => { x with host := h }
  | (some c, h) =>
    { x with host := h, contexts := x.contexts ++ [{ processor := x.processor obtained, context := c }] }

def run (engine : Engine) (x : Situation) (i : Nat) (q : Request) : Situation :=
  match x.live? i with
  | none => x
  | some o =>
    let (answer, c, h) := o.context.run engine q.input q.timeoutUs x.host
    { x with host := h, contexts := x.contexts.set i (o.ran q answer c) }

def extractSchema (engine : Engine) (x : Situation) (i : Nat) (draw : BitVec 64) : Situation :=
  match x.live? i with
  | none => x
  | some o =>
    match o.context.extractSchema engine draw x.host with
    | (none, c, h) => { x with host := h, contexts := x.contexts.set i { o with context := c } }
    | (some answer, c, h) =>
      { x with host := h, contexts := x.contexts.set i (o.ran schemaRequest answer c) }

def release (x : Situation) (i : Nat) : Situation :=
  match x.live? i with
  | none => x
  | some o =>
    { x with host := o.context.finalize x.host, contexts := x.contexts.set i { o with live := false } }

end Situation

mutual

def step (engine : Engine) (x : Situation) : Event → Situation
  | .activate n => x.activate n
  | .run i q => x.run engine i q
  | .extractSchema i draw => x.extractSchema engine i draw
  | .release i => x.release i
  | .within n events =>
    if (x.processor n).isReady then
      (stepAll engine (x.activate n) events).release x.contexts.length
    else x
  | .component e => { x with toSituation := (Handover.step engine e x.toSituation).2 }

def stepAll (engine : Engine) (x : Situation) : List Event → Situation
  | [] => x
  | e :: es => stepAll engine (step engine x e) es

end

mutual

/-- the event uses or releases a context -/
def Event.mentions (i : Nat) : Event → Bool
  | .activate _ => false
  | .run j _ => j == i
  | .extractSchema j _ => j == i
  | .release j => j == i
  | .within _ events => mentionsAny i events
  | .component _ => false

def mentionsAny (i : Nat) : List Event → Bool
  | [] => false
  | e :: es => e.mentions i || mentionsAny i es

end

/-! ## single uses -/

namespace Situation
variable {engine : Engine} {x : Situation} {i : Nat} {o : Opened}

theorem live?_eq_some : x.live? i = some o ↔ x.contexts[i]? = some o ∧ o.live = true :=
  Option.filter_eq_some_iff

theorem run_of_live (engine : Engine) (hget : x.contexts[i]? = some o) (hlive : o.live = true)
    (q : Request) :
    x.run engine i q
      = { x with
          host := (o.context.run engine q.input q.timeoutUs x.host).2.2
          contexts := x.contexts.set i (o.ran q (o.context.run engine q.input q.timeoutUs x.host).1
            (o.context.run engine q.input q.timeoutUs x.host).2.1) } := by
  simp only [run, live?_eq_some.mpr ⟨hget, hlive⟩]

theorem release_of_live (hget : x.contexts[i]? = some o) (hlive : o.live = true) :
    x.release i
      = { x with
          host := o.context.finalize x.host
          contexts := x.contexts.set i { o with live := false } } := by
  simp only [release, live?_eq_some.mpr ⟨hget, hlive⟩]

/-- a run that is the only one -/
theorem release_run (engine : Engine) (hget : x.contexts[i]? = some o) (hlive : o.live = true)
    (q : Request) {answer : Except EngineError Evaluation} {c : RequestContext} {h : Host}
    (hrun : o.context.run engine q.input q.timeoutUs x.host = (answer, c, h)) :
    (x.run engine i q).release i
      = { x with
          host := c.finalize h
          contexts := x.contexts.set i { o.ran q answer c with live := false } } := by
  have hran : (x.contexts.set i (o.ran q answer c))[i]? = some (o.ran q answer c) :=
    List.getElem?_set_self (List.getElem?_eq_some_iff.mp hget).1
  rw [run_of_live engine hget hlive, hrun]
  let y : Situation := { x with host := h, contexts := x.contexts.set i (o.ran q answer c) }
  have hreleased : y.release i = _ := release_of_live hran hlive
  exact hreleased.trans (by simp only [y, List.set_set]; rfl)

/-- A processor opens a context if it has a ruleset, and asks for one of that ruleset. -/
theorem activate_cases (x : Situation) (obtained : Nat) :
    ((x.processor obtained).ruleset = none ∧ x.activate obtained = x) ∨
    ∃ r c h, (x.processor obtained).ruleset = some r ∧ c.context = x.host.openings ∧
      c.Totals [] ∧ h.calls = x.host.calls ++ [.openContext x.host.openings r.number] ∧
      x.activate obtained
        = { x with
            host := h
            contexts := x.contexts ++ [{ processor := x.processor obtained, context := c }] } := by
  cases hr : (x.processor obtained).ruleset with
  | none =>
    refine .inl ⟨rfl, ?_⟩
    simp only [activate, Processor.activate, hr]
  | some r =>
    have hopen := Processor.activate_of_some hr x.host
    refine .inr ⟨r, _, x.host.call (.openContext x.host.openings r.number), rfl, rfl,
      RequestContext.totals_activate hopen, rfl, ?_⟩
    simp only [activate, hopen]

theorem run_cases (engine : Engine) (x : Situation) (i : Nat) (q : Request) :
    x.run engine i q = x ∨
    ∃ o answer h, x.contexts[i]? = some o ∧ o.live = true ∧
      answer = answerTo engine o.context.context x.host.calls q ∧
      h.calls = x.host.calls ++ [callFor o.context.context q] ∧
      x.run engine i q
        = { x with host := h, contexts := x.contexts.set i (o.ran q answer (o.context.after answer)) } := by
  cases ho : x.live? i with
  | none =>
    left
    simp only [run, ho]
  | some o =>
    obtain ⟨hget, hlive⟩ := live?_eq_some.mp ho
    have hrun := RequestContext.run_eq engine o.context q x.host
    refine .inr ⟨o, _, (o.context.run engine q.input q.timeoutUs x.host).2.2, hget, hlive, rfl, ?_, ?_⟩
    · rw [hrun]
    · rw [run_of_live engine hget hlive, hrun]

theorem extractSchema_cases (engine : Engine) (x : Situation) (i : Nat) (draw : BitVec 64) :
    x.extractSchema engine i draw = x ∨
      x.extractSchema engine i draw = x.run engine i schemaRequest := by
  cases ho : x.live? i with
  | none =>
    left
    simp only [extractSchema, ho]
  | some o =>
    obtain ⟨hget, -⟩ := live?_eq_some.mp ho
    have hsame : x.contexts.set i o = x.contexts := by
      obtain ⟨hlt, rfl⟩ := List.getElem?_eq_some_iff.mp hget
      exact List.set_getElem_self hlt
    have hnone : ({ x with contexts := x.contexts.set i o } : Situation) = x := by rw [hsame]
    rcases RequestContext.extractSchema_cases engine o.context draw x.host with hno | hrun
    · left
      simp only [extractSchema, ho, hno]
      exact hnone
    · right
      simp only [extractSchema, run, ho, hrun, schemaRequest]

theorem release_cases (x : Situation) (i : Nat) :
    x.release i = x ∨
    ∃ o h, x.contexts[i]? = some o ∧ o.live = true ∧
      h.calls = x.host.calls ++ [.finalize o.context.context] ∧
      x.release i = { x with host := h, contexts := x.contexts.set i { o with live := false } } := by
  cases ho : x.live? i with
  | none =>
    left
    simp only [release, ho]
  | some o =>
    obtain ⟨hget, hlive⟩ := live?_eq_some.mp ho
    exact .inr ⟨o, o.context.finalize x.host, hget, hlive, rfl, release_of_live hget hlive⟩

end Situation

/-! ## what all events keep -/

/-- Opening contexts keeps a property of situations, and so does what happens to the component, and
to the contexts other than some that are open already. -/
structure Keeps (engine : Engine) (spared : Nat → Prop) (kept : Situation → Prop) : Prop where
  spared_lt : ∀ {x i}, kept x → spared i → i < x.contexts.length
  activate : ∀ {x} n, kept x → kept (x.activate n)
  run : ∀ {x i} q, kept x → ¬ spared i → kept (x.run engine i q)
  release : ∀ {x i}, kept x → ¬ spared i → kept (x.release i)
  component : ∀ {x : Situation} e, kept x →
    kept { x with toSituation := (Handover.step engine e x.toSituation).2 }

namespace Keeps
variable {engine : Engine} {spared : Nat → Prop} {kept : Situation → Prop}

mutual

theorem step (hk : Keeps engine spared kept) {x : Situation} (hx : kept x) :
    (e : Event) → (∀ i, spared i → e.mentions i = false) → kept (InFlight.step engine x e)
  | .activate n, _ => hk.activate n hx
  | .run i q, he => by
    have hi : ¬ spared i := fun hs => by simpa [Event.mentions] using he i hs
    exact hk.run q hx hi
  | .extractSchema i draw, he => by
    have hi : ¬ spared i := fun hs => by simpa [Event.mentions] using he i hs
    show kept (x.extractSchema engine i draw)
    rcases x.extractSchema_cases engine i draw with hnone | hrun
    · rw [hnone]
      exact hx
    · rw [hrun]
      exact hk.run schemaRequest hx hi
  | .release i, he => by
    have hi : ¬ spared i := fun hs => by simpa [Event.mentions] using he i hs
    exact hk.release hx hi
  | .within n events, he => by
    have hown : ¬ spared x.contexts.length := fun hs => Nat.lt_irrefl _ (hk.spared_lt hx hs)
    have hinside := hk.stepAll (hk.activate n hx) events he
    rw [InFlight.step]
    split
    · exact hk.release hinside hown
    · exact hx
  | .component e, _ => hk.component e hx

theorem stepAll (hk : Keeps engine spared kept) {x : Situation} (hx : kept x) :
    (events : List Event) → (∀ i, spared i → mentionsAny i events = false) →
      kept (InFlight.stepAll engine x events)
  | [], _ => hx
  | e :: es, he => by
    have hmentions : ∀ i, spared i → e.mentions i = false ∧ mentionsAny i es = false :=
      fun i hi => by simpa [mentionsAny] using he i hi
    have hnext := hk.step hx e fun i hi => (hmentions i hi).1
    exact hk.stepAll hnext es fun i hi => (hmentions i hi).2

end

end Keeps

end InFlight
end RemoteGuard
