import RemoteGuard.Proofs.Request.Events

/-!
# Contexts in flight

Whatever happens to contexts and to their component, the engine sees of each context its opening, the
runs made of it, and one release after these.

* `callsOf`                             what the engine was asked about a context;
* `Opened.Recorded`                     the calls about a context are those that were made through it;
* `Situation.Recorded.activate`, `run`, `release`, `component`   so they stay, whatever happens;
* `Situation.keeps_later`, `keeps_spared`   what is opened stays on its processor, and changes only if
                                        it is mentioned;
* `contexts_of_events`                  all of it, for any events of a component that was built.
-/

namespace RemoteGuard
open Json

/-! ## calls about a context -/

def EngineCall.context? : EngineCall → Option Nat
  | .compile _ => none
  | .openContext n _ => some n
  | .run n _ _ => some n
  | .finalize n => some n

/-- what the engine was asked about a context -/
def callsOf (context : Nat) (calls : List EngineCall) : List EngineCall :=
  calls.filter fun c => c.context? = some context

theorem callsOf_append (context : Nat) (calls more : List EngineCall) :
    callsOf context (calls ++ more) = callsOf context calls ++ callsOf context more :=
  List.filter_append ..

theorem callsOf_single {context : Nat} {c : EngineCall} (h : c.context? = some context) :
    callsOf context [c] = [c] :=
  List.filter_eq_self.mpr (List.forall_mem_singleton.mpr (decide_eq_true h))

theorem callsOf_eq_nil {context : Nat} {calls : List EngineCall}
    (h : ∀ c ∈ calls, c.context? ≠ some context) : callsOf context calls = [] :=
  List.filter_eq_nil_iff.mpr fun c hc => by simpa using h c hc

theorem not_about {context other : Nat} {c : EngineCall} (h : c.context? = some context)
    (hne : other ≠ context) : ∀ c' ∈ [c], c'.context? ≠ some other := by
  intro c' hc'
  rw [List.mem_singleton.mp hc', h]
  exact fun e => hne (Option.some.inj e).symm

theorem context_of_isOpen {c : EngineCall} (h : c.isOpen = true) : c.context? ≠ none := by
  cases c with
  | openContext n r => simp [EngineCall.context?]
  | compile ruleset => cases h
  | run n input timeoutUs => cases h
  | finalize n => cases h

theorem openings_of_none {h h' : Host} {more : List EngineCall}
    (hcalls : h'.calls = h.calls ++ more) (hmore : ∀ c ∈ more, c.context? = none) :
    h'.openings = h.openings := by
  have hzero : more.countP EngineCall.isOpen = 0 :=
    List.countP_eq_zero.mpr fun c hc hopen => context_of_isOpen hopen (hmore c hc)
  show h'.calls.countP _ = h.calls.countP _
  rw [hcalls, List.countP_append, hzero, Nat.add_zero]

namespace Component

theorem calls_build {engine : Engine} {files : Files} {settings : Settings} {h₀ h : Host}
    {k : Component} (hb : build engine files settings h₀ = (.ok k, h)) :
    ∃ ruleset, h.calls = h₀.calls ++ [.compile ruleset] := by
  have hload : (loadRuleset files settings h₀).2.calls = h₀.calls := by
    unfold loadRuleset
    split <;> rfl
  unfold build at hb
  split at hb
  · cases hb
  · next rules h₁ hl =>
    rw [hl] at hload
    split at hb
    · cases hb
    · cases hb
    · next merged hm =>
      have hcalls := (Processor.compile_cases engine settings merged h₁).1
      rw [show h₁.calls = h₀.calls from hload] at hcalls
      obtain ⟨-, rfl⟩ := Prod.mk.inj hb
      exact ⟨merged, hcalls⟩

end Component

/-- what happens to a component asks the engine nothing about contexts -/
theorem Handover.calls_step (engine : Engine) (e : Handover.Event) (x : Handover.Situation) :
    ∃ more, (Handover.step engine e x).2.host.calls = x.host.calls ++ more ∧
      ∀ c ∈ more, c.context? = none := by
  cases e with
  | reconfigure ruleset =>
    refine ⟨[.compile ruleset], (Component.reconfigure_cases engine x.component ruleset x.host).1, ?_⟩
    simp [EngineCall.context?]
  | reconfigureFrom files s l =>
    obtain ⟨l', h', hcalls, ⟨e, -, heq⟩ | ⟨ruleset, -, heq⟩⟩ :=
      Component.reconfigureFrom_cases engine files x.component s l x.host
    · refine ⟨[], ?_, by simp⟩
      simp only [Handover.step, heq, hcalls, List.append_nil]
    · refine ⟨[.compile ruleset], ?_, by simp [EngineCall.context?]⟩
      simp only [Handover.step, heq]
      rw [(Component.reconfigure_cases engine _ ruleset h').1, hcalls]
  | sample n call =>
    refine ⟨[], ?_, by simp⟩
    simp only [Handover.step, Processor.sampleRoute, List.append_nil]
    split
    · rfl
    · unfold Host.sample
      split <;> rfl

namespace InFlight
open RequestContext (Request callFor answerTo evaluationsOf)

/-! ## what the engine was asked -/

/-- The calls about a context are its opening from the ruleset of its processor, the runs made
through it and, if it is released, its release; the engine answered the runs with what is kept of
them; and the figures are those of the answers. -/
structure Opened.Recorded (engine : Engine) (o : Opened) (i : Nat) (calls : List EngineCall) :
    Prop where
  number : o.context.context = i
  asked : ∃ r, o.processor.ruleset = some r ∧
    callsOf i calls = .openContext i r.number :: o.runs.map (fun run => callFor i run.1)
      ++ if o.live then [] else [.finalize i]
  answers : ∀ run ∈ o.runs, ∃ earlier,
    earlier ++ [callFor i run.1] <+: calls ∧ run.2 = answerTo engine i earlier run.1
  totals : o.context.Totals (evaluationsOf (o.runs.map Prod.snd))

/-- the engine answered what it answered, whatever it was asked since -/
theorem Opened.Recorded.answered {engine : Engine} {o : Opened} {i : Nat} {calls : List EngineCall}
    (h : o.Recorded engine i calls) (more : List EngineCall) :
    ∀ run ∈ o.runs, ∃ earlier,
      earlier ++ [callFor i run.1] <+: calls ++ more ∧ run.2 = answerTo engine i earlier run.1 := by
  intro run hrun
  obtain ⟨earlier, hprefix, hanswer⟩ := h.answers run hrun
  exact ⟨earlier, hprefix.trans (List.prefix_append ..), hanswer⟩

/-- Calls about other contexts do not matter. -/
theorem Opened.Recorded.append {engine : Engine} {o : Opened} {i : Nat}
    {calls more : List EngineCall} (h : o.Recorded engine i calls)
    (hmore : ∀ c ∈ more, c.context? ≠ some i) : o.Recorded engine i (calls ++ more) where
  number := h.number
  asked := by
    obtain ⟨r, hr, hcalls⟩ := h.asked
    have hnone : callsOf i more = [] := callsOf_eq_nil hmore
    exact ⟨r, hr, by rw [callsOf_append, hnone, List.append_nil, hcalls]⟩
  answers := h.answered more
  totals := h.totals

/-- All contexts are recorded, and the engine was asked for no others. -/
structure Situation.Recorded (engine : Engine) (x : Situation) : Prop where
  openings : x.host.openings = x.contexts.length
  opened : ∀ i (o : Opened), x.contexts[i]? = some o → o.Recorded engine i x.host.calls
  others : ∀ i, x.contexts.length ≤ i → callsOf i x.host.calls = []

namespace Situation.Recorded
variable {engine : Engine} {x : Situation}

theorem set (hx : x.Recorded engine) {i : Nat} {o o' : Opened} {h : Host} {call : EngineCall}
    (hget : x.contexts[i]? = some o) (hcalls : h.calls = x.host.calls ++ [call])
    (habout : call.context? = some i) (hopen : call.isOpen = false)
    (ho' : o'.Recorded engine i h.calls) :
    Recorded engine { x with host := h, contexts := x.contexts.set i o' } := by
  have hlt : i < x.contexts.length := (List.getElem?_eq_some_iff.mp hget).1
  have hother : ∀ j, j ≠ i → ∀ c ∈ [call], c.context? ≠ some j := fun _ => not_about habout
  constructor
  · show h.calls.countP EngineCall.isOpen = (x.contexts.set i o').length
    have hsame : h.calls.countP EngineCall.isOpen = x.host.openings := by
      rw [hcalls, List.countP_append, List.countP_singleton, hopen]
      rfl
    rw [hsame, hx.openings, List.length_set]
  · intro j p hj
    have hj : (x.contexts.set i o')[j]? = some p := hj
    by_cases hji : j = i
    · subst hji
      rw [List.getElem?_set_self hlt] at hj
      cases hj
      exact ho'
    · rw [List.getElem?_set_ne (Ne.symm hji)] at hj
      show p.Recorded engine j h.calls
      rw [hcalls]
      exact (hx.opened j p hj).append (hother j hji)
  · intro j hj
    have hj : x.contexts.length ≤ j := by simpa using hj
    show callsOf j h.calls = []
    have hji : j ≠ i := by omega
    rw [hcalls, callsOf_append, hx.others j hj, callsOf_eq_nil (hother j hji)]
    rfl

theorem activate (hx : x.Recorded engine) (n : Nat) : (x.activate n).Recorded engine := by
  rcases x.activate_cases n with ⟨-, hsame⟩ | ⟨r, c, h, hr, hc, htotals, hcalls, hnext⟩
  · rw [hsame]
    exact hx
  rw [hx.openings] at hc hcalls
  rw [hnext]
  have hother : ∀ j, j ≠ x.contexts.length →
      ∀ call ∈ [EngineCall.openContext x.contexts.length r.number], call.context? ≠ some j :=
    fun _ => not_about rfl
  constructor
  · show h.calls.countP EngineCall.isOpen = _
    have hone : h.calls.countP EngineCall.isOpen = x.host.openings + 1 := by
      rw [hcalls, List.countP_append]
      rfl
    rw [hone, hx.openings]
    simp
  · intro j p hj
    show p.Recorded engine j h.calls
    rw [hcalls]
    by_cases hnew : j = x.contexts.length
    · subst hnew
      simp only [List.getElem?_concat_length, Option.some.injEq] at hj
      subst hj
      refine ⟨hc, ⟨r, hr, ?_⟩, by simp, htotals⟩
      have hnone : callsOf x.contexts.length x.host.calls = [] :=
        hx.others _ (Nat.le_refl _)
      rw [callsOf_append, hnone]
      simp [callsOf, EngineCall.context?]
    · have hold : x.contexts[j]? = some p := by
        have hlt := (List.getElem?_eq_some_iff.mp hj).1
        simp only [List.length_append, List.length_singleton] at hlt
        rwa [List.getElem?_append_left (by omega)] at hj
      exact (hx.opened j p hold).append (hother j hnew)
  · intro j hj
    have hj : x.contexts.length + 1 ≤ j := by simpa using hj
    show callsOf j h.calls = []
    rw [hcalls, callsOf_append, hx.others j (by omega), callsOf_eq_nil (hother j (by omega))]
    rfl

/-- a run is recorded with its answer, and the figures go on -/
theorem run (hx : x.Recorded engine) (i : Nat) (q : Request) : (x.run engine i q).Recorded engine := by
  rcases x.run_cases engine i q with hsame | ⟨o, answer, h, hget, hlive, hanswer, hcalls, hnext⟩
  · rw [hsame]
    exact hx
  have ho := hx.opened i o hget
  rw [ho.number] at hanswer hcalls
  rw [hnext]
  refine hx.set hget hcalls rfl rfl ⟨?_, ?_, ?_, ?_⟩
  · exact (RequestContext.frame_after o.context answer).1.trans ho.number
  · obtain ⟨r, hr, hof⟩ := ho.asked
    refine ⟨r, hr, ?_⟩
    have hone : callsOf i [callFor i q] = [callFor i q] := callsOf_single rfl
    rw [hcalls, callsOf_append, hone, hof]
    simp [Opened.ran, hlive]
  · intro run hrun
    rcases List.mem_append.mp hrun with hrun | hrun
    · rw [hcalls]
      exact ho.answered _ run hrun
    · rw [List.mem_singleton.mp hrun]
      exact ⟨x.host.calls, hcalls ▸ List.prefix_rfl, hanswer⟩
  · have hmore : (o.ran q answer (o.context.after answer)).runs.map Prod.snd
        = o.runs.map Prod.snd ++ [answer] := by simp [Opened.ran]
    rw [hmore]
    exact ho.totals.after answer

theorem release (hx : x.Recorded engine) (i : Nat) : (x.release i).Recorded engine := by
  rcases x.release_cases i with hsame | ⟨o, h, hget, hlive, hcalls, hnext⟩
  · rw [hsame]
    exact hx
  have ho := hx.opened i o hget
  rw [ho.number] at hcalls
  rw [hnext]
  refine hx.set hget hcalls rfl rfl ⟨ho.number, ?_, ?_, ho.totals⟩
  · obtain ⟨r, hr, hof⟩ := ho.asked
    refine ⟨r, hr, ?_⟩
    have hone : callsOf i [.finalize i] = [.finalize i] := callsOf_single rfl
    rw [hcalls, callsOf_append, hone, hof]
    simp [hlive]
  · rw [hcalls]
    exact ho.answered _

/-- what happens to the component is not about contexts -/
theorem component (hx : x.Recorded engine) (e : Handover.Event) :
    Recorded engine { x with toSituation := (Handover.step engine e x.toSituation).2 } := by
  obtain ⟨more, hcalls, hmore⟩ := Handover.calls_step engine e x.toSituation
  have hother : ∀ i, ∀ c ∈ more, c.context? ≠ some i := fun i c hc => by simp [hmore c hc]
  constructor
  · exact (openings_of_none hcalls hmore).trans hx.openings
  · intro i o hget
    show o.Recorded engine i (Handover.step engine e x.toSituation).2.host.calls
    rw [hcalls]
    exact (hx.opened i o hget).append (hother i)
  · intro i hi
    show callsOf i (Handover.step engine e x.toSituation).2.host.calls = []
    rw [hcalls, callsOf_append, hx.others i hi, callsOf_eq_nil (hother i)]
    rfl

theorem keeps (engine : Engine) : Keeps engine (fun _ => False) (Situation.Recorded engine) where
  spared_lt := fun _ hs => hs.elim
  activate := fun n hx => hx.activate n
  run := fun q hx _ => hx.run _ q
  release := fun hx _ => hx.release _
  component := fun e hx => hx.component e

end Situation.Recorded

/-! ## what becomes of a context -/

/-- what stays of a context, whatever happens -/
structure Opened.Later (o o' : Opened) : Prop where
  processor : o'.processor = o.processor
  runs : o.runs <+: o'.runs
  /-- a context that is released is done with -/
  released : o.live = false → o' = o

theorem Opened.Later.refl (o : Opened) : o.Later o := ⟨rfl, List.prefix_rfl, fun _ => rfl⟩

theorem Opened.Later.trans {o o' o'' : Opened} (h : o.Later o') (h' : o'.Later o'') :
    o.Later o'' where
  processor := h'.processor.trans h.processor
  runs := h.runs.trans h'.runs
  released := by
    intro hdone
    have hsame : o' = o := h.released hdone
    subst hsame
    exact h'.released hdone

namespace Situation
variable {engine : Engine} {x : Situation}

theorem get_activate {i : Nat} (h : i < x.contexts.length) (n : Nat) :
    (x.activate n).contexts[i]? = x.contexts[i]? := by
  rcases x.activate_cases n with ⟨-, hsame⟩ | ⟨r, c, h', -, -, -, -, hnext⟩
  · rw [hsame]
  · rw [hnext]
    exact List.getElem?_append_left h

/-- a run or a release changes one context, which was not released -/
theorem get_set {o o' : Opened} {j : Nat} (hget : x.contexts[j]? = some o) (hlater : o.Later o')
    {i : Nat} {p : Opened} (hi : x.contexts[i]? = some p) :
    ∃ p', (x.contexts.set j o')[i]? = some p' ∧ p.Later p' ∧ (i ≠ j → p' = p) := by
  by_cases hij : j = i
  · subst hij
    have hlt := (List.getElem?_eq_some_iff.mp hget).1
    have hsame : p = o := Option.some.inj (hi.symm.trans hget)
    subst hsame
    exact ⟨o', List.getElem?_set_self hlt, hlater, fun h => absurd rfl h⟩
  · exact ⟨p, by rw [List.getElem?_set_ne hij, hi], .refl p, fun _ => rfl⟩

theorem get_run {i : Nat} {o : Opened} (hi : x.contexts[i]? = some o) (j : Nat) (q : Request) :
    ∃ o', (x.run engine j q).contexts[i]? = some o' ∧ o.Later o' ∧ (i ≠ j → o' = o) := by
  rcases x.run_cases engine j q with hsame | ⟨p, answer, h, hget, hlive, -, -, hnext⟩
  · rw [hsame]
    exact ⟨o, hi, .refl o, fun _ => rfl⟩
  · rw [hnext]
    have hlater : p.Later (p.ran q answer (p.context.after answer)) :=
      ⟨rfl, List.prefix_append .., fun hdone => by rw [hlive] at hdone; cases hdone⟩
    exact get_set hget hlater hi

theorem get_release {i : Nat} {o : Opened} (hi : x.contexts[i]? = some o) (j : Nat) :
    ∃ o', (x.release j).contexts[i]? = some o' ∧ o.Later o' ∧ (i ≠ j → o' = o) := by
  rcases x.release_cases j with hsame | ⟨p, h, hget, hlive, -, hnext⟩
  · rw [hsame]
    exact ⟨o, hi, .refl o, fun _ => rfl⟩
  · rw [hnext]
    have hlater : p.Later { p with live := false } :=
      ⟨rfl, List.prefix_rfl, fun hdone => by rw [hlive] at hdone; cases hdone⟩
    exact get_set hget hlater hi

/-- a context goes on from what it was -/
theorem keeps_later (engine : Engine) (i : Nat) (o : Opened) :
    Keeps engine (fun _ => False) fun y => ∃ o', y.contexts[i]? = some o' ∧ o.Later o' where
  spared_lt := fun _ hs => hs.elim
  activate := by
    rintro y n ⟨o', hget, hlater⟩
    have hlt := (List.getElem?_eq_some_iff.mp hget).1
    exact ⟨o', (get_activate hlt n).trans hget, hlater⟩
  run := by
    rintro y j q ⟨o', hget, hlater⟩ -
    obtain ⟨o'', hget', hlater', -⟩ := get_run hget j q
    exact ⟨o'', hget', hlater.trans hlater'⟩
  release := by
    rintro y j ⟨o', hget, hlater⟩ -
    obtain ⟨o'', hget', hlater', -⟩ := get_release hget j
    exact ⟨o'', hget', hlater.trans hlater'⟩
  component := fun _ h => h

theorem keeps_spared (engine : Engine) (i : Nat) (o : Opened) :
    Keeps engine (· = i) fun y => y.contexts[i]? = some o where
  spared_lt := by
    rintro y j hget rfl
    exact (List.getElem?_eq_some_iff.mp hget).1
  activate := fun n hget => (get_activate (List.getElem?_eq_some_iff.mp hget).1 n).trans hget
  run := by
    intro y j q hget hne
    obtain ⟨o', hget', -, hsame⟩ := get_run hget j q
    rw [hget', hsame (Ne.symm hne)]
  release := by
    intro y j hget hne
    obtain ⟨o', hget', -, hsame⟩ := get_release hget j
    rw [hget', hsame (Ne.symm hne)]
  component := fun _ h => h

/-! ## runs of a component -/

/-- a component before any contexts -/
def start (k : Component) (h : Host) : Situation := { Handover.Situation.start k h with }

theorem recorded_start {engine : Engine} {k : Component} {h : Host}
    (hnone : ∀ c ∈ h.calls, c.context? = none) : (start k h).Recorded engine where
  openings := openings_of_none (h := {}) (List.nil_append _).symm hnone
  opened := by
    intro i o hget
    cases hget
  others := fun i _ => callsOf_eq_nil fun c hc => by simp [hnone c hc]

theorem get_release_self {x : Situation} {i : Nat} {o : Opened} (hi : x.contexts[i]? = some o) :
    (x.release i).contexts[i]? = some { o with live := false } := by
  cases hlive : o.live with
  | true =>
    rw [release_of_live hi hlive]
    exact List.getElem?_set_self (List.getElem?_eq_some_iff.mp hi).1
  | false =>
    have ho : x.live? i = none := by
      rw [live?, hi, Option.filter_some, hlive]
      rfl
    have hsame : { o with live := false } = o := by rw [← hlive]
    simp only [release, ho, hsame]
    exact hi

/-- A single run with a context of its own is a context for the time of this run. -/
theorem runOnce_eq (engine : Engine) (x : Situation) (n : Nat) (input : Object) :
    let y := step engine x
      (.within n [.run x.contexts.length ⟨input, (x.processor n).wafTimeoutUs⟩])
    (x.processor n).runOnce engine input x.host
      = (y.contexts[x.contexts.length]?.bind fun o => o.runs.head?.map Prod.snd, y.host) := by
  intro y
  cases hr : (x.processor n).ruleset with
  | none =>
    have hy : y = x := by simp [y, step, Processor.isReady, hr]
    rw [hy, List.getElem?_eq_none (Nat.le_refl _), Processor.runOnce, Processor.activate, hr]
    rfl
  | some r =>
    have hopen := Processor.activate_of_some hr x.host
    have hready : (x.processor n).isReady = true := by simp [Processor.isReady, hr]
    have hy : y = ((x.activate n).run engine x.contexts.length
        ⟨input, (x.processor n).wafTimeoutUs⟩).release x.contexts.length := by
      simp only [y, step, stepAll, hready, if_true]
    let c : RequestContext := ⟨x.host.openings, r.version, (x.processor n).schemaSampling, 0, 0, []⟩
    have hnew : (x.activate n).contexts[x.contexts.length]?
        = some { processor := x.processor n, context := c } := by
      simp [Situation.activate, hopen, c]
    have hhost : (x.activate n).host = x.host.call (.openContext x.host.openings r.number) := by
      simp only [Situation.activate, hopen]
    have hlt := (List.getElem?_eq_some_iff.mp hnew).1
    obtain ⟨answer, c', h', hrun⟩ : ∃ answer c' h',
        c.run engine input (x.processor n).wafTimeoutUs (x.activate n).host = (answer, c', h') :=
      ⟨_, _, _, rfl⟩
    rw [release_run engine hnew rfl _ hrun] at hy
    rw [hhost] at hrun
    rw [hy, Processor.runOnce, hopen]
    simp only [c] at hrun
    simp [hrun, Opened.ran, hlt]

end Situation

/-- a processor of a ruleset opens a context, which is not run yet -/
theorem opened_activate {x : Situation} {n : Nat} (hready : (x.processor n).isReady = true) :
    ∃ c, (x.activate n).contexts = x.contexts ++ [⟨x.processor n, c, [], true⟩] := by
  rcases x.activate_cases n with ⟨hnone, -⟩ | ⟨r, c, h, -, -, -, -, hnext⟩
  · rw [Processor.isReady, hnone] at hready
    cases hready
  · exact ⟨c, by rw [hnext]⟩

/-- a context that is opened for the time of some events is released after them -/
theorem released_within (engine : Engine) {x : Situation} {n : Nat}
    (hready : (x.processor n).isReady = true) (events : List Event) :
    ∃ o, (step engine x (.within n events)).contexts[x.contexts.length]? = some o ∧
      o.processor = x.processor n ∧ o.live = false := by
  obtain ⟨c, hc⟩ := opened_activate hready
  have hnew : (x.activate n).contexts[x.contexts.length]?
      = some ⟨x.processor n, c, [], true⟩ := by
    rw [hc, List.getElem?_concat_length]
  obtain ⟨o, hget, hlater⟩ :=
    (Situation.keeps_later engine _ _).stepAll ⟨_, hnew, .refl _⟩ events fun _ h => h.elim
  refine ⟨{ o with live := false }, ?_, hlater.processor, rfl⟩
  rw [step, if_pos hready]
  exact Situation.get_release_self hget

/-- **Contexts in flight.**  Whatever happens to a component that was built and to the contexts
opened through its processors, the engine is asked about a context exactly this: to open it from the
ruleset of the processor it was activated on, to run it for the runs made of it, and once it is
released to finalize it.  Its figures are those of the answers to these runs.  It stays on its
processor, and as it is while it is not mentioned or once it is released.  The engine is asked to
open no other contexts, and each is released by its release or at the end of the events it was
opened for. -/
theorem contexts_of_events {engine : Engine} {files : Files} {settings : Settings} {h : Host}
    {k : Component} (hb : Component.build engine files settings {} = (.ok k, h))
    (events later : List Event) :
    let x := stepAll engine (.start k h) events
    let y := stepAll engine x later
    (∀ i o, x.contexts[i]? = some o →
      (∃ r, o.processor.ruleset = some r ∧
        callsOf i x.host.calls = .openContext i r.number
          :: o.runs.map (fun run => .run i (presentEntries run.1.input) run.1.timeoutUs)
          ++ if o.live then [] else [.finalize i]) ∧
      (∀ run ∈ o.runs, ∃ earlier,
        earlier ++ [.run i (presentEntries run.1.input) run.1.timeoutUs] <+: x.host.calls ∧
        run.2 = engine.run earlier i (presentEntries run.1.input) run.1.timeoutUs) ∧
      o.context.Totals ((o.runs.map Prod.snd).filterMap Except.toOption) ∧
      (x.release i).contexts[i]? = some { o with live := false } ∧
      ∃ o', y.contexts[i]? = some o' ∧ o'.processor = o.processor ∧ o.runs <+: o'.runs ∧
        (o.live = false ∨ mentionsAny i later = false → o' = o)) ∧
    (∀ i, x.contexts.length ≤ i → callsOf i x.host.calls = []) ∧
    (∀ n, (x.processor n).isReady = true →
      (∃ c, (x.activate n).contexts = x.contexts ++ [⟨x.processor n, c, [], true⟩]) ∧
      ∃ o, (step engine x (.within n later)).contexts[x.contexts.length]? = some o ∧
        o.processor = x.processor n ∧ o.live = false) ∧
    ∀ n input,
      let z := step engine x
        (.within n [.run x.contexts.length ⟨input, (x.processor n).wafTimeoutUs⟩])
      (x.processor n).runOnce engine input x.host
        = (z.contexts[x.contexts.length]?.bind fun o => o.runs.head?.map Prod.snd, z.host) := by
  intro x y
  obtain ⟨ruleset, hcalls⟩ := Component.calls_build hb
  have hstart : (Situation.start k h).Recorded engine := by
    refine Situation.recorded_start fun c hc => ?_
    rw [hcalls] at hc
    rw [List.mem_singleton.mp hc]
    rfl
  have hx : x.Recorded engine :=
    (Situation.Recorded.keeps engine).stepAll hstart events fun _ h => h.elim
  refine ⟨fun i o hget => ?_, hx.others,
    fun n hready => ⟨opened_activate hready, released_within engine hready later⟩,
    fun n input => x.runOnce_eq engine n input⟩
  have ho := hx.opened i o hget
  refine ⟨ho.asked, ho.answers, ho.totals, Situation.get_release_self hget, ?_⟩
  obtain ⟨o', hget', hlater⟩ :=
    (Situation.keeps_later engine i o).stepAll ⟨o, hget, .refl o⟩ later fun _ h => h.elim
  refine ⟨o', hget', hlater.processor, hlater.runs, ?_⟩
  rintro (hdone | hunmentioned)
  · exact hlater.released hdone
  · have hspared : y.contexts[i]? = some o :=
      (Situation.keeps_spared engine i o).stepAll hget later fun j hj => hj ▸ hunmentioned
    exact Option.some.inj (hget'.symm.trans hspared)

/-- a context that is used and released while the component goes on with another processor -/
theorem contexts_of_swapped_processor :
    let engine : Engine := ⟨fun _ _ => .ok {}, fun _ _ _ _ => .ok { runtimeNs := 3 }⟩
    let q : Request := ⟨[("method", .string "GET")], 5000⟩
    let events : List Event :=
      [.activate 0, .component (.reconfigure (.object [])), .run 0 q, .activate 1, .run 1 q,
        .run 0 q, .release 0, .run 0 q, .within 1 [.run 2 q]]
    ∃ k h, Component.build engine (fun _ => .missing) {} {} = (.ok k, h) ∧
      let x := stepAll engine (.start k h) events
      ∃ o runs, x.contexts[0]? = some o ∧ o.context.timeNs = 6 ∧ runs.length = 2 ∧
        callsOf 0 x.host.calls = .openContext 0 0 :: runs ++ [.finalize 0] := by
  intro engine q events
  let built := Component.build engine (fun _ => .missing) {} {}
  have hbuilt : built.1.isOk = true := by decide +kernel
  have hfirst : (built.1.toOption.bind fun k =>
      (stepAll engine (.start k built.2) events).contexts[0]?.map fun o =>
        (o.live, o.processor.ruleset.map CompiledRuleset.number,
          ((o.runs.map Prod.snd).filterMap Except.toOption).map Evaluation.runtimeNs,
          o.runs.length))
      = some (false, some 0, [3, 3], 2) := by decide +kernel
  obtain ⟨k, h, hb⟩ := Component.exists_of_build_isOk hbuilt
  rw [show built = (.ok k, h) from hb] at hfirst
  simp only [Except.toOption, Option.bind_some, Option.map_eq_some_iff, Prod.mk.injEq] at hfirst
  obtain ⟨o, hget, ho⟩ := hfirst
  obtain ⟨hlive, hnumber, hruntimes, hlength⟩ := ho
  obtain ⟨⟨r, hr, hcalls⟩, -, htotals, -⟩ := (contexts_of_events hb events []).1 0 o hget
  obtain ⟨r', hr', hnumber⟩ := hnumber
  have hnumber : r.number = 0 := Option.some.inj (hr.symm.trans hr') ▸ hnumber
  have htime : o.context.timeNs = 6 := by
    rw [htotals.timeNs, hruntimes]
    decide
  rw [hnumber, hlive] at hcalls
  exact ⟨k, h, hb, o, _, hget, htime, by rw [List.length_map, hlength], hcalls⟩

end InFlight
end RemoteGuard
