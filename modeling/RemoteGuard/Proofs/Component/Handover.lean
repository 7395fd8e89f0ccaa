import RemoteGuard.Proofs.Component.Verdicts
import RemoteGuard.Proofs.Sampling.Routes

/-!
# One route sampler for all processors

A component that is reconfigured goes on with another processor, or with the one it had, and
whoever obtained an earlier processor may keep it.  All of them refer to the route sampler that the
first one was given: a compilation adds a sampler of its own, which is then passed over.

* `sampler_reconfigure`, `sampler_reconfigureFrom`   the sampler is handed on, others are added behind;
* `Handover.Event`, `Handover.step`                  what may happen to a component, and what it answers;
* `Handover.Shared`                                  all processors have the sampler of the first one;
* `Handover.samplings_of_events`                     so samplings do not see reconfigurations.
-/

namespace RemoteGuard
open Json

/-! ## samplers of compilations -/

namespace Processor

/-- a sampler of its own is the last one of the host, and there is none when API Security is off -/
theorem newSampler_cases (s : ApiSecuritySettings) (h : Host) :
    (s.enabled = true ∧ newSampler s h
      = (some h.samplers.length, { h with samplers := h.samplers ++ [.new s.sampleDelay] })) ∨
    (s.enabled = false ∧ newSampler s h = (none, h)) := by
  unfold newSampler
  cases s.enabled with
  | true => exact .inl ⟨rfl, rfl⟩
  | false => exact .inr ⟨rfl, rfl⟩

/-- a compilation makes a sampler, whatever comes of it -/
theorem sampler_compile (engine : Engine) (settings : Settings) (ruleset : Value) (h : Host) :
    (compile engine settings ruleset h).1.apiSecurity = settings.apiSecurity ∧
    (compile engine settings ruleset h).1.sampler = (newSampler settings.apiSecurity h).1 ∧
    (compile engine settings ruleset h).2.samplers
      = (newSampler settings.apiSecurity h).2.samplers := by
  unfold compile Host.compile newSampler
  cases engine.compile h.calls ruleset with
  | error e => cases settings.apiSecurity.enabled <;> exact ⟨rfl, rfl, rfl⟩
  | ok c => cases settings.apiSecurity.enabled <;> exact ⟨rfl, rfl, rfl⟩

theorem sampler_withSampler (p : Processor) (sampler : Option Nat) :
    (p.withSampler sampler).sampler = if p.apiSecurity.enabled then sampler else p.sampler := by
  unfold withSampler
  split <;> rfl

end Processor

/-- two hosts have the same sampler under a number -/
def SameSampler (sampler : Option Nat) (h h' : Host) : Prop :=
  ∀ n, sampler = some n → ∃ s, h.samplers[n]? = some s ∧ h'.samplers[n]? = some s

theorem SameSampler.append {sampler : Option Nat} {h h' : Host} (hs : SameSampler sampler h h')
    {later : Host} {more : List RouteSampler} (hl : later.samplers = h.samplers ++ more) :
    SameSampler sampler later h' := by
  intro n hn
  obtain ⟨s, hhere, hthere⟩ := hs n hn
  have hlt := (List.getElem?_eq_some_iff.mp hhere).1
  refine ⟨s, ?_, hthere⟩
  rw [hl, List.getElem?_append_left hlt, hhere]

theorem SameSampler.sampleRoute {p q : Processor} {h h' : Host}
    (hs : SameSampler p.sampler h h') (hsame : q.sampler = p.sampler) (route : Route) (now : Nat) :
    (q.sampleRoute route now h).1 = (p.sampleRoute route now h').1 ∧
      SameSampler p.sampler (q.sampleRoute route now h).2 (p.sampleRoute route now h').2 := by
  unfold Processor.sampleRoute
  rw [hsame]
  cases hp : p.sampler with
  | none =>
    rw [hp] at hs
    exact ⟨rfl, hs⟩
  | some n =>
    obtain ⟨s, hhere, hthere⟩ := hs n hp
    simp only [Host.sample, hhere, hthere]
    refine ⟨trivial, fun m hm => ⟨(s.sample route now).2, ?_⟩⟩
    cases hm
    have hlt := (List.getElem?_eq_some_iff.mp hhere).1
    have hlt' := (List.getElem?_eq_some_iff.mp hthere).1
    simp [hlt, hlt']

namespace Component

/-- the settings decide whether there is a sampler, and it is one of the host -/
structure HasSampler (k : Component) (h : Host) : Prop where
  off : k.settings.apiSecurity.enabled = false → k.processor.sampler = none
  held : ∀ n, k.processor.sampler = some n → n < h.samplers.length

theorem hasSampler_build {engine : Engine} {files : Files} {settings : Settings} {h₀ h : Host}
    {k : Component} (hb : build engine files settings h₀ = (.ok k, h)) : k.HasSampler h := by
  obtain ⟨ruleset, h₁, hk, hh⟩ : ∃ ruleset h₁,
      k = ⟨settings, (Processor.compile engine settings ruleset h₁).1, none⟩ ∧
      h = (Processor.compile engine settings ruleset h₁).2 := by
    unfold build at hb
    split at hb
    · cases hb
    · split at hb
      · cases hb
      · cases hb
      · cases hb
        exact ⟨_, _, rfl, rfl⟩
  obtain ⟨-, hsampler, hsamplers⟩ := Processor.sampler_compile engine settings ruleset h₁
  subst hk hh
  constructor
  · intro hoff
    have hoff : settings.apiSecurity.enabled = false := hoff
    rcases Processor.newSampler_cases settings.apiSecurity h₁ with ⟨hon, -⟩ | ⟨-, hnew⟩
    · rw [hoff] at hon
      cases hon
    · rw [hsampler, hnew]
  · intro n hn
    have hn : (Processor.compile engine settings ruleset h₁).1.sampler = some n := hn
    rw [hsampler] at hn
    rw [hsamplers]
    rcases Processor.newSampler_cases settings.apiSecurity h₁ with ⟨-, hnew⟩ | ⟨-, hnew⟩
    · rw [hnew] at hn ⊢
      cases hn
      simp
    · rw [hnew] at hn
      cases hn

/-- the processor in use afterwards, new or not, has the sampler of the one before -/
theorem sampler_reconfigure (engine : Engine) {k : Component}
    (hoff : k.settings.apiSecurity.enabled = false → k.processor.sampler = none) (ruleset : Value)
    (h : Host) :
    (k.reconfigure engine ruleset h).2.1.processor.sampler = k.processor.sampler ∧
      ∃ more, (k.reconfigure engine ruleset h).2.2.samplers = h.samplers ++ more := by
  obtain ⟨hsettings, hsampler, hsamplers⟩ :=
    Processor.sampler_compile engine k.settings ruleset h
  have hhanded : ((Processor.compile engine k.settings ruleset h).1.withSampler
      k.processor.sampler).sampler = k.processor.sampler := by
    rw [Processor.sampler_withSampler, hsettings, hsampler]
    rcases Processor.newSampler_cases k.settings.apiSecurity h with ⟨hon, -⟩ | ⟨hno, hnew⟩
    · rw [if_pos hon]
    · rw [hno, if_neg Bool.false_ne_true, hnew, hoff hno]
  have hmore : ∃ more,
      (Processor.compile engine k.settings ruleset h).2.samplers = h.samplers ++ more := by
    rw [hsamplers]
    rcases Processor.newSampler_cases k.settings.apiSecurity h with ⟨-, hnew⟩ | ⟨-, hnew⟩
    · rw [hnew]
      exact ⟨_, rfl⟩
    · rw [hnew]
      exact ⟨[], (List.append_nil _).symm⟩
  unfold reconfigure
  dsimp only
  split
  · exact ⟨hhanded, hmore⟩
  · exact ⟨rfl, hmore⟩

theorem samplers_rulesetOf (files : Files) (settings : Settings) (s : Snapshot) (l : Ledger)
    (h : Host) : (rulesetOf files settings s l h).2.2.samplers = h.samplers := by
  unfold rulesetOf loadRuleset
  dsimp only
  split
  · cases (settings.ruleset.load files).1 <;> rfl
  · rfl

theorem sampler_reconfigureFrom (engine : Engine) (files : Files) {k : Component}
    (hoff : k.settings.apiSecurity.enabled = false → k.processor.sampler = none) (s : Snapshot)
    (l : Ledger) (h : Host) :
    (k.reconfigureFrom engine files s l h).2.1.processor.sampler = k.processor.sampler ∧
      ∃ more, (k.reconfigureFrom engine files s l h).2.2.2.samplers = h.samplers ++ more := by
  have hsamplers := samplers_rulesetOf files k.settings s (activationOf s l).2 h
  unfold reconfigureFrom
  dsimp only
  match hr : rulesetOf files k.settings s (activationOf s l).2 h with
  | (.error e, l', h') =>
    rw [hr] at hsamplers
    exact ⟨rfl, [], hsamplers.trans (List.append_nil _).symm⟩
  | (.ok ruleset, l', h') =>
    rw [hr] at hsamplers
    have hsamplers : h'.samplers = h.samplers := hsamplers
    have hstep := sampler_reconfigure engine
      (show (k.withActivation (activationOf s l).1).settings.apiSecurity.enabled = false → _
        from hoff) ruleset h'
    rw [hsamplers] at hstep
    exact hstep

end Component

/-! ## runs of a component -/

namespace Handover

inductive Event where
  | reconfigure (ruleset : Value)
  | reconfigureFrom (files : Files) (s : Snapshot) (l : Ledger)
  /-- through a processor obtained before, by its number, or else through the one in use -/
  | sample (obtained : Nat) (call : RouteSampler.Call)

def Event.call? : Event → Option RouteSampler.Call
  | .sample _ call => some call
  | _ => none

structure Situation where
  component : Component
  /-- the processors that were in use so far, the first one first -/
  obtained : List Processor
  host : Host

def Situation.start (k : Component) (h : Host) : Situation := ⟨k, [k.processor], h⟩

/-- One event; only samplings are answered. -/
def step (engine : Engine) (e : Event) (x : Situation) : Option Bool × Situation :=
  match e with
  | .reconfigure ruleset =>
    let (_, k, h) := x.component.reconfigure engine ruleset x.host
    (none, ⟨k, x.obtained ++ [k.processor], h⟩)
  | .reconfigureFrom files s l =>
    let (_, k, _, h) := x.component.reconfigureFrom engine files s l x.host
    (none, ⟨k, x.obtained ++ [k.processor], h⟩)
  | .sample n call =>
    let p := x.obtained.getD n x.component.processor
    let (accepted, h) := p.sampleRoute call.route call.now x.host
    (some accepted, { x with host := h })

/-- Every processor has the sampler of `first`, and another host has this sampler too. -/
structure Shared (settings : Settings) (first : Processor) (x : Situation) (h : Host) : Prop where
  settings_eq : x.component.settings = settings
  off : settings.apiSecurity.enabled = false → first.sampler = none
  used : x.component.processor.sampler = first.sampler
  obtained : ∀ p ∈ x.obtained, p.sampler = first.sampler
  same : SameSampler first.sampler x.host h

variable {settings : Settings} {first : Processor} {x : Situation} {h : Host}

theorem shared_start {k : Component} (hk : k.HasSampler h) :
    Shared k.settings k.processor (.start k h) h where
  settings_eq := rfl
  off := hk.off
  used := rfl
  obtained := fun p hp => by rw [List.mem_singleton.mp hp]
  same := fun n hn =>
    ⟨_, List.getElem?_eq_getElem (hk.held n hn), List.getElem?_eq_getElem (hk.held n hn)⟩

namespace Shared

theorem goOn (hx : Shared settings first x h) {k : Component} {later : Host}
    (hsettings : k.settings = x.component.settings)
    (hsampler : k.processor.sampler = x.component.processor.sampler ∧
      ∃ more, later.samplers = x.host.samplers ++ more) :
    Shared settings first ⟨k, x.obtained ++ [k.processor], later⟩ h := by
  obtain ⟨hused, more, hmore⟩ := hsampler
  have hused : k.processor.sampler = first.sampler := hused.trans hx.used
  refine ⟨hsettings.trans hx.settings_eq, hx.off, hused, fun p hp => ?_, hx.same.append hmore⟩
  rcases List.mem_append.mp hp with hp | hp
  · exact hx.obtained p hp
  · rw [List.mem_singleton.mp hp]
    exact hused

theorem off_component (hx : Shared settings first x h)
    (hoff : x.component.settings.apiSecurity.enabled = false) :
    x.component.processor.sampler = none := by
  rw [hx.settings_eq] at hoff
  rw [hx.used, hx.off hoff]

theorem step_hidden (hx : Shared settings first x h) (engine : Engine) {e : Event}
    (he : e.call? = none) :
    (step engine e x).1 = none ∧ Shared settings first (step engine e x).2 h := by
  cases e with
  | reconfigure ruleset =>
    exact ⟨rfl, hx.goOn (Component.settings_reconfigure ..)
      (Component.sampler_reconfigure engine hx.off_component ruleset x.host)⟩
  | reconfigureFrom files s l =>
    exact ⟨rfl, hx.goOn (Component.settings_reconfigureFrom ..)
      (Component.sampler_reconfigureFrom engine files hx.off_component s l x.host)⟩
  | sample n call => cases he

/-- whichever processor is asked, the answer is that of the first one -/
theorem step_visible (hx : Shared settings first x h) (engine : Engine) {e : Event}
    {call : RouteSampler.Call} (he : e.call? = some call) :
    (step engine e x).1 = some (first.sampleRoute call.route call.now h).1 ∧
      Shared settings first (step engine e x).2 (first.sampleRoute call.route call.now h).2 := by
  cases e with
  | reconfigure ruleset => cases he
  | reconfigureFrom files s l => cases he
  | sample n call =>
    cases he
    have hsampler : (x.obtained.getD n x.component.processor).sampler = first.sampler := by
      rw [List.getD_eq_getElem?_getD]
      cases hp : x.obtained[n]? with
      | none => exact hx.used
      | some p => exact hx.obtained p (List.mem_of_getElem? hp)
    obtain ⟨hanswer, hsame⟩ := hx.same.sampleRoute hsampler call.route call.now
    exact ⟨congrArg some hanswer, hx.settings_eq, hx.off, hx.used, hx.obtained, hsame⟩

end Shared

/-- **Sampling survives reconfigurations.**  In any run of a component that was built, samplings
through whichever of its processors are answered as if there were no reconfigurations and all of
them were made through the first processor. -/
theorem samplings_of_events {engine : Engine} {files : Files} {settings : Settings} {h₀ h : Host}
    {k : Component} (hb : Component.build engine files settings h₀ = (.ok k, h))
    (events : List Event) :
    (runAll (step engine) events (.start k h)).1.filterMap id
      = (runAll (fun call => k.processor.sampleRoute call.route call.now)
          (events.filterMap Event.call?) h).1 := by
  have hstart := shared_start (Component.hasSampler_build hb)
  exact (runAll_visible (fun _ _ _ hx he => hx.step_hidden engine he)
    (fun _ _ _ _ hx he => hx.step_visible engine he) hstart events).1

/-- a route that the first processor accepted is sampled through the second one -/
theorem samplings_of_handed_over_route :
    let engine : Engine := ⟨fun _ _ => .ok {}, fun _ _ _ _ => .ok {}⟩
    let settings : Settings := { apiSecurity := { enabled := true } }
    let call : RouteSampler.Call := ⟨⟨"GET", "/users", 200⟩, 0⟩
    ∃ k h, Component.build engine (fun _ => .missing) settings {} = (.ok k, h) ∧
      k.processor.sampler = some 0 ∧
      (runAll (step engine) [.sample 0 call, .reconfigure (.object []), .sample 1 call]
          (.start k h)).1.filterMap id
        = (runAll (fun call => k.processor.sampleRoute call.route call.now) [call, call] h).1 := by
  intro engine settings call
  let built := Component.build engine (fun _ => .missing) settings {}
  have hbuilt : built.1.isOk = true := by decide +kernel
  have hsampler : built.1.toOption.map (fun k => k.processor.sampler) = some (some 0) := by
    decide +kernel
  obtain ⟨k, h, hb⟩ := Component.exists_of_build_isOk hbuilt
  rw [show built = (.ok k, h) from hb] at hsampler
  exact ⟨k, h, hb, Option.some.inj hsampler, samplings_of_events hb _⟩

end Handover
end RemoteGuard
