import RemoteGuard.Proofs.Component.Documents

/-!
# Reconfigurations

A reconfiguration takes over the toggle of a snapshot, compiles the ruleset that the snapshot
describes, and keeps the processor in use if there is none or it does not compile.

* `Processor.CompiledFrom`            the processor is the outcome of a compilation on record;
* `Component.reconfigure_cases`, `Component.reconfigureFrom_cases`   all that can happen;
* `Component.reconfigure_fst`         whether the ruleset is put to use;
* `Component.Follows`                 the component has what a snapshot asks for, as far as the
                                      engine accepts it;
* `Component.follows_reconfigureFrom` so it has after a reconfiguration.
-/

namespace RemoteGuard
open Json

/-! ## compilations -/

namespace Engine

/-- whether a ruleset compiles depends on the ruleset only -/
def Steady (engine : Engine) : Prop :=
  ∀ earlier earlier' ruleset,
    (engine.compile earlier ruleset).isOk = (engine.compile earlier' ruleset).isOk

/-- the ruleset compiles -/
def Accepts (engine : Engine) (ruleset : Value) : Prop :=
  (engine.compile [] ruleset).isOk = true

theorem Steady.accepts {engine : Engine} (h : engine.Steady) {earlier : List EngineCall}
    {ruleset : Value} {c : Compilation} (hc : engine.compile earlier ruleset = .ok c) :
    engine.Accepts ruleset := by
  rw [Accepts, h [] earlier, hc]
  rfl

theorem Steady.not_accepts {engine : Engine} (h : engine.Steady) {earlier : List EngineCall}
    {ruleset : Value} {e : EngineError} (he : engine.compile earlier ruleset = .error e) :
    ¬ engine.Accepts ruleset := by
  intro haccepts
  rw [Accepts, h [] earlier, he] at haccepts
  cases haccepts

end Engine

namespace Processor

/-- among the calls there is the compilation of the ruleset that the processor came of -/
def CompiledFrom (engine : Engine) (p : Processor) (calls : List EngineCall) (ruleset : Value) :
    Prop :=
  ∃ earlier later c, calls = earlier ++ .compile ruleset :: later ∧
    engine.compile earlier ruleset = .ok c ∧
    p.ruleset = some ⟨earlier.countP EngineCall.isCompile, c.version⟩ ∧
    p.addresses = c.addresses ∧ p.diagnostics = c.diagnostics

theorem CompiledFrom.withSampler {engine : Engine} {p : Processor} {calls : List EngineCall}
    {ruleset : Value} (h : p.CompiledFrom engine calls ruleset) (sampler : Option Nat) :
    (p.withSampler sampler).CompiledFrom engine calls ruleset := by
  rw [Processor.withSampler]
  split
  · exact h
  · exact h

theorem isReady_withSampler (p : Processor) (sampler : Option Nat) :
    (p.withSampler sampler).isReady = p.isReady := by
  rw [Processor.withSampler]
  split <;> rfl

/-- the processor of a ruleset is of use if the ruleset compiles -/
theorem isReady_compile (engine : Engine) (settings : Settings) (ruleset : Value) (h : Host) :
    (compile engine settings ruleset h).1.isReady = (engine.compile h.calls ruleset).isOk := by
  rw [compile, Host.compile]
  cases engine.compile h.calls ruleset <;> rfl

theorem newSampler_calls (s : ApiSecuritySettings) (h : Host) :
    (newSampler s h).2.calls = h.calls := by
  rw [newSampler]
  split <;> rfl

/-- the call is recorded; its outcome is a processor of the ruleset, or an inert one -/
theorem compile_cases (engine : Engine) (settings : Settings) (ruleset : Value) (h : Host) :
    (compile engine settings ruleset h).2.calls = h.calls ++ [.compile ruleset] ∧
    ((∃ e, engine.compile h.calls ruleset = .error e ∧
      (compile engine settings ruleset h).1.ruleset = none) ∨
    (∃ c, engine.compile h.calls ruleset = .ok c ∧
      (compile engine settings ruleset h).1.CompiledFrom engine (h.calls ++ [.compile ruleset])
        ruleset)) := by
  rw [compile, Host.compile]
  cases hc : engine.compile h.calls ruleset with
  | error e =>
    refine ⟨?_, .inl ⟨e, rfl, rfl⟩⟩
    exact newSampler_calls settings.apiSecurity
      ((h.call (.compile ruleset)).report (compileFailure e))
  | ok c =>
    refine ⟨?_, .inr ⟨c, rfl, h.calls, [], c, rfl, hc, rfl, rfl, rfl⟩⟩
    exact newSampler_calls settings.apiSecurity (h.call (.compile ruleset))

end Processor

/-! ## reconfigurations -/

namespace Component

/-- the component with another processor -/
def withProcessor (c : Component) (p : Processor) : Component := { c with processor := p }

/-- the processor in use stays if the ruleset does not compile -/
theorem reconfigure_cases (engine : Engine) (c : Component) (ruleset : Value) (h : Host) :
    (c.reconfigure engine ruleset h).2.2.calls = h.calls ++ [.compile ruleset] ∧
    ((∃ e, engine.compile h.calls ruleset = .error e ∧
      (c.reconfigure engine ruleset h).2.1 = c) ∨
    (∃ compilation p, engine.compile h.calls ruleset = .ok compilation ∧
      p.CompiledFrom engine (h.calls ++ [.compile ruleset]) ruleset ∧
      (c.reconfigure engine ruleset h).2.1 = c.withProcessor p)) := by
  obtain ⟨hcalls, ⟨e, he, hnone⟩ | ⟨compilation, hc, hfrom⟩⟩ :=
    Processor.compile_cases engine c.settings ruleset h
  · have hinert : ((Processor.compile engine c.settings ruleset h).1.withSampler
        c.processor.sampler).isReady = false := by
      rw [Processor.isReady_withSampler, Processor.isReady, hnone]
      rfl
    rw [reconfigure]
    simp only [hinert, Bool.false_eq_true, if_false]
    exact ⟨hcalls, .inl ⟨e, he, trivial⟩⟩
  · have hready : ((Processor.compile engine c.settings ruleset h).1.withSampler
        c.processor.sampler).isReady = true := by
      rw [Processor.isReady_withSampler, Processor.isReady_compile, hc]
      rfl
    rw [reconfigure]
    simp only [hready, if_true]
    exact ⟨hcalls, .inr ⟨compilation, _, hc, hfrom.withSampler c.processor.sampler, rfl⟩⟩

/-- the answer of a reconfiguration is whether the ruleset compiled -/
theorem reconfigure_fst (engine : Engine) (c : Component) (ruleset : Value) (h : Host) :
    (c.reconfigure engine ruleset h).1 = (engine.compile h.calls ruleset).isOk := by
  rw [← Processor.isReady_compile engine c.settings,
    ← Processor.isReady_withSampler _ c.processor.sampler, reconfigure]
  simp only
  split
  · next hready => exact hready.symm
  · next hinert => exact (Bool.eq_false_iff.mpr hinert).symm

/-- the component with a new toggle -/
def withActivation (c : Component) (activation : Option Bool) : Component :=
  { c with remoteActivation := activation }

theorem rulesetOf_calls (files : Files) (settings : Settings) (s : Snapshot) (l : Ledger)
    (h : Host) : (rulesetOf files settings s l h).2.2.calls = h.calls := by
  rw [rulesetOf]
  simp only
  split
  · rw [loadRuleset]
    cases (settings.ruleset.load files).1 with
    | ok rules => rfl
    | error e => rfl
  · rfl

/-- the toggle is taken over, then the described ruleset is compiled, if there is one -/
theorem reconfigureFrom_cases (engine : Engine) (files : Files) (c : Component) (s : Snapshot)
    (l : Ledger) (h : Host) :
    ∃ l' h', h'.calls = h.calls ∧
      ((∃ e, describedRuleset files c.settings s = .error e ∧
        c.reconfigureFrom engine files s l h = (.error e, c.withActivation s.toggle?, l', h')) ∨
      (∃ ruleset, describedRuleset files c.settings s = .ok ruleset ∧
        c.reconfigureFrom engine files s l h
          = (.ok ((c.withActivation s.toggle?).reconfigure engine ruleset h').1,
            ((c.withActivation s.toggle?).reconfigure engine ruleset h').2.1, l',
            ((c.withActivation s.toggle?).reconfigure engine ruleset h').2.2))) := by
  have hcalls := rulesetOf_calls files c.settings s (activationOf s l).2 h
  have hfst := rulesetOf_fst files c.settings s (activationOf s l).2 h
  refine ⟨(rulesetOf files c.settings s (activationOf s l).2 h).2.1,
    (rulesetOf files c.settings s (activationOf s l).2 h).2.2, hcalls, ?_⟩
  rw [reconfigureFrom]
  simp only [activationOf_fst]
  match hr : rulesetOf files c.settings s (activationOf s l).2 h with
  | (.error e, l', h') =>
    rw [hr] at hfst
    exact .inl ⟨e, hfst.symm, rfl⟩
  | (.ok ruleset, l', h') =>
    rw [hr] at hfst
    exact .inr ⟨ruleset, hfst.symm, rfl⟩

theorem settings_reconfigure (engine : Engine) (c : Component) (ruleset : Value) (h : Host) :
    (c.reconfigure engine ruleset h).2.1.settings = c.settings := by
  rw [reconfigure]
  simp only
  split <;> rfl

theorem settings_reconfigureFrom (engine : Engine) (files : Files) (c : Component) (s : Snapshot)
    (l : Ledger) (h : Host) :
    (c.reconfigureFrom engine files s l h).2.1.settings = c.settings := by
  obtain ⟨l', h', -, ⟨e, -, heq⟩ | ⟨ruleset, -, heq⟩⟩ :=
    reconfigureFrom_cases engine files c s l h
  · rw [heq]
    rfl
  · rw [heq]
    exact settings_reconfigure engine _ ruleset h'

theorem reconfigureFrom_fst_eq_error (engine : Engine) (files : Files) (c : Component)
    (s : Snapshot) (l : Ledger) (h : Host) (e : RemoteError) :
    (c.reconfigureFrom engine files s l h).1 = .error e ↔
      describedRuleset files c.settings s = .error e := by
  obtain ⟨l', h', -, ⟨e', hd, heq⟩ | ⟨ruleset, hd, heq⟩⟩ :=
    reconfigureFrom_cases engine files c s l h
  · rw [heq, hd]
    exact ⟨fun h => by cases h; rfl, fun h => by cases h; rfl⟩
  · rw [heq, hd]
    exact ⟨fun h => (by cases h), fun h => (by cases h)⟩

/-! ## following a snapshot -/

/-- the component has the toggle of a snapshot, and a processor of its ruleset if it describes one
that the engine accepts -/
structure Follows (engine : Engine) (files : Files) (c : Component) (s : Snapshot)
    (calls : List EngineCall) : Prop where
  toggle : c.remoteActivation = s.toggle?
  ruleset : ∀ ruleset, describedRuleset files c.settings s = .ok ruleset →
    engine.Accepts ruleset → c.processor.CompiledFrom engine calls ruleset

/-- what stays of a component while it is called with a snapshot -/
structure Kept (engine : Engine) (files : Files) (s : Snapshot) (c c' : Component) : Prop where
  settings : c'.settings = c.settings
  /-- the processor, unless the snapshot describes a ruleset that the engine accepts -/
  processor : (∀ ruleset, describedRuleset files c.settings s = .ok ruleset →
    ¬ engine.Accepts ruleset) → c'.processor = c.processor

variable {engine : Engine} {files : Files} {s : Snapshot} {c c' c'' : Component}

theorem Kept.refl : Kept engine files s c c := ⟨rfl, fun _ => rfl⟩

theorem Kept.trans (h : Kept engine files s c c') (h' : Kept engine files s c' c'') :
    Kept engine files s c c'' where
  settings := h'.settings.trans h.settings
  processor := by
    intro hnone
    have hnone' := hnone
    rw [← h.settings] at hnone'
    exact (h'.processor hnone').trans (h.processor hnone)

theorem follows_reconfigureFrom (hs : engine.Steady) (files : Files) (s : Snapshot)
    (c : Component) (l : Ledger) (h : Host) :
    (c.reconfigureFrom engine files s l h).2.1.Follows engine files s
        (c.reconfigureFrom engine files s l h).2.2.2.calls ∧
      Kept engine files s c (c.reconfigureFrom engine files s l h).2.1 := by
  obtain ⟨l', h', hcalls, ⟨e, hd, heq⟩ | ⟨ruleset, hd, heq⟩⟩ :=
    reconfigureFrom_cases engine files c s l h
  · -- no ruleset: only the toggle changes
    rw [heq]
    refine ⟨⟨rfl, fun ruleset hd' => ?_⟩, rfl, fun _ => rfl⟩
    exact absurd (hd.symm.trans hd') (by intro h; cases h)
  · rw [heq]
    obtain ⟨hrecorded, ⟨e, he, hkept⟩ | ⟨compilation, p, hc, hfrom, hnew⟩⟩ :=
      reconfigure_cases engine (c.withActivation s.toggle?) ruleset h'
    · -- refused: the processor stays
      have hno := hs.not_accepts he
      show Follows engine files ((c.withActivation s.toggle?).reconfigure engine ruleset h').2.1
          s _ ∧
        Kept engine files s c ((c.withActivation s.toggle?).reconfigure engine ruleset h').2.1
      rw [hkept]
      refine ⟨⟨rfl, fun ruleset' hd' haccepts => ?_⟩, rfl, fun _ => rfl⟩
      cases hd.symm.trans hd'
      exact absurd haccepts hno
    · -- accepted: the processor is one of the ruleset
      have haccepts := hs.accepts hc
      show Follows engine files ((c.withActivation s.toggle?).reconfigure engine ruleset h').2.1
          s ((c.withActivation s.toggle?).reconfigure engine ruleset h').2.2.calls ∧
        Kept engine files s c ((c.withActivation s.toggle?).reconfigure engine ruleset h').2.1
      rw [hnew, hrecorded]
      refine ⟨⟨rfl, fun ruleset' hd' _ => ?_⟩, rfl, fun hnone => ?_⟩
      · cases hd.symm.trans hd'
        exact hfrom
      · exact absurd haccepts (hnone ruleset hd)

end Component
end RemoteGuard
