import Mathlib.Data.List.Basic

/-!
# Runs

A machine takes an input, answers it, and goes on in a new state.  `runAll` is what it answers to
inputs one after another, with its state after them.

* `runAll_keeps`     what every step keeps, a run keeps;
* `runAll_related`   machines whose states are related from step to step give the same answers;
* `runAll_visible`   so they do where one of them takes further steps that it does not answer.
-/

namespace RemoteGuard

section
variable {ι ο σ τ : Type}

/-- the answers to inputs one after another, and the state after them -/
def runAll (step : ι → σ → ο × σ) : List ι → σ → List ο × σ
  | [], s => ([], s)
  | i :: is, s =>
    let (answer, s) := step i s
    let (answers, s) := runAll step is s
    (answer :: answers, s)

theorem runAll_nil (step : ι → σ → ο × σ) (s : σ) : runAll step [] s = ([], s) := rfl

theorem runAll_cons (step : ι → σ → ο × σ) (i : ι) (is : List ι) (s : σ) :
    runAll step (i :: is) s
      = ((step i s).1 :: (runAll step is (step i s).2).1, (runAll step is (step i s).2).2) := rfl

theorem length_runAll (step : ι → σ → ο × σ) (is : List ι) (s : σ) :
    (runAll step is s).1.length = is.length := by
  induction is generalizing s with
  | nil => rfl
  | cons i is ih => simp only [runAll_cons, List.length_cons, ih]

theorem runAll_keeps {step : ι → σ → ο × σ} {holds : σ → Prop}
    (hstep : ∀ i s, holds s → holds (step i s).2) {s : σ} (h : holds s) (is : List ι) :
    holds (runAll step is s).2 := by
  induction is generalizing s with
  | nil => exact h
  | cons i is ih => exact ih (hstep i s h)

/-- machines with related states give the same answers, and end in related states -/
theorem runAll_related {step : ι → σ → ο × σ} {step' : ι → τ → ο × τ} {related : σ → τ → Prop}
    (hstep : ∀ i s t, related s t →
      (step i s).1 = (step' i t).1 ∧ related (step i s).2 (step' i t).2)
    {s : σ} {t : τ} (h : related s t) (is : List ι) :
    (runAll step is s).1 = (runAll step' is t).1 ∧
      related (runAll step is s).2 (runAll step' is t).2 := by
  induction is generalizing s t with
  | nil => exact ⟨rfl, h⟩
  | cons i is ih =>
    obtain ⟨hanswer, hnext⟩ := hstep i s t h
    obtain ⟨hanswers, hlast⟩ := ih hnext
    simp only [runAll_cons]
    exact ⟨by rw [hanswer, hanswers], hlast⟩

/-- a machine that answers some inputs only, next to one that is given only these -/
theorem runAll_visible {κ : Type} {step : ι → σ → Option ο × σ} {step' : κ → τ → ο × τ}
    {visible : ι → Option κ} {related : σ → τ → Prop}
    (hhidden : ∀ i s t, related s t → visible i = none →
      (step i s).1 = none ∧ related (step i s).2 t)
    (hvisible : ∀ i k s t, related s t → visible i = some k →
      (step i s).1 = some (step' k t).1 ∧ related (step i s).2 (step' k t).2)
    {s : σ} {t : τ} (h : related s t) (is : List ι) :
    (runAll step is s).1.filterMap id = (runAll step' (is.filterMap visible) t).1 ∧
      related (runAll step is s).2 (runAll step' (is.filterMap visible) t).2 := by
  induction is generalizing s t with
  | nil => exact ⟨rfl, h⟩
  | cons i is ih =>
    cases hi : visible i with
    | none =>
      obtain ⟨hanswer, hnext⟩ := hhidden i s t h hi
      simp only [runAll_cons, List.filterMap_cons, hi, hanswer, id_eq]
      exact ih hnext
    | some k =>
      obtain ⟨hanswer, hnext⟩ := hvisible i k s t h hi
      obtain ⟨hanswers, hlast⟩ := ih hnext
      simp only [runAll_cons, List.filterMap_cons, hi, hanswer, id_eq]
      exact ⟨congrArg _ hanswers, hlast⟩

end
end RemoteGuard
