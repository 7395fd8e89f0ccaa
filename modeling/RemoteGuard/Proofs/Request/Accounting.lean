import Mathlib.Algebra.GroupWithZero.Nat
import RemoteGuard.Processor
import RemoteGuard.Proofs.Run

/-!
# What a context accounts for

A context adds up over its runs what the engine answers to them.  A run asks the engine once, and
for the entries that say something only; a run that fails leaves the figures as they are.

* `mem_presentEntries`   the entries that a run sends;
* `RequestContext.run_eq`   all that one run does: to the context, to the engine, to the reports;
* `RequestContext.Totals`   the figures of a context are those of evaluations, added up;
* `RequestContext.figures_of_runs`   so they are after runs of a context one after another, and there
  is a report for each run that failed or ended unsuccessfully.
-/

namespace RemoteGuard
open Json

/-! ## entries that are sent -/

/-- the value says nothing -/
def Json.Value.IsBlank (v : Value) : Prop :=
  v = .null ∨ v = .string "" ∨ v = .array [] ∨ v = .object []

theorem isPresent_iff (v : Value) : isPresent v = true ↔ ¬ v.IsBlank := by
  cases v with
  | null => simp [isPresent, Value.IsBlank]
  | bool b => simp [isPresent, Value.IsBlank]
  | number n => simp [isPresent, Value.IsBlank]
  | string s => simp [isPresent, Value.IsBlank]
  | array vs => simp [isPresent, Value.IsBlank]
  | object ms => simp [isPresent, Value.IsBlank]

theorem mem_presentEntries {input : Object} {entry : String × Value} :
    entry ∈ presentEntries input ↔ entry ∈ input ∧ ¬ entry.2.IsBlank := by
  have h : entry ∈ presentEntries input ↔ entry ∈ input ∧ isPresent entry.2 = true :=
    List.mem_filter
  rw [h, isPresent_iff]

theorem presentEntries_sublist (input : Object) : (presentEntries input).Sublist input :=
  List.filter_sublist

/-! ## sums that stay a word -/

theorem saturatingAdd_min (total n : Nat) :
    saturatingAdd (min total (wordLimit - 1)) n = min (total + n) (wordLimit - 1) := by
  have h : ∀ limit, min (min total limit + n) limit = min (total + n) limit := fun limit => by omega
  exact h _

theorem RunStatus.isSuccess_iff (s : RunStatus) :
    s.isSuccess = true ↔ s = .ok ∨ s = .matched := by
  simp [RunStatus.isSuccess]

namespace RequestContext

structure Request where
  input : Object
  timeoutUs : Nat

def callFor (context : Nat) (q : Request) : EngineCall :=
  .run context (presentEntries q.input) q.timeoutUs

/-- what the engine answers to a request, after earlier calls -/
def answerTo (engine : Engine) (context : Nat) (earlier : List EngineCall) (q : Request) :
    Except EngineError Evaluation :=
  engine.run earlier context (presentEntries q.input) q.timeoutUs

def after (c : RequestContext) : Except EngineError Evaluation → RequestContext
  | .ok e => c.accumulate e
  | .error _ => c

/-- the report of an answer, which only failures and unsuccessful statuses have -/
def reportOf (c : RequestContext) : Except EngineError Evaluation → Option (Report Trouble)
  | .error e => some ⟨.error, c.runLabel, some (.engine e)⟩
  | .ok e =>
    if e.status = .ok ∨ e.status = .matched then none
    else some ⟨.error, c.runLabel ++ ": " ++ e.status.text, none⟩

/-! ## single runs -/

/-- A run asks the engine once, and files at most one report. -/
theorem run_eq (engine : Engine) (c : RequestContext) (q : Request) (h : Host) :
    c.run engine q.input q.timeoutUs h
      = (answerTo engine c.context h.calls q, c.after (answerTo engine c.context h.calls q),
          { h with
            calls := h.calls ++ [callFor c.context q]
            reports := h.reports ++ (c.reportOf (answerTo engine c.context h.calls q)).toList }) := by
  have hrun : h.run engine c.context (presentEntries q.input) q.timeoutUs
      = (answerTo engine c.context h.calls q, h.call (callFor c.context q)) := rfl
  rw [run, hrun]
  cases answerTo engine c.context h.calls q with
  | error e => rfl
  | ok e =>
    by_cases hs : e.status = .ok ∨ e.status = .matched
    · have hsuccess : e.status.isSuccess = true := e.status.isSuccess_iff.mpr hs
      simp only [hsuccess, if_true, reportOf, hs, Option.toList_none, List.append_nil]
      rfl
    · have hsuccess : ¬ e.status.isSuccess = true := fun h => hs (e.status.isSuccess_iff.mp h)
      simp only [hsuccess, if_false, reportOf, hs]
      rfl

theorem frame_after (c : RequestContext) (answer : Except EngineError Evaluation) :
    (c.after answer).context = c.context ∧ (c.after answer).version = c.version := by
  cases answer with
  | error e => exact ⟨rfl, rfl⟩
  | ok e => exact ⟨rfl, rfl⟩

theorem reportOf_congr {c c' : RequestContext} (h : c'.version = c.version)
    (answer : Except EngineError Evaluation) : c'.reportOf answer = c.reportOf answer := by
  cases answer with
  | error e => simp only [reportOf, runLabel, h]
  | ok e => simp only [reportOf, runLabel, h]

/-! ## figures -/

def evaluationsOf (answers : List (Except EngineError Evaluation)) : List Evaluation :=
  answers.filterMap Except.toOption

/-- the figures of a context are those of evaluations, added up -/
structure Totals (c : RequestContext) (evaluations : List Evaluation) : Prop where
  timeNs : c.timeNs = min (evaluations.map Evaluation.runtimeNs).sum (wordLimit - 1)
  timeouts : c.timeouts = evaluations.countP Evaluation.timeout
  events : c.events
    = (evaluations.filter fun e => e.status = .matched).flatMap Evaluation.events

theorem Totals.accumulate {c : RequestContext} {evaluations : List Evaluation}
    (h : c.Totals evaluations) (e : Evaluation) :
    (c.accumulate e).Totals (evaluations ++ [e]) := by
  constructor
  · have hsum : ((evaluations ++ [e]).map Evaluation.runtimeNs).sum
        = (evaluations.map Evaluation.runtimeNs).sum + e.runtimeNs := by simp
    rw [hsum, ← saturatingAdd_min, ← h.timeNs]
    rfl
  · rw [List.countP_append, ← h.timeouts]
    show (if e.timeout then c.timeouts + 1 else c.timeouts) = _
    cases ht : e.timeout <;> simp [ht]
  · rw [List.filter_append, List.flatMap_append, ← h.events]
    show (if e.status = .matched then c.events ++ e.events else c.events) = _
    by_cases hm : e.status = .matched <;> simp [hm]

theorem Totals.after {c : RequestContext} {answers : List (Except EngineError Evaluation)}
    (h : c.Totals (evaluationsOf answers)) (answer : Except EngineError Evaluation) :
    (c.after answer).Totals (evaluationsOf (answers ++ [answer])) := by
  cases answer with
  | error e =>
    have hsame : evaluationsOf (answers ++ [.error e]) = evaluationsOf answers := by
      simp [evaluationsOf, Except.toOption]
    rw [hsame]
    exact h
  | ok e =>
    have hmore : evaluationsOf (answers ++ [.ok e]) = evaluationsOf answers ++ [e] := by
      simp [evaluationsOf, Except.toOption]
    rw [hmore]
    exact h.accumulate e

theorem totals_activate {p : Processor} {h h' : Host} {c : RequestContext}
    (hopen : p.activate h = (some c, h')) : c.Totals [] := by
  unfold Processor.activate at hopen
  split at hopen
  · cases hopen
  · cases hopen
    exact ⟨(Nat.zero_min _).symm, rfl, rfl⟩

/-! ## runs -/

def ask (engine : Engine) (q : Request) (s : RequestContext × Host) :
    Except EngineError Evaluation × RequestContext × Host :=
  s.1.run engine q.input q.timeoutUs s.2

/-- what the engine answers to requests one after another -/
def answersTo (engine : Engine) (context : Nat) (earlier : List EngineCall) :
    List Request → List (Except EngineError Evaluation)
  | [] => []
  | q :: qs =>
    answerTo engine context earlier q
      :: answersTo engine context (earlier ++ [callFor context q]) qs

/-- The engine is asked once by every run, and the runs are answered what it answers. -/
theorem runAll_ask (engine : Engine) (requests : List Request) (c : RequestContext) (h : Host) :
    runAll (ask engine) requests (c, h)
      = (answersTo engine c.context h.calls requests,
          (answersTo engine c.context h.calls requests).foldl after c,
          { h with
            calls := h.calls ++ requests.map (callFor c.context)
            reports := h.reports
              ++ (answersTo engine c.context h.calls requests).filterMap c.reportOf }) := by
  induction requests generalizing c h with
  | nil => simp [runAll_nil, answersTo]
  | cons q qs ih =>
    have hstep : ask engine q (c, h) = _ := run_eq engine c q h
    obtain ⟨hcontext, hversion⟩ := frame_after c (answerTo engine c.context h.calls q)
    have hreports : (c.after (answerTo engine c.context h.calls q)).reportOf = c.reportOf :=
      funext fun answer => reportOf_congr hversion answer
    rw [runAll_cons, hstep, ih, hcontext, hreports]
    cases hr : c.reportOf (answerTo engine c.context h.calls q) <;>
      simp [answersTo, hr]

theorem totals_foldl {c : RequestContext} {done : List (Except EngineError Evaluation)}
    (h : c.Totals (evaluationsOf done)) (answers : List (Except EngineError Evaluation)) :
    (answers.foldl RequestContext.after c).Totals (evaluationsOf (done ++ answers)) := by
  induction answers generalizing c done with
  | nil => simpa using h
  | cons answer answers ih =>
    have hnext := ih (h.after answer)
    simpa using hnext

/-- **What a context accounts for.**  After any runs of a context that was opened, the engine was
asked once for each, with the timeout and the entries that say something; the figures are those of
the evaluations it answered with, added up; there is an error report for each failure and each
unsuccessful status and no other; and a further run that fails leaves the figures as they are. -/
theorem figures_of_runs {engine : Engine} {p : Processor} {h₀ h : Host} {c : RequestContext}
    (hopen : p.activate h₀ = (some c, h)) (requests : List Request) :
    let answers := (runAll (ask engine) requests (c, h)).1
    let result := (runAll (ask engine) requests (c, h)).2
    let evaluations := answers.filterMap Except.toOption
    result.2.calls = h.calls
        ++ requests.map (fun q => .run c.context (presentEntries q.input) q.timeoutUs) ∧
    (∀ q ∈ requests, (presentEntries q.input).Sublist q.input ∧
      ∀ entry, entry ∈ presentEntries q.input ↔ entry ∈ q.input ∧ ¬ entry.2.IsBlank) ∧
    answers = answersTo engine c.context h.calls requests ∧
    result.1.timeNs = min (evaluations.map Evaluation.runtimeNs).sum (2 ^ 64 - 1) ∧
    result.1.timeouts = evaluations.countP Evaluation.timeout ∧
    result.1.timeouts ≤ requests.length ∧
    result.1.events = (evaluations.filter fun e => e.status = .matched).flatMap Evaluation.events ∧
    result.2.reports = h.reports ++ answers.filterMap c.reportOf ∧
    ∀ q e, (ask engine q result).1 = .error e → (ask engine q result).2.1 = result.1 := by
  intro answers result evaluations
  have hall := runAll_ask engine requests c h
  have hanswers : answers = answersTo engine c.context h.calls requests := congrArg Prod.fst hall
  have hcontext : result.1 = answers.foldl RequestContext.after c := by
    rw [hanswers]
    exact congrArg (fun run => run.2.1) hall
  have hcalls : result.2.calls = h.calls ++ requests.map (callFor c.context) :=
    congrArg (fun run => run.2.2.calls) hall
  have hreports : result.2.reports = h.reports ++ answers.filterMap c.reportOf := by
    rw [hanswers]
    exact congrArg (fun run => run.2.2.reports) hall
  have hstart : c.Totals (evaluationsOf []) := totals_activate hopen
  have htotals : result.1.Totals evaluations := by
    rw [hcontext]
    exact totals_foldl hstart answers
  have hcount : evaluations.countP Evaluation.timeout ≤ requests.length := by
    have hlength : answers.length = requests.length := length_runAll ..
    have hle : evaluations.length ≤ answers.length := List.length_filterMap_le ..
    have hcount : evaluations.countP Evaluation.timeout ≤ evaluations.length :=
      List.countP_le_length
    omega
  refine ⟨hcalls, fun q _ => ?_, hanswers, htotals.timeNs, htotals.timeouts,
    htotals.timeouts ▸ hcount, htotals.events, hreports, fun q e he => ?_⟩
  · exact ⟨presentEntries_sublist q.input, fun entry => mem_presentEntries⟩
  · have hask : ask engine q result = _ := run_eq engine result.1 q result.2
    rw [hask] at he ⊢
    have he : answerTo engine result.1.context result.2.calls q = .error e := he
    show result.1.after _ = result.1
    rw [he]
    rfl

/-- three runs: one that matches and takes very long, one that fails, and one that is refused -/
theorem figures_of_long_run :
    let engine : Engine := ⟨fun _ _ => .ok {}, fun earlier _ _ _ =>
      match earlier.length with
      | 1 => .ok { status := .matched, events := [.bool true], runtimeNs := 2 ^ 64 - 1 }
      | 2 => .error ⟨"out of memory", none⟩
      | _ => .ok { status := .invalidObject, runtimeNs := 7, timeout := true }⟩
    let p : Processor := ⟨some ⟨0, "1.0"⟩, none, [], 5000, {}, none⟩
    let q : Request := ⟨[("body", .array []), ("method", .string "GET")], 5000⟩
    ∃ c h, p.activate {} = (some c, h) ∧
      let result := (runAll (ask engine) [q, q, q] (c, h)).2
      result.1.timeNs = 2 ^ 64 - 1 ∧ result.1.timeouts = 1 ∧ result.1.events = [.bool true] ∧
        result.2.reports.length = 2 ∧
        result.2.calls = h.calls ++ List.replicate 3 (.run 0 [("method", .string "GET")] 5000) := by
  intro engine p q
  let c : RequestContext := { context := 0, version := "1.0", schemaSampling := none }
  have hopen : p.activate {} = (some c, ({} : Host).call (.openContext 0 0)) := rfl
  refine ⟨c, _, hopen, ?_⟩
  have hfigures := @figures_of_runs engine p {} _ c hopen [q, q, q]
  obtain ⟨hcalls, -, hanswers, htime, htimeouts, -, hevents, hreports, -⟩ := hfigures
  rw [hanswers] at htime htimeouts hevents hreports
  refine ⟨htime.trans (by decide +kernel), htimeouts.trans (by decide +kernel), hevents, ?_, hcalls⟩
  rw [hreports]
  rfl

end RequestContext
end RemoteGuard
