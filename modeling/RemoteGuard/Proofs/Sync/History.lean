import RemoteGuard.Proofs.Sync.Applied
import RemoteGuard.Repository.Report

/-!
# Histories of responses

A rejected response leaves a repository as it was, apart from the error that is reported next; and
the next response overwrites that error, whatever it was.  So a history of responses leads to what
its accepted ones lead to, and each report tells of the last response only.

* `applyResponse_recordError`   a response does not depend on the error recorded before it;
* `applyAll_accepted`           the rejected responses of a history may be left out;
* `lastError_of_answer`         the error to report is that of the last response;
* `history_of_accepted`         all of this, for every history.
-/

namespace RemoteGuard

/-- what a response came to, and the repository right after it -/
structure Answer where
  response : Response
  outcome : Except SyncError Repository.ChangeSet
  after : Repository

namespace Repository
variable {hexDigest : HexDigest}

/-! ## histories -/

def answers (hexDigest : HexDigest) (r : Repository) : List Response → List Answer
  | [] => []
  | response :: rest =>
    let (outcome, after) := r.applyResponse hexDigest response
    ⟨response, outcome, after⟩ :: answers hexDigest after rest

/-- the repository after all the responses -/
def applyAll (hexDigest : HexDigest) (r : Repository) (responses : List Response) : Repository :=
  responses.foldl (fun r response => (r.applyResponse hexDigest response).2) r

def acceptances (hexDigest : HexDigest) (r : Repository) (responses : List Response) :
    List Answer :=
  (answers hexDigest r responses).filter fun a => a.outcome.isOk

/-- the responses of a history that were accepted when they came -/
def accepted (hexDigest : HexDigest) (r : Repository) (responses : List Response) :
    List Response := (acceptances hexDigest r responses).map Answer.response

theorem applyAll_cons (r : Repository) (response : Response) (rest : List Response) :
    applyAll hexDigest r (response :: rest)
      = applyAll hexDigest (r.applyResponse hexDigest response).2 rest := rfl

theorem answers_cons (r : Repository) (response : Response) (rest : List Response) :
    answers hexDigest r (response :: rest)
      = ⟨response, (r.applyResponse hexDigest response).1,
          (r.applyResponse hexDigest response).2⟩
        :: answers hexDigest (r.applyResponse hexDigest response).2 rest := rfl

/-! ## the recorded error -/

theorem transaction_recordError {ε : Type} (r : Repository) (e : Option RecordedError)
    (build : Snapshot → Except ε (List Operation)) :
    (r.recordError e).transaction build
      = (r.transaction build).map fun p => (p.1, p.2.recordError e) := by
  have hcurrent : (r.recordError e).current = r.current := rfl
  unfold transaction
  rw [hcurrent]
  cases build r.current with
  | error _ => rfl
  | ok ops => rfl

theorem sync_recordError (r : Repository) (e : Option RecordedError) (response : Response) :
    (r.recordError e).sync hexDigest response
      = (r.sync hexDigest response).map fun p => (p.1, p.2.recordError e) := by
  have hledger : (r.recordError e).ledger = r.ledger := rfl
  unfold sync
  rw [hledger]
  cases response.isEmpty with
  | true => rfl
  | false =>
    cases parsePaths response.paths with
    | error _ => rfl
    | ok listed =>
      cases Manifest.parseBytes (response.targets.getD []) with
      | error _ => rfl
      | ok manifest =>
        simp only [Bool.false_eq_true, if_false]
        cases r.ledger.receiveAll manifest.expires response.files with
        | error _ => rfl
        | ok received =>
          exact transaction_recordError { r with ledger := received.2 } e
            (Sync.plan hexDigest manifest received.1 listed)

theorem applyResponse_recordError (r : Repository) (e : Option RecordedError) (response : Response) :
    (r.recordError e).applyResponse hexDigest response = r.applyResponse hexDigest response := by
  unfold applyResponse
  rw [sync_recordError]
  cases r.sync hexDigest response with
  | error _ => rfl
  | ok _ => rfl

theorem answers_recordError (r : Repository) (e : Option RecordedError) (responses : List Response) :
    answers hexDigest (r.recordError e) responses = answers hexDigest r responses := by
  cases responses with
  | nil => rfl
  | cons response rest => rw [answers_cons, answers_cons, applyResponse_recordError]

/-- an error recorded before a history shows after it at most as the recorded error -/
theorem applyAll_recordError (r : Repository) (e : Option RecordedError) (responses : List Response) :
    (applyAll hexDigest (r.recordError e) responses).recordError none
      = (applyAll hexDigest r responses).recordError none := by
  cases responses with
  | nil => rfl
  | cons response rest => rw [applyAll_cons, applyAll_cons, applyResponse_recordError]

/-! ## histories without their rejected responses -/

theorem acceptances_cons_of_ok {r : Repository} {response : Response} {changes : ChangeSet}
    (h : (r.applyResponse hexDigest response).1 = .ok changes) (rest : List Response) :
    acceptances hexDigest r (response :: rest)
      = ⟨response, .ok changes, (r.applyResponse hexDigest response).2⟩
        :: acceptances hexDigest (r.applyResponse hexDigest response).2 rest := by
  unfold acceptances
  rw [answers_cons, List.filter_cons, h]
  rfl

theorem acceptances_cons_of_error {r : Repository} {response : Response} {e : SyncError}
    (h : (r.applyResponse hexDigest response).1 = .error e) (rest : List Response) :
    acceptances hexDigest r (response :: rest) = acceptances hexDigest r rest := by
  unfold acceptances
  rw [answers_cons, List.filter_cons, applyResponse_of_error h, answers_recordError, h]
  rfl

theorem accepted_cons_of_ok {r : Repository} {response : Response} {changes : ChangeSet}
    (h : (r.applyResponse hexDigest response).1 = .ok changes) (rest : List Response) :
    accepted hexDigest r (response :: rest)
      = response :: accepted hexDigest (r.applyResponse hexDigest response).2 rest := by
  unfold accepted
  rw [acceptances_cons_of_ok h, List.map_cons]

theorem accepted_cons_of_error {r : Repository} {response : Response} {e : SyncError}
    (h : (r.applyResponse hexDigest response).1 = .error e) (rest : List Response) :
    accepted hexDigest r (response :: rest) = accepted hexDigest r rest := by
  unfold accepted
  rw [acceptances_cons_of_error h]

theorem applyAll_accepted (r : Repository) (responses : List Response) :
    (applyAll hexDigest r (accepted hexDigest r responses)).recordError none
      = (applyAll hexDigest r responses).recordError none := by
  induction responses generalizing r with
  | nil => rfl
  | cons response rest ih =>
    cases h : (r.applyResponse hexDigest response).1 with
    | error e =>
      -- the error that it leaves is overwritten by the rest, or is the last
      rw [accepted_cons_of_error h, ih, applyAll_cons, applyResponse_of_error h,
        applyAll_recordError]
    | ok changes => rw [accepted_cons_of_ok h, applyAll_cons, ih, applyAll_cons]

/-- without the rejected ones, a history brings the answers that it brought to the others -/
theorem answers_accepted (r : Repository) (responses : List Response) :
    answers hexDigest r (accepted hexDigest r responses) = acceptances hexDigest r responses := by
  induction responses generalizing r with
  | nil => rfl
  | cons response rest ih =>
    cases h : (r.applyResponse hexDigest response).1 with
    | error e => rw [accepted_cons_of_error h, acceptances_cons_of_error h, ih]
    | ok changes =>
      rw [accepted_cons_of_ok h, acceptances_cons_of_ok h, answers_cons, ih, h]

/-! ## reports -/

/-- the text of the error that an outcome is, if it is one -/
def errorText? (accounts : Accounts Bytes) : Except SyncError ChangeSet → Option String
  | .ok _ => none
  | .error e => some (e.message accounts)

variable (accounts : Accounts Bytes)

theorem isSome_errorText? (outcome : Except SyncError ChangeSet) :
    (errorText? accounts outcome).isSome = true ↔ ∃ e, outcome = .error e := by
  cases outcome with
  | error e => exact ⟨fun _ => ⟨e, rfl⟩, fun _ => rfl⟩
  | ok changes =>
    constructor
    · intro h
      cases h
    · rintro ⟨e, h⟩
      cases h

theorem lastError_applyResponse (r : Repository) (response : Response) :
    (r.applyResponse hexDigest response).2.lastError.map (RecordedError.message accounts)
      = errorText? accounts (r.applyResponse hexDigest response).1 := by
  rcases applyResponse_cases hexDigest r response with ⟨e, h⟩ | ⟨-, h⟩ | ⟨-, a, h⟩
  · rw [h]
    rfl
  · rw [h]
    rfl
  · rw [h]
    rfl

theorem lastError_of_answer {r : Repository} {responses : List Response} {answer : Answer}
    (h : answer ∈ answers hexDigest r responses) :
    answer.after.lastError.map (RecordedError.message accounts)
      = errorText? accounts answer.outcome := by
  induction responses generalizing r with
  | nil => cases h
  | cons response rest ih =>
    rw [answers_cons] at h
    rcases List.mem_cons.mp h with rfl | h
    · exact lastError_applyResponse accounts r response
    · exact ih h

/-- **Histories.**  After any history of responses the snapshot, and what is recorded about its
contents, are those that the accepted responses alone lead to; without the others, these bring
the answers that they brought among them.  Every report right after a response tells whether it
was rejected, and why, with the account of the reader that refused the manifest. -/
theorem history_of_accepted (accounts : Accounts Bytes) (hexDigest : HexDigest)
    (r : Repository) (responses : List Response) :
    let final := applyAll hexDigest r responses
    let clean := applyAll hexDigest r (accepted hexDigest r responses)
    final.current = clean.current ∧
    (∀ c, final.ledger.version c = clean.ledger.version c ∧
      final.ledger.state c = clean.ledger.state c) ∧
    answers hexDigest r (accepted hexDigest r responses) = acceptances hexDigest r responses ∧
    ∀ answer ∈ answers hexDigest r responses,
      ((answer.after.report hexDigest).hasError = true ↔ ∃ e, answer.outcome = .error e) ∧
      (answer.after.report hexDigest).error accounts
        = (errorText? accounts answer.outcome).getD "" := by
  intro final clean
  have hsame : clean.recordError none = final.recordError none := applyAll_accepted r responses
  obtain ⟨hcurrent, hledger, -⟩ := Repository.mk.inj hsame
  refine ⟨hcurrent.symm, ?_, answers_accepted r responses, ?_⟩
  · intro c
    rw [hledger]
    exact ⟨rfl, rfl⟩
  · intro answer hanswer
    have htext := lastError_of_answer accounts hanswer
    constructor
    · rw [← isSome_errorText? accounts, ← htext, Option.isSome_map]
      exact Iff.rfl
    · rw [← htext]
      rfl

/-- Between an accepted response and an empty one come a tampered file, a manifest without its signed
part, and one that expires at no time. -/
theorem history_with_tampered_file :
    let accounts : Accounts Bytes :=
      ⟨fun _ => "missing field `signed` at line 1 column 2",
        fun _ => "the 'year' component could not be parsed"⟩
    let plain : HexDigest := fun _ data => data.hex
    let x : TargetFile := ⟨"employee/ASM/x/config", [97]⟩
    let good := Response.delivering plain 1 [x]
    let tampered := { Response.delivering plain 2 [{ x with raw := [98] }] with files := [x] }
    let unsigned : Response := ⟨some (utf8 "\x7b\x7d"), [], []⟩
    let undated : Response := ⟨some (utf8 "\x7b\"signed\":[3,\x7b\x7d,null,\"never\"]\x7d"), [], []⟩
    let responses : List Response := [good, tampered, unsigned, undated, {}]
    accepted plain {} responses = [good, {}] ∧
      (applyAll plain {} responses).current = (applyAll plain {} [good, {}]).current ∧
      (answers plain {} responses).map (fun answer =>
        let report := answer.after.report plain
        (report.hasError, report.error accounts)) = [
          (false, ""),
          (true, "no valid content for target at path 'employee/ASM/x/config'"),
          (true, "malformed targets metadata: missing field `signed` at line 1 column 2"),
          (true, "invalid expiration timestamp: the 'year' component could not be parsed"),
          (false, "")] := by
  intro accounts plain x good tampered unsigned undated responses
  have haccepted : accepted plain {} responses = [good, {}] := by decide +kernel
  obtain ⟨hcurrent, -, -, hreports⟩ := history_of_accepted accounts plain {} responses
  rw [haccepted] at hcurrent
  refine ⟨haccepted, hcurrent, ?_⟩
  have htexts : (answers plain {} responses).map (fun answer =>
      let text := errorText? accounts answer.outcome
      (text.isSome, text.getD "")) = [
        (false, ""),
        (true, "no valid content for target at path 'employee/ASM/x/config'"),
        (true, "malformed targets metadata: missing field `signed` at line 1 column 2"),
        (true, "invalid expiration timestamp: the 'year' component could not be parsed"),
        (false, "")] := by decide +kernel
  rw [← htexts]
  refine List.map_congr_left fun answer hanswer => ?_
  obtain ⟨hhas, herror⟩ := hreports answer hanswer
  rw [← isSome_errorText? accounts, ← Bool.eq_iff_iff] at hhas
  exact Prod.ext hhas herror

end Repository
end RemoteGuard
