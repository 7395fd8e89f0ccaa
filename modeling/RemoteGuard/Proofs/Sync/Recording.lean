import RemoteGuard.Proofs.Repository.Isolation
import RemoteGuard.Proofs.Sync.History
import RemoteGuard.Proofs.Sync.Versions

/-!
# What a response records

A response makes new contents for its files, stores some of them, and writes their versions.  All
that a repository held before stays with the entries that it had.

* `brought`                 the contents that a response has stored;
* `brings_applyResponse`    where what is stored comes from, and what is recorded about it;
* `view_applyResponse`      earlier snapshots go on showing what they showed;
* `applyResponse_congr`     what comes of a response depends on what is stored and on the identity
                            that is given out next, and on nothing that is recorded.
-/

namespace RemoteGuard
open ContentList

/-! ## what a response depends on -/

/-- which contents a ledger gives out depends on the next identity only -/
theorem Ledger.receiveAll_congr {l l' : Ledger} (h : l'.next = l.next)
    (expires : Option Timestamp) (files : List TargetFile) :
    (l'.receiveAll expires files).map (fun p => (p.1, p.2.next))
      = (l.receiveAll expires files).map fun p => (p.1, p.2.next) := by
  induction files generalizing l l' with
  | nil => exact congrArg (fun next => Except.ok ([], next)) h
  | cons f fs ih =>
    rw [receiveAll, receiveAll, receive, receive]
    cases ConfigPath.parse f.path with
    | error e => rfl
    | ok path =>
      simp only [enroll, h]
      have hsame : (Ledger.mk (l.next + 1) l'.entries).next
          = (Ledger.mk (l.next + 1) l.entries).next := rfl
      have hrest := ih hsame
      revert hrest
      cases receiveAll ⟨l.next + 1, l.entries⟩ expires fs <;>
        cases receiveAll ⟨l.next + 1, l'.entries⟩ expires fs <;> intro hrest
      · exact hrest
      · cases hrest
      · cases hrest
      · obtain ⟨hcs, hnext⟩ := Prod.mk.inj (Except.ok.inj hrest)
        simp only [Except.map, hcs, hnext]

namespace Draft

theorem step_congr {d d' : Draft} (hs : d'.snapshot = d.snapshot) (hch : d'.changes = d.changes)
    (op : Operation) :
    (d'.step op).snapshot = (d.step op).snapshot ∧ (d'.step op).changes = (d.step op).changes := by
  cases op with
  | insert path target c =>
    simp only [Draft.step, Draft.insert, hs]
    cases d.snapshot.get? path with
    | some held => exact ⟨hs, hch⟩
    | none => exact ⟨rfl, congrArg (· ++ _) hch⟩
  | update path target c =>
    simp only [Draft.step, Draft.update, hs]
    cases ContentList.replace? c d.snapshot.contents with
    | none => exact ⟨hs, hch⟩
    | some replaced => exact ⟨rfl, congrArg (· ++ _) hch⟩
  | delete path =>
    simp only [Draft.step, Draft.delete, hs]
    cases d.snapshot.get? path with
    | none => exact ⟨hs, hch⟩
    | some previous => exact ⟨rfl, congrArg (· ++ _) hch⟩
  | set u =>
    simp only [Draft.step, Draft.set, hs]
    exact ⟨trivial, hch⟩

theorem run_congr {d d' : Draft} (hs : d'.snapshot = d.snapshot) (hch : d'.changes = d.changes)
    (ops : List Operation) :
    (d'.run ops).snapshot = (d.run ops).snapshot ∧ (d'.run ops).changes = (d.run ops).changes := by
  induction ops generalizing d d' with
  | nil => exact ⟨hs, hch⟩
  | cons op ops ih =>
    obtain ⟨hs', hch'⟩ := step_congr hs hch op
    exact ih hs' hch'

end Draft

namespace Repository
variable {hexDigest : HexDigest}

theorem commit_congr {r r' : Repository} (hc : r'.current = r.current)
    (hn : r'.ledger.next = r.ledger.next) (ops : List Operation) :
    (r'.commit ops).1 = (r.commit ops).1 ∧
      (r'.commit ops).2.current = (r.commit ops).2.current ∧
      (r'.commit ops).2.ledger.next = (r.commit ops).2.ledger.next := by
  let d : Draft := ⟨r.current, r.ledger, []⟩
  let d' : Draft := ⟨r'.current, r'.ledger, []⟩
  have hsame : d'.snapshot = d.snapshot := hc
  obtain ⟨hs, hch⟩ := Draft.run_congr hsame rfl ops
  refine ⟨hch, hs, ?_⟩
  show (d'.run ops).ledger.next = (d.run ops).ledger.next
  rw [Draft.next_run, Draft.next_run]
  exact hn

theorem sync_congr (hexDigest : HexDigest) {r r' : Repository} (hc : r'.current = r.current)
    (hn : r'.ledger.next = r.ledger.next) (response : Response) :
    (r'.sync hexDigest response).map (fun p => (p.1, p.2.current, p.2.ledger.next))
      = (r.sync hexDigest response).map fun p => (p.1, p.2.current, p.2.ledger.next) := by
  unfold sync
  cases response.isEmpty with
  | true => simp only [if_pos, Except.map, hc, hn]
  | false =>
    cases parsePaths response.paths with
    | error _ => rfl
    | ok listed =>
      cases Manifest.parseBytes (response.targets.getD []) with
      | error _ => rfl
      | ok manifest =>
        simp only [Bool.false_eq_true, if_false]
        have hgiven := Ledger.receiveAll_congr hn manifest.expires response.files
        revert hgiven
        cases r.ledger.receiveAll manifest.expires response.files <;>
          cases r'.ledger.receiveAll manifest.expires response.files <;> intro hgiven
        · cases hgiven
          rfl
        · cases hgiven
        · cases hgiven
        · next received received' =>
          obtain ⟨hcs, hnext⟩ := Prod.mk.inj (Except.ok.inj hgiven)
          let s : Repository := { r with ledger := received.2 }
          let s' : Repository := { r' with ledger := received'.2 }
          show (s'.transaction (Sync.plan hexDigest manifest received'.1 listed)).map _
            = (s.transaction (Sync.plan hexDigest manifest received.1 listed)).map _
          have hcurrent : s'.current = s.current := hc
          rw [transaction_eq, transaction_eq, hcurrent, hcs]
          cases Sync.plan hexDigest manifest received.1 listed s.current with
          | error _ => rfl
          | ok ops =>
            obtain ⟨hch, hs, hn'⟩ := commit_congr hcurrent hnext ops
            simp only [Except.map, hch, hs, hn']

/-- what comes of a response depends on what is stored and on the identity to give out next -/
theorem applyResponse_congr (hexDigest : HexDigest) {r r' : Repository}
    (hc : r'.current = r.current) (hn : r'.ledger.next = r.ledger.next) (response : Response) :
    let answer := r.applyResponse hexDigest response
    let answer' := r'.applyResponse hexDigest response
    answer'.1 = answer.1 ∧ answer'.2.current = answer.2.current ∧
      answer'.2.ledger.next = answer.2.ledger.next ∧ answer'.2.lastError = answer.2.lastError := by
  have hsync := sync_congr hexDigest hc hn response
  unfold applyResponse
  revert hsync
  cases r.sync hexDigest response <;> cases r'.sync hexDigest response <;> intro hsync
  · cases hsync
    exact ⟨rfl, hc, hn, rfl⟩
  · cases hsync
  · cases hsync
  · obtain ⟨hch, hrest⟩ := Prod.mk.inj (Except.ok.inj hsync)
    obtain ⟨hcurrent, hnext⟩ := Prod.mk.inj hrest
    exact ⟨congrArg Except.ok hch, hcurrent, hnext, rfl⟩

/-! ## what a response records -/

def changesOf : Except SyncError ChangeSet → ChangeSet
  | .ok changes => changes
  | .error _ => []

/-- the contents that a response has stored -/
def brought (outcome : Except SyncError ChangeSet) : List Content :=
  (changesOf outcome).filterMap Change.content?

/-- what a response does to the contents, and to what is recorded about them -/
structure Brings (r : Repository) (outcome : Except SyncError ChangeSet) (after : Repository) :
    Prop where
  distinct : Distinct after.current.contents
  next_le : r.ledger.next ≤ after.ledger.next
  stored : ∀ c ∈ after.current.contents, c ∈ r.current.contents ∨ c ∈ brought outcome
  fresh : ∀ c ∈ brought outcome, r.ledger.next ≤ c.id ∧ c.id < after.ledger.next
  eq_of_id : ∀ c ∈ brought outcome, ∀ d ∈ brought outcome, d.id = c.id → d = c
  state_eq : ∀ c, after.ledger.state c = r.ledger.state c
  version_eq : ∀ c, after.ledger.version c
    = (stamped? (changesOf outcome) c).getD (r.ledger.version c)

theorem Brings.idle {r : Repository} {outcome : Except SyncError ChangeSet}
    (hd : Distinct r.current.contents) (h : changesOf outcome = []) (e : Option RecordedError) :
    Brings r outcome (r.recordError e) := by
  have hnone : brought outcome = [] := by
    rw [brought, h]
    rfl
  exact {
    distinct := hd
    next_le := Nat.le_refl _
    stored := fun c hc => .inl hc
    fresh := by
      rw [hnone]
      exact fun c hc => absurd hc List.not_mem_nil
    eq_of_id := by
      rw [hnone]
      exact fun c hc => absurd hc List.not_mem_nil
    state_eq := fun c => rfl
    version_eq := by
      intro c
      rw [h]
      rfl }

end Repository

namespace Accepted
variable {hexDigest : HexDigest} {r : Repository} {response : Response}
  (a : Accepted hexDigest r response)

theorem delivered_of_brought (hd : Distinct r.current.contents) {c : Content}
    (hc : c ∈ Repository.brought (.ok a.draft.changes)) : c ∈ a.delivered := by
  obtain ⟨ch, hch, e⟩ := List.mem_filterMap.mp hc
  have hop : ch.operation.Provides a.manifest a.delivered :=
    Sync.provides_of_plan hd a.ops_eq _ (Draft.operation_mem_run r.current a.ledger a.ops ch hch)
  cases ch with
  | inserted path target d =>
    cases e
    exact hop.1
  | updated path target d previous =>
    cases e
    exact hop.1
  | deleted path previous => cases e

theorem brings (hd : Distinct r.current.contents) :
    Repository.Brings r (.ok a.draft.changes) a.repository := by
  have hreceived := Ledger.received_of_receiveAll a.delivered_eq
  have hledger : a.repository.ledger = a.ledger.recordAll a.draft.changes :=
    Draft.ledger_run r.current a.ledger a.ops
  have hnext : a.repository.ledger.next = a.ledger.next :=
    Draft.next_run ⟨r.current, a.ledger, []⟩ a.ops
  exact {
    distinct := a.distinct hd
    next_le := by
      rw [hnext, hreceived.next_eq]
      exact Nat.le_add_right ..
    stored := fun c hc => (Draft.stored_run r.current a.ledger a.ops c hc).imp_right
      List.mem_filterMap.mpr
    fresh := by
      intro c hc
      rw [hnext]
      exact hreceived.le_id (a.delivered_of_brought hd hc)
    eq_of_id := fun c hc d hd' he =>
      hreceived.eq_of_id (a.delivered_of_brought hd hd') (a.delivered_of_brought hd hc) he
    state_eq := by
      intro c
      rw [hledger, Ledger.state_recordAll, hreceived.state_eq]
    version_eq := by
      intro c
      rw [hledger, Ledger.version_recordAll, hreceived.version_eq]
      rfl }

end Accepted

namespace Repository
variable {hexDigest : HexDigest} {r : Repository}

/-- What a response stores anew are contents that it has made, each under an identity of its own.
It writes the versions of these, and the state of no content. -/
theorem brings_applyResponse (hexDigest : HexDigest) (hd : Distinct r.current.contents)
    (response : Response) :
    Brings r (r.applyResponse hexDigest response).1 (r.applyResponse hexDigest response).2 := by
  rcases applyResponse_cases hexDigest r response with ⟨e, h⟩ | ⟨-, h⟩ | ⟨-, a, h⟩ <;> rw [h]
  · exact .idle hd rfl _
  · exact .idle hd rfl none
  · exact a.brings hd

theorem version_applyResponse (hd : Distinct r.current.contents) (response : Response)
    {c : Content} (hc : c.id < r.ledger.next) :
    (r.applyResponse hexDigest response).2.ledger.version c = r.ledger.version c := by
  have hb := brings_applyResponse hexDigest hd response
  have hnone : (changesOf (r.applyResponse hexDigest response).1).filterMap (Change.stamp? c)
      = [] := by
    refine List.filterMap_eq_nil_iff.mpr fun ch hch => ?_
    have hother : ∀ d, ch.content? = some d → c.id ≠ d.id := by
      intro d e he
      have hnew := (hb.fresh d (List.mem_filterMap.mpr ⟨ch, hch, e⟩)).1
      omega
    cases ch with
    | inserted path target d => exact if_neg (hother d rfl)
    | updated path target d previous => exact if_neg (hother d rfl)
    | deleted path previous => rfl
  rw [hb.version_eq, stamped?, hnone]
  rfl

/-- **Snapshots after a response.**  A snapshot of contents from before a response shows after it
what it showed before. -/
theorem view_applyResponse (hd : Distinct r.current.contents) {s : Snapshot}
    (hs : ∀ c ∈ s.contents, c.id < r.ledger.next) (response : Response) :
    s.view (r.applyResponse hexDigest response).2.ledger = s.view r.ledger := by
  rw [s.view_eq_iff]
  exact fun c hc => version_applyResponse hd response (hs c hc)

end Repository
end RemoteGuard
