import RemoteGuard.Proofs.Content.Delivered
import RemoteGuard.Proofs.Sync.Applied
import RemoteGuard.Repository.Report

/-!
# Versions of stored contents

The version of a content is written when the content is stored, and a content that meets its new
target is not stored again.  So a response moves the versions of what it delivers and no others.

* `Draft.provenance_run`          what operations leave is old with its old version, or delivered
                                  with the version of its target;
* `Repository.Reached.enrolled`   stored contents have identities that were given out before, so
                                  that no delivery meets them;
* `Repository.Reached.identified` no two of them share an identity;
* `versions_of_applyResponse`     the versions that are recorded and reported after a response.
-/

namespace RemoteGuard
open ContentList

/-! ## what operations record -/

section
variable {manifest : Manifest} {delivered : List Content} {before : Snapshot}
  {start : Ledger}

/-- the operation stores delivered contents only, each with the target of its own path -/
def Operation.Provides (manifest : Manifest) (delivered : List Content) : Operation → Prop
  | .insert _ target c => c ∈ delivered ∧ manifest.target? c.path = some target
  | .update _ target c => c ∈ delivered ∧ manifest.target? c.path = some target
  | .delete _ => True
  | .set _ => True

/-- a content is one from before, with the version it had then, or one that was delivered, with the
version of its target -/
inductive Provenance (manifest : Manifest) (delivered : List Content) (before : Snapshot)
    (start l : Ledger) (c : Content) : Prop where
  | kept (hold : c ∈ before.contents) (hv : l.version c = start.version c)
  | delivered {target : Target} (hnew : c ∈ delivered) (ht : manifest.target? c.path = some target)
      (hv : l.version c = target.version)

/-- delivered contents are told apart by their identities, from each other and from older ones -/
structure Apart (delivered : List Content) (before : Snapshot) : Prop where
  fresh : ∀ c ∈ delivered, ∀ d ∈ before.contents, d.id ≠ c.id
  inj : ∀ c ∈ delivered, ∀ d ∈ delivered, d.id = c.id → d = c

namespace Provenance
variable {l : Ledger} {c d : Content} {target : Target}

/-- a delivered content that is stored leaves the versions of the others -/
theorem setVersion (ha : Apart delivered before) (hc : c ∈ delivered)
    (ht : manifest.target? c.path = some target)
    (h : Provenance manifest delivered before start l d) :
    Provenance manifest delivered before start (l.setVersion c target.version) d := by
  cases h with
  | kept hold hv =>
    refine .kept hold ?_
    rw [Ledger.version_setVersion, if_neg (ha.fresh c hc d hold), hv]
  | @delivered target' hnew ht' hv =>
    refine .delivered hnew ht' ?_
    rw [Ledger.version_setVersion]
    split
    · next he =>
      obtain rfl := ha.inj c hc d hnew he
      rw [ht] at ht'
      cases ht'
      rfl
    · exact hv

theorem stored (hc : c ∈ delivered) (ht : manifest.target? c.path = some target) :
    Provenance manifest delivered before start (l.setVersion c target.version) c := by
  refine .delivered hc ht ?_
  rw [Ledger.version_setVersion, if_pos rfl]

end Provenance

namespace Draft
variable {d : Draft}

theorem provenance_step {op : Operation} (ha : Apart delivered before)
    (hop : op.Provides manifest delivered)
    (h : ∀ c ∈ d.snapshot.contents, Provenance manifest delivered before start d.ledger c) :
    ∀ c ∈ (d.step op).snapshot.contents,
      Provenance manifest delivered before start (d.step op).ledger c := by
  rcases step_cases d op with e | ⟨u, -, e⟩ | ⟨path, target, x, rfl, -, e⟩ |
    ⟨path, target, x, previous, cs, rfl, hr, e⟩ | ⟨path, previous, -, -, e⟩ <;> rw [e]
  · exact h
  · exact h
  · intro c hc
    rcases List.mem_append.mp hc with hc | hc
    · exact (h c hc).setVersion ha hop.1 hop.2
    · rw [List.mem_singleton.mp hc]
      exact .stored hop.1 hop.2
  · intro c hc
    rcases mem_of_replace? hr hc with rfl | hc
    · exact .stored hop.1 hop.2
    · exact (h c hc).setVersion ha hop.1 hop.2
  · exact fun c hc => h c (mem_erase.mp hc).1

theorem provenance_run {ops : List Operation} (ha : Apart delivered before)
    (hops : ∀ op ∈ ops, op.Provides manifest delivered)
    (h : ∀ c ∈ d.snapshot.contents, Provenance manifest delivered before start d.ledger c) :
    ∀ c ∈ (d.run ops).snapshot.contents,
      Provenance manifest delivered before start (d.run ops).ledger c :=
  run_induction (motive := fun d =>
      ∀ c ∈ d.snapshot.contents, Provenance manifest delivered before start d.ledger c) h
    fun _ op hop h => provenance_step ha (hops op hop) h

end Draft

theorem Sync.provides_of_plan {hexDigest : HexDigest} {listed : List ConfigPath}
    {ops : List Operation} (hd : Distinct before.contents)
    (h : Sync.plan hexDigest manifest delivered listed before = .ok ops) :
    ∀ op ∈ ops, op.Provides manifest delivered := by
  intro op hop
  have hstored : ∀ {path target c}, manifest.target? path = some target →
      findVerified? hexDigest path target delivered = some c →
      c ∈ delivered ∧ manifest.target? c.path = some target := by
    intro path target c ht hf
    obtain ⟨hc, rfl, -⟩ := findVerified?_eq_some hf
    exact ⟨hc, ht⟩
  rcases Sync.mem_plan_cases hd h hop with ⟨path, rfl⟩ | ⟨path, target, c, ht, hf, rfl | rfl⟩ | rfl
  · exact trivial
  · exact hstored ht hf
  · exact hstored ht hf
  · exact trivial

end

/-! ## what responses record -/

section
variable {hexDigest : HexDigest} {r r' : Repository} {response : Response}

/-- an identity stands for one content -/
def Snapshot.Identified (s : Snapshot) : Prop :=
  ∀ c ∈ s.contents, ∀ d ∈ s.contents, d.id = c.id → d = c

/-- the ledger has given out the identities of what is stored -/
def Repository.Enrolled (r : Repository) : Prop := ∀ c ∈ r.current.contents, c.id < r.ledger.next

namespace Accepted
variable (a : Accepted hexDigest r response)

theorem apart (he : r.Enrolled) : Apart a.delivered r.current where
  fresh := by
    intro c hc d hd hid
    have hold := he d hd
    have hnew := ((Ledger.received_of_receiveAll a.delivered_eq).le_id hc).1
    omega
  inj := fun _ hc _ hd hid => (Ledger.received_of_receiveAll a.delivered_eq).eq_of_id hd hc hid

theorem provenance (hd : Distinct r.current.contents) (he : r.Enrolled) :
    ∀ c ∈ a.repository.current.contents,
      Provenance a.manifest a.delivered r.current r.ledger a.repository.ledger c := by
  refine Draft.provenance_run (a.apart he) (Sync.provides_of_plan hd a.ops_eq) fun c hc => ?_
  exact .kept hc ((Ledger.received_of_receiveAll a.delivered_eq).version_eq c)

theorem enrolled (hd : Distinct r.current.contents) (he : r.Enrolled) : a.repository.Enrolled := by
  have hreceived := Ledger.received_of_receiveAll a.delivered_eq
  intro c hc
  have hnext : a.repository.ledger.next = a.ledger.next :=
    Draft.next_run ⟨r.current, a.ledger, []⟩ a.ops
  rw [hnext]
  cases a.provenance hd he c hc with
  | kept hold _ =>
    have hold := he c hold
    have hmoved := hreceived.next_eq
    omega
  | delivered hnew _ _ => exact (hreceived.le_id hnew).2

theorem identified (hd : Distinct r.current.contents) (he : r.Enrolled)
    (hi : r.current.Identified) : a.repository.current.Identified := by
  have hapart := a.apart he
  intro c hc d hd' hid
  cases a.provenance hd he c hc with
  | kept hold _ =>
    cases a.provenance hd he d hd' with
    | kept hold' _ => exact hi c hold d hold' hid
    | delivered hnew' _ _ => exact absurd hid.symm (hapart.fresh d hnew' c hold)
  | delivered hnew _ _ =>
    cases a.provenance hd he d hd' with
    | kept hold' _ => exact absurd hid (hapart.fresh c hnew d hold')
    | delivered hnew' _ _ => exact hapart.inj c hnew d hnew' hid

end Accepted

namespace Repository

theorem Reached.enrolled (hr : Reached hexDigest r) : r.Enrolled := by
  induction hr with
  | new => exact fun c hc => absurd hc List.not_mem_nil
  | @applied r hr response ih =>
    rcases applyResponse_cases hexDigest r response with ⟨e, h'⟩ | ⟨-, h'⟩ | ⟨-, a, h'⟩
    · rw [h']
      exact ih
    · rw [h']
      exact ih
    · rw [h']
      exact a.enrolled hr.distinct ih

theorem Reached.identified (hr : Reached hexDigest r) : r.current.Identified := by
  induction hr with
  | new => exact fun c hc => absurd hc List.not_mem_nil
  | @applied r hr response ih =>
    rcases applyResponse_cases hexDigest r response with ⟨e, h'⟩ | ⟨-, h'⟩ | ⟨-, a, h'⟩
    · rw [h']
      exact ih
    · rw [h']
      exact ih
    · rw [h']
      exact a.identified hr.distinct hr.enrolled ih

/-- the version of a stored content after a response, and how it is reported -/
inductive VersionRecorded (hexDigest : HexDigest) (r r' : Repository) (manifest : Manifest)
    (c : Content) (report : ConfigReport) : Prop where
  /-- what was held before meets its new target, and keeps the version it had -/
  | kept {target : Target} (ht : manifest.target? c.path = some target)
      (hold : r.current.get? c.path = some c) (hcheck : target.check hexDigest c.data = true)
      (hv : r'.ledger.version c = r.ledger.version c) (hreport : report.version = r'.ledger.version c)
  /-- nothing was held at the path that meets the target, and the content has its version -/
  | delivered {target : Target} (ht : manifest.target? c.path = some target)
      (hold : ∀ old, r.current.get? c.path = some old → target.check hexDigest old.data = false)
      (hv : r'.ledger.version c = target.version) (hreport : report.version = r'.ledger.version c)

end Repository

theorem Accepted.versionRecorded (a : Accepted hexDigest r response)
    (hd : Distinct r.current.contents) (he : r.Enrolled) {c : Content}
    (hc : c ∈ a.repository.current.contents) :
    Repository.VersionRecorded hexDigest r a.repository a.manifest c
      (a.repository.ledger.report c) := by
  have hget : a.repository.current.get? c.path = some c :=
    (a.distinct hd).get?_eq_some_iff.mpr ⟨hc, rfl⟩
  rw [a.get?_eq hd] at hget
  split at hget
  · next hp =>
    obtain ⟨target, c', ht, hset, -, hcheck⟩ := Sync.settled_of_plan hd a.ops_eq hp
    rw [hset] at hget
    cases hget
    cases a.provenance hd he c hc with
    | kept hold hv =>
      exact .kept ht (hd.get?_eq_some_iff.mpr ⟨hold, rfl⟩) hcheck hv rfl
    | @delivered target' hnew ht' hv =>
      cases ht.symm.trans ht'
      refine .delivered ht (fun old hold => ?_) hv rfl
      -- a stored content that met the target would have been left, under its own identity
      by_contra hmeets
      rw [Bool.not_eq_false] at hmeets
      rw [Sync.settled_eq hexDigest a.delivered hd ht, hold, Option.filter_some, if_pos hmeets,
        Option.some_or] at hset
      cases hset
      exact (a.apart he).fresh c hnew c (get?_eq_some hold).1 rfl
  · cases hget

namespace Repository

/-- **Versions after a response.**  A content that the response delivered has the version that the
manifest declares for its path; one that was held already, and meets its new target, has the
version it had.  The reports give these versions, in the order of the contents. -/
theorem versions_of_applyResponse {changes : ChangeSet} (hr : Reached hexDigest r)
    (hne : response.isEmpty = false)
    (h : r.applyResponse hexDigest response = (.ok changes, r')) :
    ∃ manifest, Manifest.parseBytes (response.targets.getD []) = .ok manifest ∧
      List.Forall₂ (VersionRecorded hexDigest r r' manifest) r'.current.contents
        (r'.report hexDigest).configs := by
  obtain ⟨a, -, rfl⟩ := accepted_of_applyResponse hne h
  refine ⟨a.manifest, a.manifest_eq, ?_⟩
  rw [report, List.forall₂_map_right_iff, List.forall₂_same]
  exact fun c hc => a.versionRecorded hr.distinct hr.enrolled hc

/-- a manifest moves the version of a stored content, and delivers another -/
theorem versions_after_redelivery :
    let plain : HexDigest := fun _ data => data.hex
    let file : TargetFile := ⟨"employee/ASM/x/config", [97]⟩
    let r := (applyResponse plain {} (.delivering plain 1 [file])).2
    let response := Response.delivering plain 2 [file, ⟨"employee/ASM_DATA/y/config", [99]⟩]
    ∃ changes r', Reached plain r ∧ response.isEmpty = false ∧
      r.applyResponse plain response = (.ok changes, r') ∧
      (∃ manifest, List.Forall₂ (VersionRecorded plain r r' manifest) r'.current.contents
        (r'.report plain).configs) ∧
      (r'.report plain).configs.map ConfigReport.version = [1, 2] := by
  intro plain file r response
  have hr : Reached plain r := .applied .new _
  have hne : response.isEmpty = false := by decide +kernel
  have hok : (r.applyResponse plain response).1.isOk = true := by decide +kernel
  have hversions : ((r.applyResponse plain response).2.report plain).configs.map
      ConfigReport.version = [1, 2] := by decide +kernel
  obtain ⟨changes, r', h⟩ := exists_ok_of_isOk hok
  obtain ⟨manifest, -, hrecorded⟩ := versions_of_applyResponse hr hne h
  rw [h] at hversions
  exact ⟨changes, r', hr, hne, h, ⟨manifest, hrecorded⟩, hversions⟩

/-- a stored content may have another version than the manifest declares: here the payload is
delivered again under a new version -/
theorem version_stays_behind :
    ¬ ∀ (hexDigest : HexDigest) (r r' : Repository) (response : Response) (changes : ChangeSet)
        (manifest : Manifest) (c : Content) (target : Target),
      Reached hexDigest r → response.isEmpty = false →
      r.applyResponse hexDigest response = (.ok changes, r') →
      Manifest.parseBytes (response.targets.getD []) = .ok manifest →
      c ∈ r'.current.contents → manifest.target? c.path = some target →
      r'.ledger.version c = target.version := by
  intro h
  let plain : HexDigest := fun _ data => data.hex
  let file : TargetFile := ⟨"employee/ASM/x/config", [97]⟩
  let r := (applyResponse plain {} (.delivering plain 1 [file])).2
  let response := Response.delivering plain 2 [file]
  have hne : response.isEmpty = false := by decide +kernel
  have hok : (r.applyResponse plain response).1.isOk = true := by decide +kernel
  -- what is recorded for the stored contents, beside what is declared for them
  have hversions : (Manifest.parseBytes (response.targets.getD [])).toOption.map (fun manifest =>
      (r.applyResponse plain response).2.current.contents.map fun c =>
        ((r.applyResponse plain response).2.ledger.version c,
          (manifest.target? c.path).map Target.version)) = some [(1, some 2)] := by decide +kernel
  obtain ⟨changes, r', happlied⟩ := exists_ok_of_isOk hok
  rw [happlied] at hversions
  obtain ⟨manifest, hm, hlist⟩ := Option.map_eq_some_iff.mp hversions
  obtain ⟨c, cs, hcs, hc, -⟩ := List.map_eq_cons_iff.mp hlist
  obtain ⟨hone, htwo⟩ := Prod.mk.inj hc
  obtain ⟨target, ht, hdeclared⟩ := Option.map_eq_some_iff.mp htwo
  have hparsed : Manifest.parseBytes (response.targets.getD []) = .ok manifest := by
    match hp : Manifest.parseBytes (response.targets.getD []), hm with
    | .ok m, hm => cases hm; rfl
  have hmem : c ∈ r'.current.contents := hcs ▸ List.mem_cons_self
  have heq := h plain r r' response changes manifest c target (.applied .new _) hne happlied
    hparsed hmem ht
  rw [hone, hdeclared] at heq
  cases heq

end Repository
end
end RemoteGuard
