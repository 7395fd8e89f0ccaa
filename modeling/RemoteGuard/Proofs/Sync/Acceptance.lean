import Mathlib.Data.Set.List
import RemoteGuard.Proofs.Content.Delivered
import RemoteGuard.Proofs.Sync.Applied

/-!
# Which responses are accepted

A response is `Acceptable` if its texts parse, and the manifest has for each listed path a target
that a stored or a delivered content meets.

* `Sync.plan_isOk_iff`       there is a plan just if every listed path has such a target;
* `applyResponse_isOk_iff`   a response is accepted just if it is acceptable, whatever the
                             repository holds.
-/

namespace RemoteGuard
open ContentList

/-- the bytes have every digest that the target asks for -/
def Target.IsMet (hexDigest : HexDigest) (t : Target) (data : Bytes) : Prop :=
  ∀ digest ∈ t.digests, hexDigest digest.algorithm data = digest.hex

theorem Target.check_iff {hexDigest : HexDigest} {t : Target} {data : Bytes} :
    t.check hexDigest data = true ↔ t.IsMet hexDigest data := DigestList.check_iff

/-! ## plans -/

namespace Sync
variable {hexDigest : HexDigest} {current : Snapshot} {manifest : Manifest}
  {delivered : List Content}

/-- some content at the path meets the target that the manifest has for it -/
def Available (hexDigest : HexDigest) (current : Snapshot) (manifest : Manifest)
    (delivered : List Content) (path : ConfigPath) : Prop :=
  ∃ target, manifest.target? path = some target ∧
    ((∃ c ∈ current.contents, c.path = path ∧ target.IsMet hexDigest c.data) ∨
      ∃ c ∈ delivered, c.path = path ∧ target.IsMet hexDigest c.data)

theorem exists_isMet_iff {path : ConfigPath} {target : Target} {cs : List Content} :
    (∃ c ∈ cs, c.path = path ∧ target.IsMet hexDigest c.data) ↔
      (findVerified? hexDigest path target cs).isSome = true := by
  simp only [isSome_findVerified?, Target.check_iff]

theorem operationAt_isOk_iff {path : ConfigPath} :
    (∃ ops, operationAt hexDigest current manifest delivered path = .ok ops) ↔
      Available hexDigest current manifest delivered path := by
  rw [operationAt, Available]
  cases manifest.target? path with
  | none =>
    refine ⟨?_, ?_⟩
    · rintro ⟨ops, h⟩
      cases h
    · rintro ⟨target, h, -⟩
      cases h
  | some target =>
    simp only [Option.some.injEq, exists_eq_left', exists_isMet_iff]
    cases hs : findVerified? hexDigest path target current.contents with
    | some c =>
      -- a content that meets the target is stored at its path, so the path is not new
      have hstored : path ∈ current.paths :=
        mem_paths.mpr ⟨c, (findVerified?_eq_some hs).1, (findVerified?_eq_some hs).2.1⟩
      rw [if_pos ⟨not_not_intro hstored, rfl⟩]
      exact ⟨fun _ => .inl rfl, fun _ => ⟨[], rfl⟩⟩
    | none =>
      rw [if_neg fun h => Bool.false_ne_true h.2]
      cases findVerified? hexDigest path target delivered with
      | none =>
        refine ⟨?_, ?_⟩
        · rintro ⟨ops, h⟩
          cases h
        · rintro (h | h) <;> cases h
      | some c => exact ⟨fun _ => .inr rfl, fun _ => ⟨_, rfl⟩⟩

theorem operationsAt_isOk_iff {ask : ConfigPath → Except SyncError (List Operation)}
    {listed : List ConfigPath} :
    (∃ ops, operationsAt ask listed = .ok ops) ↔ ∀ p ∈ listed, ∃ ops, ask p = .ok ops := by
  constructor
  · rintro ⟨ops, h⟩
    exact (operationsAt_asked h).1
  · intro h
    induction listed with
    | nil => exact ⟨[], rfl⟩
    | cons p ps ih =>
      obtain ⟨⟨first, hfirst⟩, hps⟩ := List.forall_mem_cons.mp h
      obtain ⟨rest, hrest⟩ := ih hps
      refine ⟨first ++ rest, ?_⟩
      simp only [operationsAt, hfirst, hrest]

theorem plan_isOk_iff {listed : List ConfigPath} :
    (∃ ops, plan hexDigest manifest delivered listed current = .ok ops) ↔
      ∀ path ∈ listed, Available hexDigest current manifest delivered path := by
  simp only [← operationAt_isOk_iff, ← operationsAt_isOk_iff, plan_eq]
  constructor
  · rintro ⟨ops, h⟩
    cases ho : operationsAt (operationAt hexDigest current manifest delivered) listed with
    | error e => rw [ho] at h; cases h
    | ok asked => exact ⟨asked, rfl⟩
  · rintro ⟨asked, h⟩
    rw [h]
    exact ⟨_, rfl⟩

end Sync

/-! ## responses -/

/-- all that a response has to bring, given what is stored -/
structure Response.Acceptable (hexDigest : HexDigest) (current : Snapshot) (response : Response)
    (manifest : Manifest) : Prop where
  paths : ∀ s ∈ response.paths, ∃ path, ConfigPath.parse s = .ok path
  manifest_eq : Manifest.parseBytes (response.targets.getD []) = .ok manifest
  files : ∀ f ∈ response.files, ∃ path, ConfigPath.parse f.path = .ok path
  /-- a listed path has a target, and a stored content or a file for it meets the target -/
  available : ∀ path : ConfigPath, path.text ∈ response.paths →
    ∃ target, manifest.target? path = some target ∧
      ((∃ c ∈ current.contents, c.path = path ∧ target.IsMet hexDigest c.data) ∨
        ∃ f ∈ response.files, f.path = path.text ∧ target.IsMet hexDigest f.raw)

section
variable {hexDigest : HexDigest} {r : Repository} {response : Response}

theorem Accepted.mem_listed_iff (a : Accepted hexDigest r response) (path : ConfigPath) :
    path ∈ a.listed ↔ path.text ∈ response.paths := by
  rw [← parsePaths_eq_ok_iff.mp a.listed_eq, List.mem_map]
  constructor
  · intro hp
    exact ⟨path, hp, rfl⟩
  · rintro ⟨q, hq, he⟩
    exact ConfigPath.ext_text he ▸ hq

theorem Accepted.acceptable (a : Accepted hexDigest r response) :
    response.Acceptable hexDigest r.current a.manifest := by
  have htext : a.listed.map ConfigPath.text = response.paths := parsePaths_eq_ok_iff.mp a.listed_eq
  have hreceived := Ledger.received_of_receiveAll a.delivered_eq
  refine ⟨fun s hs => ?_, a.manifest_eq, ?_, fun path hpath => ?_⟩
  · rw [← htext] at hs
    obtain ⟨path, -, rfl⟩ := List.mem_map.mp hs
    exact ⟨path, path.parse_text⟩
  · exact Ledger.receiveAll_isOk_iff.mp ⟨_, _, a.delivered_eq⟩
  · obtain ⟨target, ht, hmet⟩ :=
      Sync.plan_isOk_iff.mp ⟨_, a.ops_eq⟩ path ((a.mem_listed_iff path).mpr hpath)
    exact ⟨target, ht, hmet.imp_right (hreceived.exists_iff path _).mp⟩

theorem Response.Acceptable.accepted {manifest : Manifest}
    (h : response.Acceptable hexDigest r.current manifest) :
    Nonempty (Accepted hexDigest r response) := by
  obtain ⟨listed, htext⟩ : ∃ listed : List ConfigPath,
      listed.map ConfigPath.text = response.paths := by
    refine (Set.range_list_map ConfigPath.text).ge fun s hs => ?_
    obtain ⟨path, hp⟩ := h.paths s hs
    exact ⟨path, ConfigPath.parse_eq_ok_iff.mp hp⟩
  obtain ⟨delivered, ledger, hd⟩ : ∃ delivered ledger,
      r.ledger.receiveAll manifest.expires response.files = .ok (delivered, ledger) :=
    Ledger.receiveAll_isOk_iff.mpr h.files
  have hreceived := Ledger.received_of_receiveAll hd
  obtain ⟨ops, hops⟩ : ∃ ops, Sync.plan hexDigest manifest delivered listed r.current = .ok ops := by
    refine Sync.plan_isOk_iff.mpr fun path hpath => ?_
    obtain ⟨target, ht, hmet⟩ := h.available path (htext ▸ List.mem_map_of_mem hpath)
    exact ⟨target, ht, hmet.imp_right (hreceived.exists_iff path _).mpr⟩
  exact ⟨⟨listed, manifest, delivered, ledger, ops, parsePaths_eq_ok_iff.mpr htext, h.manifest_eq,
    hd, hops⟩⟩

/-- what was read as acceptable is accepted -/
theorem Accepted.applyResponse_eq (a : Accepted hexDigest r response)
    (hne : response.isEmpty = false) :
    r.applyResponse hexDigest response = (.ok a.draft.changes, a.repository) := by
  have hsync : r.sync hexDigest response = .ok (a.draft.changes,
      { r with current := a.draft.snapshot, ledger := a.draft.ledger }) := by
    simp only [Repository.sync, hne, a.listed_eq, a.manifest_eq, a.delivered_eq,
      Bool.false_eq_true, if_false]
    exact Repository.transaction_ok a.ops_eq
  rw [Repository.applyResponse, hsync]
  rfl

namespace Repository

/-- **Acceptance.**  A response that is not empty is accepted just if all its paths, its manifest
and the paths of its files parse, and every listed path has a target in the manifest that the
content stored there or a file delivered for it meets. -/
theorem applyResponse_isOk_iff (hne : response.isEmpty = false) :
    (∃ changes, (r.applyResponse hexDigest response).1 = .ok changes) ↔
      ∃ manifest, response.Acceptable hexDigest r.current manifest := by
  constructor
  · rintro ⟨changes, h⟩
    have happlied : r.applyResponse hexDigest response
        = (.ok changes, (r.applyResponse hexDigest response).2) := Prod.ext h rfl
    obtain ⟨a, -, -⟩ := accepted_of_applyResponse hne happlied
    exact ⟨a.manifest, a.acceptable⟩
  · rintro ⟨manifest, h⟩
    obtain ⟨a⟩ := h.accepted
    exact ⟨a.draft.changes, by rw [a.applyResponse_eq hne]⟩

/-- a stored content is listed without its file, beside a new one; the file of the new one must be
the one that the manifest describes -/
theorem applyResponse_isOk_of_stored :
    let plain : HexDigest := fun _ data => data.hex
    let old : TargetFile := ⟨"employee/ASM/x/config", [97]⟩
    let new : TargetFile := ⟨"employee/ASM_DATA/y/config", [99]⟩
    let r := (applyResponse plain {} (.delivering plain 1 [old])).2
    let response : Response := { Response.delivering plain 2 [old, new] with files := [new] }
    let tampered : Response := { response with files := [{ new with raw := [98] }] }
    response.isEmpty = false ∧ tampered.isEmpty = false ∧
      (∃ manifest, response.Acceptable plain r.current manifest) ∧
      ¬ ∃ manifest, tampered.Acceptable plain r.current manifest := by
  intro plain old new r response tampered
  have hne : response.isEmpty = false := by decide +kernel
  have hne' : tampered.isEmpty = false := by decide +kernel
  have hok : (r.applyResponse plain response).1.isOk = true := by decide +kernel
  have hno : (r.applyResponse plain tampered).1.isOk = false := by decide +kernel
  obtain ⟨changes, r', h⟩ := exists_ok_of_isOk hok
  refine ⟨hne, hne', (applyResponse_isOk_iff hne).mp ⟨changes, by rw [h]⟩, fun hacceptable => ?_⟩
  obtain ⟨changes', h'⟩ := (applyResponse_isOk_iff hne').mpr hacceptable
  rw [h'] at hno
  cases hno

end Repository
end
end RemoteGuard
