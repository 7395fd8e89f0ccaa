import RemoteGuard.Proofs.Sync.Held
import RemoteGuard.Proofs.Sync.Versions

/-!
# The order of a listing

What a plan does depends on the order of the listed paths, and a path that is listed again may be
updated again.  What is stored after it does not: the content at a listed path, and its version,
are settled by the manifest, by what is delivered and by what was stored before.

* `Response.Relisted`            the responses list the same paths, in any order and number;
* `Accepted.get?_of_relisted`    both leave the same content at every path,
* `Accepted.version_of_relisted` with the same version;
* `applyResponse_of_relisted`    and one of them is accepted just if the other is.
-/

namespace RemoteGuard
open ContentList

/-- the responses differ at most in the order and the repetitions of what they list -/
structure Response.Relisted (first second : Response) : Prop where
  targets_eq : first.targets = second.targets
  files_eq : first.files = second.files
  mem_paths_iff : ∀ s, s ∈ first.paths ↔ s ∈ second.paths

/-- what is held at a path: the bytes, their version and their expiry -/
def Repository.held? (r : Repository) (path : ConfigPath) :
    Option (Bytes × Nat × Option Timestamp) :=
  (r.current.get? path).map fun c => (c.data, r.ledger.version c, c.expires)

section
variable {hexDigest : HexDigest} {r r₁ r₂ : Repository} {first second : Response}

namespace Response.Relisted

theorem symm (h : first.Relisted second) : second.Relisted first where
  targets_eq := h.targets_eq.symm
  files_eq := h.files_eq.symm
  mem_paths_iff := fun s => (h.mem_paths_iff s).symm

theorem isEmpty_eq (h : first.Relisted second) : first.isEmpty = second.isEmpty := by
  have hpaths : first.paths.isEmpty = second.paths.isEmpty := by
    rw [Bool.eq_iff_iff, List.isEmpty_iff, List.isEmpty_iff, List.eq_nil_iff_forall_not_mem,
      List.eq_nil_iff_forall_not_mem]
    exact forall_congr' fun s => not_congr (h.mem_paths_iff s)
  unfold isEmpty
  rw [h.targets_eq, h.files_eq, hpaths]

theorem acceptable (h : first.Relisted second) {current : Snapshot} {manifest : Manifest}
    (ha : first.Acceptable hexDigest current manifest) :
    second.Acceptable hexDigest current manifest where
  paths := fun s hs => ha.paths s ((h.mem_paths_iff s).mpr hs)
  manifest_eq := h.targets_eq ▸ ha.manifest_eq
  files := h.files_eq ▸ ha.files
  available := by
    intro path hp
    rw [← h.files_eq]
    exact ha.available path ((h.mem_paths_iff path.text).mpr hp)

end Response.Relisted

/-! ## two readings of one delivery -/

namespace Accepted
variable (a : Accepted hexDigest r first) (b : Accepted hexDigest r second)

theorem manifest_of_relisted (h : first.Relisted second) : a.manifest = b.manifest := by
  have hm := a.manifest_eq
  rw [h.targets_eq, b.manifest_eq] at hm
  exact (Except.ok.inj hm).symm

/-- the files are received as the same contents, identities included -/
theorem delivered_of_relisted (h : first.Relisted second) : a.delivered = b.delivered := by
  have hreceived := a.delivered_eq
  rw [h.files_eq, a.manifest_of_relisted b h, b.delivered_eq] at hreceived
  exact (Prod.mk.inj (Except.ok.inj hreceived)).1.symm

theorem mem_listed_of_relisted (h : first.Relisted second) (path : ConfigPath) :
    path ∈ a.listed ↔ path ∈ b.listed := by
  rw [a.mem_listed_iff, b.mem_listed_iff]
  exact h.mem_paths_iff path.text

theorem get?_of_relisted (h : first.Relisted second) (hd : Distinct r.current.contents)
    (path : ConfigPath) :
    a.repository.current.get? path = b.repository.current.get? path := by
  rw [a.get?_eq hd, b.get?_eq hd, a.manifest_of_relisted b h, a.delivered_of_relisted b h]
  simp only [a.mem_listed_of_relisted b h]

/-- the version of a stored content is the old one or the declared one, by whether the content
met its target before, and not by how often its path is listed -/
theorem version_of_relisted (h : first.Relisted second) (hd : Distinct r.current.contents)
    (he : r.Enrolled) {c : Content} (hc : c ∈ a.repository.current.contents)
    (hc' : c ∈ b.repository.current.contents) :
    a.repository.ledger.version c = b.repository.ledger.version c := by
  have hm := a.manifest_of_relisted b h
  have htarget : ∀ {target target' : Target}, a.manifest.target? c.path = some target →
      b.manifest.target? c.path = some target' → target = target' := by
    intro target target' ht ht'
    rw [hm, ht'] at ht
    exact (Option.some.inj ht).symm
  -- what is kept met its target before, and what is delivered took the place of what did not
  cases a.versionRecorded hd he hc with
  | kept ht hold hcheck hv =>
    cases b.versionRecorded hd he hc' with
    | kept _ _ _ hv' => rw [hv, hv']
    | delivered ht' hout _ =>
      rw [htarget ht ht', hout c hold] at hcheck
      cases hcheck
  | delivered ht hout hv =>
    cases b.versionRecorded hd he hc' with
    | kept ht' hold hcheck _ =>
      rw [← htarget ht ht', hout c hold] at hcheck
      cases hcheck
    | delivered ht' _ hv' => rw [hv, hv', htarget ht ht']

theorem held?_of_relisted (h : first.Relisted second) (hd : Distinct r.current.contents)
    (he : r.Enrolled) (path : ConfigPath) : a.repository.held? path = b.repository.held? path := by
  unfold Repository.held?
  have hget := a.get?_of_relisted b h hd path
  rw [← hget]
  refine Option.map_congr fun c hc => ?_
  have hmem := (get?_eq_some hc).1
  have hmem' := (get?_eq_some (hget.symm.trans hc)).1
  rw [a.version_of_relisted b h hd he hmem hmem']

end Accepted

namespace Repository

theorem isOk_of_relisted (h : first.Relisted second)
    (hok : ∃ changes, (r.applyResponse hexDigest first).1 = .ok changes) :
    ∃ changes, (r.applyResponse hexDigest second).1 = .ok changes := by
  cases he : first.isEmpty with
  | true =>
    have he' : second.isEmpty = true := h.isEmpty_eq.symm.trans he
    exact ⟨[], by rw [applyResponse_of_isEmpty he']⟩
  | false =>
    have hne : second.isEmpty = false := h.isEmpty_eq.symm.trans he
    obtain ⟨changes, hchanges⟩ := hok
    have happlied : r.applyResponse hexDigest first
        = (.ok changes, (r.applyResponse hexDigest first).2) := Prod.ext hchanges rfl
    obtain ⟨a, -, -⟩ := accepted_of_applyResponse he happlied
    obtain ⟨b⟩ := (h.acceptable a.acceptable).accepted
    exact ⟨b.draft.changes, by rw [b.applyResponse_eq hne]⟩

/-- **Order of a listing.**  Of two responses that list the same paths, in whatever order and
however often, one is accepted just if the other is; and then both leave the same bytes with the
same version and expiry at every path, and the same metadata. -/
theorem applyResponse_of_relisted (hr : Reached hexDigest r) (h : first.Relisted second) :
    ((∃ changes, (r.applyResponse hexDigest first).1 = .ok changes) ↔
      ∃ changes, (r.applyResponse hexDigest second).1 = .ok changes) ∧
    ∀ changes₁ changes₂ r₁ r₂, r.applyResponse hexDigest first = (.ok changes₁, r₁) →
      r.applyResponse hexDigest second = (.ok changes₂, r₂) →
      (∀ path, r₁.held? path = r₂.held? path) ∧
        r₁.current.targetsVersion = r₂.current.targetsVersion ∧
        r₁.current.backendState = r₂.current.backendState := by
  refine ⟨⟨isOk_of_relisted h, isOk_of_relisted h.symm⟩, ?_⟩
  intro changes₁ changes₂ r₁ r₂ h₁ h₂
  cases he : first.isEmpty with
  | true =>
    rw [applyResponse_of_isEmpty he] at h₁
    rw [applyResponse_of_isEmpty (h.isEmpty_eq.symm.trans he)] at h₂
    cases h₁
    cases h₂
    exact ⟨fun _ => rfl, rfl, rfl⟩
  | false =>
    obtain ⟨a, -, rfl⟩ := accepted_of_applyResponse he h₁
    obtain ⟨b, -, rfl⟩ := accepted_of_applyResponse (h.isEmpty_eq.symm.trans he) h₂
    have hd := hr.distinct
    obtain ⟨hversion, hstate⟩ := a.metadata_eq hd
    obtain ⟨hversion', hstate'⟩ := b.metadata_eq hd
    have hm := a.manifest_of_relisted b h
    refine ⟨a.held?_of_relisted b h hd hr.enrolled, ?_, ?_⟩
    · rw [hversion, hversion', hm]
    · rw [hstate, hstate', hm]

/-- a stored file is replaced and a new one added, and either is listed again -/
theorem relisted_update_and_insert :
    let plain : HexDigest := fun _ data => data.hex
    let x : TargetFile := ⟨"employee/ASM/x/config", [97]⟩
    let y : TargetFile := ⟨"employee/ASM_DATA/y/config", [99]⟩
    let r := (applyResponse plain {} (.delivering plain 1 [{ x with raw := [96] }])).2
    let first := Response.delivering plain 2 [x, y]
    let second := { first with paths := [y.path, x.path, y.path, x.path] }
    Reached plain r ∧ first.Relisted second ∧
      ∃ changes₁ changes₂ r₁ r₂, r.applyResponse plain first = (.ok changes₁, r₁) ∧
        r.applyResponse plain second = (.ok changes₂, r₂) ∧
        r₁.current.contents.map Content.file = [x, y] ∧
        changes₁.length = 2 ∧ changes₂.length = 3 ∧
        ∀ path, r₁.held? path = r₂.held? path := by
  intro plain x y r first second
  have hr : Reached plain r := .applied .new _
  have h : first.Relisted second := by
    refine ⟨rfl, rfl, fun s => ?_⟩
    show s ∈ [x.path, y.path] ↔ s ∈ [y.path, x.path, y.path, x.path]
    simp only [List.mem_cons, List.not_mem_nil, or_false]
    tauto
  obtain ⟨hstored, hlengths⟩ :
      (r.applyResponse plain first).2.current.contents.map Content.file = [x, y] ∧
      ([first, second].map fun response =>
        (r.applyResponse plain response).1.toOption.map List.length) = [some 2, some 3] := by
    decide +kernel
  obtain ⟨hiff, hsame⟩ := applyResponse_of_relisted hr h
  cases h₁ : r.applyResponse plain first with
  | mk outcome₁ r₁ =>
    cases h₂ : r.applyResponse plain second with
    | mk outcome₂ r₂ =>
      rw [h₁] at hstored
      simp only [List.map_cons, List.map_nil, h₁, h₂, List.cons.injEq, and_true] at hlengths
      obtain ⟨hone, htwo⟩ := hlengths
      cases outcome₁ with
      | error e => cases hone
      | ok changes₁ =>
        cases outcome₂ with
        | error e => cases htwo
        | ok changes₂ =>
          obtain ⟨hheld, -, -⟩ := hsame changes₁ changes₂ r₁ r₂ h₁ h₂
          exact ⟨hr, h, changes₁, changes₂, r₁, r₂, rfl, rfl, hstored, Option.some.inj hone,
            Option.some.inj htwo, hheld⟩

end Repository
end
end RemoteGuard
