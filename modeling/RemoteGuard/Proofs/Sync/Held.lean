import RemoteGuard.Proofs.Sync.Acceptance
import RemoteGuard.Repository.Report

/-!
# Responses that list what is held

A path is `Held` if the content that is stored there meets the target that a manifest has for it.
Listing such a path asks for nothing, so a response that lists no others deletes the rest and keeps
what it lists: the same contents, in the same order, with what is recorded about them.

* `applyResponse_of_held`      what such a response does;
* `applyResponse_of_cached`    a response that lists files by their reported digests is one;
* `applyResponse_of_repeated`  so is one that repeats an accepted one, and it changes nothing.
-/

namespace RemoteGuard
open ContentList

/-! ## deletions -/

namespace Draft

theorem run_deletes (d : Draft) (ps : List ConfigPath) :
    (d.run (ps.map .delete)).snapshot.contents
        = d.snapshot.contents.filter (fun c => c.path ∉ ps) ∧
      (d.run (ps.map .delete)).ledger = d.ledger := by
  induction ps generalizing d with
  | nil => exact ⟨by simp [run_nil], rfl⟩
  | cons p ps ih =>
    obtain ⟨hcontents, hledger⟩ := ih (d.delete p)
    rw [List.map_cons, run_cons]
    constructor
    · show (Draft.run (d.delete p) _).snapshot.contents = _
      rw [hcontents, contents_delete, erase, List.filter_filter]
      refine List.filter_congr fun c _ => ?_
      by_cases e : c.path = p <;> simp [e]
    · show (Draft.run (d.delete p) _).ledger = _
      rw [hledger, ledger_delete]

end Draft

namespace Sync
variable {hexDigest : HexDigest} {before : Snapshot} {manifest : Manifest}
  {delivered : List Content} {listed : List ConfigPath}

theorem deletedChanges_eq (hd : Distinct before.contents) (listed : List ConfigPath) :
    deletedChanges before listed
      = (before.contents.filter fun c => c.path ∉ listed).map fun c => .deleted c.path c := by
  unfold deletedChanges Snapshot.paths
  rw [hd.paths_eq, List.filter_map, List.filterMap_map, ← List.filterMap_eq_map]
  refine List.filterMap_congr fun c hc => ?_
  have hget : before.get? c.path = some c :=
    hd.get?_eq_some_iff.mpr ⟨(List.mem_filter.mp hc).1, rfl⟩
  simp [hget]

/-! ## plans for what is held -/

/-- what is stored at the path meets the target that the manifest has for it -/
def Held (hexDigest : HexDigest) (current : Snapshot) (manifest : Manifest) (path : ConfigPath) :
    Prop :=
  ∃ target c, manifest.target? path = some target ∧ current.get? path = some c ∧
    target.IsMet hexDigest c.data

theorem operationAt_of_held (hd : Distinct before.contents) {path : ConfigPath}
    (h : Held hexDigest before manifest path) :
    operationAt hexDigest before manifest delivered path = .ok [] := by
  obtain ⟨target, c, ht, hc, hmet⟩ := h
  rw [operationAt_eq hd, ht, hc]
  exact if_pos (Target.check_iff.mpr hmet)

theorem plan_of_held (hd : Distinct before.contents)
    (h : ∀ path ∈ listed, Held hexDigest before manifest path) :
    plan hexDigest manifest delivered listed before
      = .ok (deletions before listed ++ [.set (metadata manifest)]) := by
  have hasked : operationsAt (operationAt hexDigest before manifest delivered) listed = .ok [] := by
    induction listed with
    | nil => rfl
    | cons p ps ih =>
      obtain ⟨hp, hps⟩ := List.forall_mem_cons.mp h
      rw [operationsAt, operationAt_of_held hd hp, ih hps]
      rfl
  rw [plan_eq, hasked]
  show Except.ok (deletions before listed ++ [] ++ [.set (metadata manifest)]) = _
  rw [List.append_nil]

end Sync

/-! ## responses that list what is held -/

/-- the manifest asks of the path of a cached file for the reported digest and no other -/
def Manifest.Confirms (m : Manifest) (f : CachedFile) : Prop :=
  ∀ path : ConfigPath, path.text = f.path →
    ∃ target, m.target? path = some target ∧ target.digests = [f.digest]

section
variable {hexDigest : HexDigest} {r r' : Repository} {response : Response} {manifest : Manifest}

theorem Response.isEmpty_of_manifest
    (hm : Manifest.parseBytes (response.targets.getD []) = .ok manifest) :
    response.isEmpty = false := by
  cases hb : response.targets.getD [] with
  | nil =>
    rw [hb] at hm
    cases hm
  | cons b bs => simp [isEmpty, hb]

namespace Accepted
variable (a : Accepted hexDigest r response)

theorem held (hd : Distinct r.current.contents) :
    ∀ path ∈ a.listed, Sync.Held hexDigest a.repository.current a.manifest path := by
  intro path hp
  obtain ⟨target, c, ht, hset, -, hcheck⟩ := Sync.settled_of_plan hd a.ops_eq hp
  refine ⟨target, c, ht, ?_, Target.check_iff.mp hcheck⟩
  rw [a.get?_eq hd, if_pos hp, hset]

theorem path_mem_listed (hd : Distinct r.current.contents) {c : Content}
    (hc : c ∈ a.repository.current.contents) : c.path ∈ a.listed := by
  have hget : a.repository.current.get? c.path = some c :=
    (a.distinct hd).get?_eq_some_iff.mpr ⟨hc, rfl⟩
  by_contra hp
  rw [a.get?_eq hd, if_neg hp] at hget
  cases hget

theorem draft_of_held (hd : Distinct r.current.contents)
    (h : ∀ path ∈ a.listed, Sync.Held hexDigest r.current a.manifest path) :
    a.draft.changes
        = (r.current.contents.filter fun c => c.path ∉ a.listed).map
            (fun c => .deleted c.path c) ∧
      a.draft.snapshot.contents = r.current.contents.filter (fun c => c.path ∈ a.listed) ∧
      a.draft.ledger = a.ledger := by
  have hops : a.ops = Sync.deletions r.current a.listed ++ [.set (Sync.metadata a.manifest)] :=
    Except.ok.inj (a.ops_eq.symm.trans (Sync.plan_of_held hd h))
  have hgone : (r.current.paths.filter fun p => p ∉ a.listed).Nodup := (nodup_paths _).filter _
  obtain ⟨hchanges, -⟩ := Draft.run_deletions ⟨r.current, a.ledger, []⟩ hgone
  obtain ⟨hcontents, hledger⟩ := Draft.run_deletes ⟨r.current, a.ledger, []⟩
    (r.current.paths.filter fun p => p ∉ a.listed)
  unfold draft
  rw [hops, Draft.run_append]
  refine ⟨?_, ?_, hledger⟩
  · show (Draft.run _ (List.map .delete _)).changes = _
    rw [hchanges, ← Sync.deletedChanges_eq hd]
    rfl
  · show (Draft.run _ (List.map .delete _)).snapshot.contents = _
    rw [hcontents]
    refine List.filter_congr fun c hc => ?_
    have hstored : c.path ∈ r.current.paths := mem_paths.mpr ⟨c, hc, rfl⟩
    simp [hstored]

end Accepted

namespace Repository

/-- a response that lists only what is held is accepted; what it does not list is deleted, in the
stored order, and what it lists stays as it is -/
theorem applyResponse_of_held (hd : Distinct r.current.contents)
    (hpaths : ∀ s ∈ response.paths, ∃ path, ConfigPath.parse s = .ok path)
    (hm : Manifest.parseBytes (response.targets.getD []) = .ok manifest)
    (hfiles : ∀ f ∈ response.files, ∃ path, ConfigPath.parse f.path = .ok path)
    (hheld : ∀ path : ConfigPath, path.text ∈ response.paths →
      Sync.Held hexDigest r.current manifest path) :
    ∃ r', r.applyResponse hexDigest response
        = (.ok ((r.current.contents.filter fun c => c.path.text ∉ response.paths).map
            fun c => .deleted c.path c), r') ∧
      r'.current = { contents := r.current.contents.filter fun c => c.path.text ∈ response.paths
                     backendState := manifest.backendState.or r.current.backendState
                     rootVersion := r.current.rootVersion
                     targetsVersion := manifest.version } ∧
      ∀ c, r'.ledger.version c = r.ledger.version c ∧ r'.ledger.state c = r.ledger.state c := by
  have hacceptable : response.Acceptable hexDigest r.current manifest := by
    refine ⟨hpaths, hm, hfiles, fun path hp => ?_⟩
    obtain ⟨target, c, ht, hc, hmet⟩ := hheld path hp
    obtain ⟨hmem, hcp⟩ := get?_eq_some hc
    exact ⟨target, ht, .inl ⟨c, hmem, hcp, hmet⟩⟩
  obtain ⟨a⟩ := hacceptable.accepted
  obtain rfl : a.manifest = manifest := Except.ok.inj (a.manifest_eq.symm.trans hm)
  obtain ⟨hchanges, hcontents, hledger⟩ :=
    a.draft_of_held hd fun path hp => hheld path ((a.mem_listed_iff path).mp hp)
  have hreceived := Ledger.received_of_receiveAll a.delivered_eq
  have hsnapshot := (Sync.run_plan hd a.ops_eq a.ledger).2.2
  simp only [a.mem_listed_iff] at hchanges hcontents
  refine ⟨a.repository, ?_, ?_, fun c => ?_⟩
  · rw [a.applyResponse_eq (Response.isEmpty_of_manifest hm), hchanges]
  · rw [← hcontents]
    exact hsnapshot
  · show a.draft.ledger.version c = _ ∧ a.draft.ledger.state c = _
    rw [hledger]
    exact ⟨hreceived.version_eq c, hreceived.state_eq c⟩

theorem exists_of_cached {s : String}
    (hs : s ∈ (r.report hexDigest).cachedFiles.map CachedFile.path) :
    ∃ c ∈ r.current.contents, c.path.text = s := by
  obtain ⟨f, hf, rfl⟩ := List.mem_map.mp hs
  obtain ⟨c, hc, rfl⟩ := List.mem_map.mp hf
  exact ⟨c, hc, rfl⟩

theorem held_of_confirms (hd : Distinct r.current.contents) {c : Content}
    (hc : c ∈ r.current.contents) (h : manifest.Confirms (c.cachedFile hexDigest)) :
    Sync.Held hexDigest r.current manifest c.path := by
  obtain ⟨target, ht, hdigests⟩ := h c.path rfl
  refine ⟨target, c, ht, hd.get?_eq_some_iff.mpr ⟨hc, rfl⟩, fun digest hdigest => ?_⟩
  rw [hdigests, List.mem_singleton] at hdigest
  rw [hdigest]
  rfl

/-- **Cached files.**  A response without files is accepted if it lists files that the client
reports as cached, under a manifest that asks for the digests that were reported.  It deletes each
stored path that it does not list, in the stored order, and the listed contents stay: the same
ones in the same order, with the same versions and states. -/
theorem applyResponse_of_cached {bytes : Bytes} {listed : List String} (hr : Reached hexDigest r)
    (hlisted : ∀ s ∈ listed, s ∈ (r.report hexDigest).cachedFiles.map CachedFile.path)
    (hm : Manifest.parseBytes bytes = .ok manifest)
    (hconfirms : ∀ f ∈ (r.report hexDigest).cachedFiles, f.path ∈ listed → manifest.Confirms f) :
    ∃ changes r',
      r.applyResponse hexDigest { targets := some bytes, files := [], paths := listed }
        = (.ok changes, r') ∧
      changes = (r.current.contents.filter fun c => c.path.text ∉ listed).map
        (fun c => .deleted c.path c) ∧
      changes.map Change.path = r.current.paths.filter (fun p => p.text ∉ listed) ∧
      r'.current.contents = r.current.contents.filter (fun c => c.path.text ∈ listed) ∧
      ∀ c, r'.ledger.version c = r.ledger.version c ∧ r'.ledger.state c = r.ledger.state c := by
  have hd := hr.distinct
  let response : Response := { targets := some bytes, files := [], paths := listed }
  have hheld : ∀ path : ConfigPath, path.text ∈ response.paths →
      Sync.Held hexDigest r.current manifest path := by
    intro path hp
    obtain ⟨c, hc, htext⟩ := exists_of_cached (hlisted path.text hp)
    obtain rfl := ConfigPath.ext_text htext
    exact held_of_confirms hd hc (hconfirms _ (List.mem_map_of_mem hc) hp)
  have hpaths : ∀ s ∈ response.paths, ∃ path, ConfigPath.parse s = .ok path := by
    intro s hs
    obtain ⟨c, -, rfl⟩ := exists_of_cached (hlisted s hs)
    exact ⟨c.path, c.path.parse_text⟩
  have hfiles : ∀ f ∈ response.files, ∃ path, ConfigPath.parse f.path = .ok path := by
    intro f hf
    cases hf
  obtain ⟨r', happlied, hcurrent, hledger⟩ := applyResponse_of_held hd hpaths hm hfiles hheld
  refine ⟨_, r', happlied, rfl, ?_, congrArg Snapshot.contents hcurrent, hledger⟩
  unfold Snapshot.paths
  rw [hd.paths_eq, List.filter_map, List.map_map]
  rfl

/-- of two cached files one is listed, twice -/
theorem cached_file_listed_twice :
    let plain : HexDigest := fun _ data => data.hex
    let gone : TargetFile := ⟨"employee/ASM/x/config", [97]⟩
    let kept : TargetFile := ⟨"employee/ASM_DATA/y/config", [99]⟩
    let r := (applyResponse plain {} (.delivering plain 1 [gone, kept])).2
    let bytes := (Response.delivering plain 2 [kept]).targets.getD []
    let listed := [kept.path, kept.path]
    ∃ manifest changes r', Reached plain r ∧
      (∀ s ∈ listed, s ∈ (r.report plain).cachedFiles.map CachedFile.path) ∧
      Manifest.parseBytes bytes = .ok manifest ∧
      (∀ f ∈ (r.report plain).cachedFiles, f.path ∈ listed → manifest.Confirms f) ∧
      r.applyResponse plain { targets := some bytes, files := [], paths := listed }
        = (.ok changes, r') ∧
      changes.map (fun change => change.path.text) = [gone.path] ∧
      r'.current.contents.map Content.file = [kept] := by
  intro plain gone kept r bytes listed
  -- the digests that the manifest declares for the listed contents are the reported ones
  obtain ⟨hlisted, hdeclared, hkept, hgone⟩ :
      (∀ s ∈ listed, s ∈ (r.report plain).cachedFiles.map CachedFile.path) ∧
      (Manifest.parseBytes bytes).toOption.map (fun manifest =>
        r.current.contents.all fun c => c.path.text ∈ listed →
          (manifest.target? c.path).map Target.digests = some [(c.cachedFile plain).digest])
        = some true ∧
      (r.current.contents.filter fun c => c.path.text ∈ listed).map Content.file = [kept] ∧
      (r.current.paths.filter fun p => p.text ∉ listed).map ConfigPath.text = [gone.path] := by
    decide +kernel
  cases hm : Manifest.parseBytes bytes with
  | error e =>
    rw [hm] at hdeclared
    cases hdeclared
  | ok manifest =>
    rw [hm] at hdeclared
    have hall := List.all_eq_true.mp (Option.some.inj hdeclared)
    have hconfirms : ∀ f ∈ (r.report plain).cachedFiles, f.path ∈ listed →
        manifest.Confirms f := by
      intro f hf hp path hpath
      obtain ⟨c, hc, rfl⟩ := List.mem_map.mp hf
      obtain rfl : path = c.path := ConfigPath.ext_text hpath
      exact Option.map_eq_some_iff.mp (of_decide_eq_true (hall c hc) hp)
    have hr : Reached plain r := .applied .new _
    obtain ⟨changes, r', happlied, -, hdeleted, hcontents, -⟩ :=
      applyResponse_of_cached hr hlisted hm hconfirms
    refine ⟨manifest, changes, r', hr, hlisted, rfl, hconfirms, happlied, ?_, ?_⟩
    · rw [← hgone, ← hdeleted, List.map_map]
      rfl
    · rw [hcontents, hkept]

/-- **Redelivery.**  A response that repeats the manifest and the listed paths of the accepted one
before it is accepted and changes nothing, whatever files it delivers, if only their paths
parse. -/
theorem applyResponse_of_repeated {first second : Response} {changes : ChangeSet}
    (hr : Reached hexDigest r) (hne : first.isEmpty = false)
    (h : r.applyResponse hexDigest first = (.ok changes, r'))
    (htargets : second.targets = first.targets)
    (hpaths : ∀ s, s ∈ second.paths ↔ s ∈ first.paths)
    (hfiles : ∀ f ∈ second.files, ∃ path, ConfigPath.parse f.path = .ok path) :
    ∃ r'', r'.applyResponse hexDigest second = (.ok [], r'') ∧ r''.current = r'.current ∧
      ∀ c, r''.ledger.version c = r'.ledger.version c ∧
        r''.ledger.state c = r'.ledger.state c := by
  obtain ⟨a, -, rfl⟩ := accepted_of_applyResponse hne h
  have hd := hr.distinct
  have hlisted : ∀ path : ConfigPath, path.text ∈ second.paths ↔ path ∈ a.listed := fun path =>
    (hpaths path.text).trans (a.mem_listed_iff path).symm
  have hparsed : ∀ s ∈ second.paths, ∃ path, ConfigPath.parse s = .ok path := fun s hs =>
    a.acceptable.paths s ((hpaths s).mp hs)
  obtain ⟨r'', happlied, hcurrent, hledger⟩ := applyResponse_of_held (a.distinct hd) hparsed
    (htargets ▸ a.manifest_eq) hfiles fun path hp => a.held hd path ((hlisted path).mp hp)
  -- all that is stored is listed again, so that nothing goes
  have hall : ∀ c ∈ a.repository.current.contents, c.path.text ∈ second.paths := fun c hc =>
    (hlisted c.path).mpr (a.path_mem_listed hd hc)
  refine ⟨r'', ?_, ?_, hledger⟩
  · have hnone : a.repository.current.contents.filter (fun c => c.path.text ∉ second.paths)
        = [] := by
      rw [List.filter_eq_nil_iff]
      intro c hc
      simp [hall c hc]
    rw [happlied, hnone]
    rfl
  · have hkept : a.repository.current.contents.filter (fun c => c.path.text ∈ second.paths)
        = a.repository.current.contents := by
      rw [List.filter_eq_self]
      exact fun c hc => decide_eq_true (hall c hc)
    obtain ⟨hversion, hstate⟩ := a.metadata_eq hd
    have hor : a.manifest.backendState.or a.repository.current.backendState
        = a.repository.current.backendState := by
      rw [hstate]
      cases a.manifest.backendState <;> rfl
    rw [hcurrent, hkept, hor, ← hversion]

/-- a file is delivered in the place of another beside a stored one; then both are listed again in
another order, and one of them comes with other bytes -/
theorem repeated_with_tampered_file :
    let plain : HexDigest := fun _ data => data.hex
    let x : TargetFile := ⟨"employee/ASM/x/config", [97]⟩
    let y : TargetFile := ⟨"employee/ASM_DATA/y/config", [99]⟩
    let r := (applyResponse plain {} (.delivering plain 1 [{ x with raw := [96] }, y])).2
    let first := { Response.delivering plain 2 [x, y] with files := [x] }
    let second : Response :=
      { first with files := [{ x with raw := [98] }], paths := [y.path, x.path, y.path] }
    ∃ changes r' r'', Reached plain r ∧ first.isEmpty = false ∧
      r.applyResponse plain first = (.ok changes, r') ∧ second.targets = first.targets ∧
      (∀ s, s ∈ second.paths ↔ s ∈ first.paths) ∧
      (∀ f ∈ second.files, ∃ path, ConfigPath.parse f.path = .ok path) ∧
      r'.applyResponse plain second = (.ok [], r'') ∧ r''.current = r'.current ∧
      r''.current.contents.map Content.file = [x, y] := by
  intro plain x y r first second
  have hr : Reached plain r := .applied .new _
  have hne : first.isEmpty = false := rfl
  obtain ⟨hok, hstored⟩ : (r.applyResponse plain first).1.isOk = true ∧
      (r.applyResponse plain first).2.current.contents.map Content.file = [x, y] := by
    decide +kernel
  have htargets : second.targets = first.targets := rfl
  have hpaths : ∀ s, s ∈ second.paths ↔ s ∈ first.paths := by
    intro s
    show s ∈ [y.path, x.path, y.path] ↔ s ∈ [x.path, y.path]
    simp only [List.mem_cons, List.not_mem_nil, or_false]
    tauto
  have hfiles : ∀ f ∈ second.files, ∃ path, ConfigPath.parse f.path = .ok path := by
    intro f hf
    have hparsed : (ConfigPath.parse x.path).isOk = true := by decide +kernel
    rw [List.mem_singleton.mp hf]
    cases hp : ConfigPath.parse x.path with
    | error e => rw [hp] at hparsed; cases hparsed
    | ok path => exact ⟨path, rfl⟩
  obtain ⟨changes, r', h⟩ := exists_ok_of_isOk hok
  obtain ⟨r'', happlied, hcurrent, -⟩ :=
    applyResponse_of_repeated hr hne h htargets hpaths hfiles
  rw [h] at hstored
  exact ⟨changes, r', r'', hr, hne, h, htargets, hpaths, hfiles, happlied, hcurrent,
    hcurrent ▸ hstored⟩

end Repository
end
end RemoteGuard
