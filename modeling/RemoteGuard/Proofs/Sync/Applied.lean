import RemoteGuard.Proofs.Sync.Plan

/-!
# Repositories that live on responses

`Repository.Reached` are the repositories that come of an empty one by responses, accepted or
not.  `applyResponse_cases` says what one response can do; what an accepted response was read as
is an `Accepted`.

* `Reached.distinct`              there is one content per path;
* `contents_of_applyResponse`     what is stored after an accepted response is what it lists, and
                                  meets its manifest.
-/

namespace RemoteGuard
open ContentList

/-! ## deliveries -/

/-- what a manifest says of a file -/
def TargetFile.descriptor (hexDigest : HexDigest) (version : Nat) (f : TargetFile) : Json.Value :=
  .object [("length", .nat f.raw.length),
    ("hashes", .object [("sha256", .string (hexDigest .sha256 f.raw))]),
    ("custom", .object [("v", .nat version)])]

/-- a response that delivers files, and lists their paths -/
def Response.delivering (hexDigest : HexDigest) (version : Nat) (files : List TargetFile) :
    Response where
  targets := some (utf8 (Json.Value.print (.object [("signed", .object [("version", .nat version),
    ("targets", .object (files.map fun f => (f.path, f.descriptor hexDigest version)))])])))
  files := files
  paths := files.map TargetFile.path

/-! ## what one response can do -/

/-- what an accepted response was read as -/
structure Accepted (hexDigest : HexDigest) (r : Repository) (response : Response) where
  listed : List ConfigPath
  manifest : Manifest
  delivered : List Content
  /-- the ledger that knows the delivered contents -/
  ledger : Ledger
  ops : List Operation
  listed_eq : parsePaths response.paths = .ok listed
  manifest_eq : Manifest.parseBytes (response.targets.getD []) = .ok manifest
  delivered_eq : r.ledger.receiveAll manifest.expires response.files = .ok (delivered, ledger)
  ops_eq : Sync.plan hexDigest manifest delivered listed r.current = .ok ops

namespace Accepted
variable {hexDigest : HexDigest} {r : Repository} {response : Response}

def draft (a : Accepted hexDigest r response) : Draft := Draft.run ⟨r.current, a.ledger, []⟩ a.ops

def repository (a : Accepted hexDigest r response) : Repository where
  current := a.draft.snapshot
  ledger := a.draft.ledger
  lastError := none

theorem distinct (a : Accepted hexDigest r response) (hd : Distinct r.current.contents) :
    Distinct a.repository.current.contents :=
  Draft.distinct_run hd (Sync.addressed_of_plan hd a.ops_eq)

theorem get?_eq (a : Accepted hexDigest r response) (hd : Distinct r.current.contents)
    (path : ConfigPath) :
    a.repository.current.get? path
      = if path ∈ a.listed then Sync.settled hexDigest r.current a.manifest a.delivered path
        else none :=
  (Sync.run_plan hd a.ops_eq a.ledger).2.1 path

theorem metadata_eq (a : Accepted hexDigest r response) (hd : Distinct r.current.contents) :
    a.repository.current.targetsVersion = a.manifest.version ∧
      a.repository.current.backendState
        = a.manifest.backendState.or r.current.backendState := by
  have h := (Sync.run_plan hd a.ops_eq a.ledger).2.2
  constructor
  · show a.draft.snapshot.targetsVersion = _
    rw [draft, h]
  · show a.draft.snapshot.backendState = _
    rw [draft, h]

end Accepted

namespace Repository
variable {hexDigest : HexDigest} {r r' : Repository} {response : Response}

theorem sync_cases (hexDigest : HexDigest) (r : Repository) (response : Response) :
    (∃ e, r.sync hexDigest response = .error e) ∨
    (response.isEmpty = true ∧ r.sync hexDigest response = .ok ([], r)) ∨
    (response.isEmpty = false ∧ ∃ a : Accepted hexDigest r response,
      r.sync hexDigest response = .ok (a.draft.changes,
        { r with current := a.draft.snapshot, ledger := a.draft.ledger })) := by
  cases he : response.isEmpty with
  | true =>
    refine .inr (.inl ⟨rfl, ?_⟩)
    rw [sync, he]
    rfl
  | false =>
    cases hp : parsePaths response.paths with
    | error e =>
      refine .inl ⟨.path e, ?_⟩
      simp only [sync, he, hp, Bool.false_eq_true, if_false]
    | ok listed =>
      cases hm : Manifest.parseBytes (response.targets.getD []) with
      | error e =>
        refine .inl ⟨.manifest e, ?_⟩
        simp only [sync, he, hp, hm, Bool.false_eq_true, if_false]
      | ok manifest =>
        cases hf : r.ledger.receiveAll manifest.expires response.files with
        | error e =>
          refine .inl ⟨.path e, ?_⟩
          simp only [sync, he, hp, hm, hf, Bool.false_eq_true, if_false]
        | ok received =>
          obtain ⟨delivered, ledger⟩ := received
          cases ho : Sync.plan hexDigest manifest delivered listed r.current with
          | error e =>
            refine .inl ⟨e, ?_⟩
            simp only [sync, he, hp, hm, hf, Bool.false_eq_true, if_false]
            exact transaction_error ho
          | ok ops =>
            refine .inr (.inr ⟨rfl, ⟨listed, manifest, delivered, ledger, ops, hp, hm, hf, ho⟩, ?_⟩)
            simp only [sync, he, hp, hm, hf, Bool.false_eq_true, if_false]
            exact transaction_ok ho

theorem applyResponse_cases (hexDigest : HexDigest) (r : Repository) (response : Response) :
    (∃ e, r.applyResponse hexDigest response = (.error e, r.recordError (some (.sync e)))) ∨
    (response.isEmpty = true ∧
      r.applyResponse hexDigest response = (.ok [], r.recordError none)) ∨
    (response.isEmpty = false ∧ ∃ a : Accepted hexDigest r response,
      r.applyResponse hexDigest response = (.ok a.draft.changes, a.repository)) := by
  rcases sync_cases hexDigest r response with ⟨e, h⟩ | ⟨he, h⟩ | ⟨he, a, h⟩
  · refine .inl ⟨e, ?_⟩
    rw [applyResponse, h]
  · refine .inr (.inl ⟨he, ?_⟩)
    rw [applyResponse, h]
  · refine .inr (.inr ⟨he, a, ?_⟩)
    rw [applyResponse, h]
    rfl

theorem applyResponse_of_isEmpty (he : response.isEmpty = true) :
    r.applyResponse hexDigest response = (.ok [], r.recordError none) := by
  unfold applyResponse sync
  rw [he]
  rfl

/-- a rejected response changes nothing but the recorded error -/
theorem applyResponse_of_error {e : SyncError}
    (h : (r.applyResponse hexDigest response).1 = .error e) :
    (r.applyResponse hexDigest response).2 = r.recordError (some (.sync e)) := by
  rcases applyResponse_cases hexDigest r response with ⟨e', h'⟩ | ⟨-, h'⟩ | ⟨-, a, h'⟩
  · rw [h'] at h ⊢
    cases h
    rfl
  · rw [h'] at h
    cases h
  · rw [h'] at h
    cases h

theorem accepted_of_applyResponse {changes : ChangeSet} (hne : response.isEmpty = false)
    (h : r.applyResponse hexDigest response = (.ok changes, r')) :
    ∃ a : Accepted hexDigest r response, changes = a.draft.changes ∧ r' = a.repository := by
  rcases applyResponse_cases hexDigest r response with ⟨e, h'⟩ | ⟨he, -⟩ | ⟨-, a, h'⟩
  · rw [h'] at h
    cases h
  · exact Bool.noConfusion (he.symm.trans hne)
  · rw [h'] at h
    cases h
    exact ⟨a, rfl, rfl⟩

theorem exists_ok_of_isOk (h : (r.applyResponse hexDigest response).1.isOk = true) :
    ∃ changes r', r.applyResponse hexDigest response = (.ok changes, r') := by
  rcases applyResponse_cases hexDigest r response with ⟨e, h'⟩ | ⟨-, h'⟩ | ⟨-, a, h'⟩
  · rw [h'] at h
    cases h
  · exact ⟨_, _, h'⟩
  · exact ⟨_, _, h'⟩

/-! ## runs of responses -/

/-- the repository comes of an empty one by responses, accepted or not -/
inductive Reached (hexDigest : HexDigest) : Repository → Prop where
  | new : Reached hexDigest {}
  | applied {r : Repository} (h : Reached hexDigest r) (response : Response) :
      Reached hexDigest (r.applyResponse hexDigest response).2

theorem distinct_applyResponse (h : Distinct r.current.contents) (response : Response) :
    Distinct (r.applyResponse hexDigest response).2.current.contents := by
  rcases applyResponse_cases hexDigest r response with ⟨e, h'⟩ | ⟨-, h'⟩ | ⟨-, a, h'⟩
  · rw [h']
    exact h
  · rw [h']
    exact h
  · rw [h']
    exact a.distinct h

theorem Reached.distinct (h : Reached hexDigest r) : Distinct r.current.contents := by
  induction h with
  | new => exact distinct_nil
  | applied _ response ih => exact distinct_applyResponse ih response

/-! ## what is stored after an accepted response -/

/-- **Contents after a response.**  One content per listed path and none elsewhere, each with
every digest that the manifest asks for; the metadata are those of the manifest, and a backend
state that it lacks stays. -/
theorem contents_of_applyResponse {changes : ChangeSet} (hr : Reached hexDigest r)
    (hne : response.isEmpty = false)
    (h : r.applyResponse hexDigest response = (.ok changes, r')) :
    ∃ listed manifest, parsePaths response.paths = .ok listed ∧
      Manifest.parseBytes (response.targets.getD []) = .ok manifest ∧
      (r'.current.contents.map Content.path).Nodup ∧
      (∀ path, path ∈ r'.current.contents.map Content.path ↔ path ∈ listed) ∧
      (∀ c ∈ r'.current.contents, ∃ target, manifest.target? c.path = some target ∧
        ∀ digest ∈ target.digests, hexDigest digest.algorithm c.data = digest.hex) ∧
      r'.current.targetsVersion = manifest.version ∧
      r'.current.backendState = manifest.backendState.or r.current.backendState := by
  obtain ⟨a, -, rfl⟩ := accepted_of_applyResponse hne h
  have hd := hr.distinct
  have hd' := a.distinct hd
  have hstored : ∀ {path c}, a.repository.current.get? path = some c → path ∈ a.listed := by
    intro path c hc
    by_contra hp
    rw [a.get?_eq hd, if_neg hp] at hc
    cases hc
  refine ⟨a.listed, a.manifest, a.listed_eq, a.manifest_eq, hd', fun path => ?_, fun c hc => ?_,
    a.metadata_eq hd⟩
  · constructor
    · intro hp
      obtain ⟨c, hc, rfl⟩ := List.mem_map.mp hp
      exact hstored (hd'.get?_eq_some_iff.mpr ⟨hc, rfl⟩)
    · intro hp
      obtain ⟨target, c, -, hset, -, -⟩ := Sync.settled_of_plan hd a.ops_eq hp
      have hc : a.repository.current.get? path = some c := by
        rw [a.get?_eq hd, if_pos hp, hset]
      obtain ⟨hmem, rfl⟩ := get?_eq_some hc
      exact List.mem_map_of_mem hmem
  · have hget : a.repository.current.get? c.path = some c := hd'.get?_eq_some_iff.mpr ⟨hc, rfl⟩
    have hp := hstored hget
    obtain ⟨target, c', ht, hset, -, hcheck⟩ := Sync.settled_of_plan hd a.ops_eq hp
    rw [a.get?_eq hd, if_pos hp, hset] at hget
    cases hget
    exact ⟨target, ht, DigestList.check_iff.mp hcheck⟩

/-- a file is delivered, then another in its place together with a new one -/
theorem contents_after_two_deliveries :
    let plain : HexDigest := fun _ data => data.hex
    let r := (applyResponse plain {}
      (.delivering plain 1 [⟨"employee/ASM/x/config", [97]⟩])).2
    let response := Response.delivering plain 2
      [⟨"employee/ASM/x/config", [98]⟩, ⟨"employee/ASM_DATA/y/config", [99]⟩]
    ∃ changes r', Reached plain r ∧ response.isEmpty = false ∧
      r.applyResponse plain response = (.ok changes, r') ∧
      (r'.current.contents.map Content.path).Nodup ∧ r'.current.contents.length = 2 := by
  intro plain r response
  have hr : Reached plain r := .applied .new _
  have hne : response.isEmpty = false := by decide +kernel
  have hok : (r.applyResponse plain response).1.isOk = true := by decide +kernel
  have hlen : (r.applyResponse plain response).2.current.contents.length = 2 := by decide +kernel
  obtain ⟨changes, r', h⟩ := exists_ok_of_isOk hok
  obtain ⟨listed, manifest, -, -, hnodup, -⟩ := contents_of_applyResponse hr hne h
  rw [h] at hlen
  exact ⟨changes, r', hr, hne, h, hnodup, hlen⟩

end Repository
end RemoteGuard
