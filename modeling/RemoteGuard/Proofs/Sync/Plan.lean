import RemoteGuard.Proofs.Repository.Operations
import RemoteGuard.Sync

/-!
# What a plan leaves at each path, and which changes

A plan is computed against the snapshot before it, `before`, and then runs on a draft that moves
away from it: a path that is listed again meets what the plan itself has put there.  So what is
proved here follows the listing from left to right, with the paths `seen` so far.

* `settled`            the content at a listed path after the plan: a stored one that meets the
                       target, else a delivered one;
* `changesAt`          the changes of one listed path.  A path that is seen already brings nothing
                       if it was new, but one more update if its content was out of date;
* `run_plan`           the draft after a plan has `settled` at every listed path and nothing
                       elsewhere, and its changes are those of the paths that went and of the
                       listed ones, in their order.
-/

namespace RemoteGuard

/-! ## deletions -/

namespace Draft

theorem run_deletions (d : Draft) {ps : List ConfigPath} (hps : ps.Nodup) :
    (d.run (ps.map .delete)).changes
        = d.changes ++ ps.filterMap (fun p => (d.snapshot.get? p).map (.deleted p)) ∧
      ∀ q, (d.run (ps.map .delete)).snapshot.get? q
        = if q ∈ ps then none else d.snapshot.get? q := by
  induction ps generalizing d with
  | nil => exact ⟨(List.append_nil _).symm, fun q => (if_neg List.not_mem_nil).symm⟩
  | cons p ps ih =>
    obtain ⟨hp, hps⟩ := List.nodup_cons.mp hps
    obtain ⟨hchanges, hget⟩ := ih (d.delete p) hps
    have hstep : ∀ q, (d.delete p).snapshot.get? q = if q = p then none else d.snapshot.get? q := by
      intro q
      show ContentList.get? q (d.delete p).snapshot.contents = _
      rw [contents_delete]
      exact ContentList.get?_erase p q d.snapshot.contents
    refine ⟨?_, fun q => ?_⟩
    · rw [List.map_cons, run_cons]
      show (Draft.run (d.delete p) _).changes = _
      have hrest : ∀ q ∈ ps, ((d.delete p).snapshot.get? q).map (Change.deleted q)
          = (d.snapshot.get? q).map (.deleted q) := by
        intro q hq
        rw [hstep, if_neg fun e : q = p => hp (e ▸ hq)]
      rw [hchanges, List.filterMap_congr hrest, List.filterMap_cons]
      cases hg : d.snapshot.get? p with
      | none => rw [delete_of_none hg]; rfl
      | some previous =>
        rw [delete_of_some hg]
        exact List.append_assoc ..
    · rw [List.map_cons, run_cons]
      show (Draft.run (d.delete p) _).snapshot.get? q = _
      rw [hget, hstep]
      by_cases hq : q ∈ ps
      · rw [if_pos hq, if_pos (List.mem_cons_of_mem _ hq)]
      · by_cases e : q = p
        · rw [if_neg hq, if_pos e, if_pos (List.mem_cons.mpr (.inl e))]
        · rw [if_neg hq, if_neg e, if_neg fun h => (List.mem_cons.mp h).elim e hq]

end Draft

namespace Sync
open ContentList

section
variable (hexDigest : HexDigest) (before : Snapshot) (manifest : Manifest)
  (delivered : List Content)

/-! ## outcome of one path -/

/-- the content at a listed path after the plan -/
def settled (path : ConfigPath) : Option Content :=
  (manifest.target? path).bind fun target =>
    (findVerified? hexDigest path target before.contents).or
      (findVerified? hexDigest path target delivered)

/-- the changes at a path that is listed after the paths `seen` -/
def changesAt (seen : List ConfigPath) (path : ConfigPath) : List Change :=
  match manifest.target? path with
  | none => []
  | some target =>
    match before.get? path with
    | none =>
      if path ∈ seen then []
      else (findVerified? hexDigest path target delivered).toList.map (.inserted path target)
    | some old =>
      if target.check hexDigest old.data then []
      else (findVerified? hexDigest path target delivered).toList.map fun c =>
        .updated path target c (if path ∈ seen then c else old)

/-- the changes of a listing that goes on after the paths `seen` -/
def changesAlong (seen : List ConfigPath) : List ConfigPath → List Change
  | [] => []
  | p :: ps => changesAt hexDigest before manifest delivered seen p ++ changesAlong (p :: seen) ps

/-- the changes at stored paths that are not listed -/
def deletedChanges (listed : List ConfigPath) : List Change :=
  (before.paths.filter fun p => p ∉ listed).filterMap fun p => (before.get? p).map (.deleted p)

end

section
variable {hexDigest : HexDigest} {before : Snapshot} {manifest : Manifest}
  {delivered : List Content}

theorem operationAt_eq (hd : Distinct before.contents) (path : ConfigPath) :
    operationAt hexDigest before manifest delivered path =
      match manifest.target? path with
      | none => .error (.missingTarget path)
      | some target =>
        match before.get? path with
        | none =>
          match findVerified? hexDigest path target delivered with
          | none => .error (.missingContent path)
          | some c => .ok [.insert path target c]
        | some old =>
          if target.check hexDigest old.data = true then .ok []
          else
            match findVerified? hexDigest path target delivered with
            | none => .error (.missingContent path)
            | some c => .ok [.update path target c] := by
  unfold operationAt
  cases manifest.target? path with
  | none => rfl
  | some target =>
    simp only [hd.findVerified?_eq]
    cases hg : before.get? path with
    | none =>
      have hnew : path ∉ before.paths := get?_eq_none_iff_not_mem.mp hg
      rw [show get? path before.contents = none from hg]
      cases findVerified? hexDigest path target delivered <;>
        simp only [hnew, not_false_eq_true, not_true_eq_false, false_and, if_false, if_true]
    | some old =>
      have hold : path ∈ before.paths := by
        by_contra hnew
        exact Option.some_ne_none old (hg.symm.trans (get?_eq_none_iff_not_mem.mpr hnew))
      rw [show get? path before.contents = some old from hg, Option.filter_some]
      by_cases hc : target.check hexDigest old.data = true
      · simp only [hold, hc, not_true_eq_false, not_false_eq_true, true_and, if_true,
          Option.isSome_some]
      · cases findVerified? hexDigest path target delivered <;>
          simp only [hold, hc, not_true_eq_false, not_false_eq_true, true_and, if_false,
            Option.isSome_none, Bool.false_eq_true]

theorem operationAt_cases {path : ConfigPath} {ops : List Operation}
    (hd : Distinct before.contents)
    (h : operationAt hexDigest before manifest delivered path = .ok ops) :
    ∃ target, manifest.target? path = some target ∧
      ((∃ c, before.get? path = some c ∧ target.check hexDigest c.data = true ∧ ops = []) ∨
      (∃ c, before.get? path = none ∧ findVerified? hexDigest path target delivered = some c ∧
        ops = [.insert path target c]) ∨
      (∃ c old, before.get? path = some old ∧ target.check hexDigest old.data = false ∧
        findVerified? hexDigest path target delivered = some c ∧
        ops = [.update path target c])) := by
  rw [operationAt_eq hd] at h
  cases ht : manifest.target? path with
  | none => rw [ht] at h; cases h
  | some target =>
    refine ⟨target, rfl, ?_⟩
    cases hg : before.get? path with
    | none =>
      cases hf : findVerified? hexDigest path target delivered with
      | none => simp only [ht, hg, hf] at h; cases h
      | some c =>
        simp only [ht, hg, hf] at h
        cases h
        exact .inr (.inl ⟨c, rfl, rfl, rfl⟩)
    | some old =>
      cases hc : target.check hexDigest old.data with
      | true =>
        simp only [ht, hg, hc, if_true] at h
        cases h
        exact .inl ⟨old, rfl, hc, rfl⟩
      | false =>
        cases hf : findVerified? hexDigest path target delivered with
        | none => simp only [ht, hg, hc, hf, Bool.false_eq_true, if_false] at h; cases h
        | some c =>
          simp only [ht, hg, hc, hf, Bool.false_eq_true, if_false] at h
          cases h
          exact .inr (.inr ⟨c, old, rfl, hc, rfl, rfl⟩)

/-! ## the run of a plan -/

theorem settled_eq (hexDigest : HexDigest) (delivered : List Content)
    (hd : Distinct before.contents) {path : ConfigPath} {target : Target}
    (ht : manifest.target? path = some target) :
    settled hexDigest before manifest delivered path
      = ((before.get? path).filter fun c => target.check hexDigest c.data).or
          (findVerified? hexDigest path target delivered) := by
  rw [settled, ht]
  show (findVerified? hexDigest path target before.contents).or _ = _
  rw [hd.findVerified?_eq]
  rfl

theorem run_met {d : Draft} {seen : List ConfigPath} {path : ConfigPath} {target : Target}
    {c : Content} (hd : Distinct before.contents) (ht : manifest.target? path = some target)
    (hg : before.get? path = some c) (hc : target.check hexDigest c.data = true)
    (hget : d.snapshot.get? path
      = if path ∈ seen then settled hexDigest before manifest delivered path
        else before.get? path) :
    d.changes = d.changes ++ changesAt hexDigest before manifest delivered seen path ∧
      ∀ q, d.snapshot.get? q
        = if q = path then settled hexDigest before manifest delivered path
          else d.snapshot.get? q := by
  have hset := settled_eq hexDigest delivered hd ht
  rw [hg, Option.filter_some, if_pos hc, Option.some_or] at hset
  have hheld : d.snapshot.get? path = some c := by
    rw [hget, hset, hg, ite_self]
  refine ⟨?_, fun q => ?_⟩
  · rw [changesAt, ht, hg]
    simp only [hc, if_true]
    exact (List.append_nil _).symm
  · split
    · next e => rw [e, hheld, hset]
    · rfl

/-- a path at which nothing is stored is filled, unless the plan has filled it already -/
theorem run_insert {d : Draft} {seen : List ConfigPath} {path : ConfigPath} {target : Target}
    {c : Content} (hd : Distinct before.contents) (ht : manifest.target? path = some target)
    (hg : before.get? path = none)
    (hf : findVerified? hexDigest path target delivered = some c)
    (hget : d.snapshot.get? path
      = if path ∈ seen then settled hexDigest before manifest delivered path
        else before.get? path) :
    (d.insert path target c).changes
        = d.changes ++ changesAt hexDigest before manifest delivered seen path ∧
      ∀ q, (d.insert path target c).snapshot.get? q
        = if q = path then settled hexDigest before manifest delivered path
          else d.snapshot.get? q := by
  have hset := settled_eq hexDigest delivered hd ht
  rw [hg, Option.filter_none, Option.none_or, hf] at hset
  by_cases hs : path ∈ seen
  · rw [if_pos hs, hset] at hget
    rw [Draft.insert_of_some target c hget]
    refine ⟨?_, fun q => ?_⟩
    · rw [changesAt, ht, hg]
      simp only [hs, if_true]
      exact (List.append_nil _).symm
    · split
      · next e => rw [e, hget, hset]
      · rfl
  · rw [if_neg hs, hg] at hget
    rw [Draft.insert_of_none target c hget]
    refine ⟨?_, fun q => ?_⟩
    · rw [changesAt, ht, hg]
      simp only [hs, if_false, hf]
      rfl
    · show get? q (d.snapshot.contents ++ [c]) = _
      have hcp : c.path = path := (findVerified?_eq_some hf).2.1
      rw [get?_append, get?_cons, get?_nil, hcp]
      by_cases e : q = path
      · rw [if_pos e, if_pos e.symm, e, hset, show get? path d.snapshot.contents = none from hget]
        rfl
      · rw [if_neg e, if_neg (Ne.symm e), Option.or_none]
        rfl

/-- a content that does not meet the target is replaced, and again when it is listed again -/
theorem run_update {d : Draft} {seen : List ConfigPath} {path : ConfigPath} {target : Target}
    {c old : Content} (hd : Distinct before.contents) (ht : manifest.target? path = some target)
    (hg : before.get? path = some old) (hc : target.check hexDigest old.data = false)
    (hf : findVerified? hexDigest path target delivered = some c)
    (hget : d.snapshot.get? path
      = if path ∈ seen then settled hexDigest before manifest delivered path
        else before.get? path) :
    (d.update path target c).changes
        = d.changes ++ changesAt hexDigest before manifest delivered seen path ∧
      ∀ q, (d.update path target c).snapshot.get? q
        = if q = path then settled hexDigest before manifest delivered path
          else d.snapshot.get? q := by
  have hset := settled_eq hexDigest delivered hd ht
  rw [hg, Option.filter_some, if_neg (by rw [hc]; exact Bool.false_ne_true), Option.none_or,
    hf] at hset
  have hcp : c.path = path := (findVerified?_eq_some hf).2.1
  have hheld : d.snapshot.get? path = some (if path ∈ seen then c else old) := by
    rw [hget, hset, hg]
    split <;> rfl
  cases hr : replace? c d.snapshot.contents with
  | none =>
    rw [replace?_eq_none_iff, hcp] at hr
    exact absurd (hheld.symm.trans hr) (Option.some_ne_none _)
  | some r =>
    have hprev : r.1 = if path ∈ seen then c else old := by
      have h := (get?_of_replace? hr path).1
      rw [hcp] at h
      exact Option.some.inj (h.symm.trans hheld)
    rw [Draft.update_of_some path target hr]
    refine ⟨?_, fun q => ?_⟩
    · rw [changesAt, ht, hg]
      simp only [hc, Bool.false_eq_true, if_false, hf]
      show d.changes ++ [.updated path target c r.1] = _
      rw [hprev]
      rfl
    · show get? q r.2 = _
      rw [(get?_of_replace? hr q).2, hcp, hset]
      rfl

theorem run_operationAt {d : Draft} {seen : List ConfigPath} {path : ConfigPath}
    {ops : List Operation} (hd : Distinct before.contents)
    (hop : operationAt hexDigest before manifest delivered path = .ok ops)
    (hget : d.snapshot.get? path
      = if path ∈ seen then settled hexDigest before manifest delivered path
        else before.get? path) :
    (d.run ops).changes = d.changes ++ changesAt hexDigest before manifest delivered seen path ∧
      ∀ q, (d.run ops).snapshot.get? q
        = if q = path then settled hexDigest before manifest delivered path
          else d.snapshot.get? q := by
  obtain ⟨target, ht, ⟨c, hg, hc, rfl⟩ | ⟨c, hg, hf, rfl⟩ | ⟨c, old, hg, hc, hf, rfl⟩⟩ :=
    operationAt_cases hd hop
  · exact run_met hd ht hg hc hget
  · exact run_insert hd ht hg hf hget
  · exact run_update hd ht hg hc hf hget

theorem run_operationsAt {d : Draft} {seen listed : List ConfigPath} {ops : List Operation}
    (hd : Distinct before.contents)
    (hop : operationsAt (operationAt hexDigest before manifest delivered) listed = .ok ops)
    (hget : ∀ q ∈ listed, d.snapshot.get? q
      = if q ∈ seen then settled hexDigest before manifest delivered q else before.get? q) :
    (d.run ops).changes
        = d.changes ++ changesAlong hexDigest before manifest delivered seen listed ∧
      ∀ q, (d.run ops).snapshot.get? q
        = if q ∈ listed then settled hexDigest before manifest delivered q
          else d.snapshot.get? q := by
  induction listed generalizing d seen ops with
  | nil =>
    cases hop
    exact ⟨(List.append_nil _).symm, fun q => (if_neg List.not_mem_nil).symm⟩
  | cons p ps ih =>
    rw [operationsAt] at hop
    cases ho : operationAt hexDigest before manifest delivered p with
    | error e => rw [ho] at hop; cases hop
    | ok first =>
      rw [ho] at hop
      cases hr : operationsAt (operationAt hexDigest before manifest delivered) ps with
      | error e => simp only [hr] at hop; cases hop
      | ok rest =>
        simp only [hr] at hop
        cases hop
        obtain ⟨hchanges, hfirst⟩ := run_operationAt hd ho (hget p List.mem_cons_self)
        have hget' : ∀ q ∈ ps, (d.run first).snapshot.get? q
            = if q ∈ p :: seen then settled hexDigest before manifest delivered q
              else before.get? q := by
          intro q hq
          rw [hfirst]
          by_cases e : q = p
          · rw [if_pos e, if_pos (List.mem_cons.mpr (.inl e)), e]
          · rw [if_neg e, hget q (List.mem_cons_of_mem _ hq)]
            simp only [List.mem_cons, e, false_or]
        obtain ⟨hchanges', hrest⟩ := ih hr hget'
        rw [Draft.run_append]
        refine ⟨?_, fun q => ?_⟩
        · rw [hchanges', hchanges, List.append_assoc]
          rfl
        · rw [hrest, hfirst]
          by_cases hq : q ∈ ps
          · rw [if_pos hq, if_pos (List.mem_cons_of_mem _ hq)]
          · by_cases e : q = p
            · rw [if_neg hq, if_pos e, if_pos (List.mem_cons.mpr (.inl e)), e]
            · rw [if_neg hq, if_neg e, if_neg fun h => (List.mem_cons.mp h).elim e hq]

/-! ## what a plan consists of -/

theorem operationsAt_asked {ask : ConfigPath → Except SyncError (List Operation)}
    {listed : List ConfigPath} {ops : List Operation} (h : operationsAt ask listed = .ok ops) :
    (∀ p ∈ listed, ∃ asked, ask p = .ok asked) ∧
      ∀ op ∈ ops, ∃ p ∈ listed, ∃ asked, ask p = .ok asked ∧ op ∈ asked := by
  induction listed generalizing ops with
  | nil =>
    cases h
    exact ⟨fun p hp => absurd hp List.not_mem_nil, fun op hop => absurd hop List.not_mem_nil⟩
  | cons p ps ih =>
    rw [operationsAt] at h
    cases ha : ask p with
    | error e => simp only [ha] at h; cases h
    | ok asked =>
      cases hr : operationsAt ask ps with
      | error e => simp only [ha, hr] at h; cases h
      | ok rest =>
        simp only [ha, hr] at h
        cases h
        obtain ⟨hall, hmem⟩ := ih hr
        constructor
        · intro q hq
          rcases List.mem_cons.mp hq with rfl | hq
          · exact ⟨asked, ha⟩
          · exact hall q hq
        · intro op hop
          rcases List.mem_append.mp hop with hop | hop
          · exact ⟨p, List.mem_cons_self, asked, ha, hop⟩
          · obtain ⟨q, hq, asked', ha', hop'⟩ := hmem op hop
            exact ⟨q, List.mem_cons_of_mem _ hq, asked', ha', hop'⟩

theorem plan_ok {listed : List ConfigPath} {ops : List Operation}
    (h : plan hexDigest manifest delivered listed before = .ok ops) :
    ∃ asked, operationsAt (operationAt hexDigest before manifest delivered) listed = .ok asked ∧
      ops = deletions before listed ++ asked ++ [.set (metadata manifest)] := by
  rw [plan_eq] at h
  cases ha : operationsAt (operationAt hexDigest before manifest delivered) listed with
  | error e => rw [ha] at h; cases h
  | ok asked =>
    rw [ha] at h
    cases h
    exact ⟨asked, rfl, rfl⟩

theorem settled_of_asked (hd : Distinct before.contents) {path : ConfigPath}
    {asked : List Operation}
    (h : operationAt hexDigest before manifest delivered path = .ok asked) :
    ∃ target c, manifest.target? path = some target ∧
      settled hexDigest before manifest delivered path = some c ∧ c.path = path ∧
      target.check hexDigest c.data = true := by
  obtain ⟨target, ht, hcases⟩ := operationAt_cases hd h
  have hset := settled_eq hexDigest delivered hd ht
  rcases hcases with ⟨c, hg, hc, -⟩ | ⟨c, hg, hf, -⟩ | ⟨c, old, hg, hc, hf, -⟩
  · rw [hg, Option.filter_some, if_pos hc, Option.some_or] at hset
    exact ⟨target, c, ht, hset, (get?_eq_some hg).2, hc⟩
  · rw [hg, Option.filter_none, Option.none_or, hf] at hset
    exact ⟨target, c, ht, hset, (findVerified?_eq_some hf).2⟩
  · rw [hg, Option.filter_some, if_neg (by rw [hc]; exact Bool.false_ne_true), Option.none_or,
      hf] at hset
    exact ⟨target, c, ht, hset, (findVerified?_eq_some hf).2⟩

theorem mem_operationAt_cases (hd : Distinct before.contents) {path : ConfigPath}
    {asked : List Operation} {op : Operation}
    (h : operationAt hexDigest before manifest delivered path = .ok asked) (hop : op ∈ asked) :
    ∃ target c, manifest.target? path = some target ∧
      findVerified? hexDigest path target delivered = some c ∧
      (op = .insert path target c ∨ op = .update path target c) := by
  obtain ⟨target, ht, ⟨c, -, -, rfl⟩ | ⟨c, -, hf, rfl⟩ | ⟨c, old, -, -, hf, rfl⟩⟩ :=
    operationAt_cases hd h
  · exact absurd hop List.not_mem_nil
  · exact ⟨target, c, ht, hf, .inl (List.mem_singleton.mp hop)⟩
  · exact ⟨target, c, ht, hf, .inr (List.mem_singleton.mp hop)⟩

theorem mem_plan_cases (hd : Distinct before.contents) {listed : List ConfigPath}
    {ops : List Operation} (h : plan hexDigest manifest delivered listed before = .ok ops)
    {op : Operation} (hop : op ∈ ops) :
    (∃ path, op = .delete path) ∨
    (∃ path target c, manifest.target? path = some target ∧
      findVerified? hexDigest path target delivered = some c ∧
      (op = .insert path target c ∨ op = .update path target c)) ∨
    op = .set (metadata manifest) := by
  obtain ⟨asked, ha, rfl⟩ := plan_ok h
  rcases List.mem_append.mp hop with hop | hop
  · rcases List.mem_append.mp hop with hop | hop
    · obtain ⟨path, -, rfl⟩ := List.mem_map.mp hop
      exact .inl ⟨path, rfl⟩
    · obtain ⟨path, -, asked', ha', hop'⟩ := (operationsAt_asked ha).2 op hop
      exact .inr (.inl ⟨path, mem_operationAt_cases hd ha' hop'⟩)
  · exact .inr (.inr (List.mem_singleton.mp hop))

theorem addressed_of_plan (hd : Distinct before.contents) {listed : List ConfigPath}
    {ops : List Operation} (h : plan hexDigest manifest delivered listed before = .ok ops) :
    ∀ op ∈ ops, op.Addressed := by
  intro op hop
  rcases mem_plan_cases hd h hop with ⟨path, rfl⟩ | ⟨path, target, c, -, hf, rfl | rfl⟩ | rfl
  · exact trivial
  · exact (findVerified?_eq_some hf).2.1
  · exact (findVerified?_eq_some hf).2.1
  · exact trivial

theorem settled_of_plan (hd : Distinct before.contents) {listed : List ConfigPath}
    {ops : List Operation} (h : plan hexDigest manifest delivered listed before = .ok ops)
    {path : ConfigPath} (hp : path ∈ listed) :
    ∃ target c, manifest.target? path = some target ∧
      settled hexDigest before manifest delivered path = some c ∧ c.path = path ∧
      target.check hexDigest c.data = true := by
  obtain ⟨asked, ha, -⟩ := plan_ok h
  obtain ⟨asked', ha'⟩ := (operationsAt_asked ha).1 path hp
  exact settled_of_asked hd ha'

/-- **The run of a plan.** -/
theorem run_plan (hd : Distinct before.contents) {listed : List ConfigPath} {ops : List Operation}
    (h : plan hexDigest manifest delivered listed before = .ok ops) (ledger : Ledger) :
    (Draft.run ⟨before, ledger, []⟩ ops).changes
        = deletedChanges before listed
          ++ changesAlong hexDigest before manifest delivered [] listed ∧
      (∀ q, (Draft.run ⟨before, ledger, []⟩ ops).snapshot.get? q
        = if q ∈ listed then settled hexDigest before manifest delivered q else none) ∧
      (Draft.run ⟨before, ledger, []⟩ ops).snapshot
        = { contents := (Draft.run ⟨before, ledger, []⟩ ops).snapshot.contents
            backendState := manifest.backendState.or before.backendState
            rootVersion := before.rootVersion
            targetsVersion := manifest.version } := by
  obtain ⟨asked, ha, rfl⟩ := plan_ok h
  have hnodup : (before.paths.filter fun p => p ∉ listed).Nodup := (nodup_paths _).filter _
  obtain ⟨hdel, hdelGet⟩ := Draft.run_deletions ⟨before, ledger, []⟩ hnodup
  have hstart : ∀ q ∈ listed, ((⟨before, ledger, []⟩ : Draft).run
      (deletions before listed)).snapshot.get? q
        = if q ∈ [] then settled hexDigest before manifest delivered q else before.get? q := by
    intro q hq
    rw [if_neg List.not_mem_nil]
    show (Draft.run _ (List.map .delete _)).snapshot.get? q = _
    rw [hdelGet, if_neg]
    intro hmem
    exact of_decide_eq_true (List.mem_filter.mp hmem).2 hq
  obtain ⟨hchanges, hget⟩ := run_operationsAt hd ha hstart
  have hmeta : ∀ u, .set u ∉ deletions before listed ++ asked := by
    intro u hu
    rcases List.mem_append.mp hu with hu | hu
    · obtain ⟨p, -, e⟩ := List.mem_map.mp hu
      cases e
    · obtain ⟨p, -, asked', ha', hop'⟩ := (operationsAt_asked ha).2 _ hu
      obtain ⟨target, c, -, -, e | e⟩ := mem_operationAt_cases hd ha' hop' <;> cases e
  rw [Draft.run_append]
  refine ⟨?_, fun q => ?_, ?_⟩
  · show (Draft.run _ (deletions before listed ++ asked)).changes = _
    rw [Draft.run_append, hchanges]
    congr 1
  · show (Draft.run _ (deletions before listed ++ asked)).snapshot.get? q = _
    rw [Draft.run_append, hget]
    split
    · rfl
    · next hq =>
      show (Draft.run _ (List.map .delete _)).snapshot.get? q = _
      rw [hdelGet]
      split
      · rfl
      · next hstored =>
        refine get?_eq_none_iff_not_mem.mpr fun hmem => hstored ?_
        exact List.mem_filter.mpr ⟨hmem, decide_eq_true hq⟩
  · show ((Draft.run _ (deletions before listed ++ asked)).set (metadata manifest)).snapshot = _
    have hm := Draft.run_metadata ⟨before, ledger, []⟩ hmeta
    show Snapshot.mk _ _ _ _ = _
    rw [hm]
    rfl

end
end Sync
end RemoteGuard
