import RemoteGuard.Proofs.Component.Reconfigure
import RemoteGuard.Proofs.Sync.Versions

/-!
# What a reconfiguration makes of each content

A reconfiguration marks the contents it looks at: the first one of features as it is read, a
content of the ruleset that is no JSON text as it is found, and the others of the ruleset when they
have been merged.  `Snapshot.verdict?` is the mark that a content gets, if it gets one.

* `Component.state_reconfigureFrom`   a content has this mark after a reconfiguration, or the one
                                      from before;
* `Snapshot.verdict?_eq_none_iff`     which contents of protection get none;
* `Component.unmarked_iff`            so which of them stay unacknowledged;
* `Component.marks_of_kept_processor` the marks of documents that did not become the ruleset in use.
-/

namespace RemoteGuard
open Json

/-! ## verdicts -/

/-- what the outcome of a merge says of the documents that went into it -/
def mergeVerdict? : Except RemoteError Value → Option ApplyState
  | .ok _ => some .acknowledged
  | .error (.merge e) => some (.error e.message)
  | .error .noRules => none
  | .error (.collapse _) => none

/-- what reading its toggle says of a content of features -/
def featuresVerdict (data : Bytes) : ApplyState :=
  match toggle? data with
  | some _ => .acknowledged
  | none => .error "missing asm.enabled"

namespace Content

/-- the content belongs to the ruleset, but is no JSON text -/
def isUnreadable (c : Content) : Bool :=
  decide (c.path.product ∈ Product.ofRuleset) && (Value.read? c.data).isNone

def unreadableVerdict (c : Content) : ApplyState := .error ((faultMessage? c.data).getD "")

theorem isUnreadable_of_document {c : Content} (h : c.document?.isSome = true) :
    c.isUnreadable = false := by
  rw [document?] at h
  rw [isUnreadable]
  split at h
  · rw [Option.isSome_map] at h
    rw [← Option.not_isSome, h]
    exact Bool.and_false _
  · cases h

end Content

namespace Snapshot

/-- the content of features that is read -/
def features? (s : Snapshot) : Option Content :=
  s.contents.find? fun c => c.path.product = Product.features

/-- what the making of the ruleset says of a content -/
def rulesetVerdict? (files : Files) (settings : Settings) (s : Snapshot) (c : Content) :
    Option ApplyState :=
  if c.isUnreadable then some c.unreadableVerdict
  else if c.document?.isSome then mergeVerdict? (describedRuleset files settings s)
  else none

/-- what a reconfiguration says of a content -/
def verdict? (files : Files) (settings : Settings) (s : Snapshot) (c : Content) :
    Option ApplyState :=
  if s.features? = some c then some (featuresVerdict c.data)
  else s.rulesetVerdict? files settings c

end Snapshot

/-! ## marks of each step -/

section
variable {s : Snapshot} {c : Content}

theorem activationOf_snd (s : Snapshot) (l : Ledger) :
    (activationOf s l).2
      = (s.features?.map fun f => l.setState f (featuresVerdict f.data)).getD l := by
  rw [activationOf, Snapshot.features?]
  cases s.contents.find? fun c => c.path.product = Product.features with
  | none => rfl
  | some f =>
    show _ = l.setState f (featuresVerdict f.data)
    rw [featuresVerdict]
    simp only
    cases toggle? f.data <;> rfl

theorem state_activationOf (hs : s.Identified) (hc : c ∈ s.contents) (l : Ledger) :
    (activationOf s l).2.state c
      = if s.features? = some c then featuresVerdict c.data else l.state c := by
  rw [activationOf_snd]
  cases hf : s.features? with
  | none => rfl
  | some f =>
    show (l.setState f (featuresVerdict f.data)).state c = _
    rw [Ledger.state_setState]
    by_cases he : c.id = f.id
    · obtain rfl := hs f (List.mem_of_find?_eq_some hf) c hc he
      rw [if_pos rfl, if_pos rfl]
    · rw [if_neg he, if_neg fun h => he (congrArg Content.id (Option.some.inj h).symm)]

/-- a content is marked as unreadable, used, or passed over -/
theorem Collection.add_cases (col : Collection) (l : Ledger) (c : Content) :
    (c.isUnreadable = true ∧ c.document?.isSome = false ∧
      col.add l c = (col, l.setState c c.unreadableVerdict)) ∨
    (c.isUnreadable = false ∧ c.document?.isSome = true ∧
      ∃ sources, col.add l c = (⟨sources, col.used ++ [c]⟩, l)) ∨
    (c.isUnreadable = false ∧ c.document?.isSome = false ∧ col.add l c = (col, l)) := by
  rw [Collection.add, Content.isUnreadable, Content.document?]
  by_cases hp : c.path.product ∈ Product.ofRuleset
  · rw [if_pos hp, if_pos hp, decide_eq_true hp]
    cases Value.read? c.data with
    | none => exact .inl ⟨rfl, rfl, rfl⟩
    | some document => exact .inr (.inl ⟨rfl, rfl, _, rfl⟩)
  · rw [if_neg hp, if_neg hp, decide_eq_false hp]
    exact .inr (.inr ⟨rfl, rfl, rfl⟩)

theorem used_collectContents (col : Collection) (l : Ledger) (cs : List Content) :
    (collectContents col l cs).1.used
      = col.used ++ cs.filter fun c => c.document?.isSome := by
  induction cs generalizing col l with
  | nil => exact (List.append_nil _).symm
  | cons c cs ih =>
    show (collectContents (col.add l c).1 (col.add l c).2 cs).1.used = _
    rw [ih, List.filter_cons]
    rcases col.add_cases l c with ⟨-, hd, h⟩ | ⟨-, hd, sources, h⟩ | ⟨-, hd, h⟩
    · rw [h, if_neg (by rw [hd]; exact Bool.false_ne_true)]
    · rw [h, if_pos hd]
      exact List.append_assoc ..
    · rw [h, if_neg (by rw [hd]; exact Bool.false_ne_true)]

theorem state_collectContents (col : Collection) (l : Ledger) {cs : List Content}
    (hid : ∀ d ∈ cs, d.id = c.id → d = c) :
    (collectContents col l cs).2.state c
      = if c ∈ cs ∧ c.isUnreadable = true then c.unreadableVerdict else l.state c := by
  induction cs generalizing col l with
  | nil => exact (if_neg fun h => List.not_mem_nil h.1).symm
  | cons d ds ih =>
    show (collectContents (col.add l d).1 (col.add l d).2 ds).2.state c = _
    rw [ih _ _ fun e he => hid e (List.mem_cons_of_mem _ he)]
    -- a content that occurs again is marked again, in the same way
    by_cases hlater : c ∈ ds ∧ c.isUnreadable = true
    · rw [if_pos hlater, if_pos ⟨List.mem_cons_of_mem _ hlater.1, hlater.2⟩]
    · rw [if_neg hlater]
      have hkept : ¬ (c = d ∧ d.isUnreadable = true) →
          ¬ (c ∈ d :: ds ∧ c.isUnreadable = true) := by
        rintro hno ⟨hmem, hbad⟩
        rcases List.mem_cons.mp hmem with rfl | hmem
        · exact hno ⟨rfl, hbad⟩
        · exact hlater ⟨hmem, hbad⟩
      rcases col.add_cases l d with ⟨hbad, -, h⟩ | ⟨hbad, -, sources, h⟩ | ⟨hbad, -, h⟩
      · rw [h, Ledger.state_setState]
        by_cases he : c.id = d.id
        · obtain rfl := hid d List.mem_cons_self he.symm
          rw [if_pos rfl, if_pos ⟨List.mem_cons_self, hbad⟩]
        · rw [if_neg he, if_neg (hkept fun h => he (congrArg Content.id h.1))]
      · rw [h, if_neg (hkept fun h => by rw [hbad] at h; exact Bool.false_ne_true h.2)]
      · rw [h, if_neg (hkept fun h => by rw [hbad] at h; exact Bool.false_ne_true h.2)]

theorem state_mergeCollection (col : Collection) (l : Ledger) (c : Content) :
    (mergeCollection col l).2.state c
      = if c.id ∈ col.used.map Content.id
        then (mergeVerdict? (mergeCollection col l).1).getD (l.state c) else l.state c := by
  rw [mergeCollection]
  cases Merge.merge col.sources with
  | ok merged => exact l.state_setStates col.used c .acknowledged
  | error e =>
    cases e with
    | rules e => exact l.state_setStates col.used c (.error e.message)
    | data e => exact (ite_self _).symm

theorem rulesetOf_cases (files : Files) (settings : Settings) (s : Snapshot) (l : Ledger)
    (h : Host) :
    ((rulesetOf files settings s l h).1 = .error .noRules ∧
      (rulesetOf files settings s l h).2.1 = (collectContents {} l s.contents).2) ∨
    ∃ col, col.used = (collectContents {} l s.contents).1.used ∧
      (rulesetOf files settings s l h).1
        = (mergeCollection col (collectContents {} l s.contents).2).1 ∧
      (rulesetOf files settings s l h).2.1
        = (mergeCollection col (collectContents {} l s.contents).2).2 := by
  rw [rulesetOf]
  simp only
  split
  · obtain ⟨loaded, h'⟩ := loadRuleset files settings h
    cases loaded with
    | none => exact .inl ⟨rfl, rfl⟩
    | some rules =>
      exact .inr ⟨(collectContents {} l s.contents).1.withRules rules, rfl, rfl, rfl⟩
  · exact .inr ⟨(collectContents {} l s.contents).1, rfl, rfl, rfl⟩

theorem state_rulesetOf (hs : s.Identified) (hc : c ∈ s.contents) (files : Files)
    (settings : Settings) (l : Ledger) (h : Host) :
    (rulesetOf files settings s l h).2.1.state c
      = (s.rulesetVerdict? files settings c).getD (l.state c) := by
  have hcollected : (collectContents {} l s.contents).2.state c
      = if c.isUnreadable = true then c.unreadableVerdict else l.state c := by
    rw [state_collectContents {} l fun d hd he => hs c hc d hd he]
    simp only [hc, true_and]
  rw [Snapshot.rulesetVerdict?, ← rulesetOf_fst files settings s l h]
  rcases rulesetOf_cases files settings s l h with ⟨hno, hledger⟩ | ⟨col, hused, hmerged, hledger⟩
  · rw [hledger, hno, hcollected]
    split
    · rfl
    · split <;> rfl
  · -- marks go to identities, so the ones in use have to be those of documents
    have hmem : c.id ∈ col.used.map Content.id ↔ c.document?.isSome = true := by
      rw [hused, used_collectContents, List.mem_map]
      constructor
      · rintro ⟨d, hd, he⟩
        obtain ⟨hd, hdoc⟩ := List.mem_filter.mp hd
        exact hs c hc d hd he ▸ hdoc
      · exact fun hdoc => ⟨c, List.mem_filter.mpr ⟨hc, hdoc⟩, rfl⟩
    rw [hledger, hmerged, state_mergeCollection, hcollected]
    simp only [hmem]
    by_cases hdoc : c.document?.isSome = true
    · simp only [hdoc, Content.isUnreadable_of_document hdoc, if_true, Bool.false_eq_true,
        if_false]
    · simp only [hdoc, Bool.false_eq_true, if_false]
      split <;> rfl

/-! ## marks of a reconfiguration -/

namespace ConfigPath

theorem isSubscribed_iff (path : ConfigPath) :
    path.isSubscribed = true ↔
      path.product = Product.features ∨ path.product ∈ Product.ofRuleset := by
  rw [isSubscribed, List.contains_iff_mem]
  show path.product ∈ Product.ofRuleset ++ [Product.features] ↔ _
  rw [List.mem_append, List.mem_singleton, or_comm]

theorem not_mem_ofRuleset {path : ConfigPath} (h : path.product = Product.features) :
    path.product ∉ Product.ofRuleset := by
  rw [h]
  decide

end ConfigPath

namespace Snapshot

theorem product_of_features? (h : s.features? = some c) : c.path.product = Product.features := by
  have hfound := List.find?_some h
  exact of_decide_eq_true hfound

theorem rulesetVerdict?_of_features (files : Files) (settings : Settings) (s : Snapshot)
    (h : c.path.product = Product.features) : s.rulesetVerdict? files settings c = none := by
  have hp := ConfigPath.not_mem_ofRuleset h
  rw [rulesetVerdict?, Content.isUnreadable, Content.document?, if_neg hp, decide_eq_false hp]
  rfl

theorem rulesetVerdict?_eq_none_iff (files : Files) (settings : Settings) (s : Snapshot)
    (h : c.path.product ∈ Product.ofRuleset) :
    s.rulesetVerdict? files settings c = none ↔
      c.document?.isSome = true ∧ (describedRuleset files settings s = .error .noRules ∨
        ∃ e, describedRuleset files settings s = .error (.collapse e)) := by
  rw [rulesetVerdict?, Content.isUnreadable, Content.document?, if_pos h, decide_eq_true h]
  cases Value.read? c.data with
  | none =>
    refine ⟨fun h => (by cases h), ?_⟩
    rintro ⟨h, -⟩
    cases h
  | some document =>
    show mergeVerdict? (describedRuleset files settings s) = none ↔ true = true ∧ _
    rw [eq_self, true_and]
    rcases describedRuleset files settings s with (_ | e | e) | merged
    · exact ⟨fun _ => .inl rfl, fun _ => rfl⟩
    · refine ⟨fun h => (by cases h), ?_⟩
      rintro (h | ⟨e', h⟩) <;> cases h
    · exact ⟨fun _ => .inr ⟨e, rfl⟩, fun _ => rfl⟩
    · refine ⟨fun h => (by cases h), ?_⟩
      rintro (h | ⟨e', h⟩) <;> cases h

theorem verdict?_eq_none_iff (files : Files) (settings : Settings) (s : Snapshot)
    (hp : c.path.isSubscribed = true) :
    s.verdict? files settings c = none ↔
      (c.path.product = Product.features ∧ s.features? ≠ some c) ∨
      (c.document?.isSome = true ∧ (describedRuleset files settings s = .error .noRules ∨
        ∃ e, describedRuleset files settings s = .error (.collapse e))) := by
  rw [verdict?]
  rcases c.path.isSubscribed_iff.mp hp with hfeatures | hruleset
  · have hdoc : c.document? = none := if_neg (ConfigPath.not_mem_ofRuleset hfeatures)
    rw [s.rulesetVerdict?_of_features files settings hfeatures, hdoc]
    by_cases hf : s.features? = some c
    · rw [if_pos hf]
      refine ⟨fun h => (by cases h), ?_⟩
      rintro (⟨-, h⟩ | ⟨h, -⟩)
      · exact absurd hf h
      · cases h
    · rw [if_neg hf]
      exact ⟨fun _ => .inl ⟨hfeatures, hf⟩, fun _ => rfl⟩
  · have hother : c.path.product ≠ Product.features := fun h =>
      ConfigPath.not_mem_ofRuleset h hruleset
    rw [if_neg fun h => hother (product_of_features? h),
      s.rulesetVerdict?_eq_none_iff files settings hruleset]
    exact ⟨.inr, fun h => h.resolve_left fun h => hother h.1⟩

/-- the outcome of the merge speaks for the documents -/
theorem verdict?_of_document (files : Files) (settings : Settings) (s : Snapshot)
    (hd : c.document?.isSome = true) :
    s.verdict? files settings c = mergeVerdict? (describedRuleset files settings s) := by
  have hfeatures : s.features? ≠ some c := by
    intro h
    rw [Content.document?,
      if_neg (ConfigPath.not_mem_ofRuleset (product_of_features? h))] at hd
    cases hd
  rw [verdict?, if_neg hfeatures, rulesetVerdict?, Content.isUnreadable_of_document hd, hd,
    if_neg Bool.false_ne_true, if_pos rfl]

theorem verdict?_ne_unacknowledged (files : Files) (settings : Settings) (s : Snapshot)
    (c : Content) : s.verdict? files settings c ≠ some .unacknowledged := by
  rw [verdict?, rulesetVerdict?, featuresVerdict, Content.unreadableVerdict]
  split
  · split <;> (intro h; cases h)
  · split
    · intro h
      cases h
    · split
      · rcases describedRuleset files settings s with (_ | e | e) | merged <;>
          (intro h; cases h)
      · intro h
        cases h

end Snapshot

namespace Component

theorem ledger_reconfigureFrom (engine : Engine) (files : Files) (k : Component) (s : Snapshot)
    (l : Ledger) (h : Host) :
    (k.reconfigureFrom engine files s l h).2.2.1
      = (rulesetOf files k.settings s (activationOf s l).2 h).2.1 := by
  rw [reconfigureFrom]
  simp only
  obtain ⟨described, l', h'⟩ := rulesetOf files k.settings s (activationOf s l).2 h
  cases described with
  | error e => rfl
  | ok ruleset => rfl

/-- a content has the mark that the reconfiguration gives it, or the one from before -/
theorem state_reconfigureFrom (hs : s.Identified) (hc : c ∈ s.contents) (engine : Engine)
    (files : Files) (k : Component) (l : Ledger) (h : Host) :
    (k.reconfigureFrom engine files s l h).2.2.1.state c
      = (s.verdict? files k.settings c).getD (l.state c) := by
  rw [ledger_reconfigureFrom, state_rulesetOf hs hc, state_activationOf hs hc, Snapshot.verdict?]
  by_cases hf : s.features? = some c
  · rw [if_pos hf, if_pos hf,
      s.rulesetVerdict?_of_features files k.settings (Snapshot.product_of_features? hf)]
    rfl
  · rw [if_neg hf, if_neg hf]

theorem exists_of_build_isOk {engine : Engine} {files : Files} {settings : Settings} {h : Host}
    (hok : (build engine files settings h).1.isOk = true) :
    ∃ k h', build engine files settings h = (.ok k, h') := by
  match hb : build engine files settings h with
  | (.error e, h') =>
    rw [hb] at hok
    cases hok
  | (.ok k, h') => exact ⟨k, h', rfl⟩

/-- **Contents without a mark.**  After a reconfiguration a content of protection is unacknowledged
just if it was so before, and it is one of features that is not the first, or a document of the
ruleset where there are no rules to merge it with or the merge collapses. -/
theorem unmarked_iff (engine : Engine) (files : Files) (k : Component) (l : Ledger) (h : Host)
    (hs : s.Identified) (hc : c ∈ s.contents) (hp : c.path.isSubscribed = true) :
    (k.reconfigureFrom engine files s l h).2.2.1.state c = .unacknowledged ↔
      l.state c = .unacknowledged ∧
        ((c.path.product = Product.features ∧ s.features? ≠ some c) ∨
        (c.document?.isSome = true ∧
          ((k.reconfigureFrom engine files s l h).1 = .error .noRules ∨
          ∃ e, (k.reconfigureFrom engine files s l h).1 = .error (.collapse e)))) := by
  simp only [reconfigureFrom_fst_eq_error]
  rw [state_reconfigureFrom hs hc, ← s.verdict?_eq_none_iff files k.settings hp]
  cases hv : s.verdict? files k.settings c with
  | none => exact (and_iff_left rfl).symm
  | some v =>
    refine ⟨fun h => ?_, fun h => (by cases h.2)⟩
    exact absurd (hv.trans (congrArg some h)) (s.verdict?_ne_unacknowledged files k.settings c)

/-- of two contents of features the second one stays without a mark -/
theorem unmarked_second_toggle :
    let engine : Engine := ⟨fun _ _ => .ok {}, fun _ _ _ _ => .ok {}⟩
    let plain : HexDigest := fun _ data => data.hex
    let r := (Repository.applyResponse plain {} (.delivering plain 1
      [⟨"employee/ASM_FEATURES/x/config", utf8 "\x7b\x7d"⟩,
        ⟨"employee/ASM_FEATURES/y/config", utf8 "\x7b\x7d"⟩])).2
    ∃ k h c, Component.build engine (fun _ => .missing) {} {} = (.ok k, h) ∧
      r.current.Identified ∧ c ∈ r.current.contents ∧ c.path.isSubscribed = true ∧
      (k.reconfigureFrom engine (fun _ => .missing) r.current r.ledger h).2.2.1.state c
        = .unacknowledged := by
  intro engine plain r
  have hr : Repository.Reached plain r := .applied .new _
  have hbuilt : (Component.build engine (fun _ => .missing) {} {}).1.isOk = true := by
    decide +kernel
  have hcontents : r.current.contents.map (fun c => (c.path.isSubscribed,
      c.path.product, decide (r.current.features? = some c), r.ledger.state c))
      = [(true, "ASM_FEATURES", true, .unacknowledged),
        (true, "ASM_FEATURES", false, .unacknowledged)] := by decide +kernel
  obtain ⟨k, h, hb⟩ := exists_of_build_isOk hbuilt
  obtain ⟨first, cs, hcs, -, hrest⟩ := List.map_eq_cons_iff.mp hcontents
  obtain ⟨c, cs', rfl, hc, -⟩ := List.map_eq_cons_iff.mp hrest
  simp only [Prod.mk.injEq, decide_eq_false_iff_not] at hc
  obtain ⟨hsubscribed, hproduct, hother, hstate⟩ := hc
  have hmem : c ∈ r.current.contents := by
    rw [hcs]
    exact List.mem_cons_of_mem _ List.mem_cons_self
  refine ⟨k, h, c, hb, hr.identified, hmem, hsubscribed, ?_⟩
  exact (unmarked_iff engine _ k r.ledger h hr.identified hmem hsubscribed).mpr
    ⟨hstate, .inl ⟨hproduct, hother⟩⟩

/-- a content may stay without a mark where nothing collapses: here the rules that protection was
built with are gone -/
theorem unmarked_without_rules :
    ¬ ∀ (engine : Engine) (files files' : Files) (settings : Settings) (h h' : Host)
        (k : Component) (hexDigest : HexDigest) (r : Repository) (c : Content),
      Component.build engine files settings h = (.ok k, h') → Repository.Reached hexDigest r →
      c ∈ r.current.contents → c.path.isSubscribed = true →
      (∀ e, (k.reconfigureFrom engine files' r.current r.ledger h').1 ≠ .error (.collapse e)) →
      (k.reconfigureFrom engine files' r.current r.ledger h').2.2.1.state c
        ≠ .unacknowledged := by
  intro hall
  let engine : Engine := ⟨fun _ _ => .ok {}, fun _ _ _ _ => .ok {}⟩
  let plain : HexDigest := fun _ data => data.hex
  let settings : Settings := { rulesFile := some "rules.json" }
  let files : Files := fun _ => .regular (utf8 (Value.object [("rules", .array [])]).print)
  let gone : Files := fun _ => .missing
  let r := (Repository.applyResponse plain {} (.delivering plain 1
    [⟨"employee/ASM/x/config", utf8 (Value.object []).print⟩])).2
  let built := Component.build engine files settings {}
  have hbuilt : built.1.isOk = true := by decide +kernel
  have hcontents : r.current.contents.map (fun c => c.path.isSubscribed) = [true] := by
    decide +kernel
  -- the answer, and the marks of what is stored
  have hrun : built.1.toOption.map (fun k =>
      ((k.reconfigureFrom engine gone r.current r.ledger built.2).1,
        r.current.contents.map
          (k.reconfigureFrom engine gone r.current r.ledger built.2).2.2.1.state))
      = some (.error .noRules, [.unacknowledged]) := by decide +kernel
  obtain ⟨k, h, hb⟩ := exists_of_build_isOk hbuilt
  rw [show built = (.ok k, h) from hb] at hrun
  simp only [Except.toOption, Option.map_some, Option.some.injEq, Prod.mk.injEq] at hrun
  obtain ⟨hanswer, hmarks⟩ := hrun
  obtain ⟨c, cs, hcs, hsubscribed, -⟩ := List.map_eq_cons_iff.mp hcontents
  rw [hcs] at hmarks
  have hmem : c ∈ r.current.contents := by
    rw [hcs]
    exact List.mem_cons_self
  refine hall engine files gone settings {} h k plain r c hb (.applied .new _) hmem hsubscribed
    (fun e he => ?_) (List.cons.inj hmarks).1
  rw [hanswer] at he
  cases he

/-- the processor stays unless a ruleset is put to use: there is none, or the engine refuses it -/
theorem processor_of_not_installed {engine : Engine} {files : Files} {k k' : Component}
    {l l' : Ledger} {h h' : Host} {result : Except RemoteError Bool}
    (hr : k.reconfigureFrom engine files s l h = (result, k', l', h'))
    (hno : result ≠ .ok true) :
    k'.processor = k.processor ∧
      ((∃ e, result = .error e) ∨
      ∃ ruleset e, describedRuleset files k.settings s = .ok ruleset ∧
        engine.compile h.calls ruleset = .error e) := by
  obtain ⟨l₁, h₁, hcalls, ⟨e, -, heq⟩ | ⟨ruleset, hdescribed, heq⟩⟩ :=
    reconfigureFrom_cases engine files k s l h
  · rw [hr] at heq
    cases heq
    exact ⟨rfl, .inl ⟨e, rfl⟩⟩
  · rw [hr] at heq
    obtain ⟨hresult, hrest⟩ := Prod.mk.inj heq
    obtain ⟨-, ⟨e, he, hkept⟩ | ⟨compilation, p, hcompiled, -⟩⟩ :=
      reconfigure_cases engine (k.withActivation s.toggle?) ruleset h₁
    · rw [(Prod.mk.inj hrest).1, hkept]
      rw [hcalls] at he
      exact ⟨rfl, .inr ⟨ruleset, e, hdescribed, he⟩⟩
    · rw [hresult, reconfigure_fst, hcompiled] at hno
      exact absurd rfl hno

/-- **Marks while the processor stays.**  Where a reconfiguration does not put a ruleset to use, the
marks tell what came of the merge: its failure, if it failed, and nothing where there were no rules
to merge with; documents that were merged are acknowledged, although the engine refused the
ruleset. -/
theorem marks_of_kept_processor {engine : Engine} {files : Files} {k k' : Component}
    {l l' : Ledger} {h h' : Host} {result : Except RemoteError Bool}
    (hs : s.Identified) (hc : c ∈ s.contents) (hd : c.document?.isSome = true)
    (hr : k.reconfigureFrom engine files s l h = (result, k', l', h'))
    (hno : result ≠ .ok true) :
    k'.processor = k.processor ∧
    (∀ e, result = .error (.merge e) → l'.state c = .error e.message) ∧
    (result = .error .noRules → l'.state c = l.state c) ∧
    (∀ e, result = .error (.collapse e) → l'.state c = l.state c) ∧
    (result = .ok false → l'.state c = .acknowledged ∧
      ∃ ruleset e, describedRuleset files k.settings s = .ok ruleset ∧
        engine.compile h.calls ruleset = .error e) := by
  obtain ⟨hkept, hwhy⟩ := processor_of_not_installed hr hno
  have hstate := state_reconfigureFrom hs hc engine files k l h
  rw [s.verdict?_of_document files k.settings hd, hr] at hstate
  have herror (e : RemoteError) (he : result = .error e) :
      describedRuleset files k.settings s = .error e := by
    rw [← reconfigureFrom_fst_eq_error engine files k s l h, hr]
    exact he
  refine ⟨hkept, fun e he => ?_, fun he => ?_, fun e he => ?_, fun hfalse => ?_⟩
  · rw [herror _ he] at hstate
    exact hstate
  · rw [herror _ he] at hstate
    exact hstate
  · rw [herror _ he] at hstate
    exact hstate
  · rcases hwhy with ⟨e, he⟩ | ⟨ruleset, e, hdescribed, hrefused⟩
    · rw [hfalse] at he
      cases he
    · rw [hdescribed] at hstate
      exact ⟨hstate, ruleset, e, hdescribed, hrefused⟩

/-- a document is told that the base rules it should add to are no object -/
theorem marks_of_invalid_rules :
    let engine : Engine := ⟨fun _ _ => .ok {}, fun _ _ _ _ => .ok {}⟩
    let plain : HexDigest := fun _ data => data.hex
    let r := (Repository.applyResponse plain {} (.delivering plain 1
      [⟨"employee/ASM_DD/x/config", utf8 "[]"⟩, ⟨"employee/ASM/y/config", utf8 "[]"⟩])).2
    ∃ k h c result k' l' h', Component.build engine (fun _ => .missing) {} {} = (.ok k, h) ∧
      r.current.Identified ∧ c ∈ r.current.contents ∧ c.path.product = Product.protection ∧
      c.document?.isSome = true ∧
      k.reconfigureFrom engine (fun _ => .missing) r.current r.ledger h = (result, k', l', h') ∧
      result ≠ .ok true ∧ k'.processor = k.processor ∧
      l'.state c = .error "appsec: rules document is not a JSON object" := by
  intro engine plain r
  have hr : Repository.Reached plain r := .applied .new _
  let built := Component.build engine (fun _ => .missing) {} {}
  have hbuilt : built.1.isOk = true := by decide +kernel
  have hcontents : r.current.contents.map (fun c => (c.path.product, c.document?.isSome))
      = [("ASM_DD", true), ("ASM", true)] := by decide +kernel
  have hanswer : built.1.toOption.map (fun k =>
      (k.reconfigureFrom engine (fun _ => .missing) r.current r.ledger built.2).1)
      = some (.error (.merge .invalidRules)) := by decide +kernel
  obtain ⟨k, h, hb⟩ := exists_of_build_isOk hbuilt
  rw [show built = (.ok k, h) from hb] at hanswer
  simp only [Except.toOption, Option.map_some, Option.some.injEq] at hanswer
  obtain ⟨rules, cs, hcs, -, hrest⟩ := List.map_eq_cons_iff.mp hcontents
  obtain ⟨c, cs', rfl, hc, -⟩ := List.map_eq_cons_iff.mp hrest
  obtain ⟨hproduct, hd⟩ := Prod.mk.inj hc
  have hmem : c ∈ r.current.contents := by
    rw [hcs]
    exact List.mem_cons_of_mem _ List.mem_cons_self
  match hstep : k.reconfigureFrom engine (fun _ => .missing) r.current r.ledger h with
  | (result, k', l', h') =>
    rw [hstep] at hanswer
    have hinvalid : result = .error (.merge .invalidRules) := hanswer
    have hno : result ≠ .ok true := by
      rw [hinvalid]
      intro h
      cases h
    obtain ⟨hkept, hmerge, -⟩ := marks_of_kept_processor hr.identified hmem hd hstep hno
    exact ⟨k, h, c, result, k', l', h', hb, hr.identified, hmem, hproduct, hd, hstep, hno, hkept,
      hmerge _ hinvalid⟩

/-- a document may be acknowledged although the processor in use does not know it: here the engine
refuses the ruleset -/
theorem acknowledged_of_refused_ruleset :
    ¬ ∀ (engine : Engine) (files : Files) (settings : Settings) (h h' h'' : Host)
        (k k' : Component) (hexDigest : HexDigest) (r : Repository) (c : Content) (l' : Ledger),
      Component.build engine files settings h = (.ok k, h') → Repository.Reached hexDigest r →
      c ∈ r.current.contents → c.document?.isSome = true →
      k.reconfigureFrom engine files r.current r.ledger h' = (.ok false, k', l', h'') →
      l'.state c ≠ .acknowledged := by
  intro hall
  let engine : Engine :=
    ⟨fun earlier _ => if earlier.isEmpty then .ok {} else .error ⟨"bad rules", none⟩,
      fun _ _ _ _ => .ok {}⟩
  let plain : HexDigest := fun _ data => data.hex
  let files : Files := fun _ => .missing
  let r := (Repository.applyResponse plain {} (.delivering plain 1
    [⟨"employee/ASM/x/config", utf8 (Value.object []).print⟩])).2
  let built := Component.build engine files {} {}
  have hbuilt : built.1.isOk = true := by decide +kernel
  have hcontents : r.current.contents.map (fun c => c.document?.isSome) = [true] := by
    decide +kernel
  -- the answer, and the marks of what is stored
  have hrun : built.1.toOption.map (fun k =>
      ((k.reconfigureFrom engine files r.current r.ledger built.2).1,
        r.current.contents.map
          (k.reconfigureFrom engine files r.current r.ledger built.2).2.2.1.state))
      = some (.ok false, [.acknowledged]) := by decide +kernel
  obtain ⟨k, h, hb⟩ := exists_of_build_isOk hbuilt
  rw [show built = (.ok k, h) from hb] at hrun
  simp only [Except.toOption, Option.map_some, Option.some.injEq, Prod.mk.injEq] at hrun
  obtain ⟨hanswer, hmarks⟩ := hrun
  obtain ⟨c, cs, hcs, hd, -⟩ := List.map_eq_cons_iff.mp hcontents
  rw [hcs] at hmarks
  have hmem : c ∈ r.current.contents := by
    rw [hcs]
    exact List.mem_cons_self
  match hstep : k.reconfigureFrom engine files r.current r.ledger h with
  | (result, k', l', h'') =>
    rw [hstep] at hanswer hmarks
    rw [show result = .ok false from hanswer] at hstep
    exact hall engine files {} {} h h'' k k' plain r c l' hb (.applied .new _) hmem hd hstep
      (List.cons.inj hmarks).1

end Component
end
end RemoteGuard
