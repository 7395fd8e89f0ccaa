import RemoteGuard.Proofs.Component.Collapse

/-!
# Protection follows the repository

A client that applies responses to its repository and dispatches the changes keeps protection up
to date: after every response it has the toggle of the current snapshot, and a processor of the
ruleset that the snapshot describes, if the engine accepts it.

Protection is called only with changes of its products.  So what has to be shown besides is that
contents of these products are the same, in the same order, if no change names one of them.

* `Accepted.subscribed_eq`    they are;
* `follows_deliver`           what calls to the receivers of changes do;
* `Followed`                  the invariant of a run, and `Run.followed` that it holds;
* `follows_receive`           protection after every response of a run.
-/

namespace RemoteGuard
open Json

/-! ## contents that no change names -/

theorem Accepted.subscribed_eq {hexDigest : HexDigest} {r : Repository} {response : Response}
    (a : Accepted hexDigest r response) (hd : ContentList.Distinct r.current.contents)
    (h : ∀ ch ∈ a.draft.changes, ch.path.isSubscribed = false) :
    a.repository.current.subscribed = r.current.subscribed := by
  have haddressed := Sync.addressed_of_plan hd a.ops_eq
  obtain ⟨new, hchanges, hkeep⟩ := Draft.run_frame ⟨r.current, a.ledger, []⟩ haddressed
  have hnew : a.draft.changes = new := hchanges.trans (List.nil_append new)
  rw [hnew] at h
  exact hkeep ConfigPath.isSubscribed h

namespace Component
variable {engine : Engine} {files : Files} {s s' : Snapshot} {c : Component}
  {calls : List EngineCall}

theorem describedRuleset_of_subscribed (h : s'.subscribed = s.subscribed) (settings : Settings) :
    describedRuleset files settings s' = describedRuleset files settings s := by
  have hdocuments : s'.documents = s.documents := by
    rw [documents_of_subscribed, h, ← documents_of_subscribed]
  have hbase : s'.baseDocuments = s.baseDocuments := by
    rw [Snapshot.baseDocuments, hdocuments]
    rfl
  rw [describedRuleset, describedRuleset, sourcesInUse, sourcesInUse, rulesInUse, rulesInUse,
    hbase, hdocuments]

theorem Follows.of_subscribed (hf : c.Follows engine files s calls)
    (h : s'.subscribed = s.subscribed) : c.Follows engine files s' calls where
  toggle := by rw [hf.toggle, toggle?_of_subscribed, toggle?_of_subscribed, h]
  ruleset := by
    intro ruleset hd haccepts
    rw [describedRuleset_of_subscribed h] at hd
    exact hf.ruleset ruleset hd haccepts

end Component

namespace Client
variable {hexDigest : HexDigest} {engine : Engine} {files : Files}

/-! ## deliveries -/

theorem follows_deliver (hs : engine.Steady) {c c' : Client} {k : Component}
    {deliveries : List (Subscriber × List Change)} (hk : c.component = some k)
    (h : c.deliver engine files deliveries = (.ok (), c')) :
    c'.repository.current = c.repository.current ∧ c'.dispatcher = c.dispatcher ∧
    ∃ k', c'.component = some k' ∧ k.Kept engine files c.repository.current k' ∧
      ((∃ changes, (Subscriber.protection, changes) ∈ deliveries) →
        k'.Follows engine files c.repository.current c'.host.calls) ∧
      ((∀ changes, (Subscriber.protection, changes) ∉ deliveries) →
        k' = k ∧ c'.host.calls = c.host.calls) := by
  induction deliveries generalizing c k with
  | nil =>
    cases h
    refine ⟨rfl, rfl, k, hk, .refl, ?_, fun _ => ⟨rfl, rfl⟩⟩
    rintro ⟨changes, hmem⟩
    cases hmem
  | cons head rest ih =>
    obtain ⟨label, changes⟩ := head
    cases label with
    | observer n =>
      have htold : (c.tell n changes).component = some k := hk
      obtain ⟨hcurrent, hdispatcher, k', hk', hkept, hcalled, huncalled⟩ := ih htold h
      refine ⟨hcurrent, hdispatcher, k', hk', hkept, ?_, ?_⟩
      · rintro ⟨changes', hmem⟩
        rcases List.mem_cons.mp hmem with e | hmem
        · cases e
        · exact hcalled ⟨changes', hmem⟩
      · intro hno
        exact huncalled fun changes' hmem => hno changes' (List.mem_cons_of_mem _ hmem)
    | protection =>
      have hrest : (c.reconfigureFrom engine files).2.deliver engine files rest = (.ok (), c') := by
        rcases deliver_protection engine files c changes rest with ⟨e, -, hend⟩ | ⟨-, hrest⟩
        · rw [hend] at h
          cases h
        · exact hrest.symm.trans h
      match hr : k.reconfigureFrom engine files c.repository.current c.repository.ledger c.host with
      | (result, k₁, ledger, host) =>
        obtain ⟨hfollows, hkept₁⟩ := Component.follows_reconfigureFrom hs files
          c.repository.current k c.repository.ledger c.host
        rw [hr] at hfollows hkept₁
        rw [reconfigureFrom_of_some hk hr] at hrest
        have hk₁ : (c.configured k₁ ledger host).component = some k₁ := rfl
        obtain ⟨hcurrent, hdispatcher, k', hk', hkept, hcalled, huncalled⟩ := ih hk₁ hrest
        refine ⟨hcurrent, hdispatcher, k', hk', hkept₁.trans hkept, fun _ => ?_, ?_⟩
        · by_cases hagain : ∃ changes', (Subscriber.protection, changes') ∈ rest
          · exact hcalled hagain
          · obtain ⟨rfl, hcalls⟩ := huncalled fun changes' hmem => hagain ⟨changes', hmem⟩
            rw [hcalls]
            exact hfollows
        · intro hno
          exact absurd List.mem_cons_self (hno changes)

/-! ## responses -/

/-- Applies a response, and dispatches the changes if it is accepted. -/
def receive (hexDigest : HexDigest) (engine : Engine) (files : Files) (c : Client)
    (response : Response) : Except Merge.DataClash Unit × Client :=
  match c.repository.applyResponse hexDigest response with
  | (.ok changes, r) => ({ c with repository := r }).dispatch engine files changes
  | (.error _, r) => (.ok (), { c with repository := r })

/-- the clients that come of one by responses, as long as nothing collapses -/
inductive Run (hexDigest : HexDigest) (engine : Engine) (files : Files) (start : Client) :
    Client → Prop where
  | start : Run hexDigest engine files start start
  | receive {c c' : Client} (hc : Run hexDigest engine files start c) (response : Response)
      (h : c.receive hexDigest engine files response = (.ok (), c')) :
      Run hexDigest engine files start c'

/-- a client with protection of given settings that follows the repository -/
structure Followed (engine : Engine) (files : Files) (settings : Settings) (c : Client)
    (k : Component) : Prop where
  component : c.component = some k
  settings : k.settings = settings
  follows : k.Follows engine files c.repository.current c.host.calls
  distinct : ContentList.Distinct c.repository.current.contents
  registered : ⟨.products Product.subscribed, .protection⟩ ∈ c.dispatcher.receivers

theorem followed_build {receivers : List (Receiver Subscriber)} {settings : Settings}
    {component : Component} {h h' : Host} (hs : engine.Steady)
    (hbuild : Component.build engine files settings h = (.ok component, h'))
    (hreg : ⟨.products Product.subscribed, .protection⟩ ∈ receivers) :
    Followed engine files settings
      { dispatcher := ⟨receivers⟩, component := some component, host := h' } component := by
  rw [Component.build] at hbuild
  have hload := loadRuleset_fst files settings h
  match hl : loadRuleset files settings h with
  | (none, h₁) => rw [hl] at hbuild; cases hbuild
  | (some rules, h₁) =>
    rw [hl] at hbuild hload
    cases hm : Merge.merge { rules := [rules] } with
    | error e => cases e <;> (simp only [hm] at hbuild; cases hbuild)
    | ok merged =>
      simp only [hm] at hbuild
      cases hbuild
      refine ⟨rfl, rfl, ⟨rfl, fun ruleset hd haccepts => ?_⟩, ContentList.distinct_nil, hreg⟩
      have hmerged : describedRuleset files settings {} = .ok merged := by
        have hrules : rulesInUse files settings {} = some [rules] := by
          show (settings.ruleset.load files).1.toOption.map _ = _
          rw [← hload]
          rfl
        rw [describedRuleset, sourcesInUse, hrules]
        exact mergedRuleset_of_ok hm
      cases hmerged.symm.trans hd
      obtain ⟨hcalls, ⟨e, he, -⟩ | ⟨c, hc, hfrom⟩⟩ :=
        Processor.compile_cases engine settings merged h₁
      · exact absurd haccepts (hs.not_accepts he)
      · show Processor.CompiledFrom engine _ (Processor.compile engine settings merged h₁).2.calls _
        rw [hcalls]
        exact hfrom

theorem mem_deliveries_of_subscribed {d : Dispatcher Subscriber} {changes : List Change}
    {ch : Change} (hreg : ⟨.products Product.subscribed, .protection⟩ ∈ d.receivers)
    (hch : ch ∈ changes) (hsub : ch.path.isSubscribed = true) :
    ∃ matched, (Subscriber.protection, matched) ∈ d.deliveries changes := by
  refine ⟨_, Dispatcher.mem_deliveries.mpr ⟨⟨_, hreg, rfl⟩, ?_⟩⟩
  exact List.ne_nil_of_mem (Dispatcher.mem_matching.mpr ⟨hch, hsub⟩)

theorem Followed.receive {settings : Settings} {c c' : Client} {k : Component}
    {response : Response} (hs : engine.Steady) (hf : Followed engine files settings c k)
    (h : c.receive hexDigest engine files response = (.ok (), c')) :
    ∃ k', Followed engine files settings c' k' ∧
      ((∀ ruleset, describedRuleset files settings c'.repository.current = .ok ruleset →
        ¬ engine.Accepts ruleset) → k'.processor = k.processor) := by
  have hd' : ContentList.Distinct
      (c.repository.applyResponse hexDigest response).2.current.contents :=
    Repository.distinct_applyResponse hf.distinct response
  rw [Client.receive] at h
  rcases Repository.applyResponse_cases hexDigest c.repository response with
    ⟨e, hr⟩ | ⟨-, hr⟩ | ⟨-, a, hr⟩
  · -- refused: the repository notes the error
    rw [hr] at h
    cases h
    exact ⟨k, ⟨hf.component, hf.settings, hf.follows, hf.distinct, hf.registered⟩, fun _ => rfl⟩
  · -- nothing changed
    rw [hr] at h
    have hnone : c.dispatcher.deliveries [] = [] := by
      rw [List.eq_nil_iff_forall_not_mem]
      intro p hp
      obtain ⟨⟨r, -, rfl⟩, hne⟩ := Dispatcher.mem_deliveries.mp hp
      exact hne rfl
    simp only [dispatch, hnone, deliver] at h
    cases h
    exact ⟨k, ⟨hf.component, hf.settings, hf.follows, hf.distinct, hf.registered⟩, fun _ => rfl⟩
  · rw [hr] at h hd'
    have hk : ({ c with repository := a.repository } : Client).component = some k := hf.component
    obtain ⟨hcurrent, hdispatcher, k', hk', hkept, hcalled, huncalled⟩ := follows_deliver hs hk h
    have hcurrent : c'.repository.current = a.repository.current := hcurrent
    have hfollows : k'.Follows engine files a.repository.current c'.host.calls := by
      by_cases hany : ∃ matched,
          (Subscriber.protection, matched) ∈ c.dispatcher.deliveries a.draft.changes
      · exact hcalled hany
      · -- not called: no change was one of its products
        obtain ⟨rfl, hcalls⟩ := huncalled fun matched hmem => hany ⟨matched, hmem⟩
        rw [hcalls]
        refine hf.follows.of_subscribed (a.subscribed_eq hf.distinct fun ch hch => ?_)
        rw [Bool.eq_false_iff]
        exact fun hsub => hany (mem_deliveries_of_subscribed hf.registered hch hsub)
    refine ⟨k', ⟨hk', hkept.settings.trans hf.settings, ?_, ?_, ?_⟩, fun hno => ?_⟩
    · rw [hcurrent]
      exact hfollows
    · rw [hcurrent]
      exact hd'
    · rw [hdispatcher]
      exact hf.registered
    · rw [hcurrent, ← hf.settings] at hno
      exact hkept.processor hno

theorem Run.followed {settings : Settings} {start c : Client} {k : Component}
    (hs : engine.Steady) (hstart : Followed engine files settings start k)
    (hrun : Run hexDigest engine files start c) : ∃ k', Followed engine files settings c k' := by
  induction hrun with
  | start => exact ⟨k, hstart⟩
  | receive _ response h ih =>
    obtain ⟨k', hk'⟩ := ih
    obtain ⟨k'', hk'', -⟩ := hk'.receive hs h
    exact ⟨k'', hk''⟩

/-- **Protection follows the repository.**  After every response it is switched on as the current
snapshot says, or the settings where it says nothing; and its processor is one of the ruleset of
the snapshot, or the one from before the response if there is none that the engine accepts. -/
theorem follows_receive {receivers : List (Receiver Subscriber)} {settings : Settings}
    {component : Component} {h h' : Host} {c c' : Client} {response : Response}
    (hs : engine.Steady)
    (hbuild : Component.build engine files settings h = (.ok component, h'))
    (hreg : ⟨.products Product.subscribed, .protection⟩ ∈ receivers)
    (hrun : Run hexDigest engine files
      { dispatcher := ⟨receivers⟩, component := some component, host := h' } c)
    (hstep : c.receive hexDigest engine files response = (.ok (), c')) :
    ∃ k k', c.component = some k ∧ c'.component = some k' ∧
      k'.isEnabled
        = (activationOf c'.repository.current c'.repository.ledger).1.getD settings.enabled ∧
      (∀ ruleset, (rulesetOf files settings c'.repository.current c'.repository.ledger
          c'.host).1 = .ok ruleset → engine.Accepts ruleset →
        k'.processor.CompiledFrom engine c'.host.calls ruleset) ∧
      ((∀ ruleset, (rulesetOf files settings c'.repository.current c'.repository.ledger
          c'.host).1 = .ok ruleset → ¬ engine.Accepts ruleset) →
        k'.processor = k.processor) := by
  obtain ⟨k, hk⟩ := hrun.followed hs (followed_build hs hbuild hreg)
  obtain ⟨k', hk', hkept⟩ := hk.receive hs hstep
  refine ⟨k, k', hk.component, hk'.component, ?_, ?_, ?_⟩
  · rw [Component.isEnabled, hk'.follows.toggle, hk'.settings, activationOf_fst]
  · intro ruleset hd haccepts
    rw [rulesetOf_fst, ← hk'.settings] at hd
    exact hk'.follows.ruleset ruleset hd haccepts
  · intro hno
    refine hkept fun ruleset hd => hno ruleset ?_
    rw [rulesetOf_fst]
    exact hd

/-- protection is switched on by a delivered document of features -/
theorem follows_delivered_toggle :
    let engine : Engine := ⟨fun _ _ => .ok {}, fun _ _ _ _ => .ok {}⟩
    let plain : HexDigest := fun _ data => data.hex
    let files : Files := fun _ => .missing
    let settings : Settings := {}
    let document : Value := .object [("asm", .object [("enabled", .bool true)])]
    let response := Response.delivering plain 1
      [⟨"employee/ASM_FEATURES/x/config", utf8 document.print⟩]
    let receiver : Receiver Subscriber := ⟨.products Product.subscribed, .protection⟩
    let built := Component.build engine files settings {}
    let start : Client :=
      { dispatcher := ⟨[receiver]⟩, component := built.1.toOption, host := built.2 }
    ∃ component c', engine.Steady ∧ built = (.ok component, built.2) ∧
      start.receive plain engine files response = (.ok (), c') ∧
      ∃ k', c'.component = some k' ∧ k'.isEnabled = true := by
  intro engine plain files settings document response receiver built start
  have hsteady : engine.Steady := fun _ _ _ => rfl
  have hreg : receiver ∈ [receiver] := List.mem_cons_self
  have hok : (start.receive plain engine files response).1.isOk = true := by decide +kernel
  have htoggle : (activationOf (start.receive plain engine files response).2.repository.current
      (start.receive plain engine files response).2.repository.ledger).1 = some true := by
    decide +kernel
  match hb : built with
  | (.error e, host) =>
    have hbuilt : built.1.isOk = true := by decide +kernel
    rw [hb] at hbuilt
    cases hbuilt
  | (.ok component, host) =>
    have hstart : start
        = { dispatcher := ⟨[receiver]⟩, component := some component, host := host } := by
      show Client.mk _ _ built.1.toOption built.2 _ _ = _
      rw [hb]
      rfl
    match hr : start.receive plain engine files response with
    | (.error e, c') =>
      rw [hr] at hok
      cases hok
    | (.ok (), c') =>
      rw [hr] at htoggle
      have hstep := hr
      rw [hstart] at hstep
      obtain ⟨k, k', -, hk', henabled, -⟩ := follows_receive hsteady hb hreg .start hstep
      rw [show (activationOf c'.repository.current c'.repository.ledger).1 = some true
        from htoggle] at henabled
      exact ⟨component, c', hsteady, rfl, rfl, k', hk', henabled⟩

end Client
end RemoteGuard
