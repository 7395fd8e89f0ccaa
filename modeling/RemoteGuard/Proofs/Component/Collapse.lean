import RemoteGuard.Client
import RemoteGuard.Proofs.Component.Reconfigure
import RemoteGuard.Proofs.Ruleset.DataClash
import RemoteGuard.Proofs.Sync.Applied

/-!
# When request protection collapses

Data entries are taken over from the wire as they are, so two of them may be impossible to merge.
`Snapshot.Clashes` says of a snapshot that the ruleset it describes is one that cannot be merged:
there are rules, they fit together, and the delivered data entries clash.

* `describedRuleset_collapse_iff`   just such snapshots describe no ruleset for that reason;
* `Client.deliver_protection`       a call of protection, which collapses or does not;
* `collapse_iff`                    a merge, a ruleset and a dispatch collapse under exactly the
                                    conditions on the data that they are given.
-/

namespace RemoteGuard
open Json Merge

/-- the rules of a snapshot fit together, but not the data entries it holds -/
def Snapshot.Clashes (s : Snapshot) (files : Files) (settings : Settings) : Prop :=
  ∃ rules, rulesInUse files settings s = some rules ∧ (∃ o, combineRules rules = .ok o) ∧
    clashing s.dataEntries = true

theorem describedRuleset_collapse_iff (files : Files) (settings : Settings) (s : Snapshot) :
    describedRuleset files settings s = .error (.collapse .noRoomForItems) ↔
      s.Clashes files settings := by
  rw [describedRuleset, sourcesInUse, Snapshot.Clashes]
  cases rulesInUse files settings s with
  | none =>
    refine ⟨fun h => (by cases h), ?_⟩
    rintro ⟨rules, h, -⟩
    cases h
  | some rules =>
    have hdata : (addDocuments {} s.documents).data.flatten = s.dataEntries :=
      addDocuments_data {} s.documents
    have h := merge_error_iff { addDocuments {} s.documents with rules := rules }
    rw [hdata, ← mergedRuleset_collapse_iff] at h
    refine h.trans ⟨fun hclash => ⟨rules, rfl, hclash⟩, ?_⟩
    rintro ⟨rules', hrules, hclash⟩
    cases hrules
    exact hclash

/-! ## deliveries -/

namespace Client
variable {engine : Engine} {files : Files}

/-- the client after a reconfiguration -/
def configured (c : Client) (component : Component) (ledger : Ledger) (host : Host) : Client :=
  { c with
    component := some component
    repository := { c.repository with ledger := ledger }
    host := host }

theorem reconfigureFrom_of_none {c : Client} (h : c.component = none) :
    c.reconfigureFrom engine files = (none, c) := by
  rw [reconfigureFrom, h]

theorem reconfigureFrom_of_some {c : Client} {component component' : Component}
    {result : Except RemoteError Bool} {ledger : Ledger} {host : Host}
    (h : c.component = some component)
    (hr : component.reconfigureFrom engine files c.repository.current c.repository.ledger c.host
      = (result, component', ledger, host)) :
    c.reconfigureFrom engine files = (some result, c.configured component' ledger host) := by
  rw [reconfigureFrom, h]
  simp only [hr]
  rfl

/-- the current snapshot is one that protection, if there is any, collapses on -/
def Clashes (c : Client) (files : Files) : Prop :=
  ∃ component, c.component = some component ∧
    c.repository.current.Clashes files component.settings

/-- protection collapses, or it is called and leaves what it would collapse on as it is -/
theorem reconfigureFrom_clashes (engine : Engine) (files : Files) (c : Client) :
    (c.Clashes files ∧
      (c.reconfigureFrom engine files).1 = some (.error (.collapse .noRoomForItems))) ∨
    ((∀ e, (c.reconfigureFrom engine files).1 ≠ some (.error (.collapse e))) ∧
      ¬ c.Clashes files ∧ ¬ (c.reconfigureFrom engine files).2.Clashes files) := by
  cases hc : c.component with
  | none =>
    have hno : ¬ c.Clashes files := by
      rintro ⟨component, h, -⟩
      rw [hc] at h
      cases h
    rw [reconfigureFrom_of_none hc]
    exact .inr ⟨fun e h => (by cases h), hno, hno⟩
  | some component =>
    match hr : component.reconfigureFrom engine files c.repository.current c.repository.ledger
        c.host with
    | (result, component', ledger, host) =>
      have hfst := Component.reconfigureFrom_fst_eq_error engine files component
        c.repository.current c.repository.ledger c.host
      have hsettings := Component.settings_reconfigureFrom engine files component
        c.repository.current c.repository.ledger c.host
      rw [hr] at hfst hsettings
      rw [reconfigureFrom_of_some hc hr]
      by_cases hclash : c.repository.current.Clashes files component.settings
      · have hdescribed := (describedRuleset_collapse_iff files component.settings
          c.repository.current).mpr hclash
        exact .inl ⟨⟨component, hc, hclash⟩, congrArg some ((hfst _).mpr hdescribed)⟩
      · refine .inr ⟨?_, ?_, ?_⟩
        · intro e h
          cases e
          exact hclash ((describedRuleset_collapse_iff files component.settings
            c.repository.current).mp ((hfst _).mp (Option.some.inj h)))
        · rintro ⟨held, h, hclash'⟩
          rw [hc] at h
          cases h
          exact hclash hclash'
        · rintro ⟨held, h, hclash'⟩
          cases h
          have hsame : component'.settings = component.settings := hsettings
          rw [hsame] at hclash'
          exact hclash hclash'

/-- a call of protection is the end of a delivery, or the delivery goes on after it -/
theorem deliver_protection (engine : Engine) (files : Files) (c : Client) (changes : List Change)
    (rest : List (Subscriber × List Change)) :
    (∃ e, (c.reconfigureFrom engine files).1 = some (.error (.collapse e)) ∧
      c.deliver engine files ((.protection, changes) :: rest)
        = (.error e, (c.reconfigureFrom engine files).2)) ∨
    ((∀ e, (c.reconfigureFrom engine files).1 ≠ some (.error (.collapse e))) ∧
      c.deliver engine files ((.protection, changes) :: rest)
        = (c.reconfigureFrom engine files).2.deliver engine files rest) := by
  rw [deliver]
  rcases c.reconfigureFrom engine files with ⟨_ | ⟨⟨⟩ | e | e⟩ | b, c'⟩
  · exact .inr ⟨fun e h => (by cases h), rfl⟩
  · exact .inr ⟨fun e h => (by cases h), rfl⟩
  · exact .inr ⟨fun e h => (by cases h), rfl⟩
  · exact .inl ⟨e, rfl, rfl⟩
  · exact .inr ⟨fun e h => (by cases h), rfl⟩

theorem deliver_error_iff (c : Client) (deliveries : List (Subscriber × List Change)) :
    (c.deliver engine files deliveries).1 = .error .noRoomForItems ↔
      (∃ changes, (Subscriber.protection, changes) ∈ deliveries) ∧ c.Clashes files := by
  induction deliveries generalizing c with
  | nil =>
    refine ⟨fun h => (by cases h), ?_⟩
    rintro ⟨⟨changes, h⟩, -⟩
    cases h
  | cons head rest ih =>
    obtain ⟨label, changes⟩ := head
    cases label with
    | observer n =>
      show ((c.tell n changes).deliver engine files rest).1 = _ ↔ _
      rw [ih]
      refine and_congr_left fun _ => exists_congr fun changes' => ?_
      rw [List.mem_cons]
      exact ⟨.inr, fun h => h.resolve_left fun e => by cases e⟩
    | protection =>
      have hcalled : ∃ changes', (Subscriber.protection, changes')
          ∈ (Subscriber.protection, changes) :: rest := ⟨changes, List.mem_cons_self⟩
      rcases deliver_protection engine files c changes rest with ⟨e, hcollapse, hend⟩ |
        ⟨hcalm, hrest⟩
      · rcases reconfigureFrom_clashes engine files c with ⟨hclash, -⟩ | ⟨hcalm, -⟩
        · cases e
          rw [hend]
          exact ⟨fun _ => ⟨hcalled, hclash⟩, fun _ => rfl⟩
        · exact absurd hcollapse (hcalm e)
      · rcases reconfigureFrom_clashes engine files c with ⟨-, hcollapse⟩ | ⟨-, hno, hno'⟩
        · exact absurd hcollapse (hcalm _)
        · rw [hrest, ih]
          exact ⟨fun h => absurd h.2 hno', fun h => absurd h.2 hno⟩

theorem dispatch_error_iff (c : Client) (changes : List Change) :
    (c.dispatch engine files changes).1 = .error .noRoomForItems ↔
      (∃ r ∈ c.dispatcher.receivers, r.label = .protection ∧
        ∃ ch ∈ changes, r.matcher.isMatch ch.path = true) ∧ c.Clashes files := by
  rw [dispatch, deliver_error_iff]
  refine and_congr_left fun _ => ?_
  constructor
  · rintro ⟨matched, h⟩
    obtain ⟨⟨r, hr, heq⟩, hne⟩ := Dispatcher.mem_deliveries.mp h
    cases hlabel : r.label with
    | observer n => rw [hlabel] at heq; cases heq
    | protection =>
      rw [hlabel] at heq
      cases heq
      obtain ⟨ch, hch⟩ := List.exists_mem_of_ne_nil _ hne
      obtain ⟨hmem, hmatch⟩ := Dispatcher.mem_matching.mp hch
      exact ⟨r, hr, hlabel, ch, hmem, hmatch⟩
  · rintro ⟨r, hr, hlabel, ch, hch, hmatch⟩
    refine ⟨Dispatcher.matching r changes, Dispatcher.mem_deliveries.mpr ⟨⟨r, hr, ?_⟩, ?_⟩⟩
    · rw [hlabel]
    · exact List.ne_nil_of_mem (Dispatcher.mem_matching.mpr ⟨hch, hmatch⟩)

end Client

/-- **What collapses.**  A merge of data, a whole merge, the making of a ruleset and the dispatch
of changes, each exactly if the data entries it is given clash, and it gets as far as the data. -/
theorem collapse_iff (engine : Engine) (files : Files) (settings : Settings)
    (data : List (List Value)) (sources : Sources) (s : Snapshot) (l : Ledger) (h : Host)
    (c : Client) (changes : List Change) :
    (combineData data = .error .noRoomForItems ↔ clashing data.flatten = true) ∧
    (Merge.merge sources = .error (.data .noRoomForItems) ↔
      (∃ rules, combineRules sources.rules = .ok rules) ∧
        clashing sources.data.flatten = true) ∧
    ((rulesetOf files settings s l h).1 = .error (.collapse .noRoomForItems) ↔
      s.Clashes files settings) ∧
    ((c.dispatch engine files changes).1 = .error .noRoomForItems ↔
      (∃ r ∈ c.dispatcher.receivers, r.label = .protection ∧
        ∃ ch ∈ changes, r.matcher.isMatch ch.path = true) ∧ c.Clashes files) := by
  refine ⟨combineData_error_iff data, merge_error_iff sources, ?_,
    Client.dispatch_error_iff c changes⟩
  rw [rulesetOf_fst]
  exact describedRuleset_collapse_iff files settings s

/-- two strings cannot be merged, nor when they are delivered as data entries -/
theorem collapse_of_strings :
    (¬ ∀ sources, ∃ merged, combineData sources = .ok merged) ∧
    ∃ hexDigest r, Repository.Reached hexDigest r ∧
      r.current.Clashes (fun _ => FileEntry.missing) ({} : Settings) := by
  constructor
  · intro h
    obtain ⟨merged, hm⟩ := h [[.string "x", .string "x"]]
    have herror : combineData [[.string "x", .string "x"]] = .error .noRoomForItems := by
      rw [combineData_error_iff]
      decide
    rw [herror] at hm
    cases hm
  · let plain : HexDigest := fun _ data => data.hex
    let document : Value := .object [("rules_data", .array [.string "x", .string "x"])]
    let response := Response.delivering plain 1
      [⟨"employee/ASM_DATA/x/config", utf8 document.print⟩]
    have hbase : (Repository.applyResponse plain {} response).2.current.baseDocuments.isEmpty
        = true := by decide +kernel
    have hclash : clashing (Repository.applyResponse plain {} response).2.current.dataEntries
        = true := by decide +kernel
    refine ⟨plain, _, .applied .new response, [Builtin.recommended], ?_, ⟨_, rfl⟩, hclash⟩
    rw [rulesInUse, if_pos hbase]
    rfl

end RemoteGuard
