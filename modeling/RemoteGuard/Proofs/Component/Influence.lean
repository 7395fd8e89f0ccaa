import RemoteGuard.Proofs.Component.Verdicts

/-!
# What contents have influence on

A snapshot holds contents of many products, in any order.  Request protection reads four of them,
and each of its answers depends on what their contents read as, product by product.  The contents
of other products are neither read nor marked.

* `Snapshot.readings`           what the contents of a product read as;
* `addDocuments_eq_gather`      the sources of a ruleset, product by product;
* `SameDocuments.described`, `SameDocuments.toggle`   so equal readings give equal answers;
* `state_rulesetOf_of_other`, `state_activationOf_of_other`   what is not marked;
* `noninterference_of_products` all of it, with the marks of a ruleset that was merged.
-/

namespace RemoteGuard
open Json

/-! ## readings -/

namespace Snapshot

/-- what the contents of a product read as, in their order, as far as they are JSON texts -/
def readings (s : Snapshot) (product : String) : List (Option Value) :=
  (s.contents.filter fun c => c.path.product = product).map fun c => Value.read? c.data

/-- the documents of a product that go into the ruleset -/
def documentsOf (s : Snapshot) (product : String) : List Value :=
  (s.documents.filter fun p => p.1 = product).map Prod.snd

/-- The contents of request protection read as the same, product by product.  How they lie between
contents of other products and of each other does not matter. -/
def SameDocuments (s s' : Snapshot) : Prop :=
  ∀ product ∈ Product.subscribed, s.readings product = s'.readings product

theorem readings_of_subscribed {product : String} (hp : product ∈ Product.subscribed)
    (s : Snapshot) :
    s.readings product
      = ((s.subscribed.map fun c => (c.path.product, Value.read? c.data)).filter
          fun p => p.1 = product).map Prod.snd := by
  rw [readings, subscribed, List.filter_map, List.map_map, List.filter_filter]
  congr 1
  refine List.filter_congr fun c _ => ?_
  by_cases hc : c.path.product = product
  · have hsubscribed : c.path.isSubscribed = true := List.contains_iff_mem.mpr (hc ▸ hp)
    simp [hc, hsubscribed]
  · simp [hc]

/-- it is enough that they read as the same one after another -/
theorem sameDocuments_of_subscribed {s s' : Snapshot}
    (h : (s.subscribed.map fun c => (c.path.product, Value.read? c.data))
      = s'.subscribed.map fun c => (c.path.product, Value.read? c.data)) :
    s.SameDocuments s' := by
  intro product hp
  rw [readings_of_subscribed hp, readings_of_subscribed hp, h]

theorem documentsOf_eq {product : String} (hp : product ∈ Product.ofRuleset) (s : Snapshot) :
    s.documentsOf product = (s.readings product).filterMap id := by
  unfold documentsOf documents readings
  induction s.contents with
  | nil => rfl
  | cons c cs ih =>
    have hdocument : c.document?
        = if c.path.product ∈ Product.ofRuleset
          then (Value.read? c.data).map fun v => (c.path.product, v) else none := rfl
    rw [List.filterMap_cons, List.filter_cons]
    by_cases hc : c.path.product = product
    · rw [hc, if_pos hp] at hdocument
      rw [hdocument, if_pos (decide_eq_true hc), List.map_cons, List.filterMap_cons]
      cases Value.read? c.data with
      | none => exact ih
      | some v => simpa using ih
    · rw [if_neg (by simpa using hc), hdocument]
      by_cases hother : c.path.product ∈ Product.ofRuleset
      · rw [if_pos hother]
        cases Value.read? c.data with
        | none => exact ih
        | some v => simpa [hc] using ih
      · rw [if_neg hother]
        exact ih

end Snapshot

/-! ## sources of a ruleset -/

def arrayFields (documents : List Value) (key : String) : List (List Value) :=
  documents.flatMap fun document => arrayField document key

/-- the sources with the documents of each product added to them -/
def Merge.Sources.gather (s : Merge.Sources) (documentsOf : String → List Value) :
    Merge.Sources :=
  { s with
    rules := s.rules ++ documentsOf Product.baseRules
    data := s.data ++ arrayFields (documentsOf Product.protectionData) "rules_data"
    overrides := s.overrides ++ arrayFields (documentsOf Product.protection) "rules_override"
    exclusions := s.exclusions ++ arrayFields (documentsOf Product.protection) "exclusions"
    customRules := s.customRules ++ arrayFields (documentsOf Product.protection) "custom_rules" }

/-- documents of different products do not get in each other's way -/
theorem addDocuments_eq_gather {documents : List (String × Value)}
    (hd : ∀ p ∈ documents, p.1 ∈ Product.ofRuleset) (s : Merge.Sources) :
    addDocuments s documents
      = s.gather fun product => (documents.filter fun p => p.1 = product).map Prod.snd := by
  induction documents generalizing s with
  | nil => simp [addDocuments, Merge.Sources.gather, arrayFields]
  | cons p ps ih =>
    have hrest : ∀ q ∈ ps, q.1 ∈ Product.ofRuleset := fun q hq => hd q (List.mem_cons_of_mem _ hq)
    obtain ⟨product, document⟩ := p
    rw [addDocuments_cons, ih hrest, addDocument]
    have hp : product = Product.baseRules ∨ product = Product.protection ∨
        product = Product.protectionData := by
      simpa [Product.ofRuleset] using hd _ List.mem_cons_self
    rcases hp with rfl | rfl | rfl <;>
      simp [Merge.Sources.gather, arrayFields, Product.baseRules, Product.protection,
        Product.protectionData]

theorem addDocuments_documents (s : Snapshot) :
    addDocuments {} s.documents = Merge.Sources.gather {} s.documentsOf := by
  refine addDocuments_eq_gather (fun p hp => ?_) {}
  obtain ⟨c, -, hc⟩ := List.mem_filterMap.mp hp
  unfold Content.document? at hc
  split at hc
  · next hproduct =>
    obtain ⟨v, -, rfl⟩ := Option.map_eq_some_iff.mp hc
    exact hproduct
  · cases hc

/-! ## answers -/

namespace Snapshot.SameDocuments
variable {s s' : Snapshot}

theorem documentsOf (h : s.SameDocuments s') {product : String}
    (hp : product ∈ Product.ofRuleset) : s.documentsOf product = s'.documentsOf product := by
  rw [documentsOf_eq hp, documentsOf_eq hp, h product (List.mem_append_left [Product.features] hp)]

theorem sources (h : s.SameDocuments s') :
    addDocuments {} s.documents = addDocuments {} s'.documents := by
  rw [addDocuments_documents, addDocuments_documents, Merge.Sources.gather, Merge.Sources.gather,
    h.documentsOf (by decide : Product.baseRules ∈ Product.ofRuleset),
    h.documentsOf (by decide : Product.protection ∈ Product.ofRuleset),
    h.documentsOf (by decide : Product.protectionData ∈ Product.ofRuleset)]

theorem described (h : s.SameDocuments s') (files : Files) (settings : Settings) :
    describedRuleset files settings s = describedRuleset files settings s' := by
  have hbase : s.baseDocuments = s'.baseDocuments :=
    h.documentsOf (by decide : Product.baseRules ∈ Product.ofRuleset)
  rw [describedRuleset, describedRuleset, sourcesInUse, sourcesInUse, rulesInUse, rulesInUse, hbase,
    h.sources]

theorem toggle (h : s.SameDocuments s') : s.toggle? = s'.toggle? := by
  have hread (t : Snapshot) : t.toggle? = (t.readings Product.features).head?.bind fun reading =>
      ((reading.bind (Value.member? "asm")).bind (Value.member? "enabled")).bind Value.bool? := by
    rw [toggle?, readings, List.head?_map, List.head?_filter]
    cases t.contents.find? fun c => c.path.product = Product.features <;> rfl
  rw [hread, hread, h Product.features (by decide)]

end Snapshot.SameDocuments

/-! ## marks -/

section
variable {s : Snapshot} {c : Content}

theorem state_rulesetOf_of_other (hc : ∀ d ∈ s.contents, d.id = c.id → d = c)
    (hp : c.path.product ∉ Product.ofRuleset) (files : Files) (settings : Settings) (l : Ledger)
    (h : Host) : (rulesetOf files settings s l h).2.1.state c = l.state c := by
  have hreadable : c.isUnreadable = false := by
    rw [Content.isUnreadable, decide_eq_false hp, Bool.false_and]
  have hcollected : (collectContents {} l s.contents).2.state c = l.state c := by
    rw [state_collectContents {} l hc, hreadable]
    exact if_neg fun h => Bool.false_ne_true h.2
  rcases rulesetOf_cases files settings s l h with ⟨-, hledger⟩ | ⟨col, hused, -, hledger⟩
  · rw [hledger, hcollected]
  · have hnot : c.id ∉ col.used.map Content.id := by
      intro hid
      obtain ⟨d, hd, hsame⟩ := List.mem_map.mp hid
      rw [hused, used_collectContents] at hd
      obtain ⟨hmem, hdocument⟩ := List.mem_filter.mp hd
      obtain rfl := hc d hmem hsame
      rw [Content.document?, if_neg hp] at hdocument
      cases hdocument
    rw [hledger, state_mergeCollection, if_neg hnot, hcollected]

theorem state_activationOf_of_other (hc : ∀ d ∈ s.contents, d.id = c.id → d = c)
    (hp : c.path.product ≠ Product.features) (l : Ledger) :
    (activationOf s l).2.state c = l.state c := by
  rw [activationOf_snd]
  cases hf : s.features? with
  | none => rfl
  | some f =>
    show (l.setState f (featuresVerdict f.data)).state c = _
    rw [Ledger.state_setState, if_neg]
    intro hid
    obtain rfl := hc f (List.mem_of_find?_eq_some hf) hid.symm
    exact hp (Snapshot.product_of_features? hf)

/-- a content of a ruleset that was merged is acknowledged if it is a JSON text, else an error -/
theorem state_rulesetOf_of_ok (hs : s.Identified) (hc : c ∈ s.contents)
    (hp : c.path.product ∈ Product.ofRuleset) {files : Files} {settings : Settings} {l : Ledger}
    {h : Host} (hok : (rulesetOf files settings s l h).1.isOk = true) :
    (rulesetOf files settings s l h).2.1.state c
      = if (Value.read? c.data).isSome then .acknowledged
        else .error ((faultMessage? c.data).getD "") := by
  rw [rulesetOf_fst] at hok
  rw [state_rulesetOf hs hc, Snapshot.rulesetVerdict?, Content.isUnreadable, Content.document?,
    if_pos hp, decide_eq_true hp]
  cases hd : describedRuleset files settings s with
  | error e =>
    rw [hd] at hok
    cases hok
  | ok merged => cases Value.read? c.data <;> rfl

end

/-- **Products do not interfere.**  Snapshots whose contents of request protection read as the same
give the same ruleset and the same toggle, whatever else they hold.  If there is a ruleset, its
contents are acknowledged or, where they are no JSON texts, errors.  No content of another product is
marked. -/
theorem noninterference_of_products (s s' : Snapshot) (files : Files) (settings : Settings)
    (l l' : Ledger) (h h' : Host) :
    (s.SameDocuments s' →
      (rulesetOf files settings s l h).1 = (rulesetOf files settings s' l' h').1 ∧
      (activationOf s l).1 = (activationOf s' l').1) ∧
    (s.Identified → (rulesetOf files settings s l h).1.isOk = true →
      ∀ c ∈ s.contents, c.path.product ∈ Product.ofRuleset →
        (rulesetOf files settings s l h).2.1.state c
          = if (Value.read? c.data).isSome then .acknowledged
            else .error ((faultMessage? c.data).getD "")) ∧
    ∀ c, (∀ d ∈ s.contents, d.id = c.id → d = c) →
      (c.path.product ∉ Product.ofRuleset →
        (rulesetOf files settings s l h).2.1.state c = l.state c) ∧
      (c.path.product ≠ Product.features → (activationOf s l).2.state c = l.state c) := by
  refine ⟨fun hsame => ⟨?_, ?_⟩, fun hs hok c hc hp => state_rulesetOf_of_ok hs hc hp hok,
    fun c hc => ⟨?_, ?_⟩⟩
  · rw [rulesetOf_fst, rulesetOf_fst, hsame.described]
  · rw [activationOf_fst, activationOf_fst, hsame.toggle]
  · exact fun hp => state_rulesetOf_of_other hc hp files settings l h
  · exact fun hp => state_activationOf_of_other hc hp l

/-- contents of another product may come between those of request protection, or after them -/
theorem noninterference_of_other_product :
    let plain : HexDigest := fun _ data => data.hex
    let files : Files := fun _ => .missing
    let rules : TargetFile := ⟨"employee/ASM/x/config", utf8 (Value.object []).print⟩
    let broken : TargetFile := ⟨"employee/ASM_DATA/y/config", utf8 "["⟩
    let other : TargetFile := ⟨"employee/APM_SAMPLING/z/config", utf8 "0.1"⟩
    let other' : TargetFile := ⟨"employee/APM_SAMPLING/z/config", utf8 "0.2"⟩
    let r := (Repository.applyResponse plain {} (.delivering plain 1 [rules, other, broken])).2
    let r' := (Repository.applyResponse plain {} (.delivering plain 1 [rules, broken, other'])).2
    let made := rulesetOf files {} r.current r.ledger {}
    r.current.SameDocuments r'.current ∧ r.current.Identified ∧ made.1.isOk = true ∧
      made.1 = (rulesetOf files {} r'.current r'.ledger {}).1 ∧
      ∃ a b c, r.current.contents = [a, b, c] ∧ made.2.1.state a = .acknowledged ∧
        made.2.1.state b = .unacknowledged ∧ (made.2.1.state c).code = 3 := by
  intro plain files rules broken other other' r r' made
  -- all that has to be computed, at once
  have hcomputed : ((r.current.subscribed.map fun c => (c.path.product, c.data))
        = r'.current.subscribed.map fun c => (c.path.product, c.data)) ∧
      made.1.isOk = true ∧
      r.current.contents.map (fun c =>
        (c.path.product, (Value.read? c.data).isSome, r.ledger.state c))
        = [("ASM", true, .unacknowledged), ("APM_SAMPLING", true, .unacknowledged),
          ("ASM_DATA", false, .unacknowledged)] := by decide +kernel
  obtain ⟨htexts, hok, hcontents⟩ := hcomputed
  have hsame : r.current.SameDocuments r'.current := by
    refine Snapshot.sameDocuments_of_subscribed ?_
    have hread := congrArg (List.map fun p : String × Bytes => (p.1, Value.read? p.2)) htexts
    simpa only [List.map_map, Function.comp_def] using hread
  have hr : Repository.Reached plain r := .applied .new _
  obtain ⟨hresults, hmarks, hothers⟩ := noninterference_of_products r.current r'.current files {}
    r.ledger r'.ledger {} {}
  obtain ⟨hresult, -⟩ := hresults hsame
  obtain ⟨a, as, has, ha, hcontents⟩ := List.map_eq_cons_iff.mp hcontents
  obtain ⟨b, bs, rfl, hb, hcontents⟩ := List.map_eq_cons_iff.mp hcontents
  obtain ⟨c, cs, rfl, hc, hcontents⟩ := List.map_eq_cons_iff.mp hcontents
  obtain rfl := List.map_eq_nil_iff.mp hcontents
  simp only [Prod.mk.injEq] at ha hb hc
  have hmem : a ∈ r.current.contents ∧ b ∈ r.current.contents ∧ c ∈ r.current.contents := by
    rw [has]
    simp
  refine ⟨hsame, hr.identified, hok, hresult, a, b, c, has, ?_, ?_, ?_⟩
  · rw [hmarks hr.identified hok a hmem.1 (by rw [ha.1]; decide), if_pos ha.2.1]
  · rw [(hothers b (hr.identified b hmem.2.1)).1 (by rw [hb.1]; decide), hb.2.2]
  · rw [hmarks hr.identified hok c hmem.2.2 (by rw [hc.1]; decide), if_neg (by rw [hc.2.1]; decide)]
    rfl

end RemoteGuard
