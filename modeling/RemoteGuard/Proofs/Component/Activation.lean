import RemoteGuard.Proofs.Component.Verdicts
import RemoteGuard.Proofs.Repository.Operations

/-!
# Activation and the order of insertion

Protection may be switched remotely by contents of features, of which a snapshot can hold any
number.  Only the first one is read, and which one that is depends on the order in which they came
into the repository (`Repository.Filled`).

* `Snapshot.toggle?_of_single`     what is read where one content of features has a toggle;
* `Repository.Filled.contents_eq`  contents stand in the order of their insertion;
* `Snapshot.features_of_toggle_last`   a toggle that is read in the last place has no company;
* `Snapshot.activationOf_of_single_toggle`   so when the toggle is obeyed.
-/

namespace RemoteGuard
open Json

/-- the content says whether protection is on -/
def Content.hasToggle (c : Content) : Bool := (toggle? c.data).isSome

/-! ## insertions -/

/-- insertions of contents at their own paths -/
def insertions (target : Content → Target) (cs : List Content) : List Operation :=
  cs.map fun c => .insert c.path (target c) c

/-- repositories into which these contents were inserted in this order, by any number of
transactions -/
inductive Repository.Filled : List Content → Repository → Prop
  | new : Filled [] {}
  | inserted {cs : List Content} {r : Repository} (h : Filled cs r) (target : Content → Target)
      (added : List Content) : Filled (cs ++ added) (r.commit (insertions target added)).2

theorem Draft.contents_insertions {d : Draft} (target : Content → Target) {added : List Content}
    (hd : ContentList.Distinct (d.snapshot.contents ++ added)) :
    (d.run (insertions target added)).snapshot.contents = d.snapshot.contents ++ added := by
  induction added generalizing d with
  | nil => exact (List.append_nil _).symm
  | cons c added ih =>
    have hfree : d.snapshot.get? c.path = none := by
      refine ContentList.get?_eq_none_iff.mpr fun held hheld hp => ?_
      rw [ContentList.Distinct, List.map_append] at hd
      exact (List.nodup_append.mp hd).2.2 _ (List.mem_map_of_mem hheld) _
        (List.mem_map_of_mem List.mem_cons_self) hp
    rw [List.append_cons] at hd
    show ((d.insert c.path (target c) c).run (insertions target added)).snapshot.contents = _
    rw [Draft.insert_of_none _ _ hfree, ih hd, List.append_cons]
    rfl

namespace Repository.Filled
variable {cs : List Content} {r : Repository}

theorem of_new (target : Content → Target) (cs : List Content) :
    Filled cs (({} : Repository).commit (insertions target cs)).2 := new.inserted target cs

theorem contents_eq (h : Filled cs r) (hd : ContentList.Distinct cs) : r.current.contents = cs := by
  induction h with
  | new => rfl
  | @inserted cs r _ target added ih =>
    have hcs : r.current.contents = cs := ih (hd.sublist ((List.sublist_append_left _ _).map _))
    rw [← hcs] at hd ⊢
    exact Draft.contents_insertions target hd

end Repository.Filled

/-! ## what is read -/

namespace Snapshot
variable {s : Snapshot} {c : Content} {b : Bool}

def features (s : Snapshot) : List Content :=
  s.contents.filter fun c => c.path.product = Product.features

theorem features?_eq (s : Snapshot) : s.features? = s.features.head? := List.head?_filter.symm

theorem toggle?_eq (s : Snapshot) :
    s.toggle? = s.features.head?.bind fun c => RemoteGuard.toggle? c.data := by
  rw [← features?_eq]
  rfl

theorem toggle?_of_single (hone : s.features.filter Content.hasToggle = [c])
    (hb : RemoteGuard.toggle? c.data = some b) :
    s.toggle? = if s.features? = some c then some b else none := by
  rw [toggle?_eq, features?_eq]
  match hf : s.features with
  | [] =>
    rw [hf] at hone
    cases hone
  | d :: ds =>
    show RemoteGuard.toggle? d.data = if some d = some c then _ else _
    by_cases hd : d = c
    · rw [hd, if_pos rfl, hb]
    · rw [if_neg fun h => hd (Option.some.inj h), ← Option.not_isSome_iff_eq_none]
      -- another content with a toggle would be the one of `hone`
      intro htoggle
      have hmem : d ∈ s.features.filter Content.hasToggle :=
        List.mem_filter.mpr ⟨hf ▸ List.mem_cons_self, htoggle⟩
      rw [hone] at hmem
      exact hd (List.mem_singleton.mp hmem)

/-- the only toggle comes second, so it is not the content that is read -/
theorem single_of_late {bare : Content} (hf : s.features = [bare, c])
    (hbare : bare.hasToggle = false) (htoggle : c.hasToggle = true) :
    s.features.filter Content.hasToggle = [c] ∧ s.features? ≠ some c := by
  constructor
  · rw [hf, List.filter_cons, if_neg (by rw [hbare]; exact Bool.false_ne_true),
      List.filter_cons, if_pos htoggle, List.filter_nil]
  · rw [features?_eq, hf]
    intro h
    rw [← Option.some.inj h, hbare] at htoggle
    cases htoggle

/-- where contents without a toggle come first and the toggle is still read, there are none -/
theorem features_of_toggle_last {t : Snapshot}
    (hone : s.features.filter Content.hasToggle = [c])
    (ht : t.contents = s.contents.filter (fun d => !d.hasToggle)
      ++ s.contents.filter Content.hasToggle)
    (hread : t.toggle?.isSome = true) : s.features = [c] := by
  have hsplit : t.features = s.features.filter (fun d => !d.hasToggle) ++ [c] := by
    rw [← hone, features, ht, List.filter_append, List.filter_comm, features,
      List.filter_comm Content.hasToggle]
  match hbare : s.features.filter (fun d => !d.hasToggle) with
  | [] =>
    rw [← hone, eq_comm, List.filter_eq_self]
    intro d hd
    have hd' := List.filter_eq_nil_iff.mp hbare d hd
    simpa using hd'
  | d :: ds =>
    rw [toggle?_eq, hsplit, hbare] at hread
    have hd : d ∈ s.features.filter (fun d => !d.hasToggle) := hbare ▸ List.mem_cons_self
    have hno := (List.mem_filter.mp hd).2
    rw [Content.hasToggle, show (RemoteGuard.toggle? d.data).isSome = true from hread] at hno
    cases hno

end Snapshot

/-! ## activation -/

theorem Component.isEnabled_reconfigureFrom (engine : Engine) (files : Files) (k : Component)
    (s : Snapshot) (l : Ledger) (h : Host) :
    (k.reconfigureFrom engine files s l h).2.1.isEnabled = s.toggle?.getD k.settings.enabled := by
  obtain ⟨l', h', -, ⟨e, -, heq⟩ | ⟨ruleset, -, heq⟩⟩ :=
    reconfigureFrom_cases engine files k s l h
  · rw [heq]
    rfl
  · have hkept : ((k.withActivation s.toggle?).reconfigure engine ruleset h').2.1.remoteActivation
        = s.toggle? := by
      rw [reconfigure]
      simp only
      split <;> rfl
    rw [heq, isEnabled, hkept, settings_reconfigure]
    rfl

namespace Snapshot
variable {s : Snapshot} {c : Content} {b : Bool}

/-- **Obedience to the only toggle.**  Where just one content of features says whether protection is
on, a reconfiguration obeys it if it is the first content of features, and goes by the settings
otherwise.  So it is obeyed in every order in which the contents can have been inserted just if
there is no other content of features. -/
theorem activationOf_of_single_toggle (hone : s.features.filter Content.hasToggle = [c])
    (hb : RemoteGuard.toggle? c.data = some b) :
    (∀ l, (activationOf s l).1 = if s.features? = some c then some b else none) ∧
    (∀ engine files (k : Component) l h,
      (k.reconfigureFrom engine files s l h).2.1.isEnabled
        = if s.features? = some c then b else k.settings.enabled) ∧
    (ContentList.Distinct s.contents →
      ((∀ cs r l, cs.Perm s.contents → Repository.Filled cs r →
          (activationOf r.current l).1 = some b) ↔
        s.features = [c])) := by
  have hread := toggle?_of_single hone hb
  refine ⟨fun l => ?_, fun engine files k l h => ?_, fun hd => ⟨fun hall => ?_, ?_⟩⟩
  · rw [activationOf_fst, hread]
  · rw [Component.isEnabled_reconfigureFrom, hread]
    split <;> rfl
  · -- an order that begins with the contents without a toggle
    let cs := s.contents.filter (fun d => !d.hasToggle) ++ s.contents.filter Content.hasToggle
    have hcs : cs.Perm s.contents :=
      List.perm_append_comm.trans (List.filter_append_perm Content.hasToggle s.contents)
    have hfilled := Repository.Filled.of_new (fun _ => default) cs
    refine features_of_toggle_last hone
      (hfilled.contents_eq ((hcs.map Content.path).nodup_iff.mpr hd)) ?_
    rw [← activationOf_fst _ {}, hall cs _ {} hcs hfilled]
    rfl
  · intro halone cs r l hcs hfilled
    have hcontents := hfilled.contents_eq ((hcs.map Content.path).nodup_iff.mpr hd)
    have hfeatures : r.current.features = [c] := by
      rw [← List.perm_singleton, ← halone, features, hcontents]
      exact hcs.filter _
    rw [activationOf_fst, toggle?_eq, hfeatures]
    exact hb

end Snapshot

namespace Repository

/-- two contents of features were delivered, and the second one has a toggle -/
def withLateToggle : Repository :=
  let plain : HexDigest := fun _ data => data.hex
  (applyResponse plain {} (.delivering plain 1
    [⟨"employee/ASM_FEATURES/x/config", utf8 (Value.object []).print⟩,
      ⟨"employee/ASM_FEATURES/y/config",
        utf8 (Value.object [("asm", .object [("enabled", .bool true)])]).print⟩])).2

theorem reached_withLateToggle :
    Reached (fun _ data => data.hex) withLateToggle := .applied .new _

theorem features_withLateToggle :
    ∃ bare c, withLateToggle.current.features = [bare, c] ∧ bare.hasToggle = false ∧
      c.hasToggle = true ∧ RemoteGuard.toggle? c.data = some true := by
  have hfeatures : withLateToggle.current.features.map
      (fun c => (c.hasToggle, RemoteGuard.toggle? c.data))
      = [(false, none), (true, some true)] := by decide +kernel
  obtain ⟨bare, cs, hcs, hbare, hrest⟩ := List.map_eq_cons_iff.mp hfeatures
  obtain ⟨c, cs', rfl, hc, hnil⟩ := List.map_eq_cons_iff.mp hrest
  obtain rfl := List.map_eq_nil_iff.mp hnil
  obtain ⟨htoggle, hb⟩ := Prod.mk.inj hc
  exact ⟨bare, c, hcs, (Prod.mk.inj hbare).1, htoggle, hb⟩

end Repository

namespace Snapshot

/-- a toggle that comes second is not obeyed -/
theorem activationOf_of_second_toggle :
    ∃ c, Repository.withLateToggle.current.features.filter Content.hasToggle = [c] ∧
      RemoteGuard.toggle? c.data = some true ∧
      (∀ l, (activationOf Repository.withLateToggle.current l).1 = none) ∧
      (∀ engine files (k : Component) l h,
        (k.reconfigureFrom engine files Repository.withLateToggle.current l h).2.1.isEnabled
          = k.settings.enabled) ∧
      ContentList.Distinct Repository.withLateToggle.current.contents ∧
      ¬ ∀ cs r l, cs.Perm Repository.withLateToggle.current.contents → Repository.Filled cs r →
        (activationOf r.current l).1 = some true := by
  obtain ⟨bare, c, hcs, hbare, htoggle, hb⟩ := Repository.features_withLateToggle
  obtain ⟨hone, hlate⟩ := single_of_late hcs hbare htoggle
  have hdistinct := Repository.reached_withLateToggle.distinct
  obtain ⟨hread, henabled, horders⟩ := activationOf_of_single_toggle hone hb
  refine ⟨c, hone, hb, fun l => ?_, fun engine files k l h => ?_, hdistinct, ?_⟩
  · rw [hread, if_neg hlate]
  · rw [henabled, if_neg hlate]
  · rw [horders hdistinct, hcs]
    intro h
    cases h

/-- the only toggle of what was delivered may go unread -/
theorem unread_toggle :
    ¬ ∀ (hexDigest : HexDigest) (r : Repository) (c : Content) (b : Bool),
      Repository.Reached hexDigest r → r.current.features.filter Content.hasToggle = [c] →
      RemoteGuard.toggle? c.data = some b → (activationOf r.current r.ledger).1 = some b := by
  intro hall
  obtain ⟨bare, c, hcs, hbare, htoggle, hb⟩ := Repository.features_withLateToggle
  obtain ⟨hone, hlate⟩ := single_of_late hcs hbare htoggle
  have hsome := hall _ Repository.withLateToggle c true Repository.reached_withLateToggle hone hb
  rw [activationOf_fst, toggle?_of_single hone hb, if_neg hlate] at hsome
  cases hsome

end Snapshot
end RemoteGuard
