import RemoteGuard.Proofs.Json.Shaped
import RemoteGuard.Proofs.Manifest.Agreement
import RemoteGuard.Proofs.Text.Utf8

/-!
# The targets of a manifest

`Manifest.descriptors v` are the descriptors that a JSON value lists under its keys, in the order of
the keys, and `Manifest.Describes d t` is that a target has just the length, the version and the
digests of a descriptor.  `Manifest.fault?` is what is wrong with a manifest first: key by key the
path and after it the names of the digests, and the expiry when all targets are good.

* `failure?_targetsOf`   the targets are interpreted in order, up to the first fault;
* `listed_of_targetsOf`  without a fault there is a target for every descriptor;
* `lookup_eq_some_iff`   which is found under the descriptor's key;
* `parse_of_shaped`      so a manifest is read in whole or fails with its first fault.
-/

namespace RemoteGuard
open Json

/-- what a computation fails with, if it fails -/
def failure? {ε α : Type} : Except ε α → Option ε
  | .ok _ => none
  | .error e => some e

theorem failure?_eq_some_iff {ε α : Type} {x : Except ε α} {e : ε} :
    failure? x = some e ↔ x = .error e := by
  cases x <;> simp [failure?]

theorem failure?_eq_none_iff {ε α : Type} {x : Except ε α} :
    failure? x = none ↔ ∃ a, x = .ok a := by
  cases x <;> simp [failure?]

/-! ## digests -/

theorem Algorithm.parse_eq_ok_iff {s : String} {a : Algorithm} :
    Algorithm.parse s = .ok a ↔ a.name = s := by
  constructor
  · intro h
    rw [Algorithm.parse, Algorithm.ofName?] at h
    split at h
    · next b hb =>
      cases h
      split_ifs at hb with h256 h512
      · cases hb
        exact h256.symm
      · cases hb
        exact h512.symm
    · cases h
  · rintro rfl
    rw [Algorithm.parse, Algorithm.ofName?_name]

theorem Algorithm.name_inj {a b : Algorithm} : a.name = b.name ↔ a = b := by
  cases a <;> cases b <;> decide

/-- a name that stands for no algorithm -/
def Algorithm.isUnknown (name : String) : Bool := name ≠ "sha256" ∧ name ≠ "sha512"

theorem Algorithm.failure?_parse (s : String) :
    failure? (Algorithm.parse s) = if isUnknown s then some ⟨s⟩ else none := by
  rw [Algorithm.parse, Algorithm.ofName?, isUnknown]
  split_ifs <;> simp_all [failure?]

namespace DigestList

theorem ofPairs_eq_ok_iff {hashes : List (String × String)} {ds : DigestList} :
    ofPairs hashes = .ok ds ↔ hashes = ds.map fun d => (d.algorithm.name, d.hex) := by
  induction hashes generalizing ds with
  | nil =>
    rw [ofPairs, Except.ok.injEq, eq_comm, eq_comm (a := []), List.map_eq_nil_iff]
  | cons h hashes ih =>
    obtain ⟨name, hex⟩ := h
    rw [ofPairs, eq_comm (a := _ :: _), List.map_eq_cons_iff]
    constructor
    · intro hok
      cases ha : Algorithm.parse name with
      | error e => rw [ha] at hok; cases hok
      | ok a =>
        cases hds : ofPairs hashes with
        | error e => simp only [ha, hds] at hok; cases hok
        | ok ds' =>
          simp only [ha, hds] at hok
          cases hok
          exact ⟨⟨a, hex⟩, ds', rfl, by rw [Algorithm.parse_eq_ok_iff.mp ha], (ih.mp hds).symm⟩
    · rintro ⟨d, ds', rfl, hd, hds⟩
      cases hd
      rw [Algorithm.parse_eq_ok_iff.mpr rfl, ih.mpr hds.symm]

theorem failure?_ofPairs_cons (name hex : String) (hashes : List (String × String)) :
    failure? (ofPairs ((name, hex) :: hashes))
      = (failure? (Algorithm.parse name)).or (failure? (ofPairs hashes)) := by
  rw [ofPairs]
  cases Algorithm.parse name with
  | error e => rfl
  | ok a => cases ofPairs hashes <;> rfl

/-- the digests are read in turn, up to the first unknown name -/
theorem failure?_ofPairs (hashes : List (String × String)) :
    failure? (ofPairs hashes)
      = ((hashes.map Prod.fst).find? Algorithm.isUnknown).map DigestError.mk := by
  induction hashes with
  | nil => rfl
  | cons h hashes ih =>
    obtain ⟨name, hex⟩ := h
    rw [failure?_ofPairs_cons, Algorithm.failure?_parse, ih, List.map_cons, List.find?_cons]
    cases Algorithm.isUnknown name <;> rfl

end DigestList

/-! ## what a value says -/

theorem required?_tree {α : Type} {read : Tree → Option α} {o : Option Value} {x : α}
    (h : required? read (o.map Value.tree) = some x) : ∃ v, o = some v ∧ read v.tree = some x := by
  cases o with
  | none => cases h
  | some v => exact ⟨v, rfl, h⟩

/-- A field that may be left out is read, or it is missing or null. -/
theorem omittable?_tree {α : Type} {read : Tree → Option α} {o : Option Value} {x : Option α}
    (h : omittable? read (o.map Value.tree) = some x) :
    (x = none ∧ ∀ v, o = some v → v = .null) ∨
    ∃ v y, o = some v ∧ x = some y ∧ read v.tree = some y := by
  cases o with
  | none => exact .inl ⟨(Option.some.inj h).symm, nofun⟩
  | some v =>
    cases v with
    | null => exact .inl ⟨(Option.some.inj h).symm, fun v hv => (Option.some.inj hv).symm⟩
    | _ =>
      obtain ⟨y, hy, rfl⟩ := Option.map_eq_some_iff.mp h
      exact .inr ⟨_, y, rfl, rfl, hy⟩

theorem omittable?_text?_tree {o : Option Value} {s : Option String}
    (h : omittable? Tree.text? (o.map Value.tree) = some s) : s = o.bind Value.text? := by
  rcases omittable?_tree h with ⟨rfl, hnull⟩ | ⟨v, text, rfl, rfl, htext⟩
  · cases o with
    | none => rfl
    | some v =>
      obtain rfl := hnull v rfl
      rfl
  · rw [Tree.text?_tree htext]
    rfl

namespace Manifest

/-- a field of the signed part -/
def signedPart? (name : String) (v : Value) : Option Value :=
  (v.part? ["signed"] "signed").bind (Value.part? ["version", "targets", "custom", "expires"] name)

/-- the descriptors of the targets under their keys, in the order of the keys -/
def descriptors (v : Value) : Object := ((signedPart? "targets" v).map Value.dictionary).getD []

def expiry? (v : Value) : Option String := (signedPart? "expires" v).bind Value.text?

/-- the state for the backend in the custom part -/
def state? (v : Value) : Option String :=
  ((signedPart? "custom" v).bind
    (Value.part? ["opaque_backend_state"] "opaque_backend_state")).bind Value.text?

/-- a field of a descriptor -/
def targetPart? (name : String) (d : Value) : Option Value :=
  d.part? ["length", "hashes", "custom"] name

/-- the digests of a descriptor under the names of their algorithms, in the order of the names -/
def hashes (d : Value) : Object := ((targetPart? "hashes" d).map Value.dictionary).getD []

/-- A target is what a descriptor says, with one digest for each hash. -/
structure Describes (d : Value) (t : Target) : Prop where
  length : targetPart? "length" d = some (.nat t.length)
  version : (targetPart? "custom" d).bind (Value.part? ["v"] "v") = some (.nat t.version)
  digests : hashes d = t.digests.map fun g => (g.algorithm.name, Value.string g.hex)

theorem Describes.unique {d : Value} {t t' : Target} (h : Describes d t) (h' : Describes d t') :
    t = t' := by
  obtain ⟨length, digests, version⟩ := t
  obtain ⟨length', digests', version'⟩ := t'
  have hnat : ∀ {m n : Nat}, some (Value.nat m) = some (Value.nat n) → m = n := fun hmn =>
    Int.ofNat.inj (Number.integer.inj (Value.number.inj (Option.some.inj hmn)))
  have hlength : length = length' := hnat (h.length.symm.trans h'.length)
  have hversion : version = version' := hnat (h.version.symm.trans h'.version)
  have hdigests : digests = digests' := by
    refine List.map_injective_iff.mpr ?_ (h.digests.symm.trans h'.digests)
    rintro ⟨a, hex⟩ ⟨b, hex'⟩ hg
    obtain ⟨hname, hhex⟩ := Prod.mk.inj hg
    exact congrArg₂ Digest.mk (Algorithm.name_inj.mp hname) (Value.string.inj hhex)
  rw [hlength, hversion, hdigests]

/-- a target under the path that a descriptor stands under -/
abbrev Listed (p : String × Value) (t : ConfigPath × Target) : Prop :=
  t.1.text = p.1 ∧ Describes p.2 t.2

/-! ## what is wrong with a manifest -/

def keyFault? (key : String) : Option (ManifestError Value) :=
  match ConfigPath.parse key with
  | .ok _ => none
  | .error _ => some (.path ⟨key⟩)

theorem keyFault?_eq_none_iff {key : String} :
    keyFault? key = none ↔ ∃ path, ConfigPath.parse key = .ok path := by
  rw [keyFault?]
  cases ConfigPath.parse key <;> simp

/-- the first name of an algorithm that is none -/
def hashFault? (d : Value) : Option (ManifestError Value) :=
  ((hashes d).keys.find? Algorithm.isUnknown).map fun name => .digest ⟨name⟩

theorem hashFault?_eq_none_iff {d : Value} :
    hashFault? d = none ↔ ∀ name ∈ (hashes d).keys, name = "sha256" ∨ name = "sha512" := by
  simp only [hashFault?, Option.map_eq_none_iff, List.find?_eq_none, Algorithm.isUnknown]
  grind

def expiryFault? : Option String → Option (ManifestError Value)
  | none => none
  | some text => if (Timestamp.read? text).isNone then some (.expires text) else none

theorem expiryFault?_eq_none_iff {expires : Option String} : expiryFault? expires = none ↔
    ∀ text, expires = some text → ∃ t, Timestamp.read? text = some t := by
  cases expires with
  | none => simp [expiryFault?]
  | some text => cases h : Timestamp.read? text <;> simp [expiryFault?, h]

/-- the first fault of a manifest: its targets in the order of the keys, then its expiry -/
def fault? (v : Value) : Option (ManifestError Value) :=
  ((descriptors v).findSome? fun p => (keyFault? p.1).or (hashFault? p.2)).or
    (expiryFault? (expiry? v))

theorem fault?_eq_none_iff {v : Value} : fault? v = none ↔
    (∀ p ∈ descriptors v, (∃ path, ConfigPath.parse p.1 = .ok path) ∧
      ∀ name ∈ (hashes p.2).keys, name = "sha256" ∨ name = "sha512") ∧
    ∀ text, expiry? v = some text → ∃ t, Timestamp.read? text = some t := by
  simp only [fault?, Option.or_eq_none_iff, List.findSome?_eq_none_iff, keyFault?_eq_none_iff,
    hashFault?_eq_none_iff, expiryFault?_eq_none_iff]

/-! ## shapes -/

/-- the shape read from a descriptor says what the descriptor does -/
theorem parts_of_shape {d : Value} {s : TargetShape} (h : TargetShape.ofTree? d.tree = some s) :
    targetPart? "length" d = some (.nat s.length) ∧
    (targetPart? "custom" d).bind (Value.part? ["v"] "v") = some (.nat s.version) ∧
    hashes d = s.hashes.map fun g => (g.1, Value.string g.2) := by
  rw [TargetShape.ofTree?_eq_fields] at h
  simp only [Option.bind_eq_some_iff] at h
  obtain ⟨fields, hfields, length, hlength, texts, hhashes, version, hversion, hs⟩ := h
  cases hs
  rw [Tree.fields?_tree (by decide) hfields] at hlength hhashes hversion
  obtain ⟨l, hl, hlength⟩ := required?_tree hlength
  obtain ⟨o, ho, hhashes⟩ := required?_tree hhashes
  obtain ⟨c, hc, hversion⟩ := required?_tree hversion
  rw [TargetShape.customVersion?_eq_fields] at hversion
  obtain ⟨customFields, hcustom, hv⟩ := Option.bind_eq_some_iff.mp hversion
  rw [Tree.fields?_tree (by decide) hcustom] at hv
  obtain ⟨w, hw, hv⟩ := required?_tree hv
  refine ⟨?_, ?_, ?_⟩
  · rw [targetPart?, hl, Tree.word64?_tree hlength]
  · rw [targetPart?, hc, Option.bind_some, hw, Tree.word64?_tree hv]
  · rw [hashes, targetPart?, ho, Option.map_some, Option.getD_some]
    have hpairs := (Tree.dictionary?_tree hhashes).imp fun p g hpg =>
      show p = (g.1, Value.string g.2) from Prod.ext hpg.1.symm (Tree.text?_tree hpg.2)
    rwa [← List.forall₂_map_right_iff, List.forall₂_eq_eq_eq] at hpairs

/-- a descriptor under its key, beside a shape that is read from it -/
abbrev ReadAs (p : String × Value) (x : String × TargetShape) : Prop :=
  x.1 = p.1 ∧ TargetShape.ofTree? p.2.tree = some x.2

theorem custom_of_shape {w : Value} {state : Option String}
    (h : ManifestShape.backendState? w.tree = some state) :
    state = (w.part? ["opaque_backend_state"] "opaque_backend_state").bind Value.text? := by
  rw [ManifestShape.backendState?_eq_fields] at h
  obtain ⟨fields, hfields, hstate⟩ := Option.bind_eq_some_iff.mp h
  rw [Tree.fields?_tree (by decide) hfields] at hstate
  exact omittable?_text?_tree hstate

theorem state_of_shape {v : Value} {state : Option (Option String)}
    (h : omittable? ManifestShape.backendState? ((signedPart? "custom" v).map Value.tree)
      = some state) : state.join = state? v := by
  rw [state?]
  rcases omittable?_tree h with ⟨rfl, hnull⟩ | ⟨w, state, hw, rfl, hstate⟩
  · cases hw : signedPart? "custom" v with
    | none => rfl
    | some w =>
      obtain rfl := hnull w hw
      rfl
  · rw [hw, Option.bind_some]
    exact custom_of_shape hstate

/-- the shape read from a manifest says what the manifest does -/
theorem signed_of_shape {v : Value} {s : ManifestShape}
    (h : ManifestShape.ofTree? v.tree = some s) :
    signedPart? "version" v = some (.nat s.version) ∧
    List.Forall₂ ReadAs (descriptors v) s.targets ∧
    s.backendState = state? v ∧ s.expires = expiry? v := by
  rw [ManifestShape.ofTree?_eq_fields] at h
  obtain ⟨fields, hfields, hsigned⟩ := Option.bind_eq_some_iff.mp h
  rw [Tree.fields?_tree (by decide) hfields] at hsigned
  obtain ⟨w, hw, hsigned⟩ := required?_tree hsigned
  have hpart (name : String) : signedPart? name v
      = w.part? ["version", "targets", "custom", "expires"] name := by
    rw [signedPart?, hw, Option.bind_some]
  rw [ManifestShape.signed?_eq_fields] at hsigned
  simp only [Option.bind_eq_some_iff] at hsigned
  obtain ⟨fields', hfields', version, hversion, targets, htargets, state, hstate, expires,
    hexpires, hs⟩ := hsigned
  cases hs
  rw [Tree.fields?_tree (by decide) hfields'] at hversion htargets hstate hexpires
  obtain ⟨n, hn, hversion⟩ := required?_tree hversion
  obtain ⟨o, ho, htargets⟩ := required?_tree htargets
  refine ⟨?_, ?_, ?_, ?_⟩
  · rw [hpart, hn, Tree.word64?_tree hversion]
  · rw [descriptors, hpart, ho]
    exact Tree.dictionary?_tree htargets
  · apply state_of_shape
    rw [hpart]
    exact hstate
  · rw [expiry?, hpart]
    exact omittable?_text?_tree hexpires

/-! ## interpretation -/

theorem failure?_target {d : Value} {s : TargetShape} (h : TargetShape.ofTree? d.tree = some s) :
    failure? (Target.ofShape s) = hashFault? d := by
  obtain ⟨-, -, hhashes⟩ := parts_of_shape h
  have hkeys : (hashes d).keys = s.hashes.map Prod.fst := by
    rw [hhashes, Dictionary.keys, List.map_map]
    rfl
  have hfailure : failure? (Target.ofShape s)
      = (failure? (DigestList.ofPairs s.hashes)).map (.digest (σ := Value)) := by
    rw [Target.ofShape]
    cases DigestList.ofPairs s.hashes <;> rfl
  rw [hfailure, DigestList.failure?_ofPairs, Option.map_map, hashFault?, hkeys]
  rfl

theorem describes_of_ofShape {d : Value} {s : TargetShape} {t : Target}
    (h : TargetShape.ofTree? d.tree = some s)
    (ht : (Target.ofShape s : Except (ManifestError Value) _) = .ok t) : Describes d t := by
  obtain ⟨hlength, hversion, hhashes⟩ := parts_of_shape h
  rw [Target.ofShape] at ht
  cases hds : DigestList.ofPairs s.hashes with
  | error e =>
    rw [hds] at ht
    cases ht
  | ok ds =>
    rw [hds] at ht
    cases ht
    refine ⟨hlength, hversion, ?_⟩
    rw [hhashes, DigestList.ofPairs_eq_ok_iff.mp hds, List.map_map]
    rfl

theorem failure?_targetsOf_cons (key : String) (shape : TargetShape)
    (rest : List (String × TargetShape)) :
    failure? (targetsOf ((key, shape) :: rest))
      = ((keyFault? key).or (failure? (Target.ofShape shape))).or (failure? (targetsOf rest)) := by
  rw [targetsOf, keyFault?]
  cases hp : ConfigPath.parse key with
  | error e =>
    obtain rfl := ConfigPath.parse_eq_error hp
    rfl
  | ok path =>
    cases Target.ofShape shape with
    | error e => rfl
    | ok t => cases targetsOf rest <;> rfl

/-- the targets are interpreted in the order of their keys, up to the first fault -/
theorem failure?_targetsOf {ds : Object} {xs : List (String × TargetShape)}
    (h : List.Forall₂ ReadAs ds xs) :
    failure? (targetsOf xs) = ds.findSome? fun p => (keyFault? p.1).or (hashFault? p.2) := by
  induction h with
  | nil => rfl
  | @cons p x ds xs hpx _ ih =>
    obtain ⟨_, d⟩ := p
    obtain ⟨key, shape⟩ := x
    obtain ⟨rfl, hshape⟩ := hpx
    rw [failure?_targetsOf_cons, failure?_target hshape, ih, List.findSome?_cons]
    cases (keyFault? key).or (hashFault? d) <;> rfl

theorem failure?_ofShape (s : ManifestShape) :
    failure? (ofShape s) = (failure? (targetsOf s.targets)).or (expiryFault? s.expires) := by
  rw [ofShape]
  cases targetsOf s.targets with
  | error e => rfl
  | ok ts =>
    cases hexpires : s.expires with
    | none => rfl
    | some text =>
      rw [expiryOf, expiryFault?]
      cases Timestamp.read? text <;> rfl

theorem expiry_of_expiryOf {expires : Option String} {t : Option Timestamp}
    (h : (expiryOf expires : Except (ManifestError Value) _) = .ok t) :
    t = expires.bind Timestamp.read? := by
  cases expires with
  | none =>
    cases h
    rfl
  | some text =>
    simp only [expiryOf] at h
    split at h
    · next t ht =>
      cases h
      exact ht.symm
    · cases h

theorem listed_of_targetsOf {ds : Object} {xs : List (String × TargetShape)}
    (h : List.Forall₂ ReadAs ds xs) {ts : List (ConfigPath × Target)}
    (hts : (targetsOf xs : Except (ManifestError Value) _) = .ok ts) : List.Forall₂ Listed ds ts := by
  induction h generalizing ts with
  | nil =>
    cases hts
    exact .nil
  | @cons p x ds xs hpx _ ih =>
    obtain ⟨key, d⟩ := p
    obtain ⟨_, shape⟩ := x
    obtain ⟨rfl, hshape⟩ := hpx
    rw [targetsOf] at hts
    split at hts
    · cases hts
    · next path hpath =>
      split at hts
      · cases hts
      · next t ht =>
        split at hts
        · cases hts
        · next ts' hts' =>
          cases hts
          exact .cons ⟨ConfigPath.parse_eq_ok_iff.mp hpath, describes_of_ofShape hshape ht⟩ (ih hts')

/-- a path finds the target of the descriptor that stands under its text -/
theorem lookup_listed {ds : Object} {ts : List (ConfigPath × Target)}
    (h : List.Forall₂ Listed ds ts) (path : ConfigPath) :
    Option.Rel Describes (ds.find? path.text) (ts.lookup path) := by
  induction h with
  | nil => exact .none
  | @cons p t ds ts hpt _ ih =>
    obtain ⟨_, d⟩ := p
    obtain ⟨path', t⟩ := t
    obtain ⟨rfl, hd⟩ := hpt
    rw [Dictionary.find?_cons, List.lookup_cons]
    by_cases hpath : path = path'
    · subst hpath
      simpa using Option.Rel.some hd
    · have htext : path.text ≠ path'.text := fun heq => hpath (ConfigPath.ext_text heq)
      rw [if_neg htext, beq_false_of_ne hpath]
      exact ih

theorem lookup_eq_some_iff {ds : Object} {ts : List (ConfigPath × Target)}
    (h : List.Forall₂ Listed ds ts) {path : ConfigPath} {t : Target} :
    ts.lookup path = some t ↔ ∃ d, ds.find? path.text = some d ∧ Describes d t := by
  have hfound := lookup_listed h path
  generalize ds.find? path.text = found at hfound ⊢
  generalize ts.lookup path = target at hfound ⊢
  cases hfound with
  | none => simp
  | some hd =>
    constructor
    · rintro ⟨rfl⟩
      exact ⟨_, rfl, hd⟩
    · rintro ⟨_, ⟨rfl⟩, hdt⟩
      rw [hd.unique hdt]

/-! ## the whole manifest -/

theorem sorted_descriptors (v : Value) : (descriptors v).Sorted := by
  rw [descriptors]
  cases signedPart? "targets" v with
  | none => exact Dictionary.sorted_nil
  | some w => exact w.sorted_dictionary

theorem failure?_parse {v : Value} (h : (ManifestShape.ofTree? v.tree).isSome = true) :
    failure? (parse v) = fault? v := by
  obtain ⟨s, hs⟩ := Option.isSome_iff_exists.mp h
  obtain ⟨-, htargets, -, hexpires⟩ := signed_of_shape hs
  have hparse : parse v = ofShape s := by rw [parse, hs, ofShape?]
  rw [hparse, failure?_ofShape, failure?_targetsOf htargets, hexpires, fault?]

/-- The manifest is what the value says. -/
structure Says (v : Value) (m : Manifest) : Prop where
  version : signedPart? "version" v = some (.nat m.version)
  targets : List.Forall₂ Listed (descriptors v) m.targets
  backendState : m.backendState = state? v
  expires : m.expires = (expiry? v).bind Timestamp.read?

theorem says_of_parse {v : Value} (h : (ManifestShape.ofTree? v.tree).isSome = true)
    {m : Manifest} (hm : parse v = .ok m) : Says v m := by
  obtain ⟨s, hs⟩ := Option.isSome_iff_exists.mp h
  obtain ⟨hversion, htargets, hstate, hexpires⟩ := signed_of_shape hs
  rw [parse, hs, ofShape?] at hm
  simp only [ofShape] at hm
  split at hm
  · cases hm
  · next ts hts =>
    split at hm
    · cases hm
    · next t ht =>
      cases hm
      refine ⟨hversion, listed_of_targetsOf htargets hts, hstate, ?_⟩
      rw [← hexpires, expiry_of_expiryOf ht]

/-- **A manifest is read in whole or not at all.**  A value of the shape of a manifest is one just
if every key of its targets is a path, every hash has a known name and the expiry, if there is one,
is a timestamp.  Then its targets stand under the keys, in the order of their octets and each once,
and a path finds a target just if the descriptor under its text describes it; version, state and
expiry are those written.  Otherwise the failure is the first fault: key by key the path and after
it the hashes, and the expiry last. -/
theorem parse_of_shaped {v : Value} (h : (ManifestShape.ofTree? v.tree).isSome = true) :
    ((∃ m, parse v = .ok m) ↔
      (∀ p ∈ descriptors v, (∃ path, ConfigPath.parse p.1 = .ok path) ∧
        ∀ name ∈ (hashes p.2).keys, name = "sha256" ∨ name = "sha512") ∧
      ∀ text, expiry? v = some text → ∃ t, Timestamp.read? text = some t) ∧
    ((descriptors v).keys.map utf8).Pairwise (· < ·) ∧
    (∀ m, parse v = .ok m →
      m.targets.map (fun t => t.1.text) = (descriptors v).keys ∧
      (∀ path t, m.target? path = some t ↔
        ∃ d, (descriptors v).find? path.text = some d ∧ Describes d t) ∧
      signedPart? "version" v = some (.nat m.version) ∧ m.backendState = state? v ∧
      m.expires = (expiry? v).bind Timestamp.read?) ∧
    ∀ e, parse v = .error e ↔ fault? v = some e := by
  refine ⟨?_, ?_, fun m hm => ?_, fun e => ?_⟩
  · rw [← failure?_eq_none_iff, failure?_parse h]
    exact fault?_eq_none_iff
  · rw [Dictionary.keys, List.map_map, List.pairwise_map]
    exact (sorted_descriptors v).imp fun hlt => utf8_lt_utf8 hlt
  · have hsays := says_of_parse h hm
    refine ⟨?_, fun path t => lookup_eq_some_iff hsays.targets, hsays.version, hsays.backendState,
      hsays.expires⟩
    rw [Dictionary.keys, ← List.forall₂_eq_eq_eq, List.forall₂_map_left_iff,
      List.forall₂_map_right_iff]
    exact hsays.targets.flip.imp fun t p htp => htp.1
  · rw [← failure?_eq_some_iff, failure?_parse h]

/-- A manifest of two targets, and one whose first target has an unknown hash while the second has no
path and the expiry is no timestamp. -/
theorem parse_of_two_targets :
    let target (hash : String) : Value :=
      .object [("custom", .object [("v", .nat 4)]), ("hashes", .object [(hash, .string "ab")]),
        ("length", .nat 2)]
    let manifest (key hash expires : String) : Value :=
      .object [("signed", .object [("expires", .string expires),
        ("targets", .object [("employee/ASM/a/config", target hash), (key, target "sha256")]),
        ("version", .nat 1)])]
    let good := manifest "employee/ASM/b/config" "sha512" "2023-06-15T15:25:56Z"
    let bad := manifest "path" "md5" "never"
    (∃ m, parse good = .ok m ∧
      m.targets.map (fun t => t.1.text) = ["employee/ASM/a/config", "employee/ASM/b/config"]) ∧
    (ManifestShape.ofTree? bad.tree).isSome = true ∧ parse bad = .error (.digest ⟨"md5"⟩) := by
  intro target manifest good bad
  have hgood : (ManifestShape.ofTree? good.tree).isSome = true := by decide +kernel
  have hbad : (ManifestShape.ofTree? bad.tree).isSome = true := by decide +kernel
  have hfault : fault? bad = some (.digest ⟨"md5"⟩) := by
    have hkey : keyFault? "employee/ASM/a/config" = none := by
      apply Option.isNone_iff_eq_none.mp
      decide +kernel
    have hname : (hashes (target "md5")).keys.find? Algorithm.isUnknown = some "md5" := by
      decide +kernel
    have hfirst : (keyFault? "employee/ASM/a/config").or (hashFault? (target "md5"))
        = some (.digest ⟨"md5"⟩) := by
      rw [hkey, hashFault?, hname]
      rfl
    have hdescriptors : descriptors bad
        = [("employee/ASM/a/config", target "md5"), ("path", target "sha256")] :=
      Dictionary.ofPairs_of_sorted (List.pairwise_pair.mpr (by decide +kernel))
    rw [fault?, hdescriptors, List.findSome?_cons, hfirst]
    rfl
  refine ⟨?_, hbad, ((parse_of_shaped hbad).2.2.2 _).mpr hfault⟩
  obtain ⟨m, hm⟩ : ∃ m, parse good = .ok m :=
    failure?_eq_none_iff.mp (failure?_parse hgood ▸ by decide +kernel)
  refine ⟨m, hm, ((parse_of_shaped hgood).2.2.1 m hm).1.trans (by decide +kernel)⟩

end Manifest
end RemoteGuard
