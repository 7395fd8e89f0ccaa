import RemoteGuard.Manifest
import RemoteGuard.Proofs.Json.Standing

/-!
# A manifest as a text and as a value

`Manifest.parseBytes` reads a manifest from a text, `Manifest.parse` from a value that was read
before.  A text that repeats a key can be a manifest for the second only: the value keeps the last
member with the key, while the text repeats a field.  Otherwise the two agree
(`parse_of_text`): every record is its fields at their places (`ofTree?_eq_fields`), readers
whose fields agree do (`Json.Tree.agree_fields?`), and a shape is interpreted alike whatever it was
read from (`Manifest.mapError_ofShape?`).
-/

namespace RemoteGuard
open Json Tree

/-! ## fields -/

theorem agree_required? {α : Type} {read : Tree → Option α} (h : TreesAgree read) :
    FieldsAgree (required? read) := h.option

theorem agree_omittable? {α : Type} {read : Tree → Option α} (h : TreesAgree read) :
    FieldsAgree (omittable? read) := by
  have helim : omittable? read = fun field => field.elim (some none) (optional? read) := by
    funext field
    cases field <;> rfl
  rw [helim]
  exact (agree_optional? h).elim (some none)

/-! ## records -/

namespace TargetShape

theorem customVersion?_eq_fields : customVersion? = fun t =>
    (fields? ["v"] t).bind (fieldAt 0 (required? word64?)) := by
  funext t
  rw [customVersion?]
  cases h : fields? ["v"] t with
  | none => rfl
  | some fields =>
    match fields, fields?_length h with
    | [v], _ => rfl

theorem agree_customVersion? : TreesAgree customVersion? := by
  rw [customVersion?_eq_fields]
  exact agree_fields? (agree_fieldAt (agree_required? agree_word64?) 0) _

theorem ofTree?_eq_fields : ofTree? = fun t =>
    (fields? ["length", "hashes", "custom"] t).bind fun fields =>
      (fieldAt 0 (required? word64?) fields).bind fun length =>
        (fieldAt 1 (required? (dictionary? Tree.text?)) fields).bind fun hashes =>
          (fieldAt 2 (required? customVersion?) fields).bind fun version =>
            some ⟨length, hashes, version⟩ := by
  funext t
  rw [ofTree?]
  cases h : fields? ["length", "hashes", "custom"] t with
  | none => rfl
  | some fields =>
    match fields, fields?_length h with
    | [length, hashes, custom], _ => rfl

theorem agree_ofTree? : TreesAgree ofTree? := by
  rw [ofTree?_eq_fields]
  have hlength := agree_fieldAt (agree_required? agree_word64?) 0
  have hhashes := agree_fieldAt (agree_required? (agree_dictionary? agree_text?)) 1
  have hversion := agree_fieldAt (agree_required? agree_customVersion?) 2
  exact agree_fields? (hlength.bind fun length => hhashes.bind fun hashes =>
    hversion.bind fun version => agree_some _) _

end TargetShape

namespace ManifestShape

theorem backendState?_eq_fields : backendState? = fun t =>
    (fields? ["opaque_backend_state"] t).bind (fieldAt 0 (omittable? Tree.text?)) := by
  funext t
  rw [backendState?]
  cases h : fields? ["opaque_backend_state"] t with
  | none => rfl
  | some fields =>
    match fields, fields?_length h with
    | [state], _ => rfl

theorem agree_backendState? : TreesAgree backendState? := by
  rw [backendState?_eq_fields]
  exact agree_fields? (agree_fieldAt (agree_omittable? agree_text?) 0) _

theorem signed?_eq_fields : signed? = fun t =>
    (fields? ["version", "targets", "custom", "expires"] t).bind fun fields =>
      (fieldAt 0 (required? word64?) fields).bind fun version =>
        (fieldAt 1 (required? (dictionary? TargetShape.ofTree?)) fields).bind fun targets =>
          (fieldAt 2 (omittable? backendState?) fields).bind fun state =>
            (fieldAt 3 (omittable? Tree.text?) fields).bind fun expires =>
              some ⟨version, targets, state.join, expires⟩ := by
  funext t
  rw [signed?]
  cases h : fields? ["version", "targets", "custom", "expires"] t with
  | none => rfl
  | some fields =>
    match fields, fields?_length h with
    | [version, targets, custom, expires], _ => rfl

theorem agree_signed? : TreesAgree signed? := by
  rw [signed?_eq_fields]
  have hversion := agree_fieldAt (agree_required? agree_word64?) 0
  have htargets :=
    agree_fieldAt (agree_required? (agree_dictionary? TargetShape.agree_ofTree?)) 1
  have hstate := agree_fieldAt (agree_omittable? agree_backendState?) 2
  have hexpires := agree_fieldAt (agree_omittable? agree_text?) 3
  exact agree_fields? (hversion.bind fun version => htargets.bind fun targets =>
    hstate.bind fun state => hexpires.bind fun expires => agree_some _) _

theorem ofTree?_eq_fields : ofTree? = fun t =>
    (fields? ["signed"] t).bind (fieldAt 0 (required? signed?)) := by
  funext t
  rw [ofTree?]
  cases h : fields? ["signed"] t with
  | none => rfl
  | some fields =>
    match fields, fields?_length h with
    | [signed], _ => rfl

theorem agree_ofTree? : TreesAgree ofTree? := by
  rw [ofTree?_eq_fields]
  exact agree_fields? (agree_fieldAt (agree_required? agree_signed?) 0) _

end ManifestShape

/-! ## interpretation -/

section
variable {σ τ : Type}

/-- the same error about another source -/
def ManifestError.map (f : σ → τ) : ManifestError σ → ManifestError τ
  | .malformed source => .malformed (f source)
  | .path e => .path e
  | .digest e => .digest e
  | .expires text => .expires text

variable (f : σ → τ)

theorem Target.mapError_ofShape (s : TargetShape) :
    (ofShape s).mapError (ManifestError.map f) = ofShape s := by
  unfold ofShape
  cases DigestList.ofPairs s.hashes with
  | ok digests => rfl
  | error e => rfl

namespace Manifest

theorem mapError_targetsOf (shapes : List (String × TargetShape)) :
    (targetsOf shapes).mapError (ManifestError.map f) = targetsOf shapes := by
  induction shapes with
  | nil => rfl
  | cons p rest ih =>
    obtain ⟨key, shape⟩ := p
    unfold targetsOf
    rw [← ih, ← Target.mapError_ofShape f shape]
    cases ConfigPath.parse key with
    | error e => rfl
    | ok path =>
      cases Target.ofShape shape with
      | error e => rfl
      | ok target => cases targetsOf rest <;> rfl

theorem mapError_expiryOf (expires : Option String) :
    (expiryOf expires).mapError (ManifestError.map f) = expiryOf expires := by
  cases expires with
  | none => rfl
  | some text =>
    simp only [expiryOf]
    cases Timestamp.read? text <;> rfl

theorem mapError_ofShape (s : ManifestShape) :
    (ofShape s).mapError (ManifestError.map f) = ofShape s := by
  unfold ofShape
  rw [← mapError_targetsOf f s.targets, ← mapError_expiryOf f s.expires]
  cases targetsOf s.targets with
  | error e => rfl
  | ok targets => cases expiryOf s.expires <;> rfl

/-- A shape is interpreted alike whatever it was read from. -/
theorem mapError_ofShape? (source : σ) (shape : Option ManifestShape) :
    (ofShape? source shape).mapError (ManifestError.map f) = ofShape? (f source) shape := by
  cases shape with
  | none => rfl
  | some s => exact mapError_ofShape f s

end Manifest
end

/-! ## manifests -/

namespace Manifest

/-- **One manifest, read twice.**  Of a text that has a value, what is read as a manifest from the
text is read from the value, with the same targets, version, backend state and expiry; and if no
object of the text repeats a key, the two readings give the same manifest or fail alike, the one
about the text and the other about the value. -/
theorem parse_of_text {bs : Bytes} {v : Value} (h : Value.read? bs = some v) :
    (∀ m, parseBytes bs = .ok m → parse v = .ok m) ∧
    ((∀ t, Tree.read? bs = some t → t.keysDistinct = true) →
      (parseBytes bs).mapError (ManifestError.map fun _ => v) = parse v) := by
  obtain ⟨t, ht, hv⟩ := Option.bind_eq_some_iff.mp h
  have htwin : Twin t v.tree := ⟨v, ⟨depthLimit, hv⟩, rfl⟩
  have hbytes : parseBytes bs = ofShape? bs (ManifestShape.ofTree? t) := by
    rw [parseBytes, ht, Option.bind_some]
  have hsource : (parseBytes bs).mapError (ManifestError.map fun _ => v)
      = ofShape? v (ManifestShape.ofTree? t) := by
    rw [hbytes, mapError_ofShape?]
  constructor
  · intro m hm
    rw [hm] at hsource
    cases hs : ManifestShape.ofTree? t with
    | none =>
      rw [hbytes, hs] at hm
      cases hm
    | some s =>
      rw [parse, ManifestShape.agree_ofTree?.carried htwin hs, ← hs]
      exact hsource.symm
  · intro hd
    rw [hsource, parse, ManifestShape.agree_ofTree?.equal htwin (hd t ht)]

/-- An unknown field and a target that stand twice, where the last of them counts, and a target under
a path that is none. -/
theorem parse_of_repeating_text :
    let repeating := utf8 ("\x7b\"x\":0,\"signed\":[3,\x7b\"employee/ASM/a/config\":[1,\x7b\x7d,[2]]," ++
      "\"employee/ASM/a/config\":[5,\x7b\x7d,[4]]\x7d],\"x\":1\x7d")
    let misplaced := utf8 "\x7b\"signed\":[1,\x7b\"a\":[1,\x7b\x7d,[2]]\x7d]\x7d"
    (∃ v m, Value.read? repeating = some v ∧ parseBytes repeating = .ok m ∧ parse v = .ok m ∧
      m.targets.map (fun t => (t.1.text, t.2.version)) = [("employee/ASM/a/config", 4)]) ∧
    ∃ v, Value.read? misplaced = some v ∧ parseBytes misplaced = .error (.path ⟨"a"⟩) ∧
      parse v = .error (.path ⟨"a"⟩) := by
  intro repeating misplaced
  constructor
  · have hvalue : (Value.read? repeating).isSome = true := by decide +kernel
    have hread : (parseBytes repeating).toOption.map
        (fun m => m.targets.map fun t => (t.1.text, t.2.version))
          = some [("employee/ASM/a/config", 4)] := by decide +kernel
    obtain ⟨v, hv⟩ := Option.isSome_iff_exists.mp hvalue
    cases hm : parseBytes repeating with
    | error e =>
      rw [hm] at hread
      cases hread
    | ok m =>
      rw [hm] at hread
      exact ⟨v, m, hv, rfl, (parse_of_text hv).1 m hm, Option.some.inj hread⟩
  · have hvalue : (Value.read? misplaced).isSome = true := by decide +kernel
    have hdistinct : ((Tree.read? misplaced).all Tree.keysDistinct) = true := by decide +kernel
    have hread : (match parseBytes misplaced with
        | .error e => some e
        | .ok _ => none) = some (.path ⟨"a"⟩) := by decide +kernel
    obtain ⟨v, hv⟩ := Option.isSome_iff_exists.mp hvalue
    have hsame : (parseBytes misplaced).mapError (ManifestError.map fun _ => v) = parse v :=
      (parse_of_text hv).2 fun t ht => by
        rw [ht] at hdistinct
        exact hdistinct
    cases hm : parseBytes misplaced with
    | error e =>
      rw [hm] at hread hsame
      obtain rfl := Option.some.inj hread
      exact ⟨v, hv, rfl, hsame.symm⟩
    | ok m =>
      rw [hm] at hread
      cases hread

/-- a text that repeats a field is no manifest, while its value can be one -/
example :
    let bs := utf8 "\x7b\"signed\":[1,\x7b\x7d],\"signed\":[2,\x7b\x7d]\x7d"
    (parseBytes bs).toOption.map Manifest.version = none ∧
      ((Value.read? bs).bind fun v => (parse v).toOption).map Manifest.version = some 2 := by
  decide +kernel

end Manifest
end RemoteGuard
