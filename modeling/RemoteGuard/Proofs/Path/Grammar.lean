import RemoteGuard.Path
import RemoteGuard.Proofs.Text.Decimal

/-!
# The grammar of paths

A `WrittenPath` is a path in its pieces: the digits of the organisation, if one issued it, the
product and the id.  `WrittenPath.text` writes it down, and `WrittenPath.Valid` is what the grammar
asks of the pieces.

A parser takes a text apart at its slashes.  A valid path has no others than those between its
pieces, so that it comes back as it was written:

* `PathParts.segments_intercalate`   pieces without slashes are the segments of what they make;
* `Valid.ofText?_text`               a valid path is read, as its pieces;
* `exists_valid_of_ofText?`          and what is read is a valid path;
* `ConfigPath.parse_of_grammar`      so the paths that are parsed are those of the grammar.
-/

namespace RemoteGuard

/-! ## segments -/

namespace PathParts

theorem segments_eq_splitOn (cs : List Char) : segments cs = cs.splitOn '/' := by
  induction cs with
  | nil => rfl
  | cons c cs ih =>
    rw [segments, ih, List.splitOn_cons_eq_if_modifyHead]
    cases hs : cs.splitOn '/' with
    | nil => exact absurd hs (List.splitOn_ne_nil '/' cs)
    | cons s ss => by_cases hc : c = '/' <;> simp [hc]

theorem slash_not_mem_segments (cs : List Char) : ∀ s ∈ segments cs, '/' ∉ s := by
  induction cs with
  | nil => simp [segments]
  | cons c cs ih =>
    rw [segments]
    cases hs : segments cs with
    | nil => simp
    | cons s ss =>
      rw [hs] at ih
      by_cases hc : c = '/'
      · simpa [hc] using ih
      · simpa [hc, Ne.symm hc] using ih

theorem intercalate_segments (cs : List Char) : ['/'].intercalate (segments cs) = cs := by
  rw [segments_eq_splitOn]
  exact List.intercalate_splitOn '/'

theorem segments_intercalate {ss : List (List Char)} (hne : ss ≠ []) (h : ∀ s ∈ ss, '/' ∉ s) :
    segments (['/'].intercalate ss) = ss := by
  rw [segments_eq_splitOn]
  exact List.splitOn_intercalate '/' h hne

theorem named?_eq_some_iff {issuer : Issuer} {product configId : List Char} {parts : PathParts} :
    named? issuer product configId = some parts ↔
      product ≠ [] ∧ configId ≠ [] ∧
        parts = ⟨issuer, String.ofList product, String.ofList configId⟩ := by
  rw [named?, ← and_assoc, ← not_or]
  split
  · next h => exact ⟨fun h' => (by cases h'), fun h' => absurd h h'.1⟩
  · next h => rw [Option.some_inj, and_iff_right h, eq_comm]

theorem ofSegments?_employee (product configId : List Char) :
    ofSegments? ["employee".toList, product, configId, fileName.toList]
      = named? .employee product configId := by
  rw [ofSegments?, if_pos ⟨rfl, rfl⟩]

theorem ofSegments?_organisation (digits product configId : List Char) :
    ofSegments? ["datadog".toList, digits, product, configId, fileName.toList]
      = (Text.digits64? digits).bind fun n => named? (.organisation n) product configId := by
  rw [ofSegments?, if_pos ⟨rfl, rfl⟩]

/-- there is no other way to be read -/
theorem ofSegments?_cases {ss : List (List Char)} {parts : PathParts}
    (h : ofSegments? ss = some parts) :
    (∃ product configId, ss = ["employee".toList, product, configId, fileName.toList] ∧
      named? .employee product configId = some parts) ∨
    ∃ digits product configId n,
      ss = ["datadog".toList, digits, product, configId, fileName.toList] ∧
      Text.digits64? digits = some n ∧ named? (.organisation n) product configId = some parts := by
  unfold ofSegments? at h
  split at h
  · next head product configId last =>
    split at h
    · next hkeys =>
      obtain ⟨rfl, rfl⟩ := hkeys
      exact .inl ⟨product, configId, rfl, h⟩
    · cases h
  · next head digits product configId last =>
    split at h
    · next hkeys =>
      obtain ⟨rfl, rfl⟩ := hkeys
      obtain ⟨n, hn, h⟩ := Option.bind_eq_some_iff.mp h
      exact .inr ⟨digits, product, configId, n, rfl, hn, h⟩
    · cases h
  · cases h

end PathParts

/-! ## written paths -/

/-- a segment of a path: any characters but the slash, at least one -/
def IsSegment (s : String) : Prop := s ≠ "" ∧ '/' ∉ s.toList

instance : DecidablePred IsSegment := fun s =>
  inferInstanceAs (Decidable (s ≠ "" ∧ '/' ∉ s.toList))

/-- the digits of an organisation: a numeral whose value is below the limit of a word, `2 ^ 64` -/
def IsOrganisation (digits : String) : Prop :=
  Text.IsNumeral digits.toList ∧ Text.decimalValue digits.toList < wordLimit

instance : DecidablePred IsOrganisation := fun digits =>
  inferInstanceAs (Decidable (Text.IsNumeral digits.toList ∧
    Text.decimalValue digits.toList < wordLimit))

structure WrittenPath where
  /-- the digits of the organisation, for a path that one issued -/
  digits : Option String
  product : String
  configId : String
deriving DecidableEq

namespace WrittenPath

def source (w : WrittenPath) : String :=
  match w.digits with
  | some digits => "datadog/" ++ digits
  | none => "employee"

def text (w : WrittenPath) : String :=
  w.source ++ "/" ++ w.product ++ "/" ++ w.configId ++ "/config"

/-- what the grammar asks -/
structure Valid (w : WrittenPath) : Prop where
  product : IsSegment w.product
  configId : IsSegment w.configId
  digits : ∀ digits ∈ w.digits, IsOrganisation digits

instance (w : WrittenPath) : Decidable w.Valid :=
  decidable_of_iff (IsSegment w.product ∧ IsSegment w.configId ∧
      ∀ digits ∈ w.digits, IsOrganisation digits)
    ⟨fun h => ⟨h.1, h.2.1, h.2.2⟩, fun h => ⟨h.product, h.configId, h.digits⟩⟩

/-- the number of the organisation -/
def organisation? (w : WrittenPath) : Option Nat :=
  w.digits.map fun digits => Text.decimalValue digits.toList

def issuer (w : WrittenPath) : Issuer :=
  match w.organisation? with
  | some n => .organisation n
  | none => .employee

def parts (w : WrittenPath) : PathParts := ⟨w.issuer, w.product, w.configId⟩

theorem organisation?_issuer (w : WrittenPath) : w.issuer.organisation? = w.organisation? := by
  rw [issuer]
  cases w.organisation? <;> rfl

/-- the pieces between the slashes -/
def segments (w : WrittenPath) : List (List Char) :=
  match w.digits with
  | some digits =>
    ["datadog".toList, digits.toList, w.product.toList, w.configId.toList, "config".toList]
  | none => ["employee".toList, w.product.toList, w.configId.toList, "config".toList]

theorem toList_text (w : WrittenPath) : w.text.toList = ['/'].intercalate w.segments := by
  obtain ⟨digits, product, configId⟩ := w
  cases digits <;> simp [text, source, segments, List.intercalate]

/-- the segments of a path determine it -/
theorem eq_of_segments {w w' : WrittenPath} (h : w.segments = w'.segments) : w = w' := by
  obtain ⟨digits, product, configId⟩ := w
  obtain ⟨digits', product', configId'⟩ := w'
  cases digits <;> cases digits' <;> simp_all [segments, String.toList_inj]

theorem slash_not_mem_of_isNumeral {cs : List Char} (h : Text.IsNumeral cs) : '/' ∉ cs :=
  fun hmem => absurd (h.2 '/' hmem) (by decide)

namespace Valid
variable {w : WrittenPath}

theorem segments_text (h : w.Valid) : PathParts.segments w.text.toList = w.segments := by
  obtain ⟨digits, product, configId⟩ := w
  rw [toList_text]
  refine PathParts.segments_intercalate ?_ ?_
  · cases digits <;> exact List.cons_ne_nil _ _
  · cases digits with
    | none => simpa [segments] using ⟨h.product.2, h.configId.2⟩
    | some digits =>
      have hdigits := slash_not_mem_of_isNumeral (h.digits digits rfl).1
      simpa [segments] using ⟨hdigits, h.product.2, h.configId.2⟩

/-- a text is written in one way -/
theorem eq_of_text {w' : WrittenPath} (h : w.Valid) (h' : w'.Valid) (ht : w.text = w'.text) :
    w = w' := by
  refine eq_of_segments ?_
  rw [← h.segments_text, ← h'.segments_text, ht]

theorem named?_eq (h : w.Valid) (issuer : Issuer) :
    PathParts.named? issuer w.product.toList w.configId.toList
      = some ⟨issuer, w.product, w.configId⟩ := by
  rw [PathParts.named?_eq_some_iff, String.ofList_toList, String.ofList_toList]
  exact ⟨by simpa using h.product.1, by simpa using h.configId.1, rfl⟩

theorem ofText?_text (h : w.Valid) : PathParts.ofText? w.text = some w.parts := by
  rw [PathParts.ofText?, h.segments_text, segments, parts, issuer, organisation?]
  cases hd : w.digits with
  | none => exact (PathParts.ofSegments?_employee ..).trans (h.named?_eq .employee)
  | some digits =>
    obtain ⟨hnumeral, hvalue⟩ := h.digits digits hd
    refine (PathParts.ofSegments?_organisation ..).trans ?_
    rw [Text.digits64?_eq_some_iff.mpr ⟨hnumeral, rfl, hvalue⟩]
    exact h.named?_eq (.organisation _)

end Valid

/-- a path of which no segment is empty, and no piece holds a slash -/
theorem valid_of_segments (digits : Option (List Char)) {product configId : List Char}
    (hproduct : product ≠ []) (hconfigId : configId ≠ [])
    (hslash : '/' ∉ product ∧ '/' ∉ configId)
    (hdigits : ∀ ds ∈ digits, Text.IsNumeral ds ∧ Text.decimalValue ds < wordLimit) :
    Valid ⟨digits.map String.ofList, String.ofList product, String.ofList configId⟩ where
  product := ⟨by simpa [String.ext_iff] using hproduct, by simpa using hslash.1⟩
  configId := ⟨by simpa [String.ext_iff] using hconfigId, by simpa using hslash.2⟩
  digits := by
    intro d hd
    obtain ⟨ds, hds, rfl⟩ := Option.map_eq_some_iff.mp hd
    rw [IsOrganisation, String.toList_ofList]
    exact hdigits ds hds

/-- what is read is written, and as it was -/
theorem exists_valid_of_ofText? {s : String} {parts : PathParts}
    (h : PathParts.ofText? s = some parts) :
    ∃ w : WrittenPath, w.Valid ∧ w.text = s ∧ w.parts = parts := by
  have hslash := PathParts.slash_not_mem_segments s.toList
  have hjoin := PathParts.intercalate_segments s.toList
  rcases PathParts.ofSegments?_cases h with
    ⟨product, configId, hs, h⟩ | ⟨digits, product, configId, n, hs, hn, h⟩
  · rw [hs] at hslash hjoin
    obtain ⟨hproduct, hconfigId, rfl⟩ := PathParts.named?_eq_some_iff.mp h
    refine ⟨_, valid_of_segments none hproduct hconfigId
      ⟨hslash _ (by simp), hslash _ (by simp)⟩ (fun _ h => by cases h), ?_, rfl⟩
    rw [String.ext_iff, toList_text, ← hjoin]
    simp [segments, PathParts.fileName]
  · rw [hs] at hslash hjoin
    obtain ⟨hnumeral, rfl, hvalue⟩ := Text.digits64?_eq_some_iff.mp hn
    obtain ⟨hproduct, hconfigId, rfl⟩ := PathParts.named?_eq_some_iff.mp h
    refine ⟨_, valid_of_segments (some digits) hproduct hconfigId
      ⟨hslash _ (by simp), hslash _ (by simp)⟩ ?_, ?_, ?_⟩
    · rintro _ ⟨⟩
      exact ⟨hnumeral, hvalue⟩
    · rw [String.ext_iff, toList_text, ← hjoin]
      simp [segments, PathParts.fileName]
    · simp [parts, issuer, organisation?]

end WrittenPath

/-! ## parsing -/

namespace ConfigPath

/-- **Paths are those of the grammar.**  A text is parsed just if it can be written by the grammar,
which is in one way only; the path then has what was written, and is shown as the text.  An error
holds the text. -/
theorem parse_of_grammar (s : String) :
    ((∃ p, parse s = .ok p) ↔ ∃ w : WrittenPath, w.Valid ∧ w.text = s) ∧
    (∀ w w' : WrittenPath, w.Valid → w'.Valid → w.text = s → w'.text = s → w = w') ∧
    (∀ (p : ConfigPath) (w : WrittenPath), parse s = .ok p → w.Valid → w.text = s →
      p.product = w.product ∧ p.configId = w.configId ∧ p.organisation? = w.organisation? ∧
        p.text = s) ∧
    ∀ e, parse s = .error e → e.text = s := by
  refine ⟨⟨?_, ?_⟩, ?_, ?_, fun e he => parse_eq_error he⟩
  · rintro ⟨p, hp⟩
    rw [parse_eq_ok_iff] at hp
    obtain ⟨w, hvalid, htext, -⟩ := WrittenPath.exists_valid_of_ofText? p.parts_eq
    exact ⟨w, hvalid, htext.trans hp⟩
  · rintro ⟨w, hvalid, rfl⟩
    exact ⟨⟨w.text, w.parts, hvalid.ofText?_text⟩, parse_eq_ok_iff.mpr rfl⟩
  · rintro w w' hvalid hvalid' rfl htext
    exact hvalid.eq_of_text hvalid' htext.symm
  · rintro p w hp hvalid rfl
    have htext : p.text = w.text := parse_eq_ok_iff.mp hp
    have hparts : p.parts = w.parts := by
      have hread := p.parts_eq
      rw [htext, hvalid.ofText?_text] at hread
      exact (Option.some.inj hread).symm
    refine ⟨congrArg PathParts.product hparts, congrArg PathParts.configId hparts, ?_, htext⟩
    rw [organisation?, issuer, hparts]
    exact w.organisation?_issuer

/-- an organisation may have leading zeros, and segments may look like keywords -/
theorem parse_of_padded_organisation :
    let w : WrittenPath := ⟨some "0007", "employee", "config"⟩
    w.Valid ∧ w.text = "datadog/0007/employee/config/config" ∧
      ∃ p, parse "datadog/0007/employee/config/config" = .ok p ∧
        p.product = "employee" ∧ p.configId = "config" ∧ p.organisation? = some 7 ∧
        p.text = "datadog/0007/employee/config/config" := by
  intro w
  have hvalid : w.Valid := by decide +kernel
  have htext : w.text = "datadog/0007/employee/config/config" := by decide +kernel
  have hvalue : w.organisation? = some 7 := by decide +kernel
  obtain ⟨hiff, -, hfields, -⟩ := parse_of_grammar "datadog/0007/employee/config/config"
  obtain ⟨p, hp⟩ := hiff.mpr ⟨w, hvalid, htext⟩
  obtain ⟨hproduct, hconfigId, horganisation, hshown⟩ := hfields p w hp hvalid htext
  exact ⟨hvalid, htext, p, hp, hproduct, hconfigId, horganisation.trans hvalue, hshown⟩

end ConfigPath
end RemoteGuard
