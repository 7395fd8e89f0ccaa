import RemoteGuard.Text.Numeral

/-!
# Configuration paths

A configuration document is addressed by `datadog/ORG/PRODUCT/ID/config`, issued for an
organisation, or by `employee/PRODUCT/ID/config`, issued internally.  Product and id are non-empty
and free of `/`, and may hold any other character; an organisation is a run of ASCII digits below
`2 ^ 64`.

A `ConfigPath` is a text together with the parts that it parses to, so two paths are equal exactly
when their texts are (`ConfigPath.ext_text`).  The text is kept as it was given: leading zeros of an
organisation are part of it.
-/

namespace RemoteGuard

/-- who issued a document -/
inductive Issuer where
  | organisation (id : Nat)
  | employee
deriving DecidableEq, Repr, Inhabited

namespace Issuer

def text : Issuer → String
  | .organisation id => "datadog/" ++ id.repr
  | .employee => "employee"

def organisation? : Issuer → Option Nat
  | .organisation id => some id
  | .employee => none

end Issuer

/-! ## parts -/

structure PathParts where
  issuer : Issuer
  product : String
  configId : String
deriving DecidableEq, Repr, Inhabited

namespace PathParts

/-- the last segment of every path -/
def fileName : String := "config"

/-- The pieces of a text between its slashes. -/
def segments : List Char → List (List Char)
  | [] => [[]]
  | c :: cs =>
    match segments cs with
    | [] => [[]]
    | s :: ss => if c = '/' then [] :: s :: ss else (c :: s) :: ss

def named? (issuer : Issuer) (product configId : List Char) : Option PathParts :=
  if product = [] ∨ configId = [] then none
  else some ⟨issuer, String.ofList product, String.ofList configId⟩

def ofSegments? (segments : List (List Char)) : Option PathParts :=
  match segments with
  | [head, product, configId, last] =>
    if head = "employee".toList ∧ last = fileName.toList then named? .employee product configId
    else none
  | [head, id, product, configId, last] =>
    if head = "datadog".toList ∧ last = fileName.toList then
      (Text.digits64? id).bind fun n => named? (.organisation n) product configId
    else none
  | _ => none

def ofText? (s : String) : Option PathParts := ofSegments? (segments s.toList)

end PathParts

/-! ## paths -/

structure ConfigPath where
  text : String
  parts : PathParts
  parts_eq : PathParts.ofText? text = some parts

/-- a text that is no configuration path -/
structure PathError where
  text : String
deriving DecidableEq, Repr, Inhabited

def PathError.message (e : PathError) : String :=
  "could not parse remote config path '" ++ e.text ++ "'"

namespace ConfigPath

def parse (s : String) : Except PathError ConfigPath :=
  match h : PathParts.ofText? s with
  | some parts => .ok ⟨s, parts, h⟩
  | none => .error ⟨s⟩

def issuer (p : ConfigPath) : Issuer := p.parts.issuer
def organisation? (p : ConfigPath) : Option Nat := p.issuer.organisation?
def product (p : ConfigPath) : String := p.parts.product
def configId (p : ConfigPath) : String := p.parts.configId

/-- the last segment -/
def name (_ : ConfigPath) : String := PathParts.fileName

theorem ext_text {p q : ConfigPath} (h : p.text = q.text) : p = q := by
  obtain ⟨s, a, ha⟩ := p
  obtain ⟨t, b, hb⟩ := q
  cases h
  rw [ha] at hb
  cases hb
  rfl

theorem eq_iff_text {p q : ConfigPath} : p = q ↔ p.text = q.text :=
  ⟨fun h => h ▸ rfl, ext_text⟩

instance : DecidableEq ConfigPath := fun _ _ => decidable_of_iff _ eq_iff_text.symm

/-- the order of the texts by code points -/
def le (p q : ConfigPath) : Bool := p.text ≤ q.text

/-- paths in increasing order, each once -/
def sorted (ps : List ConfigPath) : List ConfigPath :=
  (ps.mergeSort le).foldr (fun p qs => if qs.head? = some p then qs else p :: qs) []

theorem parse_eq_ok_iff {s : String} {p : ConfigPath} : parse s = .ok p ↔ p.text = s := by
  constructor
  · intro h
    unfold parse at h
    split at h
    · cases h; rfl
    · cases h
  · rintro rfl
    unfold parse
    split
    · exact congrArg _ (ext_text rfl)
    · next h => rw [p.parts_eq] at h; cases h

theorem parse_text (p : ConfigPath) : parse p.text = .ok p := parse_eq_ok_iff.2 rfl

theorem parse_eq_error {s : String} {e : PathError} (h : parse s = .error e) : e.text = s := by
  unfold parse at h
  split at h
  · cases h
  · cases h; rfl

end ConfigPath

/-- Parses a list of paths, or gives the first failure. -/
def parsePaths : List String → Except PathError (List ConfigPath)
  | [] => .ok []
  | s :: ss =>
    match ConfigPath.parse s with
    | .error e => .error e
    | .ok p =>
      match parsePaths ss with
      | .error e => .error e
      | .ok ps => .ok (p :: ps)

theorem parsePaths_eq_ok_iff {ss : List String} {ps : List ConfigPath} :
    parsePaths ss = .ok ps ↔ ps.map ConfigPath.text = ss := by
  induction ss generalizing ps with
  | nil =>
    rw [parsePaths, List.map_eq_nil_iff, Except.ok.injEq]
    exact eq_comm
  | cons s ss ih =>
    rw [parsePaths, List.map_eq_cons_iff]
    constructor
    · intro h
      cases hp : ConfigPath.parse s with
      | error e => rw [hp] at h; cases h
      | ok p =>
        rw [hp] at h
        cases hps : parsePaths ss with
        | error e => simp only [hps] at h; cases h
        | ok qs =>
          simp only [hps] at h
          cases h
          exact ⟨p, qs, rfl, ConfigPath.parse_eq_ok_iff.mp hp, ih.mp hps⟩
    · rintro ⟨p, qs, rfl, hp, hqs⟩
      rw [ConfigPath.parse_eq_ok_iff.mpr hp, ih.mpr hqs]

end RemoteGuard
