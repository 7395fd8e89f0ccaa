import RemoteGuard.FirstOccurrences
import RemoteGuard.Manifest

/-!
# Contents

A `Content` is a delivered document: a path, its bytes, and the expiry of the manifest it came
with.  It carries an identity, so that two deliveries of the same bytes stay apart; what is
recorded about a content while it is held is kept by identity in a `Ledger`.

A list of contents may hold several at one path.  `findVerified?` is the only look-up that checks
digests; `get?` takes the first content at a path as it is, and says what an operation leaves there
(`get?_append`, `get?_erase`, `get?_of_replace?`).  `paths` lists each path once (`mem_paths`,
`nodup_paths`).
-/

namespace RemoteGuard

structure Content where
  /-- identity, given out by a ledger -/
  id : Nat
  path : ConfigPath
  data : Bytes
  expires : Option Timestamp
deriving DecidableEq

def Content.sameDocument (a b : Content) : Bool := a.path == b.path && a.data == b.data

namespace ContentList

/-- the first content at `path` that meets the target -/
def findVerified? (hexDigest : HexDigest) (path : ConfigPath) (target : Target)
    (cs : List Content) : Option Content :=
  cs.find? fun c => c.path == path && target.check hexDigest c.data

/-- the first content at `path`, unchecked -/
def get? (path : ConfigPath) (cs : List Content) : Option Content :=
  cs.find? fun c => c.path == path

/-- Puts `c` in the place of the first content at its own path, and gives what stood there. -/
def replace? (c : Content) : List Content → Option (Content × List Content)
  | [] => none
  | d :: ds =>
    if d.path = c.path then some (d, c :: ds)
    else (replace? c ds).map fun (previous, ds) => (previous, d :: ds)

def erase (path : ConfigPath) (cs : List Content) : List Content :=
  cs.filter fun c => c.path != path

/-- the distinct paths, in the order of their first contents -/
def paths (cs : List Content) : List ConfigPath := (cs.map Content.path).eraseDups

/-! ## look-up -/

theorem findVerified?_eq_some {hexDigest : HexDigest} {path : ConfigPath} {target : Target}
    {cs : List Content} {c : Content} (h : findVerified? hexDigest path target cs = some c) :
    c ∈ cs ∧ c.path = path ∧ target.check hexDigest c.data = true := by
  have hp := List.find?_some h
  simp only [Bool.and_eq_true, beq_iff_eq] at hp
  exact ⟨List.mem_of_find?_eq_some h, hp⟩

theorem isSome_findVerified? {hexDigest : HexDigest} {path : ConfigPath} {target : Target}
    {cs : List Content} :
    (findVerified? hexDigest path target cs).isSome = true
      ↔ ∃ c ∈ cs, c.path = path ∧ target.check hexDigest c.data = true := by
  simp [findVerified?, List.find?_isSome]

theorem get?_nil (path : ConfigPath) : get? path [] = none := rfl

theorem get?_cons (path : ConfigPath) (c : Content) (cs : List Content) :
    get? path (c :: cs) = if c.path = path then some c else get? path cs := by
  by_cases h : c.path = path <;> simp [get?, h]

theorem get?_append (path : ConfigPath) (cs ds : List Content) :
    get? path (cs ++ ds) = (get? path cs).or (get? path ds) := List.find?_append

theorem get?_eq_some {path : ConfigPath} {cs : List Content} {c : Content}
    (h : get? path cs = some c) : c ∈ cs ∧ c.path = path :=
  ⟨List.mem_of_find?_eq_some h, by simpa using List.find?_some h⟩

theorem get?_eq_none_iff {path : ConfigPath} {cs : List Content} :
    get? path cs = none ↔ ∀ c ∈ cs, c.path ≠ path := by
  simp [get?, List.find?_eq_none]

/-! ## what an operation leaves at each path -/

theorem mem_erase {path : ConfigPath} {c : Content} {cs : List Content} :
    c ∈ erase path cs ↔ c ∈ cs ∧ c.path ≠ path := by simp [erase]

theorem get?_erase (path path' : ConfigPath) (cs : List Content) :
    get? path' (erase path cs) = if path' = path then none else get? path' cs := by
  induction cs with
  | nil => simp [erase, get?]
  | cons c cs ih =>
    have step : erase path (c :: cs)
        = if c.path = path then erase path cs else c :: erase path cs := by
      by_cases h : c.path = path <;> simp [erase, h]
    rw [step, get?_cons]
    by_cases h : c.path = path
    · rw [if_pos h, ih]
      by_cases hp : path' = path
      · simp [hp]
      · have : c.path ≠ path' := fun e => hp (e.symm.trans h)
        simp [hp, this]
    · rw [if_neg h, get?_cons, ih]
      by_cases hc : c.path = path'
      · have : path' ≠ path := fun e => h (hc.trans e)
        simp [hc, this]
      · simp [hc]

theorem replace?_eq_none_iff {c : Content} {cs : List Content} :
    replace? c cs = none ↔ get? c.path cs = none := by
  induction cs with
  | nil => simp [replace?, get?]
  | cons d ds ih => by_cases h : d.path = c.path <;> simp [replace?, get?_cons, h, ih]

theorem get?_of_replace? {c previous : Content} {cs ds : List Content}
    (h : replace? c cs = some (previous, ds)) (path : ConfigPath) :
    get? c.path cs = some previous
      ∧ get? path ds = if path = c.path then some c else get? path cs := by
  induction cs generalizing ds with
  | nil => simp [replace?] at h
  | cons d cs ih =>
    rw [replace?] at h
    split at h
    · next e =>
      cases h
      refine ⟨by simp [get?_cons, e], ?_⟩
      by_cases hp : path = c.path
      · simp [get?_cons, hp]
      · simp [get?_cons, hp, e, Ne.symm hp]
    · next e =>
      obtain ⟨⟨q, es⟩, he, heq⟩ := Option.map_eq_some_iff.1 h
      cases heq
      obtain ⟨hq, hes⟩ := ih he
      refine ⟨by simp [get?_cons, e, hq], ?_⟩
      rw [get?_cons, hes, get?_cons]
      by_cases hp : path = c.path
      · have : d.path ≠ path := fun e' => e (e'.trans hp)
        simp [hp, hp ▸ this]
      · simp [hp]

/-! ## paths of a list -/

theorem mem_paths {p : ConfigPath} {cs : List Content} :
    p ∈ paths cs ↔ ∃ c ∈ cs, c.path = p := by simp [paths]

theorem nodup_paths (cs : List Content) : (paths cs).Nodup := nodup_eraseDups _

end ContentList
end RemoteGuard
