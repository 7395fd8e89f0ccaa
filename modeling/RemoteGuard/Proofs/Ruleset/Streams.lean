import Mathlib.Data.Nat.Find
import Mathlib.Logic.Function.Iterate
import RemoteGuard.Proofs.Json.Unread
import RemoteGuard.Ruleset.Source

/-!
# Streams that are loaded again

A stream is rewound when a text has been read from it, whether it was a ruleset or not.  A reading
that fails takes its octets away: the next one starts with what is left (`remainder`), and so on
until a text is found there, if ever.  Then the stream starts again.

* `RulesetStream.At.load_of_none`, `RulesetStream.At.load_of_some`   what one reading does;
* `RulesetSource.at_sourceAfter`       where a stream stands after any number of them;
* `RulesetSource.rulesAt_of_stream`    what they give, and when all of them give the same.
-/

namespace RemoteGuard
open Json

/-- what is left of a text after so many readings that failed -/
def remainder (bytes : Bytes) (failures : Nat) : Bytes := unread^[failures] bytes

theorem remainder_succ (bytes : Bytes) (failures : Nat) :
    remainder bytes (failures + 1) = unread (remainder bytes failures) :=
  Function.iterate_succ_apply' ..

/-- the first text found in a stream, after so many failures -/
structure FirstText (bytes : Bytes) (failures : Nat) (document : Value) : Prop where
  found : Value.read? (remainder bytes failures) = some document
  none_before : ∀ earlier < failures, Value.read? (remainder bytes earlier) = none

theorem firstText_or_none (bytes : Bytes) :
    (∃ failures document, FirstText bytes failures document) ∨
      ∀ failures, Value.read? (remainder bytes failures) = none := by
  by_cases h : ∃ failures, (Value.read? (remainder bytes failures)).isSome = true
  · obtain ⟨document, hread⟩ := Option.isSome_iff_exists.mp (Nat.find_spec h)
    refine .inl ⟨Nat.find h, document, hread, fun earlier hlt => ?_⟩
    rw [← Option.not_isSome_iff_eq_none]
    exact Nat.find_min h hlt
  · refine .inr fun failures => ?_
    rw [← Option.not_isSome_iff_eq_none]
    exact fun hread => h ⟨failures, hread⟩

theorem toOption_asRuleset_eq_none {document : Value} (h : ∀ members, document ≠ .object members) :
    (asRuleset document).toOption = none := by
  cases document with
  | object members => exact absurd rfl (h members)
  | _ => rfl

/-! ## one reading -/

namespace RulesetStream

/-- a stream at its start, of which reads and seeks succeed -/
def ofBytes (bytes : Bytes) : RulesetStream where
  bytes := bytes
  position := 0

/-- the stream has been read in vain so many times since its start -/
structure At (s : RulesetStream) (bytes : Bytes) (failures : Nat) : Prop where
  bytes_eq : s.bytes = bytes
  readable : s.readable = true
  seekable : s.seekable = true
  ahead : s.bytes.drop s.position = remainder bytes failures

theorem at_ofBytes (bytes : Bytes) : (ofBytes bytes).At bytes 0 := ⟨rfl, rfl, rfl, rfl⟩

namespace At
variable {s : RulesetStream} {bytes : Bytes} {failures : Nat} (h : s.At bytes failures)
include h

theorem load_of_none (hread : Value.read? (remainder bytes failures) = none) :
    s.load.1 = .error .parse ∧ s.load.2.At bytes (failures + 1) := by
  obtain ⟨taken, htaken⟩ := unread_suffix (remainder bytes failures)
  have hload : s.load = (.error .parse,
      { s with
        position := s.position +
          ((remainder bytes failures).length - (unread (remainder bytes failures)).length) }) := by
    simp only [load, h.readable, h.ahead, hread, Bool.not_true, Bool.false_eq_true, if_false]
  rw [hload]
  refine ⟨rfl, h.bytes_eq, h.readable, h.seekable, ?_⟩
  have hlength : (remainder bytes failures).length - (unread (remainder bytes failures)).length
      = taken.length := by
    rw [← htaken, List.length_append, htaken, Nat.add_sub_cancel]
  show s.bytes.drop (s.position + _) = _
  rw [hlength, ← List.drop_drop, h.ahead, remainder_succ]
  exact (congrArg (List.drop taken.length) htaken).symm.trans List.drop_left

theorem load_of_some {document : Value}
    (hread : Value.read? (remainder bytes failures) = some document) :
    s.load.1 = asRuleset document ∧ s.load.2.At bytes 0 := by
  have hload : s.load = (asRuleset document, { s with position := 0 }) := by
    simp only [load, h.readable, h.seekable, h.ahead, hread, Bool.not_true, Bool.false_eq_true,
      if_false, if_true]
  rw [hload]
  exact ⟨rfl, h.bytes_eq, h.readable, h.seekable, h.bytes_eq⟩

end At
end RulesetStream

/-! ## many readings -/

namespace RulesetSource

def sourceAfter (files : Files) (times : Nat) (source : RulesetSource) : RulesetSource :=
  (fun source => (source.load files).2)^[times] source

/-- the rules that it then gives, if it does -/
def rulesAt (files : Files) (source : RulesetSource) (times : Nat) : Option Value :=
  ((sourceAfter files times source).load files).1.toOption

theorem sourceAfter_succ (files : Files) (times : Nat) (source : RulesetSource) :
    sourceAfter files (times + 1) source = ((sourceAfter files times source).load files).2 :=
  Function.iterate_succ_apply' ..

section
variable (files : Files) {bytes : Bytes}

/-- the readings go round: so many failures, then the text -/
theorem at_sourceAfter {failures : Nat} {document : Value}
    (h : FirstText bytes failures document) (times : Nat) :
    ∃ s : RulesetStream, sourceAfter files times (.stream (.ofBytes bytes)) = .stream s ∧
      s.At bytes (times % (failures + 1)) := by
  induction times with
  | zero => exact ⟨_, rfl, RulesetStream.at_ofBytes bytes⟩
  | succ times ih =>
    obtain ⟨s, hs, hat⟩ := ih
    have hlt : times % (failures + 1) < failures + 1 := Nat.mod_lt _ (Nat.succ_pos failures)
    refine ⟨s.load.2, by rw [sourceAfter_succ, hs]; rfl, ?_⟩
    by_cases hlast : times % (failures + 1) = failures
    · rw [Nat.succ_mod_succ_eq_zero_iff.mpr hlast]
      exact (hat.load_of_some (hlast ▸ h.found)).2
    · have hearlier : times % (failures + 1) < failures := by omega
      have hone : 1 % (failures + 1) = 1 := Nat.mod_eq_of_lt (by omega)
      have hnext : (times + 1) % (failures + 1) = times % (failures + 1) + 1 := by
        rw [Nat.add_mod_eq_ite, hone, if_neg (by omega)]
      rw [hnext]
      exact (hat.load_of_none (h.none_before _ hearlier)).2

/-- where no text is found, each reading goes on from the one before -/
theorem at_sourceAfter_of_none (h : ∀ failures, Value.read? (remainder bytes failures) = none)
    (times : Nat) :
    ∃ s : RulesetStream, sourceAfter files times (.stream (.ofBytes bytes)) = .stream s ∧
      s.At bytes times := by
  induction times with
  | zero => exact ⟨_, rfl, RulesetStream.at_ofBytes bytes⟩
  | succ times ih =>
    obtain ⟨s, hs, hat⟩ := ih
    exact ⟨s.load.2, by rw [sourceAfter_succ, hs]; rfl, (hat.load_of_none (h times)).2⟩

theorem rulesAt_of_firstText {failures : Nat} {document : Value}
    (h : FirstText bytes failures document) (times : Nat) :
    rulesAt files (.stream (.ofBytes bytes)) times
      = if times % (failures + 1) = failures then (asRuleset document).toOption else none := by
  obtain ⟨s, hs, hat⟩ := at_sourceAfter files h times
  have hlt : times % (failures + 1) < failures + 1 := Nat.mod_lt _ (Nat.succ_pos failures)
  rw [rulesAt, hs]
  show s.load.1.toOption = _
  by_cases hlast : times % (failures + 1) = failures
  · rw [if_pos hlast, (hat.load_of_some (hlast ▸ h.found)).1]
  · rw [if_neg hlast, (hat.load_of_none (h.none_before _ (by omega))).1]
    rfl

theorem rulesAt_of_none (h : ∀ failures, Value.read? (remainder bytes failures) = none)
    (times : Nat) : rulesAt files (.stream (.ofBytes bytes)) times = none := by
  obtain ⟨s, hs, hat⟩ := at_sourceAfter_of_none files h times
  rw [rulesAt, hs]
  show s.load.1.toOption = _
  rw [(hat.load_of_none (h times)).1]
  rfl

end

/-- **Loading a stream again.**  As long as no text is found in it, a stream gives nothing; then it
gives the rules of the first text, if this is a ruleset, and starts again.  So it gives the same
each time just if no ruleset comes to light behind a reading that failed. -/
theorem rulesAt_of_stream (files : Files) (bytes : Bytes) :
    let source := RulesetSource.stream (.ofBytes bytes)
    (∀ failures document, FirstText bytes failures document → ∀ times,
      source.rulesAt files times
        = if times % (failures + 1) = failures then (asRuleset document).toOption else none) ∧
    ((∀ failures, Value.read? (remainder bytes failures) = none) → ∀ times,
      source.rulesAt files times = none) ∧
    ((∀ times, source.rulesAt files times = source.rulesAt files 0) ↔
      ∀ failures members, ¬ FirstText bytes (failures + 1) (.object members)) := by
  intro source
  refine ⟨fun failures document h => rulesAt_of_firstText files h, rulesAt_of_none files, ?_, ?_⟩
  · intro hsame failures members h
    have hfirst := rulesAt_of_firstText files h 0
    have hlater := rulesAt_of_firstText files h (failures + 1)
    rw [Nat.zero_mod, if_neg (Nat.zero_ne_add_one failures)] at hfirst
    rw [Nat.mod_eq_of_lt (Nat.lt_succ_self _), if_pos rfl] at hlater
    have hsame := hsame (failures + 1)
    rw [hfirst, hlater] at hsame
    cases hsame
  · intro hno times
    rcases firstText_or_none bytes with ⟨failures, document, h⟩ | h
    · rw [rulesAt_of_firstText files h, rulesAt_of_firstText files h]
      cases failures with
      | zero => rw [Nat.zero_add, Nat.mod_one, Nat.mod_one]
      | succ failures =>
        have hnone : (asRuleset document).toOption = none := by
          refine toOption_asRuleset_eq_none ?_
          rintro members rfl
          exact hno failures members h
        rw [hnone, ite_self, ite_self]
    · rw [rulesAt_of_none files h, rulesAt_of_none files h]

/-- behind an octet that no text starts with there may be rules: every second reading finds them -/
theorem rulesAt_of_spoilt_stream :
    let bytes := utf8 "x\x7b\x7d"
    FirstText bytes 1 (.object []) ∧ ∀ times,
      rulesAt (fun _ => .missing) (.stream (.ofBytes bytes)) times
        = if times % 2 = 1 then some (.object []) else none := by
  intro bytes
  have hfirst : FirstText bytes 1 (.object []) := by
    refine ⟨by rfl, fun earlier hlt => ?_⟩
    obtain rfl : earlier = 0 := by omega
    rfl
  exact ⟨hfirst, (rulesAt_of_stream _ bytes).1 1 _ hfirst⟩

/-- such a stream is not loaded again as it was the first time -/
theorem rulesAt_differ :
    ¬ ∀ (files : Files) (bytes : Bytes) (times : Nat),
      rulesAt files (.stream (.ofBytes bytes)) times
        = rulesAt files (.stream (.ofBytes bytes)) 0 := by
  intro hall
  have hsame := hall (fun _ => .missing) (utf8 "x\x7b\x7d") 1
  have hfirst : rulesAt (fun _ => .missing) (.stream (.ofBytes (utf8 "x\x7b\x7d"))) 0 = none := by
    rfl
  have hsecond : rulesAt (fun _ => .missing) (.stream (.ofBytes (utf8 "x\x7b\x7d"))) 1
      = some (.object []) := by
    rfl
  rw [hfirst, hsecond] at hsame
  cases hsame

end RulesetSource
end RemoteGuard
