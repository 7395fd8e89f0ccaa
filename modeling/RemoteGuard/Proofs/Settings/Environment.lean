import RemoteGuard.Proofs.Text.Floating
import RemoteGuard.Settings

/-!
# Settings and the environment

Settings are read from seven variables.  A text that makes no sense gives its field the default;
only in the delay between samples it is an error.

* `Settings.ofEnvironment_eq`   the settings are put together from the texts of their fields and the
                                delay, each read for itself;
* `Settings.ofTexts_reads`      a field holds what its text stands for, or its default;
* `Settings.settings_of_last_values`   what the settings depend on, and what is an error.
-/

namespace RemoteGuard.Settings

/-! ## what is given -/

/-- the last value given to a variable -/
def lastGiven (env : List (String × String)) (name : String) : Option String :=
  env.reverse.lookup name

theorem lastValue?_eq (name : String) (env : List (String × String)) :
    lastValue? name env = lastGiven env name := by
  have hfold (found : Option String) :
      env.foldl (fun found p => if p.1 = name then some p.2 else found) found
        = (lastGiven env name).or found := by
    induction env generalizing found with
    | nil => rfl
    | cons p env ih =>
      obtain ⟨key, value⟩ := p
      have hlast : (if key = name then some value else found)
          = (List.lookup name [(key, value)]).or found := by
        by_cases hkey : key = name
        · rw [if_pos hkey, hkey, List.lookup_cons_self, Option.some_or]
        · rw [if_neg hkey, List.lookup_cons, beq_eq_false_iff_ne.mpr (Ne.symm hkey),
            List.lookup_nil, Option.none_or]
      rw [List.foldl_cons, ih, hlast, lastGiven, lastGiven, List.reverse_cons,
        List.lookup_append, Option.or_assoc]
  exact (hfold none).trans Option.or_none

/-- The variables that are looked at: the experimental name of the toggle is not, if its current
name is given. -/
def consulted (env : List (String × String)) : List String :=
  [EnvVar.enabled, EnvVar.rules, EnvVar.wafTimeout, EnvVar.apiSecurity, EnvVar.sampleRate,
    EnvVar.sampleDelay] ++
  if (lastGiven env EnvVar.apiSecurity).isSome then [] else [EnvVar.apiSecurityExperimental]

/-- the settings other than the delay -/
inductive Field where
  | enabled
  | rulesFile
  | wafTimeout
  | apiSecurity
  | sampleRate

/-- a word for yes or no, in any mixture of cases -/
def IsTruth (cs : List Char) (b : Bool) : Prop :=
  String.ofList (cs.map Char.toLower) ∈
    if b then ["1", "true", "t", "yes", "y"] else ["0", "false", "f", "no", "n"]

def defaults : Settings := {}

namespace Field

/-- the text that counts for a field -/
def text (env : List (String × String)) : Field → Option String
  | .enabled => lastGiven env EnvVar.enabled
  | .rulesFile => lastGiven env EnvVar.rules
  | .wafTimeout => lastGiven env EnvVar.wafTimeout
  | .apiSecurity =>
    (lastGiven env EnvVar.apiSecurity).or (lastGiven env EnvVar.apiSecurityExperimental)
  | .sampleRate => lastGiven env EnvVar.sampleRate

/-- a text without blanks around it that stands for nothing in a field -/
def Malformed (cs : List Char) : Field → Prop
  | .enabled => ∀ b, ¬ IsTruth cs b
  | .rulesFile => cs = []
  | .wafTimeout => ∀ n, ¬ Text.IsWord cs n
  | .apiSecurity => ∀ b, ¬ IsTruth cs b
  | .sampleRate => ¬ Text.IsQuantity cs

/-- the settings have in a field what a text without blanks around it stands for -/
def Holds (s : Settings) (cs : List Char) : Field → Prop
  | .enabled => IsTruth cs s.enabled
  | .rulesFile => cs ≠ [] ∧ s.rulesFile = some (String.ofList cs)
  | .wafTimeout => Text.IsWord cs s.wafTimeoutUs
  | .apiSecurity => IsTruth cs s.apiSecurity.enabled
  | .sampleRate => Text.IsQuantity cs ∧
      (Binary64.read? (String.ofList cs)).map Binary64.clampUnit = some s.apiSecurity.sampleRate

def reset : Field → Settings → Settings
  | .enabled, s => { s with enabled := defaults.enabled }
  | .rulesFile, s => { s with rulesFile := defaults.rulesFile }
  | .wafTimeout, s => { s with wafTimeoutUs := defaults.wafTimeoutUs }
  | .apiSecurity, s =>
    { s with apiSecurity := { s.apiSecurity with enabled := defaults.apiSecurity.enabled } }
  | .sampleRate, s =>
    { s with apiSecurity := { s.apiSecurity with sampleRate := defaults.apiSecurity.sampleRate } }

/-- A field holds what its text stands for, or its default if there is none or a malformed one. -/
def Reads (given : Option String) (s : Settings) (field : Field) : Prop :=
  (∃ t ∈ given, field.Holds s (Text.trimEnds t.toList)) ∨
  ((∀ t ∈ given, field.Malformed (Text.trimEnds t.toList)) ∧ field.reset s = s)

theorem Malformed.not_holds {field : Field} {cs : List Char} (h : field.Malformed cs)
    (s : Settings) : ¬ field.Holds s cs := by
  cases field with
  | enabled => exact h _
  | rulesFile => exact fun hholds => hholds.1 h
  | wafTimeout => exact h _
  | apiSecurity => exact h _
  | sampleRate => exact fun hholds => h hholds.1

end Field

/-! ## one text -/

theorem bool?_eq_some_iff {t : String} {b : Bool} :
    bool? t = some b ↔ IsTruth (Text.trimEnds t.toList) b := by
  have hdistinct : ∀ w ∈ ["1", "true", "t", "yes", "y"], w ∉ ["0", "false", "f", "no", "n"] := by
    decide
  unfold bool? IsTruth
  generalize String.ofList ((Text.trimEnds t.toList).map Char.toLower) = word
  by_cases hyes : word ∈ ["1", "true", "t", "yes", "y"]
  · have hno := hdistinct word hyes
    rw [if_pos hyes]
    cases b
    · exact iff_of_false (by simp) hno
    · exact iff_of_true rfl hyes
  · rw [if_neg hyes]
    cases b
    · exact Option.ite_none_right_eq_some.trans (and_iff_left rfl)
    · exact iff_of_false (by simp) hyes

/-- A value is what a text stands for, or the default if there is no text or if it stands for
nothing. -/
theorem getD_bind_cases {β : Type} {read : String → Option β} {stands : String → β → Prop}
    (h : ∀ {t b}, read t = some b ↔ stands t b) (given : Option String) (default : β) :
    (∃ t ∈ given, stands t ((given.bind read).getD default)) ∨
    ((∀ t ∈ given, ∀ b, ¬ stands t b) ∧ (given.bind read).getD default = default) := by
  cases given with
  | none => exact .inr ⟨by simp, rfl⟩
  | some t =>
    cases hread : read t with
    | some b =>
      refine .inl ⟨t, rfl, ?_⟩
      rw [Option.bind_some, hread]
      exact h.mp hread
    | none =>
      refine .inr ⟨?_, by rw [Option.bind_some, hread]; rfl⟩
      rintro _ ⟨⟩ b hb
      rw [h.mpr hb] at hread
      cases hread

theorem boolOr_cases (given : Option String) :
    (∃ t ∈ given, IsTruth (Text.trimEnds t.toList) (boolOr false given)) ∨
    ((∀ t ∈ given, ∀ b, ¬ IsTruth (Text.trimEnds t.toList) b) ∧ boolOr false given = false) :=
  getD_bind_cases bool?_eq_some_iff given false

theorem timeoutOf_cases (given : Option String) :
    (∃ t ∈ given, Text.IsWord (Text.trimEnds t.toList) (timeoutOf given)) ∨
    ((∀ t ∈ given, ∀ n, ¬ Text.IsWord (Text.trimEnds t.toList) n) ∧
      timeoutOf given = defaultWafTimeoutUs) :=
  getD_bind_cases Text.word64?_eq_some_iff given defaultWafTimeoutUs

theorem fileOf_cases (given : Option String) :
    (∃ t ∈ given, Text.trimEnds t.toList ≠ [] ∧
      fileOf given = some (String.ofList (Text.trimEnds t.toList))) ∨
    ((∀ t ∈ given, Text.trimEnds t.toList = []) ∧ fileOf given = none) := by
  cases given with
  | none => exact .inr ⟨by simp, rfl⟩
  | some t =>
    have hblank : Text.trim t = "" ↔ Text.trimEnds t.toList = [] := String.ofList_eq_empty_iff
    have hfile : fileOf (some t) = if Text.trim t = "" then none else some (Text.trim t) := by
      by_cases h : Text.trim t = "" <;> simp [fileOf, h]
    by_cases h : Text.trimEnds t.toList = []
    · refine .inr ⟨?_, by rw [hfile, if_pos (hblank.mpr h)]⟩
      rintro _ ⟨⟩
      exact h
    · exact .inl ⟨t, rfl, h, by rw [hfile, if_neg (mt hblank.mp h)]; rfl⟩

theorem rateOf_cases (given : Option String) :
    (∃ t ∈ given, Text.IsQuantity (Text.trimEnds t.toList) ∧
      (Binary64.read? (Text.trim t)).map Binary64.clampUnit = some (rateOf given)) ∨
    ((∀ t ∈ given, ¬ Text.IsQuantity (Text.trimEnds t.toList)) ∧
      rateOf given = defaultSampleRate) := by
  cases given with
  | none => exact .inr ⟨by simp, by decide +kernel⟩
  | some t =>
    have hquantity := Binary64.read?_quantity_iff (Text.trim t)
    rw [Text.trim, String.toList_ofList] at hquantity
    by_cases h : Text.IsQuantity (Text.trimEnds t.toList)
    · obtain ⟨x, hread, hnumber⟩ := hquantity.mpr h
      refine .inl ⟨t, rfl, h, ?_⟩
      simp [rateOf, Text.trim, hread, hnumber]
    · refine .inr ⟨?_, ?_⟩
      · rintro _ ⟨⟩
        exact h
      · -- what is read all the same is no number
        have hnan {x : Binary64} (hread : Binary64.read? (Text.trim t) = some x) :
            x.isNaN = true := by
          by_contra hnumber
          exact h (hquantity.mp ⟨x, hread, Bool.eq_false_iff.mpr hnumber⟩)
        cases hread : Binary64.read? (Text.trim t) with
        | none =>
          rw [rateOf, Option.bind_some, hread]
          decide +kernel
        | some x => simp [rateOf, hread, hnan hread]

theorem delayOf_eq_error_iff {given : Option String} {e : DelayError} :
    delayOf given = .error e ↔
      ∃ t ∈ given, (∀ n, ¬ Text.IsWord (Text.trimEnds t.toList) n) ∧ e = ⟨t⟩ := by
  cases given with
  | none => simp [delayOf]
  | some t =>
    simp only [delayOf, RouteSampler.parseDelay, Text.trim, String.toList_ofList,
      ← Text.word64?_eq_some_iff, Option.mem_some_iff, exists_eq_left']
    cases Text.word64? (Text.trimEnds t.toList) with
    | none => simp [eq_comm]
    | some n => simp

theorem delayOf_eq_ok_iff {given : Option String} {delay : Nat} :
    delayOf given = .ok delay ↔
      (given = none ∧ delay = defaultSampleDelay) ∨
      ∃ t ∈ given, ∃ n, Text.IsWord (Text.trimEnds t.toList) n ∧
        delay = n * nanosecondsPerSecond := by
  cases given with
  | none => simp [delayOf, eq_comm]
  | some t =>
    simp only [delayOf, RouteSampler.parseDelay, Text.trim, String.toList_ofList,
      ← Text.word64?_eq_some_iff, Option.mem_some_iff, exists_eq_left']
    cases Text.word64? (Text.trimEnds t.toList) with
    | none => simp
    | some n => simp [eq_comm]

/-! ## all of them -/

/-- the settings with these texts for the fields -/
def ofTexts (text : Field → Option String) (delay : Nat) : Settings where
  enabled := boolOr false (text .enabled)
  rulesFile := fileOf (text .rulesFile)
  wafTimeoutUs := timeoutOf (text .wafTimeout)
  apiSecurity := {
    enabled := boolOr false (text .apiSecurity)
    sampleRate := rateOf (text .sampleRate)
    sampleDelay := delay }

theorem ofEnvironment_eq (env : List (String × String)) :
    ofEnvironment env = (delayOf (lastGiven env EnvVar.sampleDelay)).map
      (ofTexts fun field => field.text env) := by
  unfold ofEnvironment
  simp only [lastValue?_eq]
  cases delayOf (lastGiven env EnvVar.sampleDelay) <;> rfl

theorem ofTexts_reads (text : Field → Option String) (delay : Nat) (field : Field) :
    field.Reads (text field) (ofTexts text delay) := by
  cases field with
  | enabled =>
    refine (boolOr_cases (text .enabled)).imp id (And.imp_right fun h => ?_)
    simp only [Field.reset, ofTexts, h]
    rfl
  | rulesFile =>
    refine (fileOf_cases (text .rulesFile)).imp id (And.imp_right fun h => ?_)
    simp only [Field.reset, ofTexts, h]
    rfl
  | wafTimeout =>
    refine (timeoutOf_cases (text .wafTimeout)).imp id (And.imp_right fun h => ?_)
    simp only [Field.reset, ofTexts, h]
    rfl
  | apiSecurity =>
    refine (boolOr_cases (text .apiSecurity)).imp id (And.imp_right fun h => ?_)
    simp only [Field.reset, ofTexts, h]
    rfl
  | sampleRate =>
    refine (rateOf_cases (text .sampleRate)).imp id (And.imp_right fun h => ?_)
    simp only [Field.reset, ofTexts, h]
    rfl

theorem reset_ofTexts {field : Field} {text text' : Field → Option String}
    (h : ∀ other, other ≠ field → text' other = text other) (delay : Nat) :
    field.reset (ofTexts text' delay) = field.reset (ofTexts text delay) := by
  cases field <;> simp [Field.reset, ofTexts, h]

/-- **A malformed text.**  It gives the field its default and leaves the others. -/
theorem ofTexts_of_malformed {field : Field} {text text' : Field → Option String} {t : String}
    (ht : text' field = some t) (hmalformed : field.Malformed (Text.trimEnds t.toList))
    (h : ∀ other, other ≠ field → text' other = text other) (delay : Nat) :
    ofTexts text' delay = field.reset (ofTexts text delay) := by
  rw [← reset_ofTexts h]
  rcases ofTexts_reads text' delay field with ⟨u, hu, hholds⟩ | ⟨-, hreset⟩
  · cases ht.symm.trans hu
    exact absurd hholds (hmalformed.not_holds _)
  · exact hreset.symm

theorem text_of_consulted {env env' : List (String × String)}
    (h : ∀ name ∈ consulted env, lastGiven env' name = lastGiven env name) (field : Field) :
    field.text env' = field.text env := by
  cases field with
  | enabled => exact h _ (by simp [consulted])
  | rulesFile => exact h _ (by simp [consulted])
  | wafTimeout => exact h _ (by simp [consulted])
  | sampleRate => exact h _ (by simp [consulted])
  | apiSecurity =>
    rw [Field.text, Field.text, h EnvVar.apiSecurity (by simp [consulted])]
    cases hcurrent : lastGiven env EnvVar.apiSecurity with
    | some t => rfl
    | none => rw [h EnvVar.apiSecurityExperimental (by simp [consulted, hcurrent])]

/-- **Settings from an environment.**  They depend on the last values of the seven variables, and on
the experimental name of the toggle just where the current one is not given.  Only a delay that is
no whole number of seconds is an error, which carries it as it was given.  Every other field holds
what its text stands for or its default, and a malformed text gives the default whatever the other
fields are, which are left as they were. -/
theorem settings_of_last_values (env : List (String × String)) :
    (∀ env' : List (String × String),
      (∀ name ∈ consulted env, lastGiven env' name = lastGiven env name) →
      ofEnvironment env' = ofEnvironment env) ∧
    (∀ e, ofEnvironment env = .error e ↔ ∃ t ∈ lastGiven env EnvVar.sampleDelay,
      (∀ n, ¬ Text.IsWord (Text.trimEnds t.toList) n) ∧ e = ⟨t⟩) ∧
    (∀ s, ofEnvironment env = .ok s →
      ((lastGiven env EnvVar.sampleDelay = none ∧
          s.apiSecurity.sampleDelay = defaults.apiSecurity.sampleDelay) ∨
        ∃ t ∈ lastGiven env EnvVar.sampleDelay, ∃ n, Text.IsWord (Text.trimEnds t.toList) n ∧
          s.apiSecurity.sampleDelay = n * nanosecondsPerSecond) ∧
      ∀ field : Field, field.Reads (field.text env) s) ∧
    (∀ (field : Field) (env' : List (String × String)) (t : String),
      field.text env' = some t → field.Malformed (Text.trimEnds t.toList) →
      (∀ other, other ≠ field → other.text env' = other.text env) →
      lastGiven env' EnvVar.sampleDelay = lastGiven env EnvVar.sampleDelay →
      ofEnvironment env' = (ofEnvironment env).map field.reset) := by
  refine ⟨fun env' h => ?_, fun e => ?_, fun s hs => ?_, fun field env' t ht hmalformed hothers
    hdelay => ?_⟩
  · have hdelay : lastGiven env' EnvVar.sampleDelay = lastGiven env EnvVar.sampleDelay :=
      h _ (by simp [consulted])
    rw [ofEnvironment_eq, ofEnvironment_eq, hdelay, funext (text_of_consulted h)]
  · rw [ofEnvironment_eq, ← delayOf_eq_error_iff]
    cases delayOf (lastGiven env EnvVar.sampleDelay) <;> simp [Except.map]
  · rw [ofEnvironment_eq] at hs
    cases hdelay : delayOf (lastGiven env EnvVar.sampleDelay) with
    | error e =>
      rw [hdelay] at hs
      cases hs
    | ok delay =>
      rw [hdelay] at hs
      cases hs
      exact ⟨delayOf_eq_ok_iff.mp hdelay, ofTexts_reads _ delay⟩
  · rw [ofEnvironment_eq, ofEnvironment_eq, hdelay]
    cases delayOf (lastGiven env EnvVar.sampleDelay) with
    | error e => rfl
    | ok delay => exact congrArg Except.ok (ofTexts_of_malformed ht hmalformed hothers delay)

/-- a toggle that is given but malformed is off, whatever its experimental name says -/
theorem settings_of_malformed_toggle :
    let env := [("DD_APPSEC_ENABLED", "no"), ("HOME", "/"), ("DD_API_SECURITY_ENABLED", "maybe"),
      ("DD_EXPERIMENTAL_API_SECURITY_ENABLED", "1"), ("DD_API_SECURITY_SAMPLE_DELAY", " +7 "),
      ("DD_APPSEC_ENABLED", " Yes ")]
    let alike := [("DD_API_SECURITY_SAMPLE_DELAY", " +7 "),
      ("DD_EXPERIMENTAL_API_SECURITY_ENABLED", "0"), ("DD_API_SECURITY_ENABLED", "maybe"),
      ("DD_APPSEC_ENABLED", " Yes ")]
    let hurried := ("DD_APPSEC_WAF_TIMEOUT", "fast") :: env
    let halved := env ++ [("DD_API_SECURITY_SAMPLE_DELAY", " 2.5")]
    let settings : Settings :=
      { enabled := true, apiSecurity := { sampleDelay := 7 * nanosecondsPerSecond } }
    ofEnvironment env = .ok settings ∧ (∀ field : Field, field.Reads (field.text env) settings) ∧
      ofEnvironment alike = ofEnvironment env ∧
      ofEnvironment hurried = (ofEnvironment env).map Field.wafTimeout.reset ∧
      ofEnvironment halved = .error ⟨" 2.5"⟩ := by
  intro env alike hurried halved settings
  have hread : ofEnvironment env = .ok settings := by decide +kernel
  have hno {t : String} (h : Text.word64? (Text.trimEnds t.toList) = none) (n : Nat) :
      ¬ Text.IsWord (Text.trimEnds t.toList) n := by
    rw [← Text.word64?_eq_some_iff, h]
    exact Option.some_ne_none n ∘ Eq.symm
  obtain ⟨hdepends, -, hfields, hreset⟩ := settings_of_last_values env
  obtain ⟨-, herror, -⟩ := settings_of_last_values halved
  refine ⟨hread, (hfields settings hread).2, hdepends alike (by decide +kernel), ?_, ?_⟩
  · refine hreset .wafTimeout hurried "fast" (by decide +kernel) (hno (by decide +kernel)) ?_
      (by decide +kernel)
    intro other hother
    cases other with
    | wafTimeout => exact absurd rfl hother
    | _ => decide +kernel
  · exact (herror ⟨" 2.5"⟩).mpr ⟨" 2.5", by decide +kernel, hno (by decide +kernel), rfl⟩

end RemoteGuard.Settings
