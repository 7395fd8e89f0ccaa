import RemoteGuard.Binary64.Reading
import RemoteGuard.Sampling.Rate
import RemoteGuard.Sampling.RouteSampler

/-!
# Settings

`Settings.ofEnvironment` reads the settings of request protection from environment variables.  Of a
variable given several times the last value counts.  A malformed value counts as the default of its
setting; only the delay between samples, which must be a whole number of seconds, is an error then.

The current name of the API Security toggle wins over its experimental name when both are given.
-/

namespace RemoteGuard

namespace EnvVar

def enabled : String := "DD_APPSEC_ENABLED"
def rules : String := "DD_APPSEC_RULES"
def wafTimeout : String := "DD_APPSEC_WAF_TIMEOUT"
def apiSecurity : String := "DD_API_SECURITY_ENABLED"
def apiSecurityExperimental : String := "DD_EXPERIMENTAL_API_SECURITY_ENABLED"
def sampleRate : String := "DD_API_SECURITY_REQUEST_SAMPLE_RATE"
def sampleDelay : String := "DD_API_SECURITY_SAMPLE_DELAY"

end EnvVar

def defaultWafTimeoutUs : Nat := 5000
def defaultSampleRate : Binary64 := ⟨0x3FB999999999999A⟩
def defaultSampleDelay : Nat := 30 * nanosecondsPerSecond

/-- settings of schema extraction -/
structure ApiSecuritySettings where
  enabled : Bool := false
  sampleRate : Binary64 := defaultSampleRate
  sampleDelay : Nat := defaultSampleDelay
deriving DecidableEq, Repr, Inhabited

structure Settings where
  enabled : Bool := false
  /-- a file of rules in place of the recommended ones -/
  rulesFile : Option String := none
  wafTimeoutUs : Nat := defaultWafTimeoutUs
  apiSecurity : ApiSecuritySettings := {}
deriving DecidableEq, Repr, Inhabited

namespace Settings

/-- the last value given to a variable -/
def lastValue? (name : String) (env : List (String × String)) : Option String :=
  env.foldl (fun found p => if p.1 = name then some p.2 else found) none

/-- words for yes and no in any case, with blanks around them -/
def bool? (s : String) : Option Bool :=
  let word := String.ofList ((Text.trimEnds s.toList).map Char.toLower)
  if word ∈ ["1", "true", "t", "yes", "y"] then some true
  else if word ∈ ["0", "false", "f", "no", "n"] then some false
  else none

def boolOr (default : Bool) (value : Option String) : Bool := (value.bind bool?).getD default

def fileOf (value : Option String) : Option String :=
  (value.map Text.trim).filter fun s => s ≠ ""

def timeoutOf (value : Option String) : Nat :=
  (value.bind fun s => Text.word64? (Text.trimEnds s.toList)).getD defaultWafTimeoutUs

def rateOf (value : Option String) : Binary64 :=
  let rate := (value.bind fun s => Binary64.read? (Text.trim s)).getD defaultSampleRate
  if rate.isNaN then defaultSampleRate else rate.clampUnit

def delayOf : Option String → Except DelayError Nat
  | none => .ok defaultSampleDelay
  | some s => RouteSampler.parseDelay s

def ofEnvironment (env : List (String × String)) : Except DelayError Settings :=
  let value (name : String) : Option String := lastValue? name env
  match delayOf (value EnvVar.sampleDelay) with
  | .error e => .error e
  | .ok delay => .ok {
      enabled := boolOr false (value EnvVar.enabled)
      rulesFile := fileOf (value EnvVar.rules)
      wafTimeoutUs := timeoutOf (value EnvVar.wafTimeout)
      apiSecurity := {
        enabled :=
          boolOr false ((value EnvVar.apiSecurity).or (value EnvVar.apiSecurityExperimental))
        sampleRate := rateOf (value EnvVar.sampleRate)
        sampleDelay := delay } }

end Settings
end RemoteGuard
