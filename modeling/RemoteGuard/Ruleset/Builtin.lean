import RemoteGuard.Json.Value

/-!
# Built-in rules

The rulesets that ship with the library: `recommended`, `strict` (only rules with a very low rate
of false positives), and the processors and scanners that a merged ruleset gets unless the merge is
given others.
-/

namespace RemoteGuard.Builtin
open Json

def input (address : String) : Value := .object [("address", .string address)]

/-- an input narrowed down to a part of what is at the address -/
def inputAt (address : String) (keyPath : List String) : Value :=
  .object [("address", .string address), ("key_path", .strings keyPath)]

/-- a condition; its parameters are in key order -/
def condition (operator : String) (parameters : Object) : Value :=
  .object [("operator", .string operator), ("parameters", .object parameters)]

/-! ## rules -/

def blockAddresses : Value := .object [
  ("conditions", .array [condition "ip_match" [
    ("data", .string "blocked_ips"),
    ("inputs", .array [input "http.client_ip"])]]),
  ("id", .string "blk-001-001"),
  ("name", .string "Block IP Addresses"),
  ("on_match", .strings ["block"]),
  ("tags", .object [
    ("category", .string "security_response"),
    ("type", .string "block_ip")]),
  ("transformers", .array [])]

def blockUsers : Value := .object [
  ("conditions", .array [condition "exact_match" [
    ("data", .string "blocked_users"),
    ("inputs", .array [input "usr.id"])]]),
  ("id", .string "blk-001-002"),
  ("name", .string "Block User Addresses"),
  ("on_match", .strings ["block"]),
  ("tags", .object [
    ("category", .string "security_response"),
    ("type", .string "block_user")]),
  ("transformers", .array [])]

def sqlInjection (addresses : List String) : Value := .object [
  ("conditions", .array [condition "is_sqli" [("inputs", .array (addresses.map input))]]),
  ("id", .string "crs-942-100"),
  ("name", .string "SQL Injection Attack Detected via libinjection"),
  ("on_match", .strings ["block"]),
  ("tags", .object [
    ("category", .string "attack_attempt"),
    ("crs_id", .string "942100"),
    ("type", .string "sql_injection")]),
  ("transformers", .strings ["removeNulls"])]

def nessus : Value := .object [
  ("conditions", .array [condition "match_regex" [
    ("inputs", .array [inputAt "server.request.headers.no_cookies" ["user-agent"]]),
    ("regex", .string "(?i)^Nessus(/|([ :]+SOAP))")]]),
  ("id", .string "ua0-600-55x"),
  ("name", .string "Nessus"),
  ("tags", .object [
    ("capec", .string "1000/118/169"),
    ("category", .string "attack_attempt"),
    ("confidence", .string "1"),
    ("cwe", .string "200"),
    ("tool_name", .string "Nessus"),
    ("type", .string "security_scanner")]),
  ("transformers", .array [])]

def ruleset (rules : List Value) : Value := .object [
  ("metadata", .object [("rules_version", .string "1.10.0")]),
  ("rules", .array rules),
  ("version", .string "2.2")]

def requestAddresses : List String :=
  ["server.request.query", "server.request.body", "server.request.path_params"]

def recommended : Value :=
  ruleset [blockAddresses, blockUsers,
    sqlInjection (requestAddresses ++ ["grpc.server.request.message"]), nessus]

def strict : Value := ruleset [blockAddresses, blockUsers, sqlInjection requestAddresses]

/-! ## processors -/

/-- the schema of what is at `address` goes to `output` -/
def schemaMapping (address output : String) : Value :=
  .object [("inputs", .array [input address]), ("output", .string output)]

def schemaExtraction : Value := .object [
  ("conditions", .array [condition "equals" [
    ("inputs", .array [inputAt "waf.context.processor" ["extract-schema"]]),
    ("type", .string "boolean"),
    ("value", .bool true)]]),
  ("evaluate", .bool false),
  ("generator", .string "extract_schema"),
  ("id", .string "processor-001"),
  ("output", .bool true),
  ("parameters", .object [
    ("mappings", .array [
      schemaMapping "server.request.body" "_dd.appsec.s.req.body",
      schemaMapping "server.request.headers.no_cookies" "_dd.appsec.s.req.headers",
      schemaMapping "server.request.query" "_dd.appsec.s.req.query",
      schemaMapping "server.request.path_params" "_dd.appsec.s.req.params",
      schemaMapping "server.request.cookies" "_dd.appsec.s.req.cookies",
      schemaMapping "server.response.headers.no_cookies" "_dd.appsec.s.res.headers",
      schemaMapping "server.response.body" "_dd.appsec.s.res.body"]),
    ("scanners", .array [.object [("tags", .object [("category", .string "pii")])]])])]

def processors : List Value := [schemaExtraction]

/-! ## scanners -/

/-- a pattern that a key or a value of sensitive data has -/
def pattern (regex : String) (caseSensitive : Bool) (minLength : Nat) : Value :=
  condition "match_regex" [
    ("options", .object [
      ("case_sensitive", .bool caseSensitive),
      ("min_length", .nat minLength)]),
    ("regex", .string regex)]

def scanner (id name : String) (key value : Value) (category type : String) : Value := .object [
  ("id", .string id),
  ("key", key),
  ("name", .string name),
  ("tags", .object [("category", .string category), ("type", .string type)]),
  ("value", value)]

def scanners : List Value := [
  scanner "406f8606-52c4-4663-8db9-df70f9e8766c" "ZIP Code"
    (pattern "\\b(?:zip|postal)\\b" false 3)
    (pattern "^[0-9]{5}(?:-[0-9]{4})?$" true 5)
    "address" "zipcode",
  scanner "d962f7ddb3f55041e39195a60ff79d4814a7c331" "US Passport Scanner"
    (pattern "passport" false 8)
    (pattern "\\b[0-9A-Z]{9}\\b|\\b[0-9]{6}[A-Z]{2}\\b" false 8)
    "pii" "passport_number",
  scanner "de0899e0cbaaa812bb624cf04c912071012f616d-mod" "Vehicle Identification Number"
    (pattern "\\bvin\\b" false 3)
    (pattern "\\b[A-HJ-NPR-Z0-9]{17}\\b" false 17)
    "pii" "vin"]

end RemoteGuard.Builtin
