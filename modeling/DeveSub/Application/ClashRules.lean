/-
  File:      DeveSub/Application/ClashRules.lean
  Subject:   The checks of native Clash rules and rule providers
             (`deve-sub-application`: `template/clash_rules.rs`).

  Every error of this file is `invalid(message)`; the message alone is kept. A map is the list of
  its entries in the order in which it is iterated, a set is a list.
-/
import DeveSub.Application.Pipeline
import DeveSub.Security.Ssrf

namespace DeveSub.ClashRules

/-! ## 1. Splitting -/

/-- The characters that end a line or a text. -/
def isBreak (c : Char) : Bool := c = '\n' || c = '\r' || c = '\x00'

/-- The loop of `split`: the parentheses that are open, the part that is being read, and the rest
    of the text. -/
def splitFrom : (depth : Nat) → (part : Str) → Str → Except Str (List Str)
  | depth, part, [] =>
    if depth ≠ 0 then .error "unbalanced rule parentheses" else .ok [trim part]
  | depth, part, c :: rest =>
    if c = '(' then
      if depth + 1 > 32 then .error "rule parentheses nesting exceeds 32"
      else splitFrom (depth + 1) (part ++ [c]) rest
    else if c = ')' then
      if depth = 0 then .error "unbalanced rule parentheses"
      else splitFrom (depth - 1) (part ++ [c]) rest
    else if c = ',' ∧ depth = 0 then do
      let parts ← splitFrom 0 [] rest
      return trim part :: parts
    else if isBreak c then .error "rule must be a single line"
    else splitFrom depth (part ++ [c]) rest

/-- `split`: at the commas outside parentheses. -/
def split (value : Str) : Except Str (List Str) := splitFrom 0 [] value

/-- `unwrap_parentheses`. -/
def unwrapParentheses (value : Str) : Except Str Str :=
  okOr ((stripPrefix ['('] value).bind (stripSuffix [')']))
    "logical conditions require parentheses"

/-! ## 2. Rules -/

/-- `AND`, `OR` and `NOT`. -/
def logicKinds : List Str := ["AND", "OR", "NOT"]

/-- The kinds whose payload is a network in CIDR form. -/
def cidrKinds : List Str := ["IP-CIDR", "IP-CIDR6", "SRC-IP-CIDR"]

/-- The kinds whose payload is not looked at. -/
def plainKinds : List Str :=
  ["DOMAIN", "DOMAIN-SUFFIX", "DOMAIN-KEYWORD", "DOMAIN-WILDCARD", "DOMAIN-REGEX", "GEOSITE",
    "IP-SUFFIX", "IP-ASN", "GEOIP", "SRC-GEOIP", "SRC-IP-ASN", "SRC-IP-SUFFIX", "DST-PORT",
    "SRC-PORT", "IN-PORT", "IN-TYPE", "IN-USER", "IN-NAME", "PROCESS-PATH",
    "PROCESS-PATH-WILDCARD", "PROCESS-PATH-REGEX", "PROCESS-NAME", "PROCESS-NAME-WILDCARD",
    "PROCESS-NAME-REGEX", "UID", "DSCP"]

/-- The flags a rule may end with. -/
def ruleFlags : List Str := ["no-resolve", "src"]

/-- The payloads of `NETWORK`. -/
def networkNames : List Str := ["tcp", "udp", "TCP", "UDP"]

/-- The `CIDR` arm: an address, a slash, and a prefix length that fits it. -/
def checkCidr (payload : Str) : Except Str Unit := do
  let (ip, bits) ← okOr (splitOnce '/' payload) "CIDR requires address/prefix"
  let ip ← okOr (IpAddr.parse ip) "invalid CIDR address"
  let bits ← okOr (parseUnsigned 256 bits) "invalid CIDR prefix"
  let most := match ip with
    | .v4 _ => 32
    | .v6 _ => 128
  rejectWhen (bits > most) "CIDR prefix is out of range"

/-- The arms of `validate_condition` that do not recurse. -/
def checkLeaf (providers : Option (List (Str × Json))) (kind payload : Str) : Except Str Unit :=
  if kind = "RULE-SET" then
    rejectWhen (!providers.any fun map => map.any fun p => p.1 = payload)
      ("unknown rule-provider '".toList ++ payload ++ ['\''])
  else if cidrKinds.contains kind then checkCidr payload
  else if kind = "NETWORK" then
    rejectWhen (!networkNames.contains payload) "NETWORK must be tcp or udp"
  else rejectWhen (!plainKinds.contains kind) ("unsupported rule type '".toList ++ kind ++ ['\''])

/-- A child of a logical condition, with the check of what is inside it. -/
def checkChild (check : (kind payload : Str) → Except Str Unit) (child : Str) :
    Except Str Unit := do
  let body ← unwrapParentheses child
  let fields ← split body
  rejectWhen (fields.length < 2 || (fields.drop 2).any fun flag => !ruleFlags.contains flag)
    "invalid logical condition"
  check (fields.getD 0 []) (fields.getD 1 [])

/-- `validate_condition` with `levels` levels to go, eleven at the root. -/
def validateCondition (providers : Option (List (Str × Json))) :
    (levels : Nat) → (kind payload : Str) → Except Str Unit
  | 0, _, _ => .error "logical rule nesting exceeds 10"
  | levels + 1, kind, payload => do
    rejectWhen payload.isEmpty "empty rule payload"
    if logicKinds.contains kind then do
      let inner ← unwrapParentheses payload
      let children ← split inner
      rejectWhen (kind = "NOT" && children.length ≠ 1) "NOT requires one condition"
      children.forM (checkChild (validateCondition providers levels))
    else checkLeaf providers kind payload

/-- The parts of a rule: parentheses only count in the logical kinds. -/
def ruleParts (rule : Str) : Except Str (List Str) :=
  if logicKinds.contains (trim ((rule.splitOn ',').headD [])) then split rule
  else .ok ((rule.splitOn ',').map trim)

/-- **`validate_rule`.** -/
def validateRule (rule : Str) (groups : List Str) (providers : Option (List (Str × Json))) :
    Except Str Unit := do
  rejectWhen (rule.any isBreak) "rule must be a single line"
  let parts ← ruleParts rule
  let kind := parts.headD []
  let policy ← okOr parts[if kind = "MATCH" then 1 else 2]? "missing rule payload or policy"
  rejectWhen (!clashPolicies.contains policy && !groups.contains policy)
    ("unknown policy '".toList ++ policy ++ "'; use a proxy group or built-in policy".toList)
  if kind = "MATCH" then rejectWhen (parts.length ≠ 2) "MATCH requires exactly one policy"
  else do
    validateCondition providers 11 kind (parts.getD 1 [])
    rejectWhen ((parts.drop 3).any fun flag => !ruleFlags.contains flag)
      "unsupported rule flag (expected no-resolve or src)"

end DeveSub.ClashRules
