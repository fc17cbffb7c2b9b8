/-
  File:      DeveSub/Emitter/Common.lean
  Subject:   What the emitters have in common (`error.rs`, `common.rs`, `transport.rs` of
             `deve-sub-emitter`): errors, the percent-encode sets, query strings, bandwidths,
             and the credentials and configuration an emitter asks of a node.
-/
import DeveSub.Domain.Node
import DeveSub.Lib.Fallible
import DeveSub.Lib.Percent

namespace DeveSub

/-! ## 1. Errors -/

/-- `EmitError`. -/
inductive EmitError where
  | noEmitter (text : Str)
  | missingField (field : Str)
  | invalidField (field : Str) (value : Str)
  | encode (text : Str)
  deriving DecidableEq

/-! ## 2. Percent-encode sets and query strings -/

/-- `percent_encoding::CONTROLS`: the ASCII control characters. -/
def isAsciiControl (c : Char) : Bool := c.toNat < 32 || c.toNat = 127

/-- `USERINFO_ENCODE`. -/
def userinfoEncode (c : Char) : Bool :=
  isAsciiControl c || c ∈ [' ', '"', '<', '>', '\x60', '#', '&', '?', '/', '@', ':', '[', ']', '%']

/-- `FRAGMENT_ENCODE`. -/
def fragmentEncode (c : Char) : Bool :=
  isAsciiControl c || c ∈ [' ', '"', '<', '>', '\x60', '#', '&', '?', '%']

/-- `QUERY_VALUE_ENCODE`. -/
def queryValueEncode (c : Char) : Bool :=
  isAsciiControl c || c ∈ [' ', '"', '<', '>', '\x60', '#', '&', '+', '=', '%']

/-- `encode_userinfo`. -/
def encodeUserinfo (s : Str) : Str := percentEncode userinfoEncode s

/-- `format_query`: the values are encoded, the keys stand as they are. -/
def formatQuery (params : List (Str × Str)) : Str :=
  ['&'].intercalate (params.map fun p => p.1 ++ '=' :: percentEncode queryValueEncode p.2)

/-- `format_fragment`. -/
def formatFragment (name : Str) : Str := percentEncode fragmentEncode name

/-- The fragment an emitter appends: none for an empty display name. -/
def fragmentSuffix (name : Str) : Str := if name = [] then [] else '#' :: formatFragment name

/-- `format_pins`. -/
def formatPins (pins : List Str) : Str :=
  [','].intercalate (pins.map fun pin => (stripPrefix "pinSHA256:" pin).getD pin)

/-- `format_bandwidth`: the largest unit that divides evenly. -/
def formatBandwidth (bps : UInt64) : Str :=
  let n := bps.toNat
  if n ≥ 1000000000 ∧ n % 1000000000 = 0 then natText (n / 1000000000) ++ " Gbps".toList
  else if n ≥ 1000000 ∧ n % 1000000 = 0 then natText (n / 1000000) ++ " Mbps".toList
  else if n ≥ 1000 ∧ n % 1000 = 0 then natText (n / 1000) ++ " Kbps".toList
  else natText n ++ " bps".toList

/-- `bool::to_string`. -/
def boolText (b : Bool) : Str := if b then "true" else "false"

/-- A boolean as `1` or `0`. -/
def boolDigit (b : Bool) : Str := if b then "1" else "0"

/-- Texts joined by commas. -/
def commaJoin (items : List Str) : Str := [','].intercalate items

/-- The text of a number of seconds, negative ones included. -/
def intText (n : Int) : Str := if n < 0 then '-' :: natText n.natAbs else natText n.toNat

/-- The name of a congestion controller. -/
def CongestionController.name : CongestionController → Str
  | .bbr => "bbr"
  | .cubic => "cubic"
  | .newReno => "new_reno"
  | .other n => n

/-- The name of a relay mode. -/
def UdpRelayMode.name : UdpRelayMode → Str
  | .native => "native"
  | .quic => "quic"

/-- The name of a Snell obfuscation mode. -/
def SnellObfsMode.name : SnellObfsMode → Str
  | .tls => "tls"
  | .http => "http"
  | .shadowTls => "shadow-tls"
  | .restls => "restls"
  | .jls => "jls"

/-- `{:?}` of a Snell obfuscation mode. -/
def SnellObfsMode.debug : SnellObfsMode → Str
  | .tls => "Tls"
  | .http => "Http"
  | .shadowTls => "ShadowTls"
  | .restls => "Restls"
  | .jls => "Jls"

/-! ## 3. JSON objects -/

/-- One member, if its value is there. -/
def member (key : Str) (value : Option Json) : List (Str × Json) :=
  match value with
  | some v => [(key, v)]
  | none => []

/-- An array of strings. -/
def strs (items : List Str) : Json := .arr (items.map Json.str)

/-! ## 4. What an emitter asks of a node -/

namespace Authentication

/-- The password, or the error that names the missing field. -/
def needPassword (a : Authentication) (field : Str) : Except EmitError Str :=
  match a with
  | .password p => .ok p
  | _ => .error (.missingField field)

/-- The UUID, or the error that names the missing field. -/
def needUuid (a : Authentication) (field : Str) : Except EmitError Str :=
  match a with
  | .uuid u => .ok u
  | _ => .error (.missingField field)

/-- UUID and password, or the error that names the missing field. -/
def needUuidPassword (a : Authentication) (field : Str) : Except EmitError (Str × Str) :=
  match a with
  | .uuidPassword u p => .ok (u, p)
  | _ => .error (.missingField field)

/-- User name and password, or the error that names the missing field. -/
def needUserPassword (a : Authentication) (field : Str) : Except EmitError (Str × Str) :=
  match a with
  | .userPassword u p => .ok (u, p)
  | _ => .error (.missingField field)

@[simp] theorem needPassword_password (p field : Str) :
    needPassword (.password p) field = .ok p := rfl

@[simp] theorem needUuid_uuid (u field : Str) : needUuid (.uuid u) field = .ok u := rfl

@[simp] theorem needUuidPassword_uuidPassword (u p field : Str) :
    needUuidPassword (.uuidPassword u p) field = .ok (u, p) := rfl

@[simp] theorem needUserPassword_userPassword (u p field : Str) :
    needUserPassword (.userPassword u p) field = .ok (u, p) := rfl

end Authentication

end DeveSub
