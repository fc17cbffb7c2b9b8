/-
  File:      DeveSub/Protocol/Common.lean
  Subject:   What the share-URI parsers have in common (`uri.rs`, `transport.rs`, `error.rs` of
             `deve-sub-protocol`): hosts, booleans, durations, bandwidths, the TLS block of a
             query, the node shell.

  A parsed URL is a record of the components the parsers read. Which texts parse to which record
  is the URL crate's business: the parsers take the record, and `parseUri` (Uri.lean) takes the
  URL parser as an argument.
-/
import DeveSub.Domain.Node
import DeveSub.Lib.Fallible
import DeveSub.Lib.Percent
import DeveSub.Lib.Base64
import DeveSub.Lib.F64

namespace DeveSub

/-! ## 1. Errors -/

/-- `ParseError`. -/
inductive ParseError where
  | tooManyEntries (count : Nat)
  | invalidUri (text : Str)
  | unknownScheme (scheme : Str)
  | missingField (field : Str)
  | invalidField (field : Str) (value : Str)
  | invalidHost (text : Str)
  | invalidPort (text : Str)
  | invalidBase64 (text : Str)
  | invalidJson (text : Str)
  | invalidBandwidth (text : Str)
  | invalidYaml (text : Str)
  | unsupportedProxyType (name : Str)
  | missingContainerKey (key : Str)
  deriving DecidableEq

/-- `Display for ParseError`. -/
def ParseError.text : ParseError → Str
  | .tooManyEntries n => "too many container entries: ".toList ++ natText n
  | .invalidUri t => "invalid URI: ".toList ++ t
  | .unknownScheme s => "unknown scheme: ".toList ++ s
  | .missingField f => "missing required field: ".toList ++ f
  | .invalidField f v => "invalid field ".toList ++ f ++ ": ".toList ++ v
  | .invalidHost t => "invalid host: ".toList ++ t
  | .invalidPort t => "invalid port: ".toList ++ t
  | .invalidBase64 t => "invalid base64: ".toList ++ t
  | .invalidJson t => "invalid JSON: ".toList ++ t
  | .invalidBandwidth t => "invalid bandwidth: ".toList ++ t
  | .invalidYaml t => "invalid YAML: ".toList ++ t
  | .unsupportedProxyType n => "unsupported proxy type: ".toList ++ n
  | .missingContainerKey k => "missing container key: ".toList ++ k

/-! ## 2. Hosts and ports -/

/-- The characters a domain name may not hold. -/
def isForbiddenInDomain (c : Char) : Bool :=
  isControl c || isWhitespace c || c = '/' || c = ':' || c = '@' || c = '#' || c = '?' ||
    c = '[' || c = ']'

/-- A text without one surrounding pair of brackets, if it has one. -/
def stripBrackets (s : Str) : Str :=
  ((stripPrefix "[" s).bind (stripSuffix "]")).getD s

/-- `parse_host`. -/
def parseHost (hostStr : Str) : Except ParseError Host :=
  if hostStr = [] then .error (.invalidHost "empty host")
  else
    let s := stripBrackets hostStr
    match Ipv4Addr.parse s with
    | some ip => .ok (.ipv4 ip)
    | none =>
        match Ipv6Addr.parse s with
        | some ip => .ok (.ipv6 ip)
        | none =>
            if s.any isForbiddenInDomain then
              .error (.invalidHost ("domain name contains invalid characters: ".toList ++ s))
            else .ok (.domain s)

/-- `str::parse::<u16>`. -/
def parseU16 (s : Str) : Option UInt16 := (parseUnsigned 65536 s).map UInt16.ofNat

/-- `str::parse::<u32>`. -/
def parseU32 (s : Str) : Option UInt32 := (parseUnsigned 4294967296 s).map UInt32.ofNat

/-- `str::parse::<u8>`. -/
def parseU8 (s : Str) : Option UInt8 := (parseUnsigned 256 s).map UInt8.ofNat

/-- `str::parse::<i64>`. -/
def parseI64 (s : Str) : Option Int :=
  match s with
  | '-' :: r => ((digits? r).filter (· ≤ 2 ^ 63)).map fun n => -(n : Int)
  | _ => (parseUnsigned (2 ^ 63) s).map fun n => (n : Int)

/-- `parse_host_port`. -/
def parseHostPort (s : Str) : Except ParseError (Host × UInt16) :=
  match stripPrefix "[" s with
  | some rest => do
      let (ipv6, after) ← okOr (splitOnce ']' rest) (.invalidHost "unclosed IPv6 bracket")
      let portStr ← okOr (stripPrefix ":" after) (.missingField "port after IPv6 host")
      let host ← parseHost ipv6
      let port ← okOr (parseU16 portStr) (.invalidPort portStr)
      .ok (host, port)
  | none => do
      let (hostStr, portStr) ← okOr (rsplitOnce ':' s) (.missingField "host:port")
      let host ← parseHost hostStr
      let port ← okOr (parseU16 portStr) (.invalidPort portStr)
      .ok (host, port)

/-! ## 3. Field values -/

/-- `parse_bool`. -/
def parseBool (value : Str) : Except ParseError Bool :=
  if value = "true" ∨ value = "1" then .ok true
  else if value = "false" ∨ value = "0" then .ok false
  else .error (.invalidField "boolean" value)

/-- `parse_alpn`: an empty value is the empty list. -/
def parseAlpn (value : Str) : List Str :=
  if value = [] then [] else value.splitOn ','

/-- `parse_duration_secs`. -/
def parseDurationSecs (value : Str) : Except ParseError Duration := do
  let secs ← okOr (parseI64 value) (.invalidField "duration (seconds)" value)
  if secs < 0 then .error (.invalidField "duration (seconds)" value)
  else .ok (Duration.seconds secs)

/-- `parse_duration_millis`. -/
def parseDurationMillis (value : Str) : Except ParseError Duration := do
  let millis ← okOr (parseI64 value) (.invalidField "duration (milliseconds)" value)
  if millis < 0 then .error (.invalidField "duration (milliseconds)" value)
  else .ok (Duration.milliseconds millis)

/-- The factor of a bandwidth unit. -/
def bandwidthUnit (unit : Str) : Option Nat :=
  if unit = [] ∨ unit = "bps" then some 1
  else if unit = "k" ∨ unit = "kbps" then some 1000
  else if unit = "m" ∨ unit = "mbps" then some 1000000
  else if unit = "g" ∨ unit = "gbps" then some 1000000000
  else none

/-- `parse_bandwidth`: a decimal number and a unit, in bits per second. -/
def parseBandwidth (value : Str) : Except ParseError UInt64 :=
  let trimmed := trim value
  if trimmed = [] then .error (.invalidBandwidth "empty")
  else
    let isNum (c : Char) : Bool := c.isDigit || c = '.'
    let numStr := trimmed.takeWhile isNum
    let unit := toAsciiLowercase (trim (trimmed.dropWhile isNum))
    match F64.parseDecimal numStr, bandwidthUnit unit with
    | some num, some multiplier => .ok (num.mulNat multiplier).roundToU64
    | _, _ => .error (.invalidBandwidth value)

/-- `map_transport_kind`. -/
def mapTransportKind (value : Str) : Except ParseError TransportKind :=
  if value = "tcp" then .ok .tcp
  else if value = "ws" then .ok .ws
  else if value = "grpc" then .ok .grpc
  else if value = "h2" then .ok .h2
  else if value = "kcp" then .ok .kcp
  else if value = "quic" then .ok .quic
  else if value = "httpupgrade" then .ok .httpUpgrade
  else if value = "xtls" then .ok .xtls
  else if value = "xhttp" then .ok .xhttp
  else .error (.invalidField "type (transport)" value)

@[simp] theorem mapTransportKind_text (k : TransportKind) : mapTransportKind k.text = .ok k := by
  cases k <;> rfl

/-- The congestion controller a name stands for. -/
def congestionController (name : Str) : CongestionController :=
  if name = "bbr" then .bbr
  else if name = "cubic" then .cubic
  else if name = "new_reno" then .newReno
  else .other name

/-- `decode_base64_flexible`: the four engines in turn. -/
def decodeBase64Flexible (input : Str) : Except ParseError (List UInt8) :=
  match Base64.decode .standard .required input with
  | some bs => .ok bs
  | none =>
      match Base64.decode .standard .forbidden input with
      | some bs => .ok bs
      | none =>
          match Base64.decode .urlSafe .required input with
          | some bs => .ok bs
          | none =>
              match Base64.decode .urlSafe .forbidden input with
              | some bs => .ok bs
              | none => .error (.invalidBase64 input)

/-! ## 4. Parsed URLs and their query -/

/-- The components of a `url::Url` the parsers read. `username`, `password` and `fragment` are
    still percent-coded, `queryPairs` are decoded. -/
structure Url where
  scheme : Str
  username : Str
  password : Option Str
  hostStr : Option Str
  port : Option UInt16
  queryPairs : List (Str × Str)
  fragment : Option Str

/-- A query collected into a map: of two pairs with one key the later stays. -/
abbrev Query := List (Str × Str)

/-- `query.get(key)` on the collected map. -/
def Query.get (q : Query) (key : Str) : Option Str :=
  (q.reverse.find? fun p => p.1 = key).map Prod.snd

/-- `query.contains_key(key)`. -/
def Query.containsKey (q : Query) (key : Str) : Bool := (q.get key).isSome

/-- `decode_fragment` and `decode_fragment_parts`. -/
def decodeFragment (fragment : Option Str) : Str := (fragment.map percentDecode).getD []

/-- `decode_userinfo`. -/
def decodeUserinfo (s : Str) : Str := percentDecode s

/-- `query_insecure`: the first of the parameters that is present. -/
def queryInsecure (q : Query) : List Str → Except ParseError (Option Bool)
  | [] => .ok none
  | param :: params =>
      match q.get param with
      | some value =>
          if value = "0" ∨ value = "false" then .ok (some false)
          else if value = "1" ∨ value = "true" then .ok (some true)
          else .error (.invalidField "insecure" value)
      | none => queryInsecure q params

/-- `default_tls_enabled`: TLS on, nothing else said. -/
def defaultTlsEnabled : TlsConfig :=
  { enabled := true
    serverName := none
    skipCertVerify := none
    alpn := []
    clientFingerprint := none
    certificatePins := []
    reality := none }

/-- The pins of a `pinSHA256` parameter. -/
def parsePins (value : Str) : List Str :=
  if value = [] then [] else (value.splitOn ',').map fun pin => "pinSHA256:".toList ++ pin

/-- `build_common_tls`. -/
def buildCommonTls (q : Query) (insecureParams : List Str) (pinParam : Option Str) :
    Except ParseError (Option TlsConfig) :=
  if q.containsKey "sni" || q.containsKey "alpn" || insecureParams.any q.containsKey ||
      pinParam.any q.containsKey then do
    let skipCertVerify ← queryInsecure q insecureParams
    .ok (some
      { enabled := true
        serverName := q.get "sni"
        skipCertVerify
        alpn := ((q.get "alpn").map parseAlpn).getD []
        clientFingerprint := none
        certificatePins := ((pinParam.bind q.get).map parsePins).getD []
        reality := none })
  else .ok none

/-- `node_shell`: a node with nothing filled in. -/
def nodeShell : Node :=
  { displayName := []
    protocol := .unknown []
    config := .unsupported { raw := .null, rawFormat := none, reason := [] }
    endpoint := { host := .domain [], port := 0 }
    authentication := .none
    transport := none
    tls := none
    udp := { supported := none, xudp := none }
    multiplex := none
    obfuscation := none
    congestion := none
    extras := [] }

/-- The endpoint of a URL; `scheme` names it in the error. -/
def urlEndpoint (url : Url) (scheme : Str) : Except ParseError Endpoint := do
  let hostStr ← okOr url.hostStr (.invalidHost ("missing host in ".toList ++ scheme ++ " URI".toList))
  let host ← parseHost hostStr
  let port ← okOr url.port (.missingField "port")
  .ok { host, port }

end DeveSub
