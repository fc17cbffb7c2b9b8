/-
  File:      DeveSub/Protocol/Uri.lean
  Subject:   The share-URI parsers: `parse_uri` and the parser of each scheme
             (`uri.rs`, `vless_reality.rs`, `trojan.rs`, `hysteria2.rs`, `tuic_v5.rs`,
             `naive.rs`, `wireguard.rs`, `anytls.rs`, `snell.rs`, `shadowtls.rs`,
             `shadowsocks.rs`, `vmess.rs` of `deve-sub-protocol`).

  The two crates the parsers stand on are arguments: `UriCrates.url` is `url::Url::parse`,
  `UriCrates.json` is `serde_json`. The checks of each parser run in the order of the source, so
  the first failing one gives the error.
-/
import DeveSub.Protocol.Common

namespace DeveSub

/-- The third-party parsers `parse_uri` calls. -/
structure UriCrates where
  url : Str → Except Str Url
  json : JsonCodec

namespace Uri

/-- The `mode` parameter of an XHTTP transport. -/
def xhttpMode (q : Query) (kind : TransportKind) : Option XhttpMode :=
  if kind = .xhttp then ((q.get "mode").map XhttpMode.fromStrLossy).getD (some .auto) else none

/-- The transport kind of a query, TCP when absent. -/
def queryTransportKind (q : Query) : Except ParseError TransportKind := do
  let kind ← transpose ((q.get "type").map mapTransportKind)
  .ok (kind.getD .tcp)

/-- The transport a query describes once its kind is known. -/
def queryTransport (q : Query) (kind : TransportKind) : Transport :=
  { kind
    path := q.get "path"
    host := q.get "host"
    xhttpMode := xhttpMode q kind }

/-- An optional boolean parameter. -/
def queryBool (q : Query) (key : Str) : Except ParseError (Option Bool) :=
  transpose ((q.get key).map parseBool)

/-! ## 1. VLESS -/

/-- `build_tls` of the VLESS parser. -/
def vlessTls (q : Query) (isReality : Bool) : Except ParseError (Option TlsConfig) :=
  if isReality || q.containsKey "sni" || q.containsKey "allowInsecure" || q.containsKey "fp" ||
      q.containsKey "alpn" then do
    let skipCertVerify ← queryInsecure q ["allowInsecure"]
    let reality ←
      if isReality then do
        let pbk ← okOr (q.get "pbk") (.missingField "pbk (reality public key)")
        let sid ← okOr (q.get "sid") (.missingField "sid (reality short id)")
        .ok (some { publicKey := pbk, shortId := sid, spiderX := q.get "spx" : RealityConfig })
      else .ok none
    .ok (some
      { enabled := true
        serverName := q.get "sni"
        skipCertVerify
        alpn := ((q.get "alpn").map parseAlpn).getD []
        clientFingerprint := q.get "fp"
        certificatePins := []
        reality })
  else .ok none

/-- `vless_reality::parse`: without `security=reality` the configuration is unsupported. -/
def parseVless (url : Url) (rawUri : Str) : Except ParseError Node := do
  let uuid := decodeUserinfo url.username
  rejectWhen uuid.isEmpty (.missingField "uuid")
  let endpoint ← urlEndpoint url "vless"
  let q : Query := url.queryPairs
  let security := (q.get "security").getD []
  let isReality : Bool := security = "reality"
  let kind ← queryTransportKind q
  let tls ← vlessTls q isReality
  let config : ProtocolConfig :=
    if isReality then
      .vlessReality
        { encryption := q.get "encryption"
          flow := q.get "flow"
          packetEncoding := q.get "packetEncoding" }
    else
      .unsupported
        { raw := .str rawUri
          rawFormat := some "vless-uri"
          reason := "VLESS with security=".toList ++ security ++
            " is not P0 (Reality only)".toList }
  let supported ← queryBool q "udp"
  let xudp ← queryBool q "xudp"
  .ok
    { nodeShell with
      displayName := decodeFragment url.fragment
      protocol := .vless
      config
      endpoint
      authentication := .uuid uuid
      transport := some (queryTransport q kind)
      tls
      udp := { supported, xudp } }

/-! ## 2. Trojan, Hysteria2, TUIC, NaiveProxy, AnyTLS: always TLS, except `naive+http` -/

/-- `trojan::parse`. -/
def parseTrojan (url : Url) : Except ParseError Node := do
  let password := decodeUserinfo url.username
  rejectWhen password.isEmpty (.missingField "password")
  let endpoint ← urlEndpoint url "trojan"
  let q : Query := url.queryPairs
  let kind ← queryTransportKind q
  let tls ← buildCommonTls q ["skip-cert-verify", "allowInsecure", "insecure"] none
  .ok
    { nodeShell with
      displayName := decodeFragment url.fragment
      protocol := .trojan
      config := .trojan { packetEncoding := q.get "packetEncoding" }
      endpoint
      authentication := .password password
      transport := some (queryTransport q kind)
      tls := some (tls.getD defaultTlsEnabled) }

/-- `hysteria2::parse`. -/
def parseHysteria2 (url : Url) : Except ParseError Node := do
  let password := decodeUserinfo url.username
  rejectWhen password.isEmpty (.missingField "password")
  let endpoint ← urlEndpoint url "hysteria2"
  let q : Query := url.queryPairs
  let tls ← buildCommonTls q ["insecure", "skip-cert-verify"] (some "pinSHA256")
  let upBps ← transpose ((q.get "up").map parseBandwidth)
  let downBps ← transpose ((q.get "down").map parseBandwidth)
  let controller := (q.get "congestion-controller").map congestionController
  let hopInterval ← transpose ((q.get "hop_interval").map parseDurationSecs)
  let fastOpen ← queryBool q "fast-open"
  let lazy ← queryBool q "lazy"
  .ok
    { nodeShell with
      displayName := decodeFragment url.fragment
      protocol := .hysteria2
      config := .hysteria2 { ports := q.get "ports", hopInterval, fastOpen, lazy }
      endpoint
      authentication := .password password
      tls := some (tls.getD defaultTlsEnabled)
      obfuscation := (q.get "obfs").map fun kind =>
        { kind, password := q.get "obfs-password" }
      congestion :=
        if upBps.isSome || downBps.isSome || controller.isSome then
          some { controller := controller.getD .bbr, upBps, downBps }
        else none }

/-- The `udp-relay-mode` parameter. -/
def parseUdpRelayMode (v : Str) : Except ParseError UdpRelayMode :=
  if v = "native" then .ok .native
  else if v = "quic" then .ok .quic
  else .error (.invalidField "udp-relay-mode" v)

/-- `tuic_v5::parse`. -/
def parseTuic (url : Url) : Except ParseError Node := do
  let uuid := decodeUserinfo url.username
  rejectWhen uuid.isEmpty (.missingField "uuid")
  let rawPassword ← okOr url.password (.missingField "password")
  let endpoint ← urlEndpoint url "tuic"
  let q : Query := url.queryPairs
  let tls ← buildCommonTls q ["skip-cert-verify", "insecure"] none
  let udpRelayMode ← transpose ((q.get "udp-relay-mode").map parseUdpRelayMode)
  let zeroRttHandshake ← queryBool q "zero-rtt-handshake"
  let heartbeat ← transpose ((q.get "heartbeat").map parseDurationMillis)
  let disableSni ← queryBool q "disable-sni"
  .ok
    { nodeShell with
      displayName := decodeFragment url.fragment
      protocol := .tuicV5
      config := .tuicV5 { udpRelayMode, zeroRttHandshake, heartbeat, disableSni }
      endpoint
      authentication := .uuidPassword uuid (decodeUserinfo rawPassword)
      tls := some (tls.getD defaultTlsEnabled)
      congestion := (q.get "congestion-controller").map fun v =>
        { controller := congestionController v, upBps := none, downBps := none } }

/-- The TLS settings of a NaiveProxy URI: `naive+https` has them, `naive+http` has none. -/
def naiveTls (url : Url) : Except ParseError (Option TlsConfig) :=
  if url.scheme = "naive+https" then do
    let tls ← buildCommonTls url.queryPairs ["skip-cert-verify", "insecure"] (some "pinSHA256")
    .ok (some (tls.getD defaultTlsEnabled))
  else .ok none

/-- `naive::parse`. -/
def parseNaive (url : Url) : Except ParseError Node := do
  let username := decodeUserinfo url.username
  rejectWhen username.isEmpty (.missingField "username")
  let rawPassword ← okOr url.password (.missingField "password")
  let endpoint ← urlEndpoint url "naive"
  let q : Query := url.queryPairs
  let tls ← naiveTls url
  let quic ← queryBool q "quic"
  let http2 ← queryBool q "http2"
  let http3 ← queryBool q "http3"
  .ok
    { nodeShell with
      displayName := decodeFragment url.fragment
      protocol := .naiveProxy
      config := .naiveProxy { quic, http2, http3 }
      endpoint
      authentication := .userPassword username (decodeUserinfo rawPassword)
      tls }

/-- `anytls::parse`. -/
def parseAnyTls (url : Url) : Except ParseError Node := do
  let password := decodeUserinfo url.username
  rejectWhen password.isEmpty (.missingField "password")
  let endpoint ← urlEndpoint url "anytls"
  let q : Query := url.queryPairs
  let tls ← buildCommonTls q ["insecure", "skip-cert-verify", "allowInsecure"] none
  let tls := tls.getD defaultTlsEnabled
  .ok
    { nodeShell with
      displayName := decodeFragment url.fragment
      protocol := .anyTls
      config := .anyTls
        { idleSessionCheckInterval := none
          idleSessionTimeout := none
          minIdleSession := none
          clientMetadata := none }
      endpoint
      authentication := .password password
      tls := some
        { tls with
          clientFingerprint :=
            if tls.clientFingerprint.isNone then q.get "fp" else tls.clientFingerprint } }

/-! ## 3. WireGuard -/

/-- `parse_reserved`: three octets, blanks around each allowed. -/
def parseReserved (value : Str) : Except ParseError (UInt8 × UInt8 × UInt8) :=
  match value.splitOn ',' with
  | [a, b, c] => do
      let x ← okOr (parseU8 (trim a)) (.invalidField "reserved" value)
      let y ← okOr (parseU8 (trim b)) (.invalidField "reserved" value)
      let z ← okOr (parseU8 (trim c)) (.invalidField "reserved" value)
      .ok (x, y, z)
  | _ => .error (.invalidField "reserved" value)

/-- A comma-separated list, empty for an empty text. -/
def commaList (s : Str) : List Str := if s = [] then [] else s.splitOn ','

/-- What a peer is allowed to reach when the URI does not say. -/
def defaultAllowedIps : List Str := ["0.0.0.0/0", "::/0"]

/-- `wireguard::parse`. -/
def parseWireGuard (url : Url) : Except ParseError Node := do
  let privateKey := decodeUserinfo url.username
  rejectWhen privateKey.isEmpty (.missingField "private-key")
  let endpoint ← urlEndpoint url "wireguard"
  let q : Query := url.queryPairs
  let publicKey ← okOr (q.get "publickey") (.missingField "publickey")
  let address ← okOr (q.get "address") (.missingField "address")
  let reserved ← transpose ((q.get "reserved").map parseReserved)
  let mtu ← transpose ((q.get "mtu").map fun v => okOr (parseU32 v) (.invalidField "mtu" v))
  let persistentKeepalive ← transpose ((q.get "keepalive").map parseDurationSecs)
  .ok
    { nodeShell with
      displayName := decodeFragment url.fragment
      protocol := .wireGuard
      config := .wireGuard
        { privateKey
          address := commaList address
          peers :=
            [{ publicKey
               preSharedKey := q.get "presharedkey"
               allowedIps := ((q.get "allowedips").map commaList).getD defaultAllowedIps
               reserved
               persistentKeepalive }]
          mtu
          workers := none
          dns := [] }
      endpoint
      authentication := .none }

/-! ## 4. Snell and ShadowTLS -/

/-- `parse_obfs` of the Snell parser. -/
def parseSnellObfs (q : Query) : Except ParseError (Option SnellObfs) :=
  match q.get "obfs" with
  | none => .ok none
  | some modeStr => do
      let mode ←
        if modeStr = "http" then .ok SnellObfsMode.http
        else if modeStr = "tls" then .ok SnellObfsMode.tls
        else .error (.invalidField "obfs" modeStr)
      .ok (some
        { mode
          host := q.get "obfs-host"
          password := none
          version := none
          alpn := ((q.get "alpn").map commaList).getD [] })

/-- The `version` parameter, read at `u32`. -/
def queryVersion (q : Query) : Except ParseError UInt32 := do
  let v ← okOr (q.get "version") (.missingField "version")
  okOr (parseU32 v) (.invalidField "version" v)

/-- The key of a Snell URI, from the user information or from the query. -/
def snellPsk (url : Url) : Except ParseError Str :=
  let userinfoPsk := decodeUserinfo url.username
  if userinfoPsk.isEmpty then
    okOr ((Query.get url.queryPairs "psk").filter fun s => !s.isEmpty) (.missingField "psk")
  else .ok userinfoPsk

/-- `snell::parse`; TLS settings only mirror `obfs=tls`. -/
def parseSnell (url : Url) : Except ParseError Node := do
  let q : Query := url.queryPairs
  let psk ← snellPsk url
  let endpoint ← urlEndpoint url "snell"
  let n ← queryVersion q
  let version ← okOr (SnellVersion.fromU32 n.toNat)
    (.invalidField "version" ((q.get "version").getD []))
  let reuse ← queryBool q "reuse"
  let supported ← queryBool q "udp"
  let obfs ← parseSnellObfs q
  .ok
    { nodeShell with
      displayName := decodeFragment url.fragment
      protocol := .snell
      config := .snell { version, reuse, obfs, v6Mode := none }
      endpoint
      authentication := .password psk
      udp := { supported, xudp := none }
      tls := (obfs.filter fun o => o.mode = .tls).map fun o =>
        { enabled := true
          serverName := o.host
          skipCertVerify := none
          alpn := o.alpn
          clientFingerprint := none
          certificatePins := []
          reality := none } }

/-- The password of a ShadowTLS URI; only version 1 may do without. -/
def shadowTlsPassword (url : Url) (version : ShadowTlsVersion) : Except ParseError (Option Str) :=
  let userinfo := decodeUserinfo url.username
  if userinfo.isEmpty then
    if version = .v1 then .ok none else .error (.missingField "password")
  else .ok (some userinfo)

/-- `shadowtls::parse`: the URI says nothing about the inner protocol. -/
def parseShadowTls (url : Url) : Except ParseError Node := do
  let endpoint ← urlEndpoint url "shadow-tls"
  let q : Query := url.queryPairs
  let n ← queryVersion q
  let version ← okOr (ShadowTlsVersion.fromU32 n.toNat) (.invalidField "version" (natText n.toNat))
  let password ← shadowTlsPassword url version
  let insecure ← queryInsecure q ["insecure"]
  .ok
    { nodeShell with
      displayName := decodeFragment url.fragment
      protocol := .shadowTls
      config := .shadowTls version password (.unknown [])
        (.unsupported
          { raw := .null
            rawFormat := none
            reason := "shadow-tls URI: inner protocol not representable" })
      endpoint
      authentication := .none
      tls := some { defaultTlsEnabled with serverName := q.get "sni", skipCertVerify := insecure } }

/-! ## 5. Shadowsocks: SIP002 and the legacy form -/

/-- Text from octets that have to be UTF-8. -/
def fromUtf8 (bs : List UInt8) : Except ParseError Str :=
  okOr (utf8Strict bs) (.invalidBase64 "invalid utf-8 sequence")

/-- Method, password, host and port of an `ss://` authority. -/
def parseShadowsocksAuthority (s : Str) : Except ParseError (Str × Str × Host × UInt16) :=
  match splitOnce '@' s with
  | some (userinfo, hostPortPath) => do
      -- SIP002: a path may follow the port; the user information is Base64 or plain
      let hostPort := hostPortPath.takeWhile (· ≠ '/')
      let (decoded, plain) ←
        match decodeBase64Flexible userinfo with
        | .ok bytes => (fromUtf8 bytes).map fun t => (t, false)
        | .error _ =>
            if ':' ∈ userinfo then .ok (userinfo, true) else .error (.invalidBase64 userinfo)
      let (method, password) ← okOr (splitOnce ':' decoded)
        (.missingField "method:password in userinfo")
      let (host, port) ← parseHostPort hostPort
      if plain then .ok (decodeUserinfo method, decodeUserinfo password, host, port)
      else .ok (method, password, host, port)
  | none => do
      let bytes ← decodeBase64Flexible s
      let decoded ← fromUtf8 bytes
      let (userinfo, hostPort) ← okOr (splitOnce '@' decoded)
        (.missingField "method:password@host:port in legacy base64")
      let (method, password) ← okOr (splitOnce ':' userinfo) (.missingField "method:password")
      let (host, port) ← parseHostPort hostPort
      .ok (method, password, host, port)

/-- Plugin name and options of an `ss://` query. -/
def parsePlugin (query : Option Str) : Option Str × Option Str :=
  match query.bind fun q => (parseForm q).find? fun p => p.1 = "plugin".toList with
  | some (_, p) =>
      match splitOnce ';' p with
      | some (name, opts) => (some name, some opts)
      | none => (some p, none)
  | none => (none, none)

/-- `shadowsocks::parse`. -/
def parseShadowsocks (uri : Str) : Except ParseError Node := do
  let (body, fragment) :=
    match splitOnce '#' uri with
    | some (b, f) => (b, some f)
    | none => (uri, none)
  let afterScheme ← okOr (stripPrefix "ss://" body) (.unknownScheme "expected ss://")
  let (authority, query) :=
    match splitOnce '?' afterScheme with
    | some (a, q) => (a, some q)
    | none => (afterScheme, none)
  let (method, password, host, port) ← parseShadowsocksAuthority authority
  let plugin := parsePlugin query
  .ok
    { nodeShell with
      displayName := decodeFragment fragment
      protocol := .shadowsocks
      config := .shadowsocks { method, plugin := plugin.1, pluginOpts := plugin.2 }
      endpoint := { host, port }
      authentication := .password password }

/-! ## 6. VMess: Base64 of a JSON object -/

/-- `VmessJson`; the version field `v` is read and thrown away. -/
structure VmessJson where
  ps : Option Str
  add : Str
  port : Json
  id : Str
  aid : Option Json
  scy : Option Str
  net : Option Str
  headerType : Option Str
  host : Option Str
  path : Option Str
  tls : Option Str
  sni : Option Str
  alpn : Option Str
  packetEncoding : Option Str

namespace VmessJson

/-- The fields in the order of the struct. -/
def fieldNames : List Str :=
  ["v", "ps", "add", "port", "id", "aid", "scy", "net", "type", "host", "path", "tls", "sni",
    "alpn", "packetEncoding"]

/-- The members a struct is filled from: an object whose known keys occur once, or an array of
    all fields in order, as `serde` accepts both. -/
def members : Json → Except Str (List (Str × Json))
  | .obj ms =>
      if ((ms.map Prod.fst).filter (· ∈ fieldNames)).Nodup then .ok ms
      else .error "duplicate field"
  | .arr items =>
      if items.length = fieldNames.length then .ok (fieldNames.zip items)
      else .error "invalid length"
  | _ => .error "invalid type"

/-- A field of type `Option<String>`. -/
def optString (ms : List (Str × Json)) (key : Str) : Except Str (Option Str) :=
  match (Json.obj ms).get key with
  | none | some .null => .ok none
  | some (.str s) => .ok (some s)
  | some _ => .error ("invalid type for field ".toList ++ key)

/-- A field of type `String`. -/
def reqString (ms : List (Str × Json)) (key : Str) : Except Str Str :=
  match (Json.obj ms).get key with
  | some (.str s) => .ok s
  | some _ => .error ("invalid type for field ".toList ++ key)
  | none => .error ("missing field ".toList ++ key)

/-- A field of type `Option<Value>`. -/
def optValue (ms : List (Str × Json)) (key : Str) : Option Json :=
  match (Json.obj ms).get key with
  | none | some .null => none
  | some v => some v

/-- `serde_json::from_str::<VmessJson>`, from the value on. -/
def fromJson (j : Json) : Except Str VmessJson := do
  let ms ← members j
  let _ ← optString ms "v"
  let ps ← optString ms "ps"
  let add ← reqString ms "add"
  let port ← okOr ((Json.obj ms).get "port") "missing field port"
  let id ← reqString ms "id"
  let scy ← optString ms "scy"
  let net ← optString ms "net"
  let headerType ← optString ms "type"
  let host ← optString ms "host"
  let path ← optString ms "path"
  let tls ← optString ms "tls"
  let sni ← optString ms "sni"
  let alpn ← optString ms "alpn"
  let packetEncoding ← optString ms "packetEncoding"
  .ok
    { ps, add, port, id, aid := optValue ms "aid", scy, net, headerType, host, path, tls, sni,
      alpn, packetEncoding }

end VmessJson

/-- `json_value_as_u16` and `json_value_as_u32`: a string or a number, through `parse` and
    `ofNat?` of the type. -/
def jsonValueAs {α : Type} (parse : Str → Option α) (ofNat? : Nat → Option α) (value : Json)
    (field : Str) : Except ParseError α :=
  match value with
  | .str s => okOr (parse s) (.invalidField field s)
  | .num n => okOr (value.asU64.bind fun m => ofNat? m.toNat)
      (.invalidField field (Json.numText n))
  | _ => .error (.missingField field)

/-- `u16::try_from`. -/
def u16TryFrom (n : Nat) : Option UInt16 := if n < 65536 then some (UInt16.ofNat n) else none

/-- `u32::try_from`. -/
def u32TryFrom (n : Nat) : Option UInt32 :=
  if n < 4294967296 then some (UInt32.ofNat n) else none

/-- `json_value_as_u16`. -/
def jsonValueAsU16 (value : Json) (field : Str) : Except ParseError UInt16 :=
  jsonValueAs parseU16 u16TryFrom value field

/-- `json_value_as_u32`. -/
def jsonValueAsU32 (value : Json) (field : Str) : Except ParseError UInt32 :=
  jsonValueAs parseU32 u32TryFrom value field

/-- `filter(|s| !s.is_empty())`. -/
def nonEmpty (s : Option Str) : Option Str := s.filter fun t => !t.isEmpty

/-- The node of a VMess body. -/
def vmessNode (vmess : VmessJson) : Except ParseError Node := do
  let port ← jsonValueAsU16 vmess.port "port"
  let alterId ← transpose (vmess.aid.map fun v => jsonValueAsU32 v "aid")
  let host ← parseHost vmess.add
  let kind ← transpose (vmess.net.map mapTransportKind)
  .ok
    { nodeShell with
      displayName := vmess.ps.getD []
      protocol := .vmess
      config := .vmess
        { alterId
          security := nonEmpty vmess.scy
          packetEncoding := nonEmpty vmess.packetEncoding }
      endpoint := { host, port }
      authentication := .uuid vmess.id
      transport := some
        { kind := kind.getD .tcp
          path := nonEmpty vmess.path
          host := nonEmpty vmess.host
          xhttpMode := none }
      tls := (nonEmpty vmess.tls).map fun t : Str =>
        { enabled := t = "tls" || t = "reality" || t = "xtls"
          serverName := nonEmpty vmess.sni
          skipCertVerify := none
          alpn := ((nonEmpty vmess.alpn).map fun a => a.splitOn ',').getD []
          clientFingerprint := none
          certificatePins := []
          reality := none }
      extras :=
        match vmess.headerType with
        | some ht => if ht = [] ∨ ht = "none" then [] else [("vmess_header_type", .str ht)]
        | none => [] }

/-- `vmess::parse`. -/
def parseVmess (json : JsonCodec) (uri : Str) : Except ParseError Node := do
  let body ← okOr (stripPrefix "vmess://" uri) (.unknownScheme "expected vmess://")
  let bytes ← decodeBase64Flexible body
  let jsonStr ← fromUtf8 bytes
  let value ← (json.read jsonStr).mapError .invalidJson
  let vmess ← (VmessJson.fromJson value).mapError .invalidJson
  vmessNode vmess

end Uri

/-! ## 7. `parse_uri` -/

/-- The dispatch of `parse_uri` on the scheme of a parsed URL. -/
def parseUrl (url : Url) (uri : Str) : Except ParseError Node :=
  if url.scheme = "vless" then Uri.parseVless url uri
  else if url.scheme = "trojan" then Uri.parseTrojan url
  else if url.scheme = "hysteria2" ∨ url.scheme = "hy2" then Uri.parseHysteria2 url
  else if url.scheme = "tuic" then Uri.parseTuic url
  else if url.scheme = "naive+https" ∨ url.scheme = "naive+http" then Uri.parseNaive url
  else if url.scheme = "wireguard" then Uri.parseWireGuard url
  else if url.scheme = "anytls" then Uri.parseAnyTls url
  else if url.scheme = "snell" then Uri.parseSnell url
  else if url.scheme = "shadow-tls" then Uri.parseShadowTls url
  else .error (.unknownScheme url.scheme)

/-- `parse_uri`: `ss://` and `vmess://` are not URLs and go first. -/
def parseUri (crates : UriCrates) (uri : Str) : Except ParseError Node :=
  if startsWith "ss://" uri then Uri.parseShadowsocks uri
  else if startsWith "vmess://" uri then Uri.parseVmess crates.json uri
  else do
    let url ← (crates.url uri).mapError .invalidUri
    parseUrl url uri

end DeveSub
