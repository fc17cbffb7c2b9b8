/-
  File:      DeveSub/Emitter/Uri.lean
  Subject:   The share-URI emitters: `emit_uri`, the emitter of each protocol, `emit_uri_list` and
             `emit_shadowrocket` (`uri.rs`, `uri_list.rs`, `vless_reality.rs`, `trojan.rs`,
             `hysteria2.rs`, `tuic_v5.rs`, `naive.rs`, `shadowsocks.rs`, `vmess.rs`,
             `wireguard.rs`, `anytls.rs`, `snell.rs`, `shadowtls.rs`, `container/mod.rs` of
             `deve-sub-emitter`).

  The parameters of a query are pushed in the order of the source; an absent field pushes none.
-/
import DeveSub.Emitter.Common
import DeveSub.Lib.Base64

namespace DeveSub

namespace Uri

/-! ## 1. Query parameters -/

/-- One parameter, if its value is there. -/
def param (key : Str) (value : Option Str) : List (Str × Str) :=
  match value with
  | some v => [(key, v)]
  | none => []

/-- A list parameter, if the list is not empty. -/
def listParam (key : Str) (items : List Str) : List (Str × Str) :=
  if items.isEmpty then [] else [(key, commaJoin items)]

/-- A number of whole units, if it is not negative. -/
def durationParam (key : Str) (value : Option Int) : List (Str × Str) :=
  match value with
  | some n => if n ≥ 0 then [(key, natText n.toNat)] else []
  | none => []

/-- The transport parameters after `type`. -/
def transportParams : Option Transport → List (Str × Str)
  | some t => param "path" t.path ++ param "host" t.host ++ param "mode" (t.xhttpMode.map XhttpMode.asStr)
  | none => []

/-- The transport kind of a node, TCP when it has none. -/
def transportKind (node : Node) : TransportKind := (node.transport.map Transport.kind).getD .tcp

/-- The part of a URI after the scheme and the credentials. -/
def hostPort (node : Node) : Str :=
  node.endpoint.host.uriHost ++ ':' :: natText node.endpoint.port.toNat

/-- `scheme://user@host:port?query#fragment`. -/
def uriText (scheme user : Str) (node : Node) (query : Str) : Str :=
  scheme ++ "://".toList ++ user ++ '@' :: (hostPort node ++ '?' :: query) ++
    fragmentSuffix node.displayName

/-- The same without the question mark when there is no query. -/
def uriTextOpt (scheme user : Str) (node : Node) (query : Str) : Str :=
  if query = [] then
    scheme ++ "://".toList ++ user ++ '@' :: hostPort node ++ fragmentSuffix node.displayName
  else uriText scheme user node query

/-! ## 2. The emitter of each protocol -/

/-- `vless_reality::emit`. -/
def emitVless (node : Node) : Except EmitError Str := do
  let uuid ← node.authentication.needUuid "uuid authentication"
  let cfg ←
    match node.config with
    | .vlessReality cfg => .ok cfg
    | .unsupported _ => .error (.noEmitter "VLESS non-Reality")
    | _ => .error (.noEmitter "non-VLESS config")
  -- without the Reality settings the URI could not be parsed again
  match node.tls with
  | none => .error (.missingField "tls.reality")
  | some tls =>
      match tls.reality with
      | none => .error (.missingField "tls.reality")
      | some reality =>
          let params :=
            [("security".toList, "reality".toList), ("type".toList, (transportKind node).text)] ++
              param "allowInsecure" (tls.skipCertVerify.map boolDigit) ++
              param "sni" tls.serverName ++
              param "fp" tls.clientFingerprint ++
              param "flow" cfg.flow ++
              [("sid".toList, reality.shortId), ("pbk".toList, reality.publicKey)] ++
              param "encryption" cfg.encryption ++
              param "packetEncoding" cfg.packetEncoding ++
              param "udp" (node.udp.supported.map boolText) ++
              param "xudp" (node.udp.xudp.map boolText) ++
              param "spx" reality.spiderX ++
              transportParams node.transport ++
              listParam "alpn" tls.alpn
          .ok (uriText "vless" (encodeUserinfo uuid) node (formatQuery params))

/-- `trojan::emit`. -/
def emitTrojan (node : Node) : Except EmitError Str := do
  let password ← node.authentication.needPassword "password authentication"
  let cfg ←
    match node.config with
    | .trojan cfg => .ok cfg
    | _ => .error (.noEmitter "non-Trojan config")
  let tlsParams :=
    match node.tls with
    | some tls =>
        param "sni" tls.serverName ++ listParam "alpn" tls.alpn ++
          param "skip-cert-verify" (tls.skipCertVerify.map boolDigit)
    | none => []
  let params :=
    tlsParams ++ [("type".toList, (transportKind node).text)] ++ transportParams node.transport ++
      param "packetEncoding" cfg.packetEncoding
  .ok (uriText "trojan" (encodeUserinfo password) node (formatQuery params))

/-- `hysteria2::emit`: BBR is the default controller and is not written. -/
def emitHysteria2 (node : Node) : Except EmitError Str := do
  let password ← node.authentication.needPassword "password authentication"
  let cfg ←
    match node.config with
    | .hysteria2 cfg => .ok cfg
    | _ => .error (.noEmitter "non-Hysteria2 config")
  let tlsParams :=
    match node.tls with
    | some tls =>
        param "sni" tls.serverName ++ listParam "alpn" tls.alpn ++
          param "insecure" (tls.skipCertVerify.map boolDigit) ++
          (if tls.certificatePins.isEmpty then []
           else [("pinSHA256".toList, formatPins tls.certificatePins)])
    | none => []
  let obfsParams :=
    match node.obfuscation with
    | some obfs => ("obfs".toList, obfs.kind) :: param "obfs-password" obfs.password
    | none => []
  let congestionParams :=
    match node.congestion with
    | some cong =>
        param "up" (cong.upBps.map formatBandwidth) ++
          param "down" (cong.downBps.map formatBandwidth) ++
          (if cong.controller = .bbr then []
           else [("congestion-controller".toList, cong.controller.name)])
    | none => []
  let params :=
    tlsParams ++ obfsParams ++ congestionParams ++ param "ports" cfg.ports ++
      durationParam "hop_interval" (cfg.hopInterval.map Duration.wholeSeconds) ++
      param "fast-open" (cfg.fastOpen.map boolDigit) ++ param "lazy" (cfg.lazy.map boolDigit)
  .ok (uriTextOpt "hysteria2" (encodeUserinfo password) node (formatQuery params))

/-- `tuic_v5::emit`. -/
def emitTuic (node : Node) : Except EmitError Str := do
  let (uuid, password) ← node.authentication.needUuidPassword "uuid+password authentication"
  let cfg ←
    match node.config with
    | .tuicV5 cfg => .ok cfg
    | _ => .error (.noEmitter "non-TUIC config")
  let tlsParams :=
    match node.tls with
    | some tls =>
        param "sni" tls.serverName ++ listParam "alpn" tls.alpn ++
          param "skip-cert-verify" (tls.skipCertVerify.map boolDigit)
    | none => []
  let params :=
    tlsParams ++
      param "congestion-controller" (node.congestion.map fun c => c.controller.name) ++
      param "udp-relay-mode" (cfg.udpRelayMode.map UdpRelayMode.name) ++
      param "zero-rtt-handshake" (cfg.zeroRttHandshake.map boolDigit) ++
      durationParam "heartbeat" (cfg.heartbeat.map Duration.wholeMilliseconds) ++
      param "disable-sni" (cfg.disableSni.map boolDigit)
  .ok (uriText "tuic" (encodeUserinfo uuid ++ ':' :: encodeUserinfo password) node
    (formatQuery params))

/-- `naive::emit`: the scheme says whether the node has TLS. -/
def emitNaive (node : Node) : Except EmitError Str := do
  let (username, password) ← node.authentication.needUserPassword "user+password authentication"
  let cfg ←
    match node.config with
    | .naiveProxy cfg => .ok cfg
    | _ => .error (.noEmitter "non-NaiveProxy config")
  let scheme : Str := if node.tls.isSome then "naive+https" else "naive+http"
  let tlsParams :=
    match node.tls with
    | some tls =>
        param "sni" tls.serverName ++ listParam "alpn" tls.alpn ++
          param "skip-cert-verify" (tls.skipCertVerify.map boolDigit) ++
          (if tls.certificatePins.isEmpty then []
           else [("pinSHA256".toList, formatPins tls.certificatePins)])
    | none => []
  let params :=
    tlsParams ++ param "quic" (cfg.quic.map boolDigit) ++ param "http2" (cfg.http2.map boolDigit) ++
      param "http3" (cfg.http3.map boolDigit)
  .ok (uriTextOpt scheme (encodeUserinfo username ++ ':' :: encodeUserinfo password) node
    (formatQuery params))

/-- `shadowsocks::emit`. -/
def emitShadowsocks (node : Node) : Except EmitError Str := do
  let password ← node.authentication.needPassword "password authentication"
  let cfg ←
    match node.config with
    | .shadowsocks cfg => .ok cfg
    | _ => .error (.noEmitter "non-Shadowsocks config")
  let userinfo := Base64.encodeNoPad .urlSafe (utf8Bytes (cfg.method ++ ':' :: password))
  let plugin :=
    match cfg.plugin with
    | some name =>
        let value :=
          match cfg.pluginOpts with
          | some opts => name ++ ';' :: opts
          | none => name
        "/?plugin=".toList ++ percentEncode queryValueEncode value
    | none => []
  .ok ("ss://".toList ++ userinfo ++ '@' :: hostPort node ++ plugin ++
    fragmentSuffix node.displayName)

/-- `host_to_string`: IPv6 without brackets. -/
def hostToString : Host → Str
  | .ipv4 a => a.text
  | .ipv6 a => a.text
  | .domain d => d

/-- The members of the VMess object, all of them texts. -/
def vmessMembers (node : Node) (uuid : Str) (cfg : VMessConfig) : List (Str × Str) :=
  let tls := node.tls
  [("v", "2"),
    ("ps", node.displayName),
    ("add", hostToString node.endpoint.host),
    ("port", natText node.endpoint.port.toNat),
    ("id", uuid),
    ("aid", natText (cfg.alterId.getD 0).toNat),
    ("scy", cfg.security.getD "auto"),
    ("net", (transportKind node).text),
    ("type", ((node.extra "vmess_header_type").bind Json.asStr).getD "none"),
    ("host", (node.transport.bind Transport.host).getD []),
    ("path", (node.transport.bind Transport.path).getD []),
    ("tls", if tls.any TlsConfig.enabled then "tls" else []),
    ("sni", (tls.bind TlsConfig.serverName).getD []),
    ("alpn", commaJoin ((tls.map TlsConfig.alpn).getD [])),
    ("packetEncoding", cfg.packetEncoding.getD [])]

/-- `vmess::emit`. -/
def emitVmess (json : JsonCodec) (node : Node) : Except EmitError Str := do
  let uuid ← node.authentication.needUuid "uuid authentication"
  let cfg ←
    match node.config with
    | .vmess cfg => .ok cfg
    | _ => .error (.noEmitter "non-VMess config")
  let body := Json.obj ((vmessMembers node uuid cfg).map fun m => (m.1, .str m.2))
  .ok ("vmess://".toList ++ Base64.encode .standard (utf8Bytes (json.write body)))

/-- Three octets, separated by commas. -/
def reservedText (r : UInt8 × UInt8 × UInt8) : Str :=
  commaJoin [natText r.1.toNat, natText r.2.1.toNat, natText r.2.2.toNat]

/-- `wireguard::emit`: the first peer, without its allowed addresses. -/
def emitWireGuard (node : Node) : Except EmitError Str := do
  if node.authentication ≠ .none then .error (.missingField "wireguard uses no authentication")
  else
    let cfg ←
      match node.config with
      | .wireGuard cfg => .ok cfg
      | _ => .error (.noEmitter "non-WireGuard config")
    let peer ← okOr cfg.peers.head? (.missingField "wireguard peer")
    let params :=
      [("publickey".toList, peer.publicKey)] ++ listParam "address" cfg.address ++
        param "presharedkey" peer.preSharedKey ++
        param "reserved" (peer.reserved.map reservedText) ++
        param "mtu" (cfg.mtu.map fun m => natText m.toNat) ++
        durationParam "keepalive" (peer.persistentKeepalive.map Duration.wholeSeconds)
    .ok (uriText "wireguard" (encodeUserinfo cfg.privateKey) node (formatQuery params))

/-- `anytls::emit`. -/
def emitAnyTls (node : Node) : Except EmitError Str := do
  let password ← node.authentication.needPassword "anytls password authentication"
  let _ ←
    match node.config with
    | .anyTls cfg => .ok cfg
    | _ => .error (.noEmitter "non-AnyTLS config")
  let params :=
    match node.tls with
    | some tls =>
        param "sni" tls.serverName ++ listParam "alpn" tls.alpn ++
          param "insecure" (tls.skipCertVerify.map boolDigit) ++ param "fp" tls.clientFingerprint
    | none => []
  .ok
    (if params.isEmpty then
      "anytls://".toList ++ encodeUserinfo password ++ '@' :: hostPort node ++
        fragmentSuffix node.displayName
    else uriText "anytls" (encodeUserinfo password) node (formatQuery params))

/-- The obfuscation parameters of a Snell URI: only `http` and `tls` have a spelling. -/
def snellObfsParams : Option SnellObfs → Except EmitError (List (Str × Str))
  | none => .ok []
  | some obfs => do
      let mode ←
        match obfs.mode with
        | .http => .ok "http".toList
        | .tls => .ok "tls".toList
        | m => .error (.noEmitter ("snell obfs mode ".toList ++ m.debug ++
            " has no URI representation".toList))
      .ok ([("obfs".toList, mode)] ++ param "obfs-host" obfs.host ++ listParam "alpn" obfs.alpn)

/-- `snell::emit`. -/
def emitSnell (node : Node) : Except EmitError Str := do
  let psk ← node.authentication.needPassword "snell psk (password) authentication"
  let cfg ←
    match node.config with
    | .snell cfg => .ok cfg
    | _ => .error (.noEmitter "non-Snell config")
  rejectWhen
    (cfg.v6Mode.isSome || node.hasExtra "snell_userkey" || !cfg.tlsIsObfsAlias node.tls ||
      cfg.obfs.any fun o => o.password.isSome || o.version.isSome)
    (.noEmitter "Snell options without URI representation")
  let obfsParams ← snellObfsParams cfg.obfs
  let params :=
    [("version".toList, natText cfg.version.asU32)] ++
      param "udp" (node.udp.supported.map boolDigit) ++ param "reuse" (cfg.reuse.map boolDigit) ++
      obfsParams
  .ok (uriText "snell" (encodeUserinfo psk) node (formatQuery params))

/-- TLS settings a ShadowTLS URI cannot hold. -/
def shadowTlsBeyondUri (tls : TlsConfig) : Bool :=
  !tls.enabled || !tls.alpn.isEmpty || tls.clientFingerprint.isSome ||
    !tls.certificatePins.isEmpty || tls.reality.isSome

/-- `matches!(kind, ProtocolKind::Unknown(_))`. -/
def isUnknown : ProtocolKind → Bool
  | .unknown _ => true
  | _ => false

/-- `shadowtls::emit`: only wrappers without inner protocol. -/
def emitShadowTls (node : Node) : Except EmitError Str :=
  match node.config with
  | .shadowTls version password innerProtocol _ => do
      rejectWhen (!isUnknown innerProtocol)
        (.noEmitter "ShadowTLS URI cannot preserve the inner protocol and authentication")
      rejectWhen
        (node.tls.any shadowTlsBeyondUri || node.transport.isSome || node.authentication ≠ .none)
        (.noEmitter "ShadowTLS wrapper options without URI representation")
      let tlsParams :=
        match node.tls with
        | some tls =>
            param "sni" tls.serverName ++ param "insecure" (tls.skipCertVerify.map boolDigit)
        | none => []
      let params := [("version".toList, natText version.asU32)] ++ tlsParams
      .ok (uriText "shadow-tls" (encodeUserinfo (password.getD [])) node (formatQuery params))
  | _ => .error (.noEmitter "non-ShadowTls config")

end Uri

/-! ## 3. `emit_uri` and the profiles made of URIs -/

/-- `emit_uri`. -/
def emitUri (json : JsonCodec) (node : Node) : Except EmitError Str :=
  match node.protocol with
  | .vless => Uri.emitVless node
  | .trojan => Uri.emitTrojan node
  | .hysteria2 => Uri.emitHysteria2 node
  | .tuicV5 => Uri.emitTuic node
  | .naiveProxy => Uri.emitNaive node
  | .shadowsocks => Uri.emitShadowsocks node
  | .vmess => Uri.emitVmess json node
  | .wireGuard => Uri.emitWireGuard node
  | .anyTls => Uri.emitAnyTls node
  | .snell => Uri.emitSnell node
  | .shadowTls => Uri.emitShadowTls node
  | other => .error (.noEmitter other.text)

/-- The lines of `emit_uri_list`: a node without emitter is skipped. -/
def uriLines (json : JsonCodec) : List Node → Except EmitError (List Str)
  | [] => .ok []
  | node :: nodes =>
      match emitUri json node with
      | .ok uri => do
          let lines ← uriLines json nodes
          .ok (uri :: lines)
      | .error (.noEmitter _) => uriLines json nodes
      | .error e => .error e

/-- `emit_uri_list`. -/
def emitUriList (json : JsonCodec) (nodes : List Node) : Except EmitError Str := do
  let lines ← uriLines json nodes
  .ok (['\n'].intercalate lines)

/-- `emit_shadowrocket`: the URIs in Base64; a node without emitter is an error. -/
def emitShadowrocket (json : JsonCodec) (nodes : List Node) : Except EmitError Str := do
  let uris ← nodes.mapM (emitUri json)
  .ok (Base64.encode .standard (utf8Bytes (['\n'].intercalate uris)))

end DeveSub
