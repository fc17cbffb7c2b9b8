/-
  File:      DeveSub/Emitter/Mihomo.lean
  Subject:   The Mihomo (Clash) emitter: `emit` and the entry of each protocol
             (`container/mihomo.rs` of `deve-sub-emitter`).

  The document is put together as text, line by line. Most values go through `yaml_dq`; the
  cipher, the flow, the congestion controller, the obfuscation kind and the keys of the plugin
  options are written as they are.
-/
import DeveSub.Emitter.Common

namespace DeveSub.Mihomo

/-! ## 1. Scalars and lines -/

/-- `{:04X}` of a code point below `0x10000`. -/
def upperHex4 (n : Nat) : Str :=
  [upperHex (n / 4096 % 16), upperHex (n / 256 % 16), upperHex (n / 16 % 16), upperHex (n % 16)]

/-- One character inside a double-quoted scalar. -/
def yamlEscape (c : Char) : Str :=
  if c = '"' then ['\\', '"']
  else if c = '\\' then ['\\', '\\']
  else if c = '\n' then ['\\', 'n']
  else if c = '\r' then ['\\', 'r']
  else if c = '\t' then ['\\', 't']
  else if c.toNat = 0 then ['\\', '0']
  else if isControl c || c.toNat = 0x2028 || c.toNat = 0x2029 then '\\' :: 'u' :: upperHex4 c.toNat
  else [c]

/-- `yaml_dq`. -/
def yamlDq (s : Str) : Str := '"' :: (s.flatMap yamlEscape ++ ['"'])

/-- `[a, b]` with every item in double quotes. -/
def yamlList (items : List Str) : Str := '[' :: (", ".toList.intercalate (items.map yamlDq) ++ [']'])

/-- `\n    key: value`: a field of an entry. -/
def field (key value : Str) : Str := "\n    ".toList ++ key ++ ": ".toList ++ value

/-- `\n      key: value`: a field one level below. -/
def subfield (key value : Str) : Str := "\n      ".toList ++ key ++ ": ".toList ++ value

/-- `\n        key: value`: a field two levels below. -/
def subsubfield (key value : Str) : Str := "\n        ".toList ++ key ++ ": ".toList ++ value

/-- `\n    key:`: the line above a nested block. -/
def header (key : Str) : Str := "\n    ".toList ++ key ++ [':']

/-- A line for a value that may be absent. -/
def optional (line : Str → Str → Str) (key : Str) (value : Option Str) : Str :=
  match value with
  | some v => line key v
  | none => []

/-- `yaml_entry`. -/
def yamlEntry (name ptype server : Str) (port : UInt16) : Str :=
  "  - name: ".toList ++ yamlDq name ++ field "type" ptype ++ field "server" (yamlDq server) ++
    field "port" (natText port.toNat)

/-- The first lines of a node's entry. -/
def entryOf (node : Node) (ptype : Str) : Str :=
  yamlEntry node.displayName ptype node.endpoint.host.uriHost node.endpoint.port

/-- Whole seconds, if they are not negative. -/
def secondsText (d : Duration) : Option Str :=
  if d.wholeSeconds ≥ 0 then some (natText d.wholeSeconds.toNat) else none

/-! ## 2. TLS and transport -/

/-- The `reality-opts` block; empty values are left out. -/
def pushReality (reality : RealityConfig) : Str :=
  header "reality-opts" ++
    (if reality.publicKey.isEmpty then [] else subfield "public-key" (yamlDq reality.publicKey)) ++
    (if reality.shortId.isEmpty then [] else subfield "short-id" (yamlDq reality.shortId))

/-- `push_tls`. -/
def pushTls (node : Node) : Str :=
  match node.tls with
  | none => []
  | some tls =>
      (if tls.enabled || tls.reality.isSome then field "tls" "true" else []) ++
        optional field "sni" (tls.serverName.map yamlDq) ++
        optional field "skip-cert-verify" (tls.skipCertVerify.map boolText) ++
        (if tls.alpn.isEmpty then [] else field "alpn" (yamlList tls.alpn)) ++
        optional field "client-fingerprint" (tls.clientFingerprint.map yamlDq) ++
        (match tls.reality with
          | some reality => pushReality reality
          | none => [])

/-- The `headers` block of a WebSocket transport. -/
def pushHostHeader (host : Option Str) : Str :=
  match host with
  | some h => "\n      headers:".toList ++ subsubfield "Host" (yamlDq h)
  | none => []

/-- `push_transport_opts`. -/
def pushTransportOpts (t : Transport) : Str :=
  match t.kind with
  | .ws =>
      if t.path.isSome || t.host.isSome then
        header "ws-opts" ++ optional subfield "path" (t.path.map yamlDq) ++ pushHostHeader t.host
      else []
  | .httpUpgrade =>
      if t.path.isSome || t.host.isSome then
        header "ws-opts" ++ optional subfield "path" (t.path.map yamlDq) ++
          pushHostHeader t.host ++ subfield "v2ray-http-upgrade" "true"
      else []
  | .grpc =>
      match t.path with
      | some path => header "grpc-opts" ++ subfield "grpc-service-name" (yamlDq path)
      | none => []
  | .h2 =>
      if t.path.isSome || t.host.isSome then
        header "h2-opts" ++ optional subfield "path" (t.path.map yamlDq) ++
          optional subfield "host" (t.host.map fun h => yamlList [h])
      else []
  | .xhttp =>
      let mode := t.xhttpMode.getD .auto
      if t.path.isSome || t.host.isSome || mode ≠ .auto then
        header "xhttp-opts" ++ optional subfield "path" (t.path.map yamlDq) ++
          optional subfield "host" (t.host.map yamlDq) ++
          (if mode ≠ .auto then subfield "mode" mode.asStr else [])
      else []
  | _ => []

/-- `push_network`. -/
def pushNetwork (node : Node) : Str :=
  match node.transport with
  | some t => field "network" t.kind.text ++ pushTransportOpts t
  | none => []

/-! ## 3. The entry of each protocol -/

/-- `emit_trojan`. -/
def emitTrojan (node : Node) : Except EmitError Str := do
  let password ← node.authentication.needPassword "trojan password"
  let packetEncoding :=
    match node.config with
    | .trojan cfg => optional field "packet-encoding" (cfg.packetEncoding.map yamlDq)
    | _ => []
  .ok (entryOf node "trojan" ++ field "password" (yamlDq password) ++ packetEncoding ++
    pushTls node ++ pushNetwork node)

/-- One pair of SIP003 options: a bare flag is `true`, a boolean stays bare. -/
def pluginOption (pair : Str) : Str :=
  match splitOnce '=' pair with
  | some (k, v) =>
      subfield k (if v = "true" ∨ v = "false" then v else yamlDq v)
  | none => subfield pair "true"

/-- The pairs of an options text; empty ones are skipped. -/
def pluginPairs (opts : Str) : List Str := (opts.splitOn ';').filter fun pair => !pair.isEmpty

/-- `emit_ss`. -/
def emitSs (node : Node) : Except EmitError Str := do
  let password ← node.authentication.needPassword "ss password"
  let cfg ←
    match node.config with
    | .shadowsocks cfg => .ok cfg
    | _ => .error (.missingField "ss method")
  let plugin :=
    match cfg.plugin with
    | some p =>
        field "plugin" (yamlDq p) ++
          (match cfg.pluginOpts with
            | some opts => header "plugin-opts" ++ (pluginPairs opts).flatMap pluginOption
            | none => [])
    | none => []
  .ok (entryOf node "ss" ++ field "cipher" cfg.method ++ field "password" (yamlDq password) ++
    plugin)

/-- `emit_vmess`. -/
def emitVmess (node : Node) : Except EmitError Str := do
  let uuid ← node.authentication.needUuid "vmess uuid"
  let own :=
    match node.config with
    | .vmess cfg =>
        optional field "alterId" (cfg.alterId.map fun n => natText n.toNat) ++
          field "cipher" (cfg.security.getD "auto") ++
          optional field "packet-encoding" (cfg.packetEncoding.map yamlDq)
    | _ => []
  .ok (entryOf node "vmess" ++ field "uuid" (yamlDq uuid) ++ own ++ pushTls node ++
    pushNetwork node)

/-- `emit_vless`. -/
def emitVless (node : Node) : Except EmitError Str := do
  let uuid ← node.authentication.needUuid "vless uuid"
  let own :=
    match node.config with
    | .vlessReality cfg =>
        optional field "flow" cfg.flow ++
          optional field "packet-encoding" (cfg.packetEncoding.map yamlDq)
    | _ => []
  .ok (entryOf node "vless" ++ field "uuid" (yamlDq uuid) ++ own ++ pushTls node ++
    pushNetwork node)

/-- `emit_hysteria2`. -/
def emitHysteria2 (node : Node) : Except EmitError Str := do
  let password ← node.authentication.needPassword "hysteria2 password"
  let cfg ←
    match node.config with
    | .hysteria2 cfg => .ok cfg
    | _ => .error (.missingField "hysteria2 config")
  let congestion :=
    match node.congestion with
    | some cong =>
        field "congestion-controller" cong.controller.name ++
          optional field "up" (cong.upBps.map fun b => '"' :: (formatBandwidth b ++ ['"'])) ++
          optional field "down" (cong.downBps.map fun b => '"' :: (formatBandwidth b ++ ['"']))
    | none => []
  let obfuscation :=
    match node.obfuscation with
    | some obfs =>
        field "obfs" obfs.kind ++ optional field "obfs-password" (obfs.password.map yamlDq)
    | none => []
  .ok (entryOf node "hysteria2" ++ field "password" (yamlDq password) ++ congestion ++
    optional field "ports" (cfg.ports.map yamlDq) ++
    optional field "hop-interval" (cfg.hopInterval.bind secondsText) ++ obfuscation ++
    optional field "fast-open" (cfg.fastOpen.map boolText) ++
    optional field "lazy" (cfg.lazy.map boolText) ++ pushTls node)

/-- `emit_tuic_v5`. -/
def emitTuicV5 (node : Node) : Except EmitError Str := do
  let (uuid, password) ← node.authentication.needUuidPassword "tuic v5 uuid+password"
  let cfg ←
    match node.config with
    | .tuicV5 cfg => .ok cfg
    | _ => .error (.missingField "tuic v5 config")
  .ok (entryOf node "tuic" ++ field "uuid" (yamlDq uuid) ++ field "password" (yamlDq password) ++
    optional field "congestion-controller" (node.congestion.map fun c => c.controller.name) ++
    optional field "udp-relay-mode" (cfg.udpRelayMode.map UdpRelayMode.name) ++
    optional field "reduce-rtt" (cfg.zeroRttHandshake.map boolText) ++
    optional field "heartbeat-interval" (cfg.heartbeat.bind secondsText) ++
    optional field "disable-sni" (cfg.disableSni.map boolText) ++ pushTls node)

/-- The block of the first peer. -/
def pushPeer (node : Node) (peer : WireGuardPeer) : Str :=
  header "peers" ++ "\n      - server: ".toList ++ yamlDq node.endpoint.host.uriHost ++
    subsubfield "port" (natText node.endpoint.port.toNat) ++
    subsubfield "public-key" (yamlDq peer.publicKey) ++
    optional subsubfield "pre-shared-key" (peer.preSharedKey.map yamlDq) ++
    (if peer.allowedIps.isEmpty then []
      else subsubfield "allowed-ips" (yamlList peer.allowedIps)) ++
    optional subsubfield "reserved" (peer.reserved.map fun r =>
      '[' :: (natText r.1.toNat ++ ", ".toList ++ natText r.2.1.toNat ++ ", ".toList ++
        natText r.2.2.toNat ++ [']'])) ++
    optional subsubfield "persistent-keepalive" (peer.persistentKeepalive.bind secondsText)

/-- `emit_wireguard`: the first IPv4 and the first IPv6 address, and the first peer. -/
def emitWireGuard (node : Node) : Except EmitError Str := do
  let cfg ←
    match node.config with
    | .wireGuard cfg => .ok cfg
    | _ => .error (.missingField "wireguard config")
  let peers :=
    match cfg.peers.head? with
    | some peer => pushPeer node peer
    | none => []
  .ok (entryOf node "wireguard" ++ field "private-key" (yamlDq cfg.privateKey) ++
    optional field "ip" ((cfg.address.find? fun a => ':' ∉ a).map yamlDq) ++
    optional field "ipv6" ((cfg.address.find? fun a => ':' ∈ a).map yamlDq) ++
    optional field "mtu" (cfg.mtu.map fun n => natText n.toNat) ++
    optional field "workers" (cfg.workers.map fun n => natText n.toNat) ++
    (if cfg.dns.isEmpty then [] else field "dns" (yamlList cfg.dns)) ++ peers)

/-- `emit_anytls`. -/
def emitAnyTls (node : Node) : Except EmitError Str := do
  let password ← node.authentication.needPassword "anytls password"
  let cfg ←
    match node.config with
    | .anyTls cfg => .ok cfg
    | _ => .error (.missingField "anytls config")
  .ok (entryOf node "anytls" ++ field "password" (yamlDq password) ++ pushTls node ++
    optional field "idle-session-check-interval"
      (cfg.idleSessionCheckInterval.map fun d => intText d.wholeSeconds) ++
    optional field "idle-session-timeout"
      (cfg.idleSessionTimeout.map fun d => intText d.wholeSeconds) ++
    optional field "min-idle-session" (cfg.minIdleSession.map fun n => natText n.toNat))

/-- The `obfs-opts` block of a Snell entry. -/
def pushObfs (obfs : SnellObfs) : Str :=
  header "obfs-opts" ++ subfield "mode" obfs.mode.name ++
    optional subfield "host" (obfs.host.map yamlDq) ++
    optional subfield "password" (obfs.password.map yamlDq) ++
    optional subfield "version" (obfs.version.map fun n => natText n.toNat) ++
    (if obfs.alpn.isEmpty then [] else subfield "alpn" (yamlList obfs.alpn))

/-- Snell settings Mihomo cannot keep. -/
def snellBeyondMihomo (node : Node) (cfg : SnellConfig) : Bool :=
  cfg.version = .v6 || node.hasExtra "snell_userkey" ||
    (cfg.version = .v1 || cfg.version = .v2) && node.udp.supported = some true

/-- `emit_snell`. -/
def emitSnell (node : Node) : Except EmitError Str := do
  let psk ← node.authentication.needPassword "snell psk"
  let cfg ←
    match node.config with
    | .snell cfg => .ok cfg
    | _ => .error (.missingField "snell config")
  rejectWhen (snellBeyondMihomo node cfg)
    (.noEmitter "Mihomo cannot preserve these Snell version/authentication/UDP settings")
  let obfs :=
    match cfg.obfs with
    | some o => pushObfs o
    | none => []
  .ok (entryOf node "snell" ++ field "psk" (yamlDq psk) ++
    field "version" (natText cfg.version.asU32) ++
    optional field "udp" (node.udp.supported.map boolText) ++
    optional field "reuse" (cfg.reuse.map boolText) ++ obfs ++
    (if cfg.obfs.any fun o => o.mode = .tls then pushTls node else []))

/-- The protocols that are not ShadowTLS. -/
def emitDirect (node : Node) : Except EmitError Str :=
  match node.protocol with
  | .trojan => emitTrojan node
  | .shadowsocks => emitSs node
  | .vmess => emitVmess node
  | .vless => emitVless node
  | .hysteria2 => emitHysteria2 node
  | .tuicV5 => emitTuicV5 node
  | .wireGuard => emitWireGuard node
  | .anyTls => emitAnyTls node
  | .snell => emitSnell node
  | other => .error (.noEmitter ("mihomo: unsupported protocol ".toList ++ other.text))

/-! ## 4. ShadowTLS -/

/-- Version, password and camouflage name of a ShadowTLS layer; `nameKey` carries the name. -/
def shadowTlsFields (node : Node) (version : ShadowTlsVersion) (password : Option Str)
    (nameKey : Str) : Str :=
  subfield "version" (natText version.asU32) ++ optional subfield "password" (password.map yamlDq) ++
    optional subfield nameKey ((node.tls.bind TlsConfig.serverName).map yamlDq)

/-- The ShadowTLS layer that follows the inner entry, by inner protocol. -/
def shadowTlsLayerText (node : Node) (version : ShadowTlsVersion) (password : Option Str)
    (innerProtocol : ProtocolKind) : Except EmitError Str :=
  match innerProtocol with
  | .shadowsocks =>
      .ok (field "plugin" "shadow-tls" ++ header "plugin-opts" ++
        shadowTlsFields node version password "host")
  | .snell =>
      .ok (header "obfs-opts" ++ subfield "mode" "shadow-tls" ++
        shadowTlsFields node version password "host")
  | .vless | .trojan | .vmess | .anyTls =>
      .ok (header "shadow-tls-opts" ++ shadowTlsFields node version password "sni" ++ pushTls node)
  | other =>
      .error (.noEmitter ("mihomo shadowtls: inner protocol ".toList ++ other.text ++
        " not supported".toList))

/-- A Snell configuration without its obfuscation, any other one as it is. -/
def withoutObfs : ProtocolConfig → ProtocolConfig
  | .snell cfg => .snell { cfg with obfs := none }
  | config => config

/-- `emit_proxy` on `node` with its configuration replaced; `inner` says that the node stands
    inside a ShadowTLS layer, which takes the place of Snell's obfuscation. -/
def emitProxyAs (node : Node) (inner : Bool) : ProtocolConfig → Except EmitError Str
  | .shadowTls version password innerProtocol innerConfig =>
      if node.protocol = .shadowTls then do
        let entry ← emitProxyAs { node with protocol := innerProtocol, tls := none } true innerConfig
        rejectWhen entry.isEmpty (.noEmitter "shadowtls: inner emitter produced no output")
        let layer ← shadowTlsLayerText node version password innerProtocol
        .ok (entry ++ layer)
      else emitDirect { node with config := .shadowTls version password innerProtocol innerConfig }
  | config =>
      if node.protocol = .shadowTls then .error (.missingField "shadowtls config")
      else emitDirect { node with config := if inner then withoutObfs config else config }

/-- `emit_proxy`, without the line break in front. -/
def emitProxy (node : Node) : Except EmitError Str := emitProxyAs node false node.config

/-- `emit`. -/
def emit (nodes : List Node) : Except EmitError Str := do
  let entries ← nodes.mapM emitProxy
  .ok ("proxies:".toList ++ entries.flatMap fun entry => '\n' :: entry)

end DeveSub.Mihomo
