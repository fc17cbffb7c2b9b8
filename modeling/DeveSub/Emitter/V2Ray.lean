/-
  File:      DeveSub/Emitter/V2Ray.lean
  Subject:   The V2Ray and Xray emitters (`container/v2ray.rs`, `container/xray.rs` of
             `deve-sub-emitter`).

  Both write the same outbounds; V2Ray first refuses what it cannot run. The security mode of an
  outbound is decided in `streamSettings`: Reality settings give `reality`, enabled TLS gives
  `tls`, everything else gives `none`.
-/
import DeveSub.Emitter.Common

namespace DeveSub.V2Ray

/-! ## 1. Stream settings -/

/-- The members of `realitySettings`. -/
def realitySettings (tls : TlsConfig) (reality : RealityConfig) : List (Str × Json) :=
  member "serverName" (tls.serverName.map Json.str) ++
    (if reality.publicKey.isEmpty then [] else [("publicKey".toList, .str reality.publicKey)]) ++
    (if reality.shortId.isEmpty then [] else [("shortId".toList, .str reality.shortId)]) ++
    member "fingerprint" (tls.clientFingerprint.map Json.str)

/-- The members of `tlsSettings`. -/
def tlsSettings (tls : TlsConfig) : List (Str × Json) :=
  member "serverName" (tls.serverName.map Json.str) ++
    member "allowInsecure" (tls.skipCertVerify.map Json.bool) ++
    (if tls.alpn.isEmpty then [] else [("alpn".toList, strs tls.alpn)]) ++
    member "fingerprint" (tls.clientFingerprint.map Json.str)

/-- The value of `security`. -/
def securityMode (tls : Option TlsConfig) : Str :=
  match tls with
  | none => "none"
  | some tls =>
      match tls.reality with
      | some _ => "reality"
      | none => if tls.enabled then "tls" else "none"

/-- The settings that go with the security mode; empty TLS settings are left out. -/
def securitySettings (tls : Option TlsConfig) : List (Str × Json) :=
  match tls with
  | none => []
  | some tls =>
      match tls.reality with
      | some reality => [("realitySettings".toList, .obj (realitySettings tls reality))]
      | none =>
          if tls.enabled && !(tlsSettings tls).isEmpty then
            [("tlsSettings".toList, .obj (tlsSettings tls))]
          else []

/-- `transport_settings`. -/
def transportSettings (t : Transport) : Option Json :=
  match t.kind with
  | .ws | .httpUpgrade =>
      some (.obj (member "path" (t.path.map Json.str) ++
        member "headers" (t.host.map fun h => .obj [("Host", .str h)])))
  | .grpc => some (.obj (member "serviceName" (t.path.map Json.str)))
  | .h2 =>
      some (.obj (member "path" (t.path.map Json.str) ++
        member "host" (t.host.map fun h => .arr [.str h])))
  | .xhttp =>
      let mode := t.xhttpMode.getD .auto
      some (.obj (member "path" (t.path.map Json.str) ++ member "host" (t.host.map Json.str) ++
        (if mode ≠ .auto then [("mode".toList, .str mode.asStr)] else [])))
  | _ => none

/-- The transport of a node without one. -/
def defaultTcp : Transport := { kind := .tcp, path := none, host := none, xhttpMode := none }

/-- `stream_settings`. -/
def streamSettings (node : Node) : Json :=
  let transport := node.transport.getD defaultTcp
  let network := transport.kind.text
  .obj ([("network".toList, .str network), ("security".toList, .str (securityMode node.tls))] ++
    securitySettings node.tls ++ member (network ++ "Settings".toList) (transportSettings transport))

/-! ## 2. The settings of each protocol -/

/-- Protocol, settings and stream settings of an outbound. -/
abbrev Emit := Except EmitError (Str × Json × Option Json)

/-- `settings.servers[0]` of a password protocol. -/
def serverSettings (node : Node) (fields : List (Str × Json)) : Json :=
  .obj [("servers", .arr [.obj ([("address".toList, .str node.endpoint.host.uriHost),
    ("port".toList, Json.ofNat node.endpoint.port.toNat)] ++ fields)])]

/-- `settings.vnext[0].users[0]` of a UUID protocol. -/
def userSettings (node : Node) (user : List (Str × Json)) : Json :=
  .obj [("vnext", .arr [.obj [("address", .str node.endpoint.host.uriHost),
    ("port", Json.ofNat node.endpoint.port.toNat), ("users", .arr [.obj user])]])]

/-- `trojan`. -/
def trojan (node : Node) : Emit := do
  let password ← node.authentication.needPassword "trojan password"
  .ok ("trojan", serverSettings node [("password", .str password)], some (streamSettings node))

/-- `shadowsocks`: no stream settings. -/
def shadowsocks (node : Node) : Emit := do
  let password ← node.authentication.needPassword "ss password"
  let method ←
    match node.config with
    | .shadowsocks cfg => .ok cfg.method
    | _ => .error (.missingField "ss method")
  .ok ("shadowsocks",
    serverSettings node [("method", .str method), ("password", .str password)], none)

/-- `vmess`. -/
def vmess (node : Node) : Emit := do
  let uuid ← node.authentication.needUuid "vmess uuid"
  let (alterId, security) : UInt32 × Str :=
    match node.config with
    | .vmess cfg => (cfg.alterId.getD 0, cfg.security.getD "auto")
    | _ => (0, "auto")
  .ok ("vmess", userSettings node [("id", .str uuid), ("alterId", Json.ofNat alterId.toNat),
    ("security", .str security)], some (streamSettings node))

/-- `vless`: Xray asks for `encryption: none`. -/
def vless (node : Node) : Emit := do
  let uuid ← node.authentication.needUuid "vless uuid"
  let flow :=
    match node.config with
    | .vlessReality cfg => cfg.flow
    | _ => none
  .ok ("vless", userSettings node ([("id".toList, .str uuid), ("encryption".toList, .str "none")] ++
    member "flow" (flow.map Json.str)), some (streamSettings node))

/-! ## 3. WireGuard -/

/-- The members of one peer. -/
def wireGuardPeer (node : Node) (p : WireGuardPeer) : Json :=
  .obj ([("publicKey".toList, .str p.publicKey),
    ("endpoint".toList,
      .str (node.endpoint.host.uriHost ++ ':' :: natText node.endpoint.port.toNat))] ++
    member "preSharedKey" (p.preSharedKey.map Json.str) ++
    (if p.allowedIps.isEmpty then [] else [("allowedIPs".toList, strs p.allowedIps)]) ++
    member "keepAlive" (p.persistentKeepalive.bind fun d =>
      if d.wholeSeconds ≥ 0 then some (Json.ofNat d.wholeSeconds.toNat) else none))

/-- `emit_wireguard`: the reserved octets of the first peer stand in the settings. -/
def emitWireGuard (node : Node) : Except EmitError Json :=
  match node.config with
  | .wireGuard cfg =>
      let settings : List (Str × Json) :=
        [("secretKey".toList, .str cfg.privateKey)] ++
          (if cfg.address.isEmpty then [] else [("address".toList, strs cfg.address)]) ++
          member "mtu" (cfg.mtu.map fun n => Json.ofNat n.toNat) ++
          member "reserved" ((cfg.peers.head?.bind WireGuardPeer.reserved).map fun r =>
            .arr [Json.ofNat r.1.toNat, Json.ofNat r.2.1.toNat, Json.ofNat r.2.2.toNat]) ++
          [("peers".toList, .arr (cfg.peers.map (wireGuardPeer node)))]
      .ok (.obj [("tag", .str node.displayName), ("protocol", .str "wireguard"),
        ("settings", .obj settings)])
  | _ => .error (.missingField "wireguard config")

/-! ## 4. Outbounds and the document -/

/-- The parts of an outbound by protocol. -/
def outboundParts (node : Node) : Emit :=
  match node.protocol with
  | .trojan => trojan node
  | .shadowsocks => shadowsocks node
  | .vmess => vmess node
  | .vless => vless node
  | other => .error (.noEmitter ("v2ray: unsupported protocol ".toList ++ other.text))

/-- `emit_outbound`. -/
def emitOutbound (node : Node) : Except EmitError Json :=
  if node.protocol = .wireGuard then emitWireGuard node
  else do
    let (protocol, settings, stream) ← outboundParts node
    .ok (.obj ([("tag".toList, .str node.displayName), ("protocol".toList, .str protocol),
      ("settings".toList, settings)] ++ member "streamSettings" stream))

/-- The document as a value. -/
def document (nodes : List Node) : Except EmitError Json := do
  let outbounds ← nodes.mapM emitOutbound
  .ok (.obj [("outbounds", .arr outbounds)])

/-- `emit_xray_compatible`, which is `xray::emit`. -/
def emitXrayCompatible (nodes : List Node) : Except EmitError Str :=
  (document nodes).map Json.pretty

/-- Whether V2Ray runs the protocol and the transport of a node. -/
def isSupported (node : Node) : Bool :=
  node.protocol ∈ [.vless, .vmess, .trojan, .shadowsocks] &&
    node.transport.all fun t => t.kind ∈ [.tcp, .ws, .h2, .grpc, .quic]

/-- What `v2ray::emit` refuses before it writes anything. -/
def refuse (nodes : List Node) : Except EmitError Unit := do
  rejectWhen (nodes.any fun n => !isSupported n)
    (.noEmitter "unsupported V2Ray protocol or transport")
  rejectWhen (nodes.any fun n => n.tls.any fun t => t.reality.isSome)
    (.noEmitter "V2Ray does not support Reality security")

/-- `emit`. -/
def emit (nodes : List Node) : Except EmitError Str := do
  refuse nodes
  emitXrayCompatible nodes

end DeveSub.V2Ray
