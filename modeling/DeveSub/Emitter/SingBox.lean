/-
  File:      DeveSub/Emitter/SingBox.lean
  Subject:   The sing-box emitter (`container/singbox.rs`, `container/singbox_wireguard.rs` of
             `deve-sub-emitter`).

  WireGuard nodes become endpoints; a ShadowTLS node becomes a wrapper outbound with a tag of
  its own and an inner outbound whose `detour` names it; every other node becomes one outbound.
-/
import DeveSub.Emitter.Common

namespace DeveSub.SingBox

/-! ## 1. Shared fields -/

/-- The `reality` object of a TLS object. -/
def realityObject (reality : RealityConfig) : Json :=
  .obj ([("enabled".toList, .bool true)] ++
    (if reality.publicKey.isEmpty then [] else [("public_key".toList, .str reality.publicKey)]) ++
    (if reality.shortId.isEmpty then [] else [("short_id".toList, .str reality.shortId)]))

/-- The members of the `tls` object. -/
def tlsMembers (tls : TlsConfig) : List (Str × Json) :=
  (if tls.enabled || tls.reality.isSome then [("enabled".toList, .bool true)] else []) ++
    member "server_name" (tls.serverName.map Json.str) ++
    (if tls.skipCertVerify = some true then [("insecure".toList, .bool true)] else []) ++
    (if tls.alpn.isEmpty then [] else [("alpn".toList, strs tls.alpn)]) ++
    member "utls" (tls.clientFingerprint.map fun fp =>
      .obj [("enabled", .bool true), ("fingerprint", .str fp)]) ++
    member "reality" (tls.reality.map realityObject)

/-- `push_tls_fields`: no object without members. -/
def tlsFields (node : Node) : List (Str × Json) :=
  match node.tls with
  | none => []
  | some tls =>
      if (tlsMembers tls).isEmpty then [] else [("tls".toList, .obj (tlsMembers tls))]

/-- The type of a transport object; TCP and the transports sing-box lacks have none. -/
def transportType : TransportKind → Option Str
  | .ws => some "ws"
  | .h2 => some "http"
  | .grpc => some "grpc"
  | .quic => some "quic"
  | .httpUpgrade => some "httpupgrade"
  | .tcp | .kcp | .xtls | .xhttp => none

/-- The host member of a transport object. -/
def hostMember (kind : TransportKind) (host : Str) : List (Str × Json) :=
  match kind with
  | .ws | .httpUpgrade => [("headers".toList, .obj [("Host", .str host)])]
  | .h2 => [("host".toList, .str host)]
  | _ => []

/-- `singbox_transport`. -/
def singboxTransport (t : Transport) : Option Json :=
  (transportType t.kind).map fun ty =>
    .obj ([("type".toList, .str ty)] ++ member "path" (t.path.map Json.str) ++
      (match t.host with
        | some host => hostMember t.kind host
        | none => []))

/-- `push_transport_fields`. -/
def transportFields (node : Node) : List (Str × Json) :=
  member "transport" (node.transport.bind singboxTransport)

/-- `format_go_duration`. -/
def formatGoDuration (d : Duration) : Str :=
  let totalMs := d.wholeMilliseconds
  if totalMs = 0 then "0s".toList
  else
    -- `unsigned_abs() as i64`
    let absMs := Int.bmod totalMs.natAbs (2 ^ 64)
    let hours := absMs.tdiv 3600000
    let mins := (absMs.tmod 3600000).tdiv 60000
    let secs := (absMs.tmod 60000).tdiv 1000
    let ms := absMs.tmod 1000
    (if totalMs < 0 then ['-'] else []) ++
      (if hours > 0 then intText hours ++ ['h'] else []) ++
      (if mins > 0 then intText mins ++ ['m'] else []) ++
      (if secs > 0 ∨ (hours = 0 ∧ mins = 0 ∧ ms = 0) then intText secs ++ ['s'] else []) ++
      (if ms > 0 then intText ms ++ ['m', 's'] else [])

/-- The packet encoding sing-box knows: `packet` is its `xudp`. -/
def singboxPacketEncoding (pe : Str) : Str := if pe = "packet" then "xudp" else pe

/-! ## 2. The fields of each protocol -/

/-- Type and fields of an outbound. -/
abbrev EmitResult := Except EmitError (Str × List (Str × Json))

/-- `trojan`. -/
def trojan (node : Node) : EmitResult := do
  let password ← node.authentication.needPassword "trojan password"
  .ok ("trojan", [("password".toList, .str password)] ++ tlsFields node ++ transportFields node)

/-- `shadowsocks`. -/
def shadowsocks (node : Node) : EmitResult := do
  let password ← node.authentication.needPassword "ss password"
  let cfg ←
    match node.config with
    | .shadowsocks cfg => .ok cfg
    | _ => .error (.missingField "ss method")
  .ok ("shadowsocks", [("method".toList, .str cfg.method), ("password".toList, .str password)] ++
    member "plugin" (cfg.plugin.map Json.str) ++ member "plugin_opts" (cfg.pluginOpts.map Json.str))

/-- `vmess`. -/
def vmess (node : Node) : EmitResult := do
  let uuid ← node.authentication.needUuid "vmess uuid"
  let own :=
    match node.config with
    | .vmess cfg =>
        member "alter_id" (cfg.alterId.map fun n => Json.ofNat n.toNat) ++
          member "security" (cfg.security.map Json.str) ++
          member "packet_encoding" (cfg.packetEncoding.map fun pe => .str (singboxPacketEncoding pe))
    | _ => []
  .ok ("vmess", [("uuid".toList, .str uuid)] ++ own ++ tlsFields node ++ transportFields node)

/-- `vless`. -/
def vless (node : Node) : EmitResult := do
  let uuid ← node.authentication.needUuid "vless uuid"
  let own :=
    match node.config with
    | .vlessReality cfg =>
        member "flow" (cfg.flow.map Json.str) ++
          member "packet_encoding" (cfg.packetEncoding.map fun pe => .str (singboxPacketEncoding pe))
    | _ => []
  .ok ("vless", [("uuid".toList, .str uuid)] ++ own ++ tlsFields node ++ transportFields node)

/-- `hysteria2`. -/
def hysteria2 (node : Node) : EmitResult := do
  let password ← node.authentication.needPassword "hysteria2 password"
  let cfg ←
    match node.config with
    | .hysteria2 cfg => .ok cfg
    | _ => .error (.missingField "hysteria2 config")
  let bandwidth :=
    match node.congestion with
    | some cong =>
        member "up_mbps" (cong.upBps.map fun b => Json.ofNat (b.toNat / 1000000)) ++
          member "down_mbps" (cong.downBps.map fun b => Json.ofNat (b.toNat / 1000000))
    | none => []
  let obfs :=
    match node.obfuscation with
    | some o =>
        [("obfs".toList,
          .obj (("type".toList, .str o.kind) :: member "password" (o.password.map Json.str)))]
    | none => []
  .ok ("hysteria2", [("password".toList, .str password)] ++ tlsFields node ++ bandwidth ++
    member "server_ports" (cfg.ports.map Json.str) ++
    member "hop_interval" (cfg.hopInterval.map fun d => .str (formatGoDuration d)) ++ obfs ++
    member "fast_open" (cfg.fastOpen.map Json.bool) ++ member "lazy" (cfg.lazy.map Json.bool))

/-- `tuic_v5`. -/
def tuicV5 (node : Node) : EmitResult := do
  let (uuid, password) ← node.authentication.needUuidPassword "tuic v5 uuid+password"
  let cfg ←
    match node.config with
    | .tuicV5 cfg => .ok cfg
    | _ => .error (.missingField "tuic v5 config")
  .ok ("tuic", [("uuid".toList, .str uuid), ("password".toList, .str password)] ++
    tlsFields node ++
    member "congestion_control" (node.congestion.map fun c => .str c.controller.name) ++
    member "udp_relay_mode" (cfg.udpRelayMode.map fun m => .str m.name) ++
    member "zero_rtt_handshake" (cfg.zeroRttHandshake.map Json.bool) ++
    member "heartbeat" (cfg.heartbeat.map fun d => .str (formatGoDuration d)))

/-- `anytls`. -/
def anytls (node : Node) : EmitResult := do
  let password ← node.authentication.needPassword "anytls password"
  let cfg ←
    match node.config with
    | .anyTls cfg => .ok cfg
    | _ => .error (.missingField "anytls config")
  .ok ("anytls", [("password".toList, .str password)] ++ tlsFields node ++
    member "idle_session_check_interval"
      (cfg.idleSessionCheckInterval.map fun d => .str (formatGoDuration d)) ++
    member "idle_session_timeout"
      (cfg.idleSessionTimeout.map fun d => .str (formatGoDuration d)) ++
    member "min_idle_session" (cfg.minIdleSession.map fun n => Json.ofNat n.toNat) ++
    member "client_metadata" (cfg.clientMetadata.map Json.str))

/-- The fields that depend on the Snell version. -/
def snellVersionFields (cfg : SnellConfig) : Except EmitError (List (Str × Json)) :=
  match cfg.version with
  | .v4 =>
      match cfg.obfs with
      | none => .ok []
      | some obfs => do
          let mode ←
            match obfs.mode with
            | .http => .ok "http".toList
            | .tls => .ok "tls".toList
            | m => .error (.noEmitter ("singbox: snell obfs mode ".toList ++ m.debug ++
                " not supported by sing-box".toList))
          .ok ([("obfs_mode".toList, .str mode)] ++ member "obfs_host" (obfs.host.map Json.str))
  | .v6 =>
      .ok (member "mode" (cfg.v6Mode.map fun m =>
        match m with
        | .default => .str "default"
        | .unshaped => .str "unshaped"
        | .unsafeRaw => .str "unsafe-raw"))
  | other =>
      .error (.noEmitter ("singbox: snell v".toList ++ natText other.asU32 ++
        " not supported (only v4/v6)".toList))

/-- Snell settings sing-box cannot keep. -/
def snellBeyondSingBox (node : Node) (cfg : SnellConfig) : Bool :=
  !cfg.tlsIsObfsAlias node.tls || cfg.version = .v6 && cfg.obfs.isSome ||
    cfg.version ≠ .v6 && cfg.v6Mode.isSome ||
    cfg.obfs.any fun o => o.password.isSome || o.version.isSome || !o.alpn.isEmpty

/-- `snell`. -/
def snell (node : Node) : EmitResult := do
  let psk ← node.authentication.needPassword "snell psk"
  let cfg ←
    match node.config with
    | .snell cfg => .ok cfg
    | _ => .error (.missingField "snell config")
  rejectWhen (snellBeyondSingBox node cfg)
    (.noEmitter "sing-box Snell cannot preserve these TLS/obfuscation settings")
  let versionFields ← snellVersionFields cfg
  .ok ("snell", [("psk".toList, .str psk), ("version".toList, Json.ofNat cfg.version.asU32)] ++
    member "reuse" (cfg.reuse.map Json.bool) ++
    member "userkey" (((node.extra "snell_userkey").bind Json.asStr).map Json.str) ++ versionFields)

/-! ## 3. Outbounds and endpoints -/

/-- The fields by protocol. -/
def outboundFields (node : Node) : EmitResult :=
  match node.protocol with
  | .trojan => trojan node
  | .shadowsocks => shadowsocks node
  | .vmess => vmess node
  | .vless => vless node
  | .hysteria2 => hysteria2 node
  | .tuicV5 => tuicV5 node
  | .anyTls => anytls node
  | .snell => snell node
  | other => .error (.noEmitter ("singbox: unsupported protocol ".toList ++ other.text))

/-- `emit_outbound`, the members of the object. -/
def emitOutbound (node : Node) : Except EmitError (List (Str × Json)) := do
  let (ty, fields) ← outboundFields node
  .ok ([("type".toList, .str ty), ("tag".toList, .str node.displayName),
    ("server".toList, .str node.endpoint.host.uriHost),
    ("server_port".toList, Json.ofNat node.endpoint.port.toNat)] ++ fields)

/-- `shadowtls_pair`: wrapper and inner outbound. -/
def shadowTlsPair (node : Node) (tag : Str) : Except EmitError (Json × Json) :=
  match node.config with
  | .shadowTls version password innerProtocol innerConfig => do
      let wrapper : List (Str × Json) :=
        [("type".toList, .str "shadowtls"), ("tag".toList, .str tag),
          ("server".toList, .str node.endpoint.host.uriHost),
          ("server_port".toList, Json.ofNat node.endpoint.port.toNat),
          ("version".toList, Json.ofNat version.asU32)] ++
          member "password" (password.map Json.str) ++ tlsFields node
      let inner ← emitOutbound { node with protocol := innerProtocol, config := innerConfig, tls := none }
      .ok (.obj wrapper, .obj (inner ++ [("detour".toList, .str tag)]))
  | _ => .error (.missingField "shadowtls config")

/-- The keepalive of a peer, in whole seconds that fit `u16`. -/
def keepaliveInterval : Option Duration → Except EmitError (Option Json)
  | none => .ok none
  | some d =>
      if d.wholeSeconds < 0 ∨ d.wholeSeconds > 65535 then
        .error (.noEmitter "WireGuard keepalive must fit uint16 seconds")
      else if d.subsecNanoseconds ≠ 0 then
        .error (.noEmitter "WireGuard keepalive must be whole seconds")
      else .ok (some (Json.ofNat d.wholeSeconds.toNat))

/-- The members of one WireGuard peer. -/
def wireGuardPeer (node : Node) (peer : WireGuardPeer) : Except EmitError Json := do
  let keepalive ← keepaliveInterval peer.persistentKeepalive
  let address : Str :=
    match node.endpoint.host with
    | .ipv6 ip => ip.text
    | host => host.uriHost
  .ok (.obj ([("address".toList, .str address),
    ("port".toList, Json.ofNat node.endpoint.port.toNat),
    ("public_key".toList, .str peer.publicKey), ("allowed_ips".toList, strs peer.allowedIps)] ++
    member "pre_shared_key" (peer.preSharedKey.map Json.str) ++
    member "reserved" (peer.reserved.map fun r =>
      .arr [Json.ofNat r.1.toNat, Json.ofNat r.2.1.toNat, Json.ofNat r.2.2.toNat]) ++
    member "persistent_keepalive_interval" keepalive))

/-- `singbox_wireguard::emit`. -/
def emitWireGuard (node : Node) : Except EmitError Json :=
  match node.config with
  | .wireGuard cfg => do
      rejectWhen (!cfg.dns.isEmpty)
        (.noEmitter "sing-box WireGuard endpoint cannot preserve interface DNS")
      let peers ← cfg.peers.mapM (wireGuardPeer node)
      .ok (.obj ([("type".toList, .str "wireguard"), ("tag".toList, .str node.displayName),
        ("private_key".toList, .str cfg.privateKey), ("address".toList, strs cfg.address),
        ("peers".toList, .arr peers)] ++ member "mtu" (cfg.mtu.map fun n => Json.ofNat n.toNat) ++
        member "workers" (cfg.workers.map fun n => Json.ofNat n.toNat)))
  | _ => .error (.missingField "wireguard config")

/-! ## 4. The document -/

/-- The candidates for a wrapper's tag: `base`, `base-2`, `base-3` and so on. -/
def wrapperCandidate (base : Str) (i : Nat) : Str :=
  if i = 0 then base else base ++ '-' :: natText (i + 1)

/-- The first candidate that is not a tag yet. Among one more candidates than there are tags one
    is free, so the search is over that many. -/
def wrapperTag (tags : List Str) (base : Str) : Str :=
  (((List.range (tags.length + 1)).map (wrapperCandidate base)).find? fun t => t ∉ tags).getD base

/-- What the loop over the nodes collects. -/
structure Emitted where
  tags : List Str
  outbounds : List Json
  endpoints : List Json

/-- One node of the loop. -/
def emitNode (acc : Emitted) (node : Node) : Except EmitError Emitted :=
  if node.protocol = .wireGuard then do
    let endpoint ← emitWireGuard node
    .ok { acc with endpoints := acc.endpoints ++ [endpoint] }
  else if node.protocol = .shadowTls then do
    let tag := wrapperTag acc.tags (node.displayName ++ "-stls".toList)
    let (wrapper, inner) ← shadowTlsPair node tag
    .ok { acc with tags := tag :: acc.tags, outbounds := acc.outbounds ++ [wrapper, inner] }
  else do
    let outbound ← emitOutbound node
    .ok { acc with outbounds := acc.outbounds ++ [.obj outbound] }

/-- The document as a value. -/
def document (nodes : List Node) : Except EmitError Json := do
  rejectWhen (¬ (nodes.map Node.displayName).Nodup) (.encode "duplicate sing-box node tags")
  let acc ← nodes.foldlM emitNode
    { tags := nodes.map Node.displayName, outbounds := [], endpoints := [] }
  .ok (.obj ([("outbounds".toList, .arr acc.outbounds)] ++
    (if acc.endpoints.isEmpty then [] else [("endpoints".toList, .arr acc.endpoints)]) ++
    (match nodes with
      | first :: _ => [("route".toList, .obj [("final", .str first.displayName)])]
      | [] => [])))

/-- `emit`. -/
def emit (nodes : List Node) : Except EmitError Str := (document nodes).map Json.pretty

end DeveSub.SingBox
