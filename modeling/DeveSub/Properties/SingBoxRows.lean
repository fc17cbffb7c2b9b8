/-
  File:      DeveSub/Properties/SingBoxRows.lean
  Subject:   The outbounds of a sing-box document as tables of rows.

  Each protocol writes its own fields behind `type`, `tag`, `server` and `server_port`. The tables
  say which keys these are, so that a reader's lookup is a lookup in the table and no key is
  written twice.

  * `OutboundRows` -- the table of an outbound, by protocol;
  * **`outboundFields_eq_ok`** -- every outbound is written from such a table;
  * **`OutboundRows.nodup`** -- its keys differ.
-/
import DeveSub.Emitter.SingBox
import DeveSub.Properties.EmittedJson

namespace DeveSub.SingBox

/-! ## 1. TLS and transport objects -/

/-- The `tls` row of an outbound. -/
def tlsValue (tls : Option TlsConfig) : Option Json :=
  tls.bind fun t => if (tlsMembers t).isEmpty then none else some (.obj (tlsMembers t))

theorem tlsFields_eq (n : Node) : tlsFields n = member "tls" (tlsValue n.tls) := by
  unfold tlsFields tlsValue
  cases n.tls with
  | none => rfl
  | some t => rw [Option.bind_some, member_ite]

/-! ## 2. Tables by protocol -/

/-- The rows every outbound begins with. -/
def baseRows (n : Node) (ty : Str) : Rows :=
  [("type", some (.str ty)), ("tag", some (.str n.displayName)),
    ("server", some (.str n.endpoint.host.uriHost)),
    ("server_port", some (Json.ofNat n.endpoint.port.toNat))]

def trojanRows (n : Node) (password : Str) : Rows :=
  [("password", some (.str password)), ("tls", tlsValue n.tls),
    ("transport", n.transport.bind singboxTransport)]

def shadowsocksRows (password : Str) (cfg : ShadowsocksConfig) : Rows :=
  [("method", some (.str cfg.method)), ("password", some (.str password)),
    ("plugin", cfg.plugin.map Json.str), ("plugin_opts", cfg.pluginOpts.map Json.str)]

/-- VMess rows; a node with another configuration has none of its own. -/
def vmessRows (n : Node) (uuid : Str) (cfg : Option VMessConfig) : Rows :=
  [("uuid", some (.str uuid)),
    ("alter_id", (cfg.bind VMessConfig.alterId).map fun a => Json.ofNat a.toNat),
    ("security", (cfg.bind VMessConfig.security).map Json.str),
    ("packet_encoding",
      (cfg.bind VMessConfig.packetEncoding).map fun pe => .str (singboxPacketEncoding pe)),
    ("tls", tlsValue n.tls), ("transport", n.transport.bind singboxTransport)]

/-- VLESS rows; a node with another configuration has none of its own. -/
def vlessRows (n : Node) (uuid : Str) (cfg : Option VlessRealityConfig) : Rows :=
  [("uuid", some (.str uuid)), ("flow", (cfg.bind VlessRealityConfig.flow).map Json.str),
    ("packet_encoding",
      (cfg.bind VlessRealityConfig.packetEncoding).map fun pe => .str (singboxPacketEncoding pe)),
    ("tls", tlsValue n.tls), ("transport", n.transport.bind singboxTransport)]

/-- The rows of an `obfs` object. -/
def obfsRows (o : Obfuscation) : Rows :=
  [("type", some (.str o.kind)), ("password", o.password.map Json.str)]

def hysteria2Rows (n : Node) (password : Str) (cfg : Hysteria2Config) : Rows :=
  [("password", some (.str password)), ("tls", tlsValue n.tls),
    ("up_mbps",
      (n.congestion.bind CongestionConfig.upBps).map fun b => Json.ofNat (b.toNat / 1000000)),
    ("down_mbps",
      (n.congestion.bind CongestionConfig.downBps).map fun b => Json.ofNat (b.toNat / 1000000)),
    ("server_ports", cfg.ports.map Json.str),
    ("hop_interval", cfg.hopInterval.map fun d => .str (formatGoDuration d)),
    ("obfs", n.obfuscation.map fun o => .obj (rowMembers (obfsRows o))),
    ("fast_open", cfg.fastOpen.map Json.bool), ("lazy", cfg.lazy.map Json.bool)]

def tuicRows (n : Node) (uuid password : Str) (cfg : TuicV5Config) : Rows :=
  [("uuid", some (.str uuid)), ("password", some (.str password)), ("tls", tlsValue n.tls),
    ("congestion_control", n.congestion.map fun c => .str c.controller.name),
    ("udp_relay_mode", cfg.udpRelayMode.map fun m => .str m.name),
    ("zero_rtt_handshake", cfg.zeroRttHandshake.map Json.bool),
    ("heartbeat", cfg.heartbeat.map fun d => .str (formatGoDuration d))]

def anyTlsRows (n : Node) (password : Str) (cfg : AnyTlsConfig) : Rows :=
  [("password", some (.str password)), ("tls", tlsValue n.tls),
    ("idle_session_check_interval",
      cfg.idleSessionCheckInterval.map fun d => .str (formatGoDuration d)),
    ("idle_session_timeout", cfg.idleSessionTimeout.map fun d => .str (formatGoDuration d)),
    ("min_idle_session", cfg.minIdleSession.map fun k => Json.ofNat k.toNat),
    ("client_metadata", cfg.clientMetadata.map Json.str)]

/-- Snell rows; `mode`, `host` and `v6` are the fields of the version. -/
def snellRows (n : Node) (psk : Str) (cfg : SnellConfig) (mode host v6 : Option Str) : Rows :=
  [("psk", some (.str psk)), ("version", some (Json.ofNat cfg.version.asU32)),
    ("reuse", cfg.reuse.map Json.bool),
    ("userkey", ((n.extra "snell_userkey").bind Json.asStr).map Json.str),
    ("obfs_mode", mode.map Json.str), ("obfs_host", host.map Json.str), ("mode", v6.map Json.str)]

/-- **The table of an outbound**, with its type. -/
inductive OutboundRows (n : Node) : Str → Rows → Prop
  | trojan (hp : n.protocol = .trojan) (password : Str) :
      OutboundRows n "trojan" (trojanRows n password)
  | shadowsocks (hp : n.protocol = .shadowsocks) (password : Str) (cfg : ShadowsocksConfig) :
      OutboundRows n "shadowsocks" (shadowsocksRows password cfg)
  | vmess (hp : n.protocol = .vmess) (uuid : Str) (cfg : Option VMessConfig) :
      OutboundRows n "vmess" (vmessRows n uuid cfg)
  | vless (hp : n.protocol = .vless) (uuid : Str) (cfg : Option VlessRealityConfig) :
      OutboundRows n "vless" (vlessRows n uuid cfg)
  | hysteria2 (hp : n.protocol = .hysteria2) (password : Str) (cfg : Hysteria2Config) :
      OutboundRows n "hysteria2" (hysteria2Rows n password cfg)
  | tuic (hp : n.protocol = .tuicV5) (uuid password : Str) (cfg : TuicV5Config) :
      OutboundRows n "tuic" (tuicRows n uuid password cfg)
  | anyTls (hp : n.protocol = .anyTls) (password : Str) (cfg : AnyTlsConfig) :
      OutboundRows n "anytls" (anyTlsRows n password cfg)
  | snell (hp : n.protocol = .snell) (psk : Str) (cfg : SnellConfig) (mode host v6 : Option Str) :
      OutboundRows n "snell" (snellRows n psk cfg mode host v6)

theorem snellVersionFields_eq_ok {cfg : SnellConfig} {fields : List (Str × Json)}
    (h : snellVersionFields cfg = .ok fields) :
    ∃ mode host v6 : Option Str, fields =
      rowMembers [("obfs_mode", mode.map Json.str), ("obfs_host", host.map Json.str),
        ("mode", v6.map Json.str)] := by
  unfold snellVersionFields at h
  split at h
  · split at h
    · cases h
      exact ⟨none, none, none, rfl⟩
    · rename_i obfs _
      have hwritten : ∀ mode : Str, [("obfs_mode".toList, Json.str mode)] ++
          member "obfs_host" (obfs.host.map Json.str) = fields →
          ∃ mode host v6 : Option Str, fields = rowMembers [("obfs_mode", mode.map Json.str),
            ("obfs_host", host.map Json.str), ("mode", v6.map Json.str)] := by
        intro mode hfields
        refine ⟨some mode, obfs.host, none, ?_⟩
        rw [← hfields, rowMembers_cons, rowMembers_cons, rowMembers_cons, rowMembers_nil]
        exact (congrArg _ (List.append_nil _)).symm
      dsimp only at h
      split at h
      · exact hwritten _ (Except.ok.inj h)
      · exact hwritten _ (Except.ok.inj h)
      · cases h
  · cases h
    cases cfg.v6Mode with
    | none => exact ⟨none, none, none, rfl⟩
    | some m => cases m <;> exact ⟨none, none, some _, rfl⟩
  · cases h

section Written

variable {n : Node} {ty : Str} {fields : List (Str × Json)}

theorem trojan_eq_ok (h : trojan n = .ok (ty, fields)) :
    ty = "trojan" ∧ ∃ password, fields = rowMembers (trojanRows n password) := by
  obtain ⟨password, -, h⟩ := bind_eq_ok.mp h
  cases h
  refine ⟨rfl, password, ?_⟩
  simp [trojanRows, tlsFields_eq, transportFields]

theorem shadowsocks_eq_ok (h : shadowsocks n = .ok (ty, fields)) :
    ty = "shadowsocks" ∧ ∃ password cfg, fields = rowMembers (shadowsocksRows password cfg) := by
  obtain ⟨password, -, h⟩ := bind_eq_ok.mp h
  dsimp only at h
  split at h
  · rename_i cfg _
    cases h
    refine ⟨rfl, password, cfg, ?_⟩
    simp [shadowsocksRows]
  · cases h

theorem vmess_eq_ok (h : vmess n = .ok (ty, fields)) :
    ty = "vmess" ∧ ∃ uuid cfg, fields = rowMembers (vmessRows n uuid cfg) := by
  obtain ⟨uuid, -, h⟩ := bind_eq_ok.mp h
  cases hc : n.config with
  | vmess cfg =>
      rw [hc] at h
      cases h
      refine ⟨rfl, uuid, some cfg, ?_⟩
      simp [vmessRows, tlsFields_eq, transportFields]
  | _ =>
      rw [hc] at h
      cases h
      refine ⟨rfl, uuid, none, ?_⟩
      simp [vmessRows, tlsFields_eq, transportFields]

theorem vless_eq_ok (h : vless n = .ok (ty, fields)) :
    ty = "vless" ∧ ∃ uuid cfg, fields = rowMembers (vlessRows n uuid cfg) := by
  obtain ⟨uuid, -, h⟩ := bind_eq_ok.mp h
  cases hc : n.config with
  | vlessReality cfg =>
      rw [hc] at h
      cases h
      refine ⟨rfl, uuid, some cfg, ?_⟩
      simp [vlessRows, tlsFields_eq, transportFields]
  | _ =>
      rw [hc] at h
      cases h
      refine ⟨rfl, uuid, none, ?_⟩
      simp [vlessRows, tlsFields_eq, transportFields]

theorem hysteria2_eq_ok (h : hysteria2 n = .ok (ty, fields)) :
    ty = "hysteria2" ∧ ∃ password cfg, fields = rowMembers (hysteria2Rows n password cfg) := by
  obtain ⟨password, -, h⟩ := bind_eq_ok.mp h
  dsimp only at h
  split at h
  · rename_i cfg _
    cases h
    refine ⟨rfl, password, cfg, ?_⟩
    cases hcong : n.congestion <;> cases hobfs : n.obfuscation <;>
      simp [hysteria2Rows, obfsRows, hcong, hobfs, tlsFields_eq]
  · cases h

theorem tuicV5_eq_ok (h : tuicV5 n = .ok (ty, fields)) :
    ty = "tuic" ∧ ∃ uuid password cfg, fields = rowMembers (tuicRows n uuid password cfg) := by
  obtain ⟨⟨uuid, password⟩, -, h⟩ := bind_eq_ok.mp h
  dsimp only at h
  split at h
  · rename_i cfg _
    cases h
    refine ⟨rfl, uuid, password, cfg, ?_⟩
    simp [tuicRows, tlsFields_eq]
  · cases h

theorem anytls_eq_ok (h : anytls n = .ok (ty, fields)) :
    ty = "anytls" ∧ ∃ password cfg, fields = rowMembers (anyTlsRows n password cfg) := by
  obtain ⟨password, -, h⟩ := bind_eq_ok.mp h
  dsimp only at h
  split at h
  · rename_i cfg _
    cases h
    refine ⟨rfl, password, cfg, ?_⟩
    simp [anyTlsRows, tlsFields_eq]
  · cases h

theorem snell_eq_ok (h : snell n = .ok (ty, fields)) :
    ty = "snell" ∧ ∃ psk cfg mode host v6,
      fields = rowMembers (snellRows n psk cfg mode host v6) := by
  obtain ⟨psk, -, h⟩ := bind_eq_ok.mp h
  dsimp only at h
  split at h
  · rename_i cfg _
    rw [ok_bind] at h
    obtain ⟨_, -, h⟩ := bind_eq_ok.mp h
    obtain ⟨versionFields, hversion, h⟩ := bind_eq_ok.mp h
    cases h
    obtain ⟨mode, host, v6, rfl⟩ := snellVersionFields_eq_ok hversion
    refine ⟨rfl, psk, cfg, mode, host, v6, ?_⟩
    simp only [snellRows, rowMembers_cons, rowMembers_nil, member_some, List.append_nil,
      List.append_assoc, List.cons_append, List.nil_append]
  · cases h

/-- **Every outbound is written from a table.** -/
theorem outboundFields_eq_ok (h : outboundFields n = .ok (ty, fields)) :
    ∃ rows, OutboundRows n ty rows ∧ fields = rowMembers rows := by
  unfold outboundFields at h
  split at h
  case h_1 hp =>
    obtain ⟨rfl, password, hfields⟩ := trojan_eq_ok h
    exact ⟨_, .trojan hp password, hfields⟩
  case h_2 hp =>
    obtain ⟨rfl, password, cfg, hfields⟩ := shadowsocks_eq_ok h
    exact ⟨_, .shadowsocks hp password cfg, hfields⟩
  case h_3 hp =>
    obtain ⟨rfl, uuid, cfg, hfields⟩ := vmess_eq_ok h
    exact ⟨_, .vmess hp uuid cfg, hfields⟩
  case h_4 hp =>
    obtain ⟨rfl, uuid, cfg, hfields⟩ := vless_eq_ok h
    exact ⟨_, .vless hp uuid cfg, hfields⟩
  case h_5 hp =>
    obtain ⟨rfl, password, cfg, hfields⟩ := hysteria2_eq_ok h
    exact ⟨_, .hysteria2 hp password cfg, hfields⟩
  case h_6 hp =>
    obtain ⟨rfl, uuid, password, cfg, hfields⟩ := tuicV5_eq_ok h
    exact ⟨_, .tuic hp uuid password cfg, hfields⟩
  case h_7 hp =>
    obtain ⟨rfl, password, cfg, hfields⟩ := anytls_eq_ok h
    exact ⟨_, .anyTls hp password cfg, hfields⟩
  case h_8 hp =>
    obtain ⟨rfl, psk, cfg, mode, host, v6, hfields⟩ := snell_eq_ok h
    exact ⟨_, .snell hp psk cfg mode host v6, hfields⟩
  case h_9 => cases h

/-- The members of an outbound. -/
theorem emitOutbound_eq_ok {ms : List (Str × Json)} (h : emitOutbound n = .ok ms) :
    ∃ ty rows, OutboundRows n ty rows ∧ ms = rowMembers (baseRows n ty ++ rows) := by
  obtain ⟨⟨ty, fields⟩, hfields, h⟩ := bind_eq_ok.mp h
  cases h
  obtain ⟨rows, hrows, rfl⟩ := outboundFields_eq_ok hfields
  refine ⟨ty, rows, hrows, ?_⟩
  rw [rowMembers_append]
  simp only [baseRows, rowMembers_cons, rowMembers_nil, member_some, List.append_nil,
    List.cons_append, List.nil_append]

end Written

/-! ## 3. What the tables have in common -/

namespace OutboundRows

variable {n : Node} {ty : Str} {rows : Rows}

/-- **No key is written twice, and `detour` is free.** -/
theorem nodup (h : OutboundRows n ty rows) :
    ((baseRows n ty ++ rows).map Prod.fst ++ ["detour".toList]).Nodup := by
  cases h with
  | trojan =>
      show (["type", "tag", "server", "server_port", "password", "tls", "transport", "detour"] :
        List Str).Nodup
      decide
  | shadowsocks =>
      show (["type", "tag", "server", "server_port", "method", "password", "plugin", "plugin_opts",
        "detour"] : List Str).Nodup
      decide
  | vmess =>
      show (["type", "tag", "server", "server_port", "uuid", "alter_id", "security",
        "packet_encoding", "tls", "transport", "detour"] : List Str).Nodup
      decide
  | vless =>
      show (["type", "tag", "server", "server_port", "uuid", "flow", "packet_encoding", "tls",
        "transport", "detour"] : List Str).Nodup
      decide
  | hysteria2 =>
      show (["type", "tag", "server", "server_port", "password", "tls", "up_mbps", "down_mbps",
        "server_ports", "hop_interval", "obfs", "fast_open", "lazy", "detour"] : List Str).Nodup
      decide
  | tuic =>
      show (["type", "tag", "server", "server_port", "uuid", "password", "tls",
        "congestion_control", "udp_relay_mode", "zero_rtt_handshake", "heartbeat", "detour"] :
        List Str).Nodup
      decide
  | anyTls =>
      show (["type", "tag", "server", "server_port", "password", "tls",
        "idle_session_check_interval", "idle_session_timeout", "min_idle_session",
        "client_metadata", "detour"] : List Str).Nodup
      decide
  | snell =>
      show (["type", "tag", "server", "server_port", "psk", "version", "reuse", "userkey",
        "obfs_mode", "obfs_host", "mode", "detour"] : List Str).Nodup
      decide

/-- A key finds its row. -/
theorem get_eq (h : OutboundRows n ty rows) (key : Str) :
    (Json.obj (rowMembers (baseRows n ty ++ rows))).get key = rowValue (baseRows n ty ++ rows) key :=
  get_rowMembers (List.nodup_append.mp h.nodup).1 key

end OutboundRows

/-! ## 4. WireGuard endpoints -/

/-- The address of a node's peers: an IPv6 address without brackets. -/
def peerAddress (n : Node) : Str :=
  match n.endpoint.host with
  | .ipv6 ip => ip.text
  | host => host.uriHost

/-- The rows of a peer. -/
def peerRows (n : Node) (p : WireGuardPeer) (keepalive : Option Json) : Rows :=
  [("address", some (.str (peerAddress n))), ("port", some (Json.ofNat n.endpoint.port.toNat)),
    ("public_key", some (.str p.publicKey)), ("allowed_ips", some (strs p.allowedIps)),
    ("pre_shared_key", p.preSharedKey.map Json.str), ("reserved", p.reserved.map octetsJson),
    ("persistent_keepalive_interval", keepalive)]

theorem nodup_peerRows (n : Node) (p : WireGuardPeer) (keepalive : Option Json) :
    ((peerRows n p keepalive).map Prod.fst).Nodup := by
  show (["address", "port", "public_key", "allowed_ips", "pre_shared_key", "reserved",
    "persistent_keepalive_interval"] : List Str).Nodup
  decide

theorem wireGuardPeer_eq_ok {n : Node} {p : WireGuardPeer} {v : Json}
    (h : wireGuardPeer n p = .ok v) :
    ∃ keepalive : Option Nat,
      v = .obj (rowMembers (peerRows n p (keepalive.map Json.ofNat))) := by
  obtain ⟨keepalive, hkeepalive, h⟩ := bind_eq_ok.mp h
  cases h
  obtain ⟨k, rfl⟩ : ∃ k : Option Nat, keepalive = k.map Json.ofNat := by
    unfold keepaliveInterval at hkeepalive
    split at hkeepalive
    · cases hkeepalive
      exact ⟨none, rfl⟩
    · split at hkeepalive
      · cases hkeepalive
      split at hkeepalive
      · cases hkeepalive
      · cases hkeepalive
        exact ⟨some _, rfl⟩
  refine ⟨k, ?_⟩
  simp only [peerRows, peerAddress, rowMembers_cons, rowMembers_nil, member_some,
    List.append_nil, List.cons_append, List.nil_append, List.append_assoc]
  rfl

/-- The rows of an endpoint. -/
def endpointRows (n : Node) (cfg : WireGuardConfig) (peers : List Json) : Rows :=
  [("type", some (.str "wireguard")), ("tag", some (.str n.displayName)),
    ("private_key", some (.str cfg.privateKey)), ("address", some (strs cfg.address)),
    ("peers", some (.arr peers)), ("mtu", cfg.mtu.map fun k => Json.ofNat k.toNat),
    ("workers", cfg.workers.map fun k => Json.ofNat k.toNat)]

theorem nodup_endpointRows (n : Node) (cfg : WireGuardConfig) (peers : List Json) :
    ((endpointRows n cfg peers).map Prod.fst).Nodup := by
  show (["type", "tag", "private_key", "address", "peers", "mtu", "workers"] : List Str).Nodup
  decide

/-- The object of an endpoint. -/
theorem emitWireGuard_eq_ok {n : Node} {v : Json} (h : emitWireGuard n = .ok v) :
    ∃ cfg peers, n.config = .wireGuard cfg ∧ cfg.peers.mapM (wireGuardPeer n) = .ok peers ∧
      v = .obj (rowMembers (endpointRows n cfg peers)) := by
  unfold emitWireGuard at h
  split at h
  · rename_i cfg hcfg
    obtain ⟨_, -, h⟩ := bind_eq_ok.mp h
    obtain ⟨peers, hpeers, h⟩ := bind_eq_ok.mp h
    cases h
    refine ⟨cfg, peers, hcfg, hpeers, ?_⟩
    simp only [endpointRows, rowMembers_cons, rowMembers_nil, member_some, List.append_nil,
      List.cons_append, List.nil_append]
  · cases h

/-- **An endpoint reads back.** -/
theorem canonical_endpoint (float : Str → Option Str) {n : Node} {v : Json}
    (h : emitWireGuard n = .ok v) : Json.Canonical float v := by
  obtain ⟨cfg, peers, -, hpeers, rfl⟩ := emitWireGuard_eq_ok h
  have hcanonical : ∀ p ∈ peers, Json.Canonical float p := by
    intro p hp
    obtain ⟨peer, -, hpeer⟩ := mem_of_mapM hpeers p hp
    obtain ⟨keepalive, rfl⟩ := wireGuardPeer_eq_ok hpeer
    refine canonical_rowMembers float (nodup_peerRows n peer _) ?_
    simp [peerRows]
  refine canonical_rowMembers float (nodup_endpointRows n cfg peers) ?_
  simpa [endpointRows] using hcanonical

end DeveSub.SingBox
