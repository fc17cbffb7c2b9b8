/-
  File:      DeveSub/Properties/MihomoLayout.lean
  Subject:   The layout of a Mihomo document: which key of an entry carries which field of the
             node, and that the emitter's text is that layout.

  The emitter puts an entry together as text. Here the same entry is a list of rows, each a key
  and what stands behind or below it, if anything. The keys of the rows depend on the protocol
  alone.

  * `directRows`, `proxyRows` -- the rows of a node;
  * **`emitProxy_eq`** -- an emitted entry is the text of the node's rows;
  * **`emit_eq_render`** -- an emitted document is the rendered layout of its nodes.
-/
import DeveSub.Emitter.Mihomo
import DeveSub.Lib.YamlBlock

namespace DeveSub.Mihomo

open Yaml (Block Line)

/-! ## 1. Scalars and rows -/

/-- A value the emitter writes on one line. -/
inductive Scalar where
  /-- Through `yaml_dq`. -/
  | quoted (s : Str)
  /-- As it is. -/
  | plain (s : Str)
  | int (n : Int)
  | flag (b : Bool)
  /-- `[a, b]` with every item through `yaml_dq`. -/
  | list (first : Str) (more : List Str)
  /-- The three reserved bytes. -/
  | bytes (a b c : UInt8)

/-- What is written. -/
def Scalar.text : Scalar → Str
  | .quoted s => yamlDq s
  | .plain s => s
  | .int n => intText n
  | .flag b => boolText b
  | .list first more => yamlList (first :: more)
  | .bytes a b c =>
      '[' :: (natText a.toNat ++ ", ".toList ++ natText b.toNat ++ ", ".toList ++
        natText c.toNat ++ [']'])

/-- What it is written for. -/
def Scalar.value : Scalar → Yaml
  | .quoted s => .str s
  | .plain s => .str s
  | .int n => .int n
  | .flag b => .bool b
  | .list first more => .seq ((first :: more).map .str)
  | .bytes a b c => .seq [.int a.toNat, .int b.toNat, .int c.toNat]

/-- A key and what stands behind or below it, if anything. -/
abbrev Row := Str × Option (Block Scalar)

/-- The members that are there. -/
def present (rows : List Row) : List (Str × Block Scalar) :=
  rows.filterMap fun r => r.2.map fun b => (r.1, b)

/-- A value that is always written. -/
def given (s : Scalar) : Option (Block Scalar) := some (.scalar s)

/-- A value that may be absent. -/
def perhaps {α : Type} (scalar : α → Scalar) (value : Option α) : Option (Block Scalar) :=
  value.map fun a => .scalar (scalar a)

/-- A list that is left out when it is empty. -/
def listed (items : List Str) : Option (Block Scalar) :=
  match items with
  | [] => none
  | first :: more => given (.list first more)

/-- A mapping below a key. -/
def nested (rows : List Row) : Block Scalar := .map (present rows)

/-- An unsigned number. -/
def Scalar.nat (n : Nat) : Scalar := .int n

/-! ## 2. The rows of a node -/

/-- Name, type, server and port. -/
def headRows (node : Node) (ptype : Str) : List Row :=
  [("type", given (.plain ptype)), ("server", given (.quoted node.endpoint.host.uriHost)),
    ("port", given (.nat node.endpoint.port.toNat))]

/-- A text that is left out when it is empty. -/
def unlessEmpty (s : Str) : Option (Block Scalar) := if s.isEmpty then none else given (.quoted s)

/-- The rows of `push_tls`. -/
def tlsRows (tls : Option TlsConfig) : List Row :=
  [("tls", if tls.any fun t => t.enabled || t.reality.isSome then given (.flag true) else none),
    ("sni", perhaps .quoted (tls.bind TlsConfig.serverName)),
    ("skip-cert-verify", perhaps .flag (tls.bind TlsConfig.skipCertVerify)),
    ("alpn", tls.bind fun t => listed t.alpn),
    ("client-fingerprint", perhaps .quoted (tls.bind TlsConfig.clientFingerprint)),
    ("reality-opts", (tls.bind TlsConfig.reality).map fun r =>
      nested [("public-key", unlessEmpty r.publicKey), ("short-id", unlessEmpty r.shortId)])]

/-- The `headers` block of a WebSocket transport. -/
def hostHeader (host : Option Str) : Option (Block Scalar) :=
  host.map fun h => nested [("Host", given (.quoted h))]

/-- The `ws-opts` of a transport, for WebSocket and HTTP upgrade. -/
def wsOpts (t : Transport) : Option (Block Scalar) :=
  if (t.kind = .ws ∨ t.kind = .httpUpgrade) ∧ (t.path.isSome || t.host.isSome) then
    some (nested [("path", perhaps .quoted t.path), ("headers", hostHeader t.host),
      ("v2ray-http-upgrade", if t.kind = .httpUpgrade then given (.flag true) else none)])
  else none

/-- The `grpc-opts` of a transport. -/
def grpcOpts (t : Transport) : Option (Block Scalar) :=
  if t.kind = .grpc then
    t.path.map fun path => nested [("grpc-service-name", given (.quoted path))]
  else none

/-- The `h2-opts` of a transport. -/
def h2Opts (t : Transport) : Option (Block Scalar) :=
  if t.kind = .h2 ∧ (t.path.isSome || t.host.isSome) then
    some (nested [("path", perhaps .quoted t.path),
      ("host", perhaps (fun h => .list h []) t.host)])
  else none

/-- The `xhttp-opts` of a transport. -/
def xhttpOpts (t : Transport) : Option (Block Scalar) :=
  let mode := t.xhttpMode.getD .auto
  if t.kind = .xhttp ∧ (t.path.isSome || t.host.isSome || mode ≠ .auto) then
    some (nested [("path", perhaps .quoted t.path), ("host", perhaps .quoted t.host),
      ("mode", if mode ≠ .auto then given (.plain mode.asStr) else none)])
  else none

/-- The rows of `push_network`. -/
def networkRows (transport : Option Transport) : List Row :=
  [("network", perhaps (fun t => .plain t.kind.text) transport),
    ("ws-opts", transport.bind wsOpts), ("grpc-opts", transport.bind grpcOpts),
    ("h2-opts", transport.bind h2Opts), ("xhttp-opts", transport.bind xhttpOpts)]

/-- The password of an authentication that is one password. -/
def passwordOf : Authentication → Option Str
  | .password p => some p
  | _ => none

/-- The UUID of an authentication that is one UUID. -/
def uuidOf : Authentication → Option Str
  | .uuid u => some u
  | _ => none

/-- The Trojan settings of a configuration. -/
def trojanOf : ProtocolConfig → Option TrojanConfig
  | .trojan cfg => some cfg
  | _ => none

/-- The VMess settings of a configuration. -/
def vmessOf : ProtocolConfig → Option VMessConfig
  | .vmess cfg => some cfg
  | _ => none

/-- The VLESS settings of a configuration. -/
def vlessOf : ProtocolConfig → Option VlessRealityConfig
  | .vlessReality cfg => some cfg
  | _ => none

/-- The member of one SIP003 option: a bare flag is `true`, a Boolean stays one. -/
def optionMember (pair : Str) : Str × Block Scalar :=
  match splitOnce '=' pair with
  | some (k, v) =>
      (k, .scalar (if v = "true" then .flag true else if v = "false" then .flag false
        else .quoted v))
  | none => (pair, .scalar (.flag true))

/-- The rows of `emit_trojan` between the head and `push_tls`. -/
def trojanRows (node : Node) : List Row :=
  [("password", perhaps .quoted (passwordOf node.authentication)),
    ("packet-encoding", perhaps .quoted ((trojanOf node.config).bind TrojanConfig.packetEncoding))]

/-- The rows of `emit_ss` behind the head. -/
def ssRows (node : Node) (cfg : ShadowsocksConfig) : List Row :=
  [("cipher", given (.plain cfg.method)),
    ("password", perhaps .quoted (passwordOf node.authentication)),
    ("plugin", perhaps .quoted cfg.plugin),
    ("plugin-opts", cfg.plugin.bind fun _ => cfg.pluginOpts.map fun opts =>
      .map ((pluginPairs opts).map optionMember))]

/-- The rows of `emit_vmess` between the head and `push_tls`. -/
def vmessRows (node : Node) : List Row :=
  let cfg := vmessOf node.config
  [("uuid", perhaps .quoted (uuidOf node.authentication)),
    ("alterId", perhaps (fun n : UInt32 => .nat n.toNat) (cfg.bind VMessConfig.alterId)),
    ("cipher", perhaps (fun c : VMessConfig => .plain (c.security.getD "auto")) cfg),
    ("packet-encoding", perhaps .quoted (cfg.bind VMessConfig.packetEncoding))]

/-- The rows of `emit_vless` between the head and `push_tls`. -/
def vlessRows (node : Node) : List Row :=
  let cfg := vlessOf node.config
  [("uuid", perhaps .quoted (uuidOf node.authentication)),
    ("flow", perhaps .plain (cfg.bind VlessRealityConfig.flow)),
    ("packet-encoding", perhaps .quoted (cfg.bind VlessRealityConfig.packetEncoding))]

/-- Whole seconds, if they are not negative. -/
def secondsOf (d : Duration) : Option (Block Scalar) :=
  if d.wholeSeconds ≥ 0 then given (.int d.wholeSeconds) else none

/-- The rows of `emit_hysteria2` between the head and `push_tls`. -/
def hysteria2Rows (node : Node) (cfg : Hysteria2Config) : List Row :=
  [("password", perhaps .quoted (passwordOf node.authentication)),
    ("congestion-controller", perhaps (fun c : CongestionConfig => .plain c.controller.name)
      node.congestion),
    ("up", perhaps (fun b => .quoted (formatBandwidth b)) (node.congestion.bind (·.upBps))),
    ("down", perhaps (fun b => .quoted (formatBandwidth b)) (node.congestion.bind (·.downBps))),
    ("ports", perhaps .quoted cfg.ports),
    ("hop-interval", cfg.hopInterval.bind secondsOf),
    ("obfs", perhaps (fun o : Obfuscation => .plain o.kind) node.obfuscation),
    ("obfs-password", perhaps .quoted (node.obfuscation.bind (·.password))),
    ("fast-open", perhaps .flag cfg.fastOpen), ("lazy", perhaps .flag cfg.lazy)]

/-- UUID and password of an authentication that is both. -/
def uuidPasswordOf : Authentication → Option (Str × Str)
  | .uuidPassword u p => some (u, p)
  | _ => none

/-- The rows of `emit_tuic_v5` between the head and `push_tls`. -/
def tuicRows (node : Node) (cfg : TuicV5Config) : List Row :=
  let auth := uuidPasswordOf node.authentication
  [("uuid", perhaps (fun a : Str × Str => .quoted a.1) auth),
    ("password", perhaps (fun a : Str × Str => .quoted a.2) auth),
    ("congestion-controller", perhaps (fun c : CongestionConfig => .plain c.controller.name)
      node.congestion),
    ("udp-relay-mode", perhaps (fun m : UdpRelayMode => .plain m.name) cfg.udpRelayMode),
    ("reduce-rtt", perhaps .flag cfg.zeroRttHandshake),
    ("heartbeat-interval", cfg.heartbeat.bind secondsOf),
    ("disable-sni", perhaps .flag cfg.disableSni)]

/-- The rows of the first peer, behind its server. -/
def peerRows (node : Node) (peer : WireGuardPeer) : List Row :=
  [("port", given (.nat node.endpoint.port.toNat)),
    ("public-key", given (.quoted peer.publicKey)),
    ("pre-shared-key", perhaps .quoted peer.preSharedKey),
    ("allowed-ips", listed peer.allowedIps),
    ("reserved", perhaps (fun r : UInt8 × UInt8 × UInt8 => .bytes r.1 r.2.1 r.2.2) peer.reserved),
    ("persistent-keepalive", peer.persistentKeepalive.bind secondsOf)]

/-- The first peer, a sequence of one item. -/
def peerBlock (node : Node) (peer : WireGuardPeer) : Block Scalar :=
  .seq [("server", .scalar (.quoted node.endpoint.host.uriHost), present (peerRows node peer))]

/-- The rows of `emit_wireguard` behind the head. -/
def wireGuardRows (node : Node) (cfg : WireGuardConfig) : List Row :=
  [("private-key", given (.quoted cfg.privateKey)),
    ("ip", perhaps .quoted (cfg.address.find? fun a => ':' ∉ a)),
    ("ipv6", perhaps .quoted (cfg.address.find? fun a => ':' ∈ a)),
    ("mtu", perhaps (fun n : UInt32 => .nat n.toNat) cfg.mtu),
    ("workers", perhaps (fun n : UInt32 => .nat n.toNat) cfg.workers),
    ("dns", listed cfg.dns), ("peers", cfg.peers.head?.map (peerBlock node))]

/-- The rows of `emit_anytls` between the head and `push_tls`. -/
def anyTlsAuthRows (node : Node) : List Row :=
  [("password", perhaps .quoted (passwordOf node.authentication))]

/-- The rows of `emit_anytls` behind `push_tls`. -/
def anyTlsRows (cfg : AnyTlsConfig) : List Row :=
  [("idle-session-check-interval",
      perhaps (fun d : Duration => .int d.wholeSeconds) cfg.idleSessionCheckInterval),
    ("idle-session-timeout",
      perhaps (fun d : Duration => .int d.wholeSeconds) cfg.idleSessionTimeout),
    ("min-idle-session", perhaps (fun n : UInt32 => .nat n.toNat) cfg.minIdleSession)]

/-- The `obfs-opts` of a Snell entry. -/
def obfsBlock (obfs : SnellObfs) : Block Scalar :=
  nested [("mode", given (.plain obfs.mode.name)), ("host", perhaps .quoted obfs.host),
    ("password", perhaps .quoted obfs.password),
    ("version", perhaps (fun n : UInt32 => .nat n.toNat) obfs.version), ("alpn", listed obfs.alpn)]

/-- The rows of `emit_snell` between the head and `push_tls`. -/
def snellRows (node : Node) (cfg : SnellConfig) : List Row :=
  [("psk", perhaps .quoted (passwordOf node.authentication)),
    ("version", given (.nat cfg.version.asU32)), ("udp", perhaps .flag node.udp.supported),
    ("reuse", perhaps .flag cfg.reuse), ("obfs-opts", cfg.obfs.map obfsBlock)]

/-- TLS settings of a Snell entry: those of an obfuscation that is TLS. -/
def snellObfsTls (node : Node) (cfg : SnellConfig) : Option TlsConfig :=
  if cfg.obfs.any fun o => o.mode = .tls then node.tls else none

/-- **The rows of a node that is not ShadowTLS**, behind its name. -/
def directRows (node : Node) : List Row :=
  match node.protocol, node.config with
  | .trojan, _ =>
      headRows node "trojan" ++ trojanRows node ++ tlsRows node.tls ++ networkRows node.transport
  | .shadowsocks, .shadowsocks cfg => headRows node "ss" ++ ssRows node cfg
  | .vmess, _ =>
      headRows node "vmess" ++ vmessRows node ++ tlsRows node.tls ++ networkRows node.transport
  | .vless, _ =>
      headRows node "vless" ++ vlessRows node ++ tlsRows node.tls ++ networkRows node.transport
  | .hysteria2, .hysteria2 cfg =>
      headRows node "hysteria2" ++ hysteria2Rows node cfg ++ tlsRows node.tls
  | .tuicV5, .tuicV5 cfg => headRows node "tuic" ++ tuicRows node cfg ++ tlsRows node.tls
  | .wireGuard, .wireGuard cfg => headRows node "wireguard" ++ wireGuardRows node cfg
  | .anyTls, .anyTls cfg =>
      headRows node "anytls" ++ anyTlsAuthRows node ++ tlsRows node.tls ++ anyTlsRows cfg
  | .snell, .snell cfg =>
      headRows node "snell" ++ snellRows node cfg ++ tlsRows (snellObfsTls node cfg)
  | _, _ => []

/-- Version, password and camouflage name of a ShadowTLS layer; `nameKey` carries the name. -/
def shadowTlsRows (node : Node) (version : ShadowTlsVersion) (password : Option Str)
    (nameKey : Str) : List Row :=
  [("version", given (.nat version.asU32)), ("password", perhaps .quoted password),
    (nameKey, perhaps .quoted (node.tls.bind TlsConfig.serverName))]

/-- The rows of the ShadowTLS layer, by inner protocol. -/
def layerRows (node : Node) (version : ShadowTlsVersion) (password : Option Str)
    (innerProtocol : ProtocolKind) : List Row :=
  match innerProtocol with
  | .shadowsocks =>
      [("plugin", given (.plain "shadow-tls")),
        ("plugin-opts", some (nested (shadowTlsRows node version password "host")))]
  | .snell =>
      [("obfs-opts", some (nested
        (("mode", given (.plain "shadow-tls")) :: shadowTlsRows node version password "host")))]
  | .vless | .trojan | .vmess | .anyTls =>
      ("shadow-tls-opts", some (nested (shadowTlsRows node version password "sni"))) ::
        tlsRows node.tls
  | _ => []

/-- A node as it stands inside its ShadowTLS layer. -/
def innerNode (node : Node) (innerProtocol : ProtocolKind) (innerConfig : ProtocolConfig) : Node :=
  { node with protocol := innerProtocol, tls := none, config := withoutObfs innerConfig }

/-- **The rows of a node**, behind its name. -/
def proxyRows (node : Node) : List Row :=
  match node.protocol, node.config with
  | .shadowTls, .shadowTls version password p c =>
      directRows (innerNode node p c) ++ layerRows node version password p
  | _, _ => directRows node

/-! ## 3. The text of rows -/

/-- A line break and a line. -/
def lineText (l : Line Scalar) : Str := '\n' :: (l.map Scalar.text).text

/-- The text of a row at indentation `n`. -/
def rowText (n : Nat) (r : Row) : Str :=
  match r.2 with
  | some b => lineText ⟨n, false, r.1, b.inline⟩ ++ (b.linesBelow n).flatMap lineText
  | none => []

/-- The text of rows at indentation `n`. -/
def rowsText (n : Nat) (rows : List Row) : Str := rows.flatMap (rowText n)

theorem flatMap_lineText_present (n : Nat) (rows : List Row) :
    (Block.memberLines n (present rows)).flatMap lineText = rowsText n rows := by
  induction rows with
  | nil => rw [present, List.filterMap_nil, Block.memberLines]; rfl
  | cons r rows ih =>
    obtain ⟨k, b⟩ := r
    rw [rowsText, List.flatMap_cons, ← rowsText, ← ih]
    cases b with
    | none => rfl
    | some b =>
      have hcons : present ((k, some b) :: rows) = (k, b) :: present rows := rfl
      rw [hcons, Block.memberLines, List.flatMap_cons, List.flatMap_append, ← List.append_assoc]
      rfl

theorem rowsText_append (n : Nat) (a b : List Row) :
    rowsText n (a ++ b) = rowsText n a ++ rowsText n b := List.flatMap_append

@[simp] theorem rowsText_nil (n : Nat) : rowsText n [] = [] := rfl

@[simp] theorem rowsText_cons (n : Nat) (r : Row) (rows : List Row) :
    rowsText n (r :: rows) = rowText n r ++ rowsText n rows := List.flatMap_cons

/-- The text of a value on the line of its key. -/
theorem rowText_given (n : Nat) (k : Str) (s : Scalar) :
    rowText n (k, given s) =
      '\n' :: (List.replicate n ' ' ++ (k ++ ": ".toList ++ s.text)) := by
  simp [rowText, given, lineText, Line.map, Line.text, Block.inline, Block.linesBelow,
    Yaml.behindKey]

@[simp] theorem rowText_none (n : Nat) (k : Str) : rowText n (k, none) = [] := rfl

/-- The text of a mapping below its key. -/
theorem rowText_nested (n : Nat) (k : Str) (rows : List Row) :
    rowText n (k, some (nested rows)) =
      '\n' :: (List.replicate n ' ' ++ (k ++ [':'])) ++ rowsText (n + 2) rows := by
  simp [rowText, nested, lineText, Line.map, Line.text, Block.inline, Block.linesBelow,
    Yaml.behindKey, flatMap_lineText_present]

theorem indent4 : "\n    ".toList = '\n' :: List.replicate 4 ' ' := by decide

theorem indent6 : "\n      ".toList = '\n' :: List.replicate 6 ' ' := by decide

theorem indent8 : "\n        ".toList = '\n' :: List.replicate 8 ' ' := by decide

theorem field_eq (k v : Str) :
    field k v = '\n' :: (List.replicate 4 ' ' ++ (k ++ ": ".toList ++ v)) := by
  delta field
  rewrite [indent4]
  simp only [List.cons_append, List.append_assoc]

theorem subfield_eq (k v : Str) :
    subfield k v = '\n' :: (List.replicate 6 ' ' ++ (k ++ ": ".toList ++ v)) := by
  delta subfield
  rewrite [indent6]
  simp only [List.cons_append, List.append_assoc]

theorem subsubfield_eq (k v : Str) :
    subsubfield k v = '\n' :: (List.replicate 8 ' ' ++ (k ++ ": ".toList ++ v)) := by
  delta subsubfield
  rewrite [indent8]
  simp only [List.cons_append, List.append_assoc]

theorem header_eq (k : Str) : header k = '\n' :: (List.replicate 4 ' ' ++ (k ++ [':'])) := by
  delta header
  rewrite [indent4]
  simp only [List.cons_append, List.append_assoc]

/-- The text of a sequence of one item below its key. -/
theorem rowText_item (k first : Str) (s : Scalar) (rows : List Row) :
    rowText 4 (k, some (.seq [(first, .scalar s, present rows)])) =
      header k ++ ('\n' :: (List.replicate 6 ' ' ++ (['-', ' '] ++ (first ++ ": ".toList ++ s.text))) ++
        rowsText 8 rows) := by
  rw [header_eq]
  simp [rowText, lineText, Line.map, Line.text, Block.inline, Block.linesBelow, Block.itemLines,
    Yaml.behindKey, flatMap_lineText_present]

@[simp] theorem rowText_field (k : Str) (s : Scalar) : rowText 4 (k, given s) = field k s.text :=
  (rowText_given 4 k s).trans (field_eq k s.text).symm

@[simp] theorem rowText_subfield (k : Str) (s : Scalar) :
    rowText 6 (k, given s) = subfield k s.text :=
  (rowText_given 6 k s).trans (subfield_eq k s.text).symm

@[simp] theorem rowText_subsubfield (k : Str) (s : Scalar) :
    rowText 8 (k, given s) = subsubfield k s.text :=
  (rowText_given 8 k s).trans (subsubfield_eq k s.text).symm

@[simp] theorem rowText_header (k : Str) (rows : List Row) :
    rowText 4 (k, some (nested rows)) = header k ++ rowsText 6 rows := by
  rw [rowText_nested, header_eq]

section Optional

variable {α : Type} (k : Str) (scalar : α → Scalar) (value : Option α)

theorem perhaps_some (a : α) : perhaps scalar (some a) = given (scalar a) := rfl

@[simp] theorem rowText_optional_field :
    rowText 4 (k, perhaps scalar value) = optional field k (value.map fun a => (scalar a).text) := by
  cases value with
  | none => rfl
  | some a => rw [perhaps_some, rowText_field]; rfl

@[simp] theorem rowText_optional_subfield :
    rowText 6 (k, perhaps scalar value) =
      optional subfield k (value.map fun a => (scalar a).text) := by
  cases value with
  | none => rfl
  | some a => rw [perhaps_some, rowText_subfield]; rfl

@[simp] theorem rowText_optional_subsubfield :
    rowText 8 (k, perhaps scalar value) =
      optional subsubfield k (value.map fun a => (scalar a).text) := by
  cases value with
  | none => rfl
  | some a => rw [perhaps_some, rowText_subsubfield]; rfl

end Optional

/-- Numbers are written in decimal. -/
@[simp] theorem text_nat (n : Nat) : (Scalar.nat n).text = natText n := by
  simp [Scalar.nat, Scalar.text, intText]

@[simp] theorem text_quoted (s : Str) : (Scalar.quoted s).text = yamlDq s := rfl

@[simp] theorem text_plain (s : Str) : (Scalar.plain s).text = s := rfl

@[simp] theorem text_int (n : Int) : (Scalar.int n).text = intText n := rfl

@[simp] theorem text_flag (b : Bool) : (Scalar.flag b).text = boolText b := rfl

@[simp] theorem text_list (first : Str) (more : List Str) :
    (Scalar.list first more).text = yamlList (first :: more) := rfl

@[simp] theorem text_bytes (a b c : UInt8) :
    (Scalar.bytes a b c).text =
      '[' :: (natText a.toNat ++ ", ".toList ++ natText b.toNat ++ ", ".toList ++
        natText c.toNat ++ [']']) := rfl

theorem rowText_ite {n : Nat} {k : Str} {c : Prop} [Decidable c] {b b' : Option (Block Scalar)} :
    rowText n (k, if c then b else b') = if c then rowText n (k, b) else rowText n (k, b') := by
  split <;> rfl

theorem rowText_listed (k : Str) (items : List Str) :
    rowText 4 (k, listed items) = if items.isEmpty then [] else field k (yamlList items) := by
  cases items with
  | nil => rfl
  | cons first more => exact rowText_field k _

theorem rowText_sublisted (k : Str) (items : List Str) :
    rowText 6 (k, listed items) = if items.isEmpty then [] else subfield k (yamlList items) := by
  cases items with
  | nil => rfl
  | cons first more => exact rowText_subfield k _

theorem rowText_subsublisted (k : Str) (items : List Str) :
    rowText 8 (k, listed items) = if items.isEmpty then [] else subsubfield k (yamlList items) := by
  cases items with
  | nil => rfl
  | cons first more => exact rowText_subsubfield k _

theorem rowText_unlessEmpty (k s : Str) :
    rowText 6 (k, unlessEmpty s) = if s.isEmpty then [] else subfield k (yamlDq s) := by
  rw [unlessEmpty, rowText_ite, rowText_subfield]
  rfl

/-! ## 4. The emitter writes these rows -/

theorem rowsText_tlsRows (node : Node) : rowsText 4 (tlsRows node.tls) = pushTls node := by
  unfold pushTls tlsRows
  cases node.tls with
  | none => rfl
  | some tls =>
    simp only [rowsText_cons, rowsText_nil, List.append_nil, Option.any_some, Option.bind_some,
      rowText_optional_field, rowText_listed, rowText_ite, rowText_field, rowText_none,
      text_quoted, text_flag, List.append_assoc]
    cases tls.reality with
    | none => rfl
    | some r =>
      simp only [Option.map_some, rowText_header, rowsText_cons, rowsText_nil, List.append_nil,
        rowText_unlessEmpty, pushReality, List.append_assoc]
      rfl

theorem rowText_hostHeader (host : Option Str) :
    rowText 6 ("headers", hostHeader host) = pushHostHeader host := by
  cases host with
  | none => rfl
  | some h =>
    have hline : ("\n      headers:".toList : Str) =
        '\n' :: (List.replicate 6 ' ' ++ ("headers".toList ++ [':'])) := by decide
    delta pushHostHeader
    simp only [hostHeader, Option.map_some, rowText_nested, Nat.reduceAdd, rowsText_cons,
      rowsText_nil, rowText_subsubfield, text_quoted, List.append_nil, hline]

theorem rowText_transportOpts (t : Transport) :
    rowText 4 ("ws-opts", wsOpts t) ++ (rowText 4 ("grpc-opts", grpcOpts t) ++
      (rowText 4 ("h2-opts", h2Opts t) ++ rowText 4 ("xhttp-opts", xhttpOpts t))) =
      pushTransportOpts t := by
  obtain ⟨kind, path, host, mode⟩ := t
  cases kind <;>
    simp only [wsOpts, grpcOpts, h2Opts, xhttpOpts, pushTransportOpts, reduceCtorEq, or_false,
      or_true, false_and, true_and, if_false, if_true, rowText_none,
      List.append_nil, List.nil_append, rowText_ite, rowText_header, rowsText_cons, rowsText_nil,
      rowText_optional_subfield, rowText_hostHeader, rowText_subfield, text_quoted, text_flag,
      text_plain, text_list, List.append_assoc]
  case httpUpgrade => rfl
  case grpc =>
    cases path with
    | none => rfl
    | some p =>
      simp

theorem rowsText_networkRows (node : Node) :
    rowsText 4 (networkRows node.transport) = pushNetwork node := by
  unfold pushNetwork networkRows
  cases node.transport with
  | none => rfl
  | some t =>
    simp only [rowsText_cons, rowsText_nil, List.append_nil, Option.bind_some,
      rowText_transportOpts, rowText_optional_field]
    rfl

/-- The text of an entry: its name behind the dash, then its rows. -/
def entryText (node : Node) (rows : List Row) : Str :=
  "  - name: ".toList ++ (yamlDq node.displayName ++ rowsText 4 rows)

theorem entryOf_eq (node : Node) (ptype : Str) :
    entryOf node ptype = entryText node (headRows node ptype) := by
  delta entryOf yamlEntry entryText
  simp [headRows]

theorem entryText_append (node : Node) (a b : List Row) :
    entryText node (a ++ b) = entryText node a ++ rowsText 4 b := by
  delta entryText
  rewrite [rowsText_append]
  simp only [List.append_assoc]

theorem passwordOf_of_ok {a : Authentication} {f p : Str} (h : a.needPassword f = .ok p) :
    passwordOf a = some p := by
  cases a <;> cases h
  rfl

theorem uuidOf_of_ok {a : Authentication} {f u : Str} (h : a.needUuid f = .ok u) :
    uuidOf a = some u := by
  cases a <;> cases h
  rfl

theorem uuidPasswordOf_of_ok {a : Authentication} {f : Str} {p : Str × Str}
    (h : a.needUuidPassword f = .ok p) : uuidPasswordOf a = some p := by
  cases a <;> cases h
  rfl

theorem optional_some (line : Str → Str → Str) (k v : Str) : optional line k (some v) = line k v :=
  rfl

theorem emitTrojan_eq {node : Node} {t : Str} (h : emitTrojan node = .ok t) :
    t = entryText node (headRows node "trojan" ++ trojanRows node ++ tlsRows node.tls ++
      networkRows node.transport) := by
  obtain ⟨password, hp, h⟩ := bind_eq_ok.mp h
  cases h
  rewrite [entryText_append, entryText_append, entryText_append, ← entryOf_eq, rowsText_tlsRows,
    rowsText_networkRows]
  simp only [trojanRows, passwordOf_of_ok hp, rowsText_cons, rowsText_nil, rowText_optional_field,
    text_quoted, List.append_nil, Option.map_some, optional_some, List.append_assoc]
  cases node.config <;> rfl

/-- The members of the SIP003 options are the lines the emitter writes. -/
theorem flatMap_pluginOption (pairs : List Str) :
    (Block.memberLines 6 (pairs.map optionMember)).flatMap lineText =
      pairs.flatMap pluginOption := by
  induction pairs with
  | nil => rw [List.map_nil, Block.memberLines]; rfl
  | cons pair pairs ih =>
    have hpair : ∀ (k : Str) (s : Scalar), optionMember pair = (k, .scalar s) →
        pluginOption pair = subfield k s.text →
        (Block.memberLines 6 ((pair :: pairs).map optionMember)).flatMap lineText =
          (pair :: pairs).flatMap pluginOption := by
      intro k s hm ht
      rw [List.map_cons, hm, Block.memberLines, List.flatMap_cons, List.flatMap_append, ih,
        List.flatMap_cons, ht, ← rowText_subfield, ← List.append_assoc]
      rfl
    cases hsplit : splitOnce '=' pair with
    | none =>
      refine hpair pair (.flag true) ?_ ?_
      · simp only [optionMember, hsplit]
      · simp only [pluginOption, hsplit, text_flag]
        rfl
    | some kv =>
      obtain ⟨k, v⟩ := kv
      refine hpair k (if v = "true" then .flag true else if v = "false" then .flag false
        else .quoted v) ?_ ?_
      · simp only [optionMember, hsplit]
      · simp only [pluginOption, hsplit]
        by_cases ht : v = "true".toList
        · simp only [ht, true_or, if_true, text_flag]
          rfl
        · by_cases hf : v = "false".toList
          · have hne : ("false".toList : Str) ≠ "true".toList := by decide
            simp only [hf, or_true, if_true, if_neg hne, text_flag]
            rfl
          · simp only [ht, hf, or_self, if_false, text_quoted]

theorem emitSs_eq {node : Node} {t : Str} (h : emitSs node = .ok t) :
    ∃ cfg, node.config = .shadowsocks cfg ∧
      t = entryText node (headRows node "ss" ++ ssRows node cfg) := by
  obtain ⟨password, hp, h⟩ := bind_eq_ok.mp h
  obtain ⟨cfg, hcfg⟩ : ∃ cfg, node.config = .shadowsocks cfg := by
    cases hc : node.config with
    | shadowsocks cfg => exact ⟨cfg, rfl⟩
    | _ => rw [hc] at h; cases h
  refine ⟨cfg, hcfg, ?_⟩
  rw [hcfg] at h
  cases h
  rewrite [entryText_append, ← entryOf_eq]
  simp only [ssRows, passwordOf_of_ok hp, rowsText_cons, rowsText_nil, rowText_field,
    rowText_optional_field, text_plain, text_quoted, List.append_nil, Option.map_some,
    optional_some, List.append_assoc]
  cases cfg.plugin with
  | none => rfl
  | some p =>
    cases cfg.pluginOpts with
    | none => rfl
    | some opts =>
      have hblock : rowText 4 ("plugin-opts", some (.map ((pluginPairs opts).map optionMember))) =
          header "plugin-opts" ++ (pluginPairs opts).flatMap pluginOption := by
        rw [← flatMap_pluginOption, header_eq]
        simp [rowText, lineText, Line.map, Line.text, Block.inline, Block.linesBelow,
          Yaml.behindKey]
      simp only [Option.map_some, optional_some, Option.bind_some, hblock]

theorem emitVmess_eq {node : Node} {t : Str} (h : emitVmess node = .ok t) :
    t = entryText node (headRows node "vmess" ++ vmessRows node ++ tlsRows node.tls ++
      networkRows node.transport) := by
  obtain ⟨uuid, hu, h⟩ := bind_eq_ok.mp h
  cases h
  rewrite [entryText_append, entryText_append, entryText_append, ← entryOf_eq, rowsText_tlsRows,
    rowsText_networkRows]
  simp only [vmessRows, uuidOf_of_ok hu, rowsText_cons, rowsText_nil, rowText_optional_field,
    text_quoted, text_nat, text_plain, List.append_nil, Option.map_some, optional_some,
    List.append_assoc]
  cases node.config with
  | vmess cfg =>
    simp only [vmessOf, Option.bind_some, Option.map_some, optional_some, List.append_assoc]
  | _ => rfl

theorem emitVless_eq {node : Node} {t : Str} (h : emitVless node = .ok t) :
    t = entryText node (headRows node "vless" ++ vlessRows node ++ tlsRows node.tls ++
      networkRows node.transport) := by
  obtain ⟨uuid, hu, h⟩ := bind_eq_ok.mp h
  cases h
  rewrite [entryText_append, entryText_append, entryText_append, ← entryOf_eq, rowsText_tlsRows,
    rowsText_networkRows]
  simp only [vlessRows, uuidOf_of_ok hu, rowsText_cons, rowsText_nil, rowText_optional_field,
    text_quoted, text_plain, List.append_nil, Option.map_some, optional_some, List.append_assoc]
  cases node.config with
  | vlessReality cfg =>
    simp only [vlessOf, Option.bind_some, Option.map_id', List.append_assoc]
  | _ => rfl

theorem intText_of_nonneg {n : Int} (h : n ≥ 0) : intText n = natText n.toNat := by
  rw [intText, if_neg (by omega)]

theorem rowText_seconds (k : Str) (d : Option Duration) :
    rowText 4 (k, d.bind secondsOf) = optional field k (d.bind secondsText) := by
  cases d with
  | none => rfl
  | some d =>
    simp only [Option.bind_some, secondsOf, secondsText]
    split
    · rename_i h
      rw [rowText_field, text_int, intText_of_nonneg h, optional_some]
    · rfl

theorem rowText_subsubseconds (k : Str) (d : Option Duration) :
    rowText 8 (k, d.bind secondsOf) = optional subsubfield k (d.bind secondsText) := by
  cases d with
  | none => rfl
  | some d =>
    simp only [Option.bind_some, secondsOf, secondsText]
    split
    · rename_i h
      rw [rowText_subsubfield, text_int, intText_of_nonneg h, optional_some]
    · rfl

/-- A text whose characters need no escape stands between quotes as it is. -/
theorem yamlDq_of_unescaped {s : Str} (h : ∀ c ∈ s, yamlEscape c = [c]) :
    yamlDq s = '"' :: (s ++ ['"']) := by
  have hflat : s.flatMap yamlEscape = s := by
    induction s with
    | nil => rfl
    | cons c s ih =>
      rw [List.flatMap_cons, h c List.mem_cons_self,
        ih fun d hd => h d (List.mem_cons_of_mem c hd)]
      rfl
  rw [yamlDq, hflat]

theorem yamlEscape_of_mem_natText {n : Nat} {c : Char} (h : c ∈ natText n) :
    yamlEscape c = [c] :=
  forall_digit (P := fun c => yamlEscape c = [c]) (by decide) (isDigit_of_mem_natText h)

/-- A bandwidth needs no escape. -/
theorem yamlDq_formatBandwidth (b : UInt64) :
    yamlDq (formatBandwidth b) = '"' :: (formatBandwidth b ++ ['"']) := by
  apply yamlDq_of_unescaped
  have hunit : ∀ {n : Nat} {unit : Str}, (unit.all fun c => decide (yamlEscape c = [c])) = true →
      ∀ c ∈ natText n ++ unit, yamlEscape c = [c] := by
    intro n unit hunit c hc
    rcases List.mem_append.mp hc with hc | hc
    · exact yamlEscape_of_mem_natText hc
    · exact of_decide_eq_true (List.all_eq_true.mp hunit c hc)
  unfold formatBandwidth
  dsimp only
  split
  · exact hunit (by decide)
  · split
    · exact hunit (by decide)
    · split
      · exact hunit (by decide)
      · exact hunit (by decide)

theorem emitHysteria2_eq {node : Node} {t : Str} (h : emitHysteria2 node = .ok t) :
    ∃ cfg, node.config = .hysteria2 cfg ∧
      t = entryText node (headRows node "hysteria2" ++ hysteria2Rows node cfg ++
        tlsRows node.tls) := by
  obtain ⟨password, hp, h⟩ := bind_eq_ok.mp h
  obtain ⟨cfg, hcfg⟩ : ∃ cfg, node.config = .hysteria2 cfg := by
    cases hc : node.config with
    | hysteria2 cfg => exact ⟨cfg, rfl⟩
    | _ => rw [hc] at h; cases h
  refine ⟨cfg, hcfg, ?_⟩
  rw [hcfg] at h
  cases h
  rewrite [entryText_append, entryText_append, ← entryOf_eq, rowsText_tlsRows]
  simp only [hysteria2Rows, passwordOf_of_ok hp, rowsText_cons, rowsText_nil,
    rowText_optional_field, rowText_seconds, text_plain, text_quoted, text_flag, List.append_nil,
    Option.map_some, optional_some, yamlDq_formatBandwidth, List.append_assoc]
  cases node.congestion with
  | none =>
    cases node.obfuscation with
    | none => rfl
    | some obfs =>
      simp only [Option.bind_some, Option.map_some, optional_some, List.append_assoc]
      rfl
  | some cong =>
    cases node.obfuscation with
    | none =>
      simp only [Option.bind_some, Option.map_some, optional_some, List.append_assoc]
      rfl
    | some obfs => simp only [Option.bind_some, Option.map_some, optional_some, List.append_assoc]

theorem emitTuicV5_eq {node : Node} {t : Str} (h : emitTuicV5 node = .ok t) :
    ∃ cfg, node.config = .tuicV5 cfg ∧
      t = entryText node (headRows node "tuic" ++ tuicRows node cfg ++ tlsRows node.tls) := by
  obtain ⟨⟨uuid, password⟩, hp, h⟩ := bind_eq_ok.mp h
  obtain ⟨cfg, hcfg⟩ : ∃ cfg, node.config = .tuicV5 cfg := by
    cases hc : node.config with
    | tuicV5 cfg => exact ⟨cfg, rfl⟩
    | _ => rw [hc] at h; cases h
  refine ⟨cfg, hcfg, ?_⟩
  rw [hcfg] at h
  cases h
  rewrite [entryText_append, entryText_append, ← entryOf_eq, rowsText_tlsRows]
  simp [tuicRows, uuidPasswordOf_of_ok hp, rowText_seconds, optional_some]

theorem rowText_peerBlock (node : Node) (peer : WireGuardPeer) :
    rowText 4 ("peers", some (peerBlock node peer)) = pushPeer node peer := by
  have hserver : ("\n      - server: ".toList : Str) =
      '\n' :: (List.replicate 6 ' ' ++ (['-', ' '] ++ ("server".toList ++ ": ".toList))) := by
    decide
  rewrite [peerBlock, rowText_item]
  delta pushPeer
  simp only [hserver, peerRows, rowsText_cons, rowsText_nil, rowText_subsubfield,
    rowText_optional_subsubfield, rowText_subsublisted, rowText_subsubseconds, text_quoted,
    text_nat, text_bytes, List.append_nil, List.cons_append, List.append_assoc]

theorem emitWireGuard_eq {node : Node} {t : Str} (h : emitWireGuard node = .ok t) :
    ∃ cfg, node.config = .wireGuard cfg ∧
      t = entryText node (headRows node "wireguard" ++ wireGuardRows node cfg) := by
  obtain ⟨cfg, hcfg⟩ : ∃ cfg, node.config = .wireGuard cfg := by
    cases hc : node.config with
    | wireGuard cfg => exact ⟨cfg, rfl⟩
    | _ => rw [emitWireGuard, hc] at h; cases h
  refine ⟨cfg, hcfg, ?_⟩
  rw [emitWireGuard, hcfg] at h
  cases h
  rewrite [entryText_append, ← entryOf_eq]
  simp only [wireGuardRows, rowsText_cons, rowsText_nil, rowText_field, rowText_optional_field,
    rowText_listed, text_quoted, text_nat, List.append_nil, List.append_assoc]
  cases cfg.peers.head? with
  | none => rfl
  | some peer => simp only [Option.map_some, rowText_peerBlock]

theorem emitAnyTls_eq {node : Node} {t : Str} (h : emitAnyTls node = .ok t) :
    ∃ cfg, node.config = .anyTls cfg ∧
      t = entryText node (headRows node "anytls" ++ anyTlsAuthRows node ++ tlsRows node.tls ++
        anyTlsRows cfg) := by
  obtain ⟨password, hp, h⟩ := bind_eq_ok.mp h
  obtain ⟨cfg, hcfg⟩ : ∃ cfg, node.config = .anyTls cfg := by
    cases hc : node.config with
    | anyTls cfg => exact ⟨cfg, rfl⟩
    | _ => rw [hc] at h; cases h
  refine ⟨cfg, hcfg, ?_⟩
  rw [hcfg] at h
  cases h
  rewrite [entryText_append, entryText_append, entryText_append, ← entryOf_eq, rowsText_tlsRows]
  simp [anyTlsAuthRows, anyTlsRows, passwordOf_of_ok hp, optional_some]

theorem rowText_obfsBlock (obfs : SnellObfs) :
    rowText 4 ("obfs-opts", some (obfsBlock obfs)) = pushObfs obfs := by
  simp [obfsBlock, pushObfs, rowText_sublisted]

theorem emitSnell_eq {node : Node} {t : Str} (h : emitSnell node = .ok t) :
    ∃ cfg, node.config = .snell cfg ∧
      t = entryText node (headRows node "snell" ++ snellRows node cfg ++
        tlsRows (snellObfsTls node cfg)) := by
  obtain ⟨psk, hp, h⟩ := bind_eq_ok.mp h
  obtain ⟨cfg, hcfg⟩ : ∃ cfg, node.config = .snell cfg := by
    cases hc : node.config with
    | snell cfg => exact ⟨cfg, rfl⟩
    | _ => rw [hc] at h; cases h
  refine ⟨cfg, hcfg, ?_⟩
  simp only [hcfg, ok_bind] at h
  obtain ⟨_, _, h⟩ := bind_eq_ok.mp h
  cases h
  have htls : rowsText 4 (tlsRows (snellObfsTls node cfg)) =
      if cfg.obfs.any fun o => o.mode = .tls then pushTls node else [] := by
    unfold snellObfsTls
    split
    · exact rowsText_tlsRows node
    · rfl
  rewrite [entryText_append, entryText_append, ← entryOf_eq, htls]
  simp only [snellRows, passwordOf_of_ok hp, rowsText_cons, rowsText_nil, rowText_field,
    rowText_optional_field, text_quoted, text_nat, text_flag, List.append_nil, Option.map_some,
    optional_some, List.append_assoc]
  cases cfg.obfs with
  | none => rfl
  | some obfs => simp only [Option.map_some, rowText_obfsBlock]

/-- **An entry that is not ShadowTLS is the text of its rows**, and begins with its head. -/
theorem emitDirect_rows {node : Node} {t : Str} (h : emitDirect node = .ok t) :
    t = entryText node (directRows node) ∧
      ∃ ptype rows, directRows node = headRows node ptype ++ rows := by
  unfold emitDirect at h
  unfold directRows
  cases hp : node.protocol <;> rw [hp] at h <;> dsimp only at h ⊢
  case trojan => exact ⟨emitTrojan_eq h, _, _, by simp only [List.append_assoc]; rfl⟩
  case vmess => exact ⟨emitVmess_eq h, _, _, by simp only [List.append_assoc]; rfl⟩
  case vless => exact ⟨emitVless_eq h, _, _, by simp only [List.append_assoc]; rfl⟩
  case shadowsocks =>
    obtain ⟨cfg, hcfg, ht⟩ := emitSs_eq h
    rw [hcfg]
    exact ⟨ht, _, _, rfl⟩
  case hysteria2 =>
    obtain ⟨cfg, hcfg, ht⟩ := emitHysteria2_eq h
    rw [hcfg]
    exact ⟨ht, _, _, by simp only [List.append_assoc]; rfl⟩
  case tuicV5 =>
    obtain ⟨cfg, hcfg, ht⟩ := emitTuicV5_eq h
    rw [hcfg]
    exact ⟨ht, _, _, by simp only [List.append_assoc]; rfl⟩
  case wireGuard =>
    obtain ⟨cfg, hcfg, ht⟩ := emitWireGuard_eq h
    rw [hcfg]
    exact ⟨ht, _, _, rfl⟩
  case anyTls =>
    obtain ⟨cfg, hcfg, ht⟩ := emitAnyTls_eq h
    rw [hcfg]
    exact ⟨ht, _, _, by simp only [List.append_assoc]; rfl⟩
  case snell =>
    obtain ⟨cfg, hcfg, ht⟩ := emitSnell_eq h
    rw [hcfg]
    exact ⟨ht, _, _, by simp only [List.append_assoc]; rfl⟩
  all_goals cases h

theorem rowsText_shadowTlsRows (node : Node) (version : ShadowTlsVersion) (password : Option Str)
    (nameKey : Str) :
    rowsText 6 (shadowTlsRows node version password nameKey) =
      shadowTlsFields node version password nameKey := by
  simp [shadowTlsRows, shadowTlsFields]

theorem shadowTlsLayerText_eq {node : Node} {version : ShadowTlsVersion} {password : Option Str}
    {p : ProtocolKind} {t : Str} (h : shadowTlsLayerText node version password p = .ok t) :
    p ≠ .shadowTls ∧ t = rowsText 4 (layerRows node version password p) := by
  unfold shadowTlsLayerText at h
  unfold layerRows
  cases p <;> cases h <;> refine ⟨by simp, ?_⟩
  case shadowsocks | snell =>
    simp [rowsText_shadowTlsRows]
  all_goals simp only [rowsText_cons, rowText_header, rowsText_shadowTlsRows, rowsText_tlsRows]

theorem emitProxyAs_inner (node : Node) {p : ProtocolKind} {c : ProtocolConfig} {t : Str}
    (hp : p ≠ .shadowTls)
    (h : emitProxyAs { node with protocol := p, tls := none } true c = .ok t) :
    emitDirect (innerNode node p c) = .ok t := by
  unfold emitProxyAs at h
  split at h <;> rw [if_neg hp] at h
  · exact h
  · exact h

/-- **How an entry is emitted**: as it is, or as its inner entry and the ShadowTLS layer. -/
theorem emitProxy_cases {node : Node} {t : Str} (h : emitProxy node = .ok t) :
    (node.protocol ≠ .shadowTls ∧ emitDirect node = .ok t) ∨
    ∃ version password p c inner layer, node.protocol = .shadowTls ∧
      node.config = .shadowTls version password p c ∧
      emitDirect (innerNode node p c) = .ok inner ∧
      shadowTlsLayerText node version password p = .ok layer ∧ t = inner ++ layer := by
  unfold emitProxy emitProxyAs at h
  by_cases hp : node.protocol = .shadowTls
  · simp only [hp, if_true] at h
    cases hc : node.config with
    | shadowTls version password p c =>
      rw [hc] at h
      obtain ⟨inner, hinner, h⟩ := bind_eq_ok.mp h
      obtain ⟨_, _, h⟩ := bind_eq_ok.mp h
      obtain ⟨layer, hlayer, h⟩ := bind_eq_ok.mp h
      obtain ⟨hne, -⟩ := shadowTlsLayerText_eq hlayer
      cases h
      refine .inr ⟨version, password, p, c, inner, layer, hp, rfl, ?_, hlayer, rfl⟩
      exact emitProxyAs_inner node hne (by rw [hc]; exact hinner)
    | _ => rw [hc] at h; cases h
  · refine .inl ⟨hp, ?_⟩
    split at h <;> rw [if_neg hp] at h
    · rename_i hc
      rwa [← hc] at h
    · simpa using h

theorem proxyRows_direct {node : Node} (h : node.protocol ≠ .shadowTls) :
    proxyRows node = directRows node := by
  unfold proxyRows
  split
  · rename_i hshadow _
    exact absurd hshadow h
  · rfl

theorem proxyRows_layered {node : Node} {version : ShadowTlsVersion} {password : Option Str}
    {p : ProtocolKind} {c : ProtocolConfig} (hp : node.protocol = .shadowTls)
    (hc : node.config = .shadowTls version password p c) :
    proxyRows node = directRows (innerNode node p c) ++ layerRows node version password p := by
  simp only [proxyRows, hp, hc]

/-- **An emitted entry is the text of its node's rows.** -/
theorem emitProxy_eq {node : Node} {t : Str} (h : emitProxy node = .ok t) :
    t = entryText node (proxyRows node) := by
  rcases emitProxy_cases h with ⟨hp, hdirect⟩ |
    ⟨version, password, p, c, inner, layer, hp, hc, hinner, hlayer, rfl⟩
  · rw [proxyRows_direct hp, (emitDirect_rows hdirect).1]
  · obtain ⟨-, rfl⟩ := shadowTlsLayerText_eq hlayer
    rw [proxyRows_layered hp hc, (emitDirect_rows hinner).1, entryText_append]
    rfl

/-! ## 5. The document -/

/-- The entry of a node: an item of the `proxies` sequence. -/
def proxyItem (node : Node) : Str × Block Scalar × List (Str × Block Scalar) :=
  ("name", .scalar (.quoted node.displayName), present (proxyRows node))

/-- The layout of a document. -/
def documentLayout (nodes : List Node) : List (Str × Block Scalar) :=
  [("proxies", .seq (nodes.map proxyItem))]

theorem flatMap_lineText_items (nodes : List Node) :
    (Block.itemLines 2 (nodes.map proxyItem)).flatMap lineText =
      nodes.flatMap fun n => '\n' :: entryText n (proxyRows n) := by
  have hname : ("  - name: ".toList : Str) =
      List.replicate 2 ' ' ++ (['-', ' '] ++ ("name".toList ++ ": ".toList)) := by decide
  induction nodes with
  | nil => rw [List.map_nil, Block.itemLines]; rfl
  | cons node nodes ih =>
    rewrite [List.map_cons, proxyItem, Block.itemLines, List.flatMap_cons, List.flatMap_append,
      List.flatMap_append, ih, flatMap_lineText_present, List.flatMap_cons]
    delta entryText
    rewrite [hname]
    simp [lineText, Line.map, Line.text, Block.inline, Block.linesBelow, Yaml.behindKey,
      Scalar.text]

theorem mapM_emitProxy_eq {nodes : List Node} {entries : List Str}
    (h : nodes.mapM emitProxy = .ok entries) :
    entries = nodes.map fun n => entryText n (proxyRows n) := by
  induction nodes generalizing entries with
  | nil => cases h; rfl
  | cons node nodes ih =>
    rw [List.mapM_cons] at h
    obtain ⟨entry, hentry, h⟩ := bind_eq_ok.mp h
    obtain ⟨rest, hrest, h⟩ := bind_eq_ok.mp h
    cases h
    rw [emitProxy_eq hentry, ih hrest, List.map_cons]

/-- **An emitted document is the rendered layout of its nodes.** -/
theorem emit_eq_render {nodes : List Node} {text : Str} (h : emit nodes = .ok text) :
    text = Yaml.render Scalar.text (documentLayout nodes) := by
  obtain ⟨entries, hentries, h⟩ := bind_eq_ok.mp h
  cases h
  have htop : (⟨0, false, "proxies".toList, none⟩ : Line Str).text = "proxies:".toList := by
    decide
  have hlines : ((Block.itemLines 2 (nodes.map proxyItem)).map
      fun l => (l.map Scalar.text).text).flatMap (fun u => '\n' :: u) =
        (Block.itemLines 2 (nodes.map proxyItem)).flatMap lineText := by
    rw [List.flatMap_map]
    rfl
  unfold Yaml.render documentLayout
  rewrite [Block.memberLines, Block.memberLines, Block.linesBelow, List.append_nil, List.map_cons,
    join_cons, hlines, flatMap_lineText_items, mapM_emitProxy_eq hentries, List.flatMap_map]
  rewrite [← htop]
  rfl

end DeveSub.Mihomo
