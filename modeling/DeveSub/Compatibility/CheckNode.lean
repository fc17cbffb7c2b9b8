/-
  File:      DeveSub/Compatibility/CheckNode.lean
  Subject:   The compatibility matrix of the target profiles: `capability_for`, `check_node` and
             the field restrictions (`deve-sub-compatibility`).

  `check_node` calls the restrictions, and the restrictions of a ShadowTLS node call
  `check_node` again on the inner protocol. The model recurses on the configuration: the node
  that is checked is `node` with its protocol, configuration and TLS settings replaced
  (`checkWith`), which is the clone the source builds.
-/
import DeveSub.Domain.Node
import DeveSub.Lib.Fallible

namespace DeveSub

/-- `ProfileKind`. -/
inductive ProfileKind where
  | mihomo
  | singBox
  | xray
  | v2ray
  | shadowrocket
  | uriList
  | json
  deriving DecidableEq

/-- `ProfileCapability`, the part `check_node` reads. -/
structure ProfileCapability where
  profile : ProfileKind
  supportedProtocols : List ProtocolKind
  supportedTransports : List TransportKind

/-- `CompatibilityReason`. -/
inductive CompatibilityReason where
  | unsupportedField (field : Str)
  | unsupportedProtocol (name : Str)
  | unsupportedTransport (name : Str)
  | unsupportedConfig
  | unsupportedProtocolVersion (protocol : Str) (version : Nat) (supported : Str)
  | unsupportedObfsMode (protocol profile mode supported : Str)
  deriving DecidableEq

/-- `capability_for`. -/
def capabilityFor (profile : ProfileKind) : ProfileCapability :=
  match profile with
  | .mihomo =>
      { profile
        supportedProtocols := [.vless, .vmess, .trojan, .shadowsocks, .hysteria2, .tuicV5,
          .wireGuard, .anyTls, .snell, .shadowTls]
        supportedTransports := [.tcp, .ws, .h2, .grpc, .quic, .httpUpgrade, .xhttp] }
  | .singBox =>
      { profile
        supportedProtocols := [.vless, .vmess, .trojan, .shadowsocks, .hysteria2, .tuicV5,
          .wireGuard, .anyTls, .snell, .shadowTls]
        supportedTransports := [.tcp, .ws, .h2, .grpc, .quic, .httpUpgrade] }
  | .xray =>
      { profile
        supportedProtocols := [.vless, .vmess, .trojan, .shadowsocks, .wireGuard]
        supportedTransports := [.tcp, .ws, .h2, .grpc, .quic, .httpUpgrade, .xtls, .xhttp] }
  | .v2ray =>
      { profile
        supportedProtocols := [.vmess, .vless, .trojan, .shadowsocks]
        supportedTransports := [.tcp, .ws, .h2, .grpc, .quic] }
  | .shadowrocket =>
      { profile
        supportedProtocols := [.vless, .vmess, .trojan, .shadowsocks, .hysteria2, .tuicV5]
        supportedTransports := [.tcp, .ws, .h2, .grpc, .quic] }
  | .uriList =>
      { profile
        supportedProtocols := [.vless, .vmess, .trojan, .shadowsocks, .hysteria2, .tuicV5,
          .naiveProxy, .wireGuard, .anyTls, .snell]
        supportedTransports := [.tcp, .ws, .h2, .grpc, .quic, .httpUpgrade, .kcp, .xtls,
          .xhttp] }
  | .json =>
      { profile
        supportedProtocols := [.vless, .vmess, .trojan, .shadowsocks, .hysteria2, .tuicV5,
          .naiveProxy, .wireGuard, .anyTls, .snell, .shadowTls]
        supportedTransports := [.tcp, .ws, .h2, .grpc, .quic, .httpUpgrade, .kcp, .xtls,
          .xhttp] }

/-! ## 1. The field restrictions, one by one -/

/-- The Snell rules of `restrictions::check`. -/
def restrictSnell (node : Node) (cfg : SnellConfig) (tls : Option TlsConfig)
    (profile : ProfileKind) : Except CompatibilityReason Unit := do
  rejectWhen (node.hasExtra "snell_userkey" && profile ≠ .singBox)
    (.unsupportedField "Snell userkey")
  if profile = .mihomo then
    rejectWhen (cfg.version = .v6)
      (.unsupportedProtocolVersion "snell" 6 "1, 2, 3, 4, 5")
    rejectWhen ((cfg.version = .v1 || cfg.version = .v2) && node.udp.supported = some true)
      (.unsupportedField "Snell v1/v2 UDP on Mihomo")
  rejectWhen (profile = .uriList &&
      (cfg.v6Mode.isSome || !cfg.tlsIsObfsAlias tls ||
        cfg.obfs.any fun o =>
          !(o.mode = .http || o.mode = .tls) || o.password.isSome || o.version.isSome))
    (.unsupportedField "Snell options without URI representation")
  if profile = .singBox then
    rejectWhen (!cfg.tlsIsObfsAlias tls) (.unsupportedField "Snell TLS settings beyond camouflage")
    rejectWhen (cfg.version = .v6 && cfg.obfs.isSome || cfg.version ≠ .v6 && cfg.v6Mode.isSome)
      (.unsupportedField "Snell version-specific options")
    rejectWhen (cfg.obfs.any fun o => o.password.isSome || o.version.isSome || !o.alpn.isEmpty)
      (.unsupportedField "Snell obfuscation options beyond mode and host")

/-- Whether a keepalive is not a whole number of seconds that fits `u16`. -/
def keepaliveOutsideU16 (d : Duration) : Bool :=
  d.wholeSeconds < 0 || d.wholeSeconds > 65535 || d.subsecNanoseconds ≠ 0

/-- The WireGuard rules of `restrictions::check`, for sing-box. -/
def restrictWireGuard (cfg : WireGuardConfig) : Except CompatibilityReason Unit := do
  rejectWhen (!cfg.dns.isEmpty) (.unsupportedField "WireGuard interface DNS on sing-box")
  rejectWhen (cfg.peers.any fun p => p.persistentKeepalive.any keepaliveOutsideU16)
    (.unsupportedField "WireGuard keepalive outside uint16 seconds")

/-- The inner protocols a profile can project ShadowTLS onto. -/
def shadowTlsInner (profile : ProfileKind) (inner : ProtocolKind) : Bool :=
  match profile with
  | .mihomo => inner ∈ [.shadowsocks, .snell, .vless, .trojan, .vmess, .anyTls]
  | .singBox => inner ∈ [.shadowsocks, .trojan, .vmess, .vless]
  | _ => false

/-- The restrictions that depend on the node's own configuration only. -/
def restrictOwn (node : Node) (config : ProtocolConfig) (tls : Option TlsConfig)
    (profile : ProfileKind) : Except CompatibilityReason Unit := do
  rejectWhen (profile = .v2ray && tls.any fun t => t.reality.isSome)
    (.unsupportedField "Reality security on V2Ray")
  match config with
  | .snell cfg => restrictSnell node cfg tls profile
  | .wireGuard cfg => if profile = .singBox then restrictWireGuard cfg else .ok ()
  | _ => .ok ()

/-- The Snell versions and obfuscation modes sing-box takes, checked last. -/
def checkSingBoxSnell (config : ProtocolConfig) (profile : ProfileKind) :
    Except CompatibilityReason Unit :=
  match profile, config with
  | .singBox, .snell cfg => do
      rejectWhen (!(cfg.version = .v4 || cfg.version = .v6))
        (.unsupportedProtocolVersion "snell" cfg.version.asU32 "4, 6")
      match cfg.version, cfg.obfs with
      | .v4, some obfs =>
          match obfs.mode with
          | .http | .tls => .ok ()
          | .shadowTls => .error (.unsupportedObfsMode "snell" "sing-box" "shadow-tls" "http, tls")
          | .restls => .error (.unsupportedObfsMode "snell" "sing-box" "restls" "http, tls")
          | .jls => .error (.unsupportedObfsMode "snell" "sing-box" "jls" "http, tls")
      | _, _ => .ok ()
  | _, _ => .ok ()

/-! ## 2. `check_node` -/

/-- The transport of the node is one the profile supports. -/
def checkTransport (node : Node) (cap : ProfileCapability) : Except CompatibilityReason Unit :=
  match node.transport with
  | some t => rejectWhen (t.kind ∉ cap.supportedTransports) (.unsupportedTransport t.kind.text)
  | none => .ok ()

/-- `check_node` on `node` with its configuration, protocol and TLS settings replaced. -/
def checkWith (node : Node) (config : ProtocolConfig) (protocol : ProtocolKind)
    (tls : Option TlsConfig) (cap : ProfileCapability) : Except CompatibilityReason Unit := do
  rejectWhen (protocol ∉ cap.supportedProtocols) (.unsupportedProtocol protocol.text)
  rejectWhen config.isUnsupported .unsupportedConfig
  checkTransport node cap
  let restrictions : Except CompatibilityReason Unit :=
    if cap.profile = .json then .ok ()
    else do
      restrictOwn node config tls cap.profile
      match config with
      | .shadowTls _ _ innerProtocol innerConfig => do
          rejectWhen (!shadowTlsInner cap.profile innerProtocol || innerConfig.isUnsupported)
            (.unsupportedField "ShadowTLS incomplete or unsupported inner protocol")
          -- the clone with `tls = None`, checked against the profile's own table
          checkWith node innerConfig innerProtocol none (capabilityFor cap.profile)
      | _ => .ok ()
  restrictions
  checkSingBoxSnell config cap.profile

/-- `check_node`. -/
def checkNode (node : Node) (cap : ProfileCapability) : Except CompatibilityReason Unit :=
  checkWith node node.config node.protocol node.tls cap

end DeveSub
