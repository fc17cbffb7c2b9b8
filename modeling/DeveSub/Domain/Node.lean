/-
  File:      DeveSub/Domain/Node.lean
  Subject:   The canonical node: the types of `deve-sub-domain` that parsers fill and emitters
             read (`node.rs`, `protocol.rs`, `protocol_config.rs`, `tls.rs`, `transport.rs`,
             `endpoint.rs`).

  A node here carries the fields the protocol engine works on. Its identifier, its provenance
  (`source`), its tags, its region and its chain are the node pool's business and are modelled
  with the pool; no parser or emitter reads them.
-/
import DeveSub.Lib.Json
import DeveSub.Lib.IpAddr

namespace DeveSub

/-! ## 1. Durations -/

/-- `time::Duration`, in nanoseconds. -/
structure Duration where
  nanos : Int
  deriving DecidableEq

namespace Duration

/-- `Duration::seconds`. -/
def seconds (n : Int) : Duration := ⟨n * 1000000000⟩

/-- `Duration::milliseconds`. -/
def milliseconds (n : Int) : Duration := ⟨n * 1000000⟩

/-- `whole_seconds`, rounded towards zero. -/
def wholeSeconds (d : Duration) : Int := d.nanos.tdiv 1000000000

/-- `whole_milliseconds`, rounded towards zero. -/
def wholeMilliseconds (d : Duration) : Int := d.nanos.tdiv 1000000

/-- `subsec_nanoseconds`. -/
def subsecNanoseconds (d : Duration) : Int := d.nanos.tmod 1000000000

@[simp] theorem wholeSeconds_seconds (n : Int) : (seconds n).wholeSeconds = n :=
  Int.mul_tdiv_cancel n (by decide)

@[simp] theorem wholeMilliseconds_milliseconds (n : Int) :
    (milliseconds n).wholeMilliseconds = n :=
  Int.mul_tdiv_cancel n (by decide)

end Duration

/-! ## 2. Endpoint -/

/-- `Host`. -/
inductive Host where
  | ipv4 (addr : Ipv4Addr)
  | ipv6 (addr : Ipv6Addr)
  | domain (name : Str)
  deriving DecidableEq

/-- `Host::uri_host`: IPv6 stands in brackets. -/
def Host.uriHost : Host → Str
  | .ipv4 a => a.text
  | .ipv6 a => '[' :: (a.text ++ [']'])
  | .domain d => d

/-- `Endpoint`. -/
structure Endpoint where
  host : Host
  port : UInt16
  deriving DecidableEq

/-! ## 3. Protocols and their configurations -/

/-- `ProtocolKind`. -/
inductive ProtocolKind where
  | vless
  | vmess
  | trojan
  | shadowsocks
  | hysteria2
  | tuicV5
  | naiveProxy
  | socks5
  | http
  | hysteriaV1
  | anyTls
  | snell
  | wireGuard
  | shadowTls
  | ssh
  | unknown (name : Str)
  deriving DecidableEq

/-- `Display for ProtocolKind`. -/
def ProtocolKind.text : ProtocolKind → Str
  | .vless => "VLESS"
  | .vmess => "VMess"
  | .trojan => "Trojan"
  | .shadowsocks => "Shadowsocks"
  | .hysteria2 => "Hysteria2"
  | .tuicV5 => "TUIC v5"
  | .naiveProxy => "NaiveProxy"
  | .socks5 => "SOCKS5"
  | .http => "HTTP"
  | .hysteriaV1 => "Hysteria v1"
  | .anyTls => "AnyTLS"
  | .snell => "Snell"
  | .wireGuard => "WireGuard"
  | .shadowTls => "ShadowTLS"
  | .ssh => "SSH"
  | .unknown name => "Unknown(".toList ++ name ++ [')']

/-- `VlessRealityConfig`. -/
structure VlessRealityConfig where
  encryption : Option Str
  flow : Option Str
  packetEncoding : Option Str
  deriving DecidableEq

/-- `Hysteria2Config`. -/
structure Hysteria2Config where
  ports : Option Str
  hopInterval : Option Duration
  fastOpen : Option Bool
  lazy : Option Bool
  deriving DecidableEq

/-- `UdpRelayMode`. -/
inductive UdpRelayMode where
  | native
  | quic
  deriving DecidableEq

/-- `TuicV5Config`. -/
structure TuicV5Config where
  udpRelayMode : Option UdpRelayMode
  zeroRttHandshake : Option Bool
  heartbeat : Option Duration
  disableSni : Option Bool
  deriving DecidableEq

/-- `NaiveProxyConfig`. -/
structure NaiveProxyConfig where
  quic : Option Bool
  http2 : Option Bool
  http3 : Option Bool
  deriving DecidableEq

/-- `ShadowsocksConfig`. -/
structure ShadowsocksConfig where
  method : Str
  plugin : Option Str
  pluginOpts : Option Str
  deriving DecidableEq

/-- `VMessConfig`. -/
structure VMessConfig where
  alterId : Option UInt32
  security : Option Str
  packetEncoding : Option Str
  deriving DecidableEq

/-- `TrojanConfig`. -/
structure TrojanConfig where
  packetEncoding : Option Str
  deriving DecidableEq

/-- `WireGuardPeer`. -/
structure WireGuardPeer where
  publicKey : Str
  preSharedKey : Option Str
  allowedIps : List Str
  reserved : Option (UInt8 × UInt8 × UInt8)
  persistentKeepalive : Option Duration
  deriving DecidableEq

/-- `WireGuardConfig`. -/
structure WireGuardConfig where
  privateKey : Str
  address : List Str
  peers : List WireGuardPeer
  mtu : Option UInt32
  workers : Option UInt32
  dns : List Str
  deriving DecidableEq

/-- `AnyTlsConfig`. -/
structure AnyTlsConfig where
  idleSessionCheckInterval : Option Duration
  idleSessionTimeout : Option Duration
  minIdleSession : Option UInt32
  clientMetadata : Option Str
  deriving DecidableEq

/-- `SnellVersion`. -/
inductive SnellVersion where
  | v1
  | v2
  | v3
  | v4
  | v5
  | v6
  deriving DecidableEq

/-- `SnellVersion::as_u32`. -/
def SnellVersion.asU32 : SnellVersion → Nat
  | .v1 => 1
  | .v2 => 2
  | .v3 => 3
  | .v4 => 4
  | .v5 => 5
  | .v6 => 6

/-- `SnellVersion::from_u32`. -/
def SnellVersion.fromU32 : Nat → Option SnellVersion
  | 1 => some .v1
  | 2 => some .v2
  | 3 => some .v3
  | 4 => some .v4
  | 5 => some .v5
  | 6 => some .v6
  | _ => none

/-- `SnellV6Mode`. -/
inductive SnellV6Mode where
  | default
  | unshaped
  | unsafeRaw
  deriving DecidableEq

/-- `SnellObfsMode`. -/
inductive SnellObfsMode where
  | tls
  | http
  | shadowTls
  | restls
  | jls
  deriving DecidableEq

/-- `SnellObfs`. -/
structure SnellObfs where
  mode : SnellObfsMode
  host : Option Str
  password : Option Str
  version : Option UInt32
  alpn : List Str
  deriving DecidableEq

/-- `SnellConfig`. -/
structure SnellConfig where
  version : SnellVersion
  reuse : Option Bool
  obfs : Option SnellObfs
  v6Mode : Option SnellV6Mode
  deriving DecidableEq

/-- `ShadowTlsVersion`. -/
inductive ShadowTlsVersion where
  | v1
  | v2
  | v3
  deriving DecidableEq

/-- `ShadowTlsVersion::as_u32`. -/
def ShadowTlsVersion.asU32 : ShadowTlsVersion → Nat
  | .v1 => 1
  | .v2 => 2
  | .v3 => 3

/-- `ShadowTlsVersion::from_u32`. -/
def ShadowTlsVersion.fromU32 : Nat → Option ShadowTlsVersion
  | 1 => some .v1
  | 2 => some .v2
  | 3 => some .v3
  | _ => none

/-- `UnsupportedNode`. -/
structure UnsupportedNode where
  raw : Json
  rawFormat : Option Str
  reason : Str

/-- `ProtocolConfig`; the fields of `ShadowTlsConfig` stand in the constructor, since its inner
    configuration is again a `ProtocolConfig`. -/
inductive ProtocolConfig where
  | vlessReality (cfg : VlessRealityConfig)
  | hysteria2 (cfg : Hysteria2Config)
  | tuicV5 (cfg : TuicV5Config)
  | naiveProxy (cfg : NaiveProxyConfig)
  | shadowsocks (cfg : ShadowsocksConfig)
  | vmess (cfg : VMessConfig)
  | trojan (cfg : TrojanConfig)
  | wireGuard (cfg : WireGuardConfig)
  | anyTls (cfg : AnyTlsConfig)
  | snell (cfg : SnellConfig)
  | shadowTls (version : ShadowTlsVersion) (password : Option Str) (innerProtocol : ProtocolKind)
      (innerConfig : ProtocolConfig)
  | unsupported (node : UnsupportedNode)

/-- `matches!(config, ProtocolConfig::Unsupported(_))`. -/
def ProtocolConfig.isUnsupported : ProtocolConfig → Bool
  | .unsupported _ => true
  | _ => false

/-! ## 4. TLS, transport and the other shared fields -/

/-- `RealityConfig`. -/
structure RealityConfig where
  publicKey : Str
  shortId : Str
  spiderX : Option Str
  deriving DecidableEq

/-- `TlsConfig`; a `CertificatePin` is its text. -/
structure TlsConfig where
  enabled : Bool
  serverName : Option Str
  skipCertVerify : Option Bool
  alpn : List Str
  clientFingerprint : Option Str
  certificatePins : List Str
  reality : Option RealityConfig
  deriving DecidableEq

/-- `SnellConfig::tls_is_obfs_alias`. -/
def SnellConfig.tlsIsObfsAlias (cfg : SnellConfig) : Option TlsConfig → Bool
  | none => true
  | some tls =>
      match cfg.obfs with
      | none => false
      | some obfs =>
          obfs.mode = .tls && tls.enabled && tls.serverName = obfs.host &&
            tls.skipCertVerify.isNone && tls.alpn = obfs.alpn && tls.clientFingerprint.isNone &&
            tls.certificatePins.isEmpty && tls.reality.isNone

/-- `TransportKind`. -/
inductive TransportKind where
  | tcp
  | kcp
  | ws
  | h2
  | quic
  | grpc
  | httpUpgrade
  | xtls
  | xhttp
  deriving DecidableEq

/-- `Display for TransportKind`. -/
def TransportKind.text : TransportKind → Str
  | .tcp => "tcp"
  | .kcp => "kcp"
  | .ws => "ws"
  | .h2 => "h2"
  | .quic => "quic"
  | .grpc => "grpc"
  | .httpUpgrade => "httpupgrade"
  | .xtls => "xtls"
  | .xhttp => "xhttp"

/-- `XhttpMode`. -/
inductive XhttpMode where
  | auto
  | streamOne
  | streamUp
  | packetUp
  deriving DecidableEq

/-- `XhttpMode::as_str`. -/
def XhttpMode.asStr : XhttpMode → Str
  | .auto => "auto"
  | .streamOne => "stream-one"
  | .streamUp => "stream-up"
  | .packetUp => "packet-up"

/-- `XhttpMode::from_str_lossy`. -/
def XhttpMode.fromStrLossy (s : Str) : Option XhttpMode :=
  if s = "auto" then some .auto
  else if s = "stream-one" then some .streamOne
  else if s = "stream-up" then some .streamUp
  else if s = "packet-up" then some .packetUp
  else none

@[simp] theorem XhttpMode.fromStrLossy_asStr (m : XhttpMode) : fromStrLossy m.asStr = some m := by
  cases m <;> rfl

/-- `Transport`. -/
structure Transport where
  kind : TransportKind
  path : Option Str
  host : Option Str
  xhttpMode : Option XhttpMode
  deriving DecidableEq

/-- `UdpCapability`. -/
structure UdpCapability where
  supported : Option Bool
  xudp : Option Bool
  deriving DecidableEq

/-- `MultiplexConfig`. -/
structure MultiplexConfig where
  protocol : Str
  maxConnections : Option UInt32
  deriving DecidableEq

/-- `Obfuscation`. -/
structure Obfuscation where
  kind : Str
  password : Option Str
  deriving DecidableEq

/-- `CongestionController`. -/
inductive CongestionController where
  | bbr
  | cubic
  | newReno
  | other (name : Str)
  deriving DecidableEq

/-- `CongestionConfig`. -/
structure CongestionConfig where
  controller : CongestionController
  upBps : Option UInt64
  downBps : Option UInt64
  deriving DecidableEq

/-- `Authentication`. -/
inductive Authentication where
  | uuid (uuid : Str)
  | password (password : Str)
  | userPassword (username password : Str)
  | uuidPassword (uuid password : Str)
  | none
  deriving DecidableEq

/-! ## 5. The node -/

/-- `Node`, the fields the protocol engine reads and writes. -/
structure Node where
  displayName : Str
  protocol : ProtocolKind
  config : ProtocolConfig
  endpoint : Endpoint
  authentication : Authentication
  transport : Option Transport
  tls : Option TlsConfig
  udp : UdpCapability
  multiplex : Option MultiplexConfig
  obfuscation : Option Obfuscation
  congestion : Option CongestionConfig
  extras : List (Str × Json)

/-- `extras.get(key)`. -/
def Node.extra (n : Node) (key : Str) : Option Json :=
  (n.extras.find? fun m => m.1 = key).map Prod.snd

/-- `extras.contains_key(key)`. -/
def Node.hasExtra (n : Node) (key : Str) : Bool := (n.extra key).isSome

end DeveSub
