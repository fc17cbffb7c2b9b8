/-
  File:      DeveSub/Protocol/Mihomo.lean
  Subject:   The Mihomo (Clash) parser: `parse_mihomo_yaml` (`container/mihomo.rs` of
             `deve-sub-protocol`).

  The document comes from the YAML crate as a JSON value, so the loader is an argument. An entry
  never fails: one that cannot be mapped becomes an unsupported node.
-/
import DeveSub.Protocol.Container

namespace DeveSub.Mihomo

/-! ## 1. Shared fields -/

/-- `build_base`: display name and endpoint. -/
def buildBase (entry : Json) : Except ParseError (Str × Endpoint) := do
  let name := (getStr entry "name").getD []
  let server ← okOr (getStr entry "server") (.missingField "server")
  let port ← getPort entry "port"
  let port ← okOr port (.missingField "port")
  let host ← parseHost server
  .ok (name, { host, port })

/-- The `reality-opts` of an entry. -/
def extractReality (entry : Json) : Option RealityConfig :=
  (entry.get "reality-opts").map fun ro =>
    { publicKey := (getStr ro "public-key").getD []
      shortId := (getStr ro "short-id").getD []
      spiderX := none }

/-- `extract_tls`: nothing when no TLS field is present; enabled by `tls: true` or by Reality. -/
def extractTls (entry : Json) : Option TlsConfig :=
  let tlsEnabled := (getBool entry "tls").getD false
  let serverName := (getStr entry "servername").or (getStr entry "sni")
  let skipCertVerify := getBool entry "skip-cert-verify"
  let alpn := getStrArray entry "alpn"
  let fingerprint := getStr entry "client-fingerprint"
  let reality := extractReality entry
  if !tlsEnabled && serverName.isNone && skipCertVerify.isNone && alpn.isEmpty &&
      fingerprint.isNone && reality.isNone then none
  else
    some
      { enabled := tlsEnabled || reality.isSome
        serverName
        skipCertVerify
        alpn
        clientFingerprint := fingerprint
        certificatePins := []
        reality }

/-- The transport kinds Mihomo's `network` names. -/
def networkKind (network : Str) : Option TransportKind :=
  if network = "tcp" then some .tcp
  else if network = "ws" then some .ws
  else if network = "grpc" then some .grpc
  else if network = "h2" then some .h2
  else if network = "kcp" then some .kcp
  else if network = "quic" then some .quic
  else if network = "httpupgrade" then some .httpUpgrade
  else if network = "xhttp" then some .xhttp
  else none

/-- `extract_transport`; it never fails. -/
def extractTransport (entry : Json) : Option Transport :=
  (getStr entry "network").bind fun network =>
    (networkKind network).map fun kind =>
      match kind with
      | .ws | .httpUpgrade =>
          let opts := entry.get "ws-opts"
          { kind
            path := opts.bind fun w => getStr w "path"
            host := (opts.bind fun w => w.get "headers").bind fun h => getStr h "Host"
            xhttpMode := none }
      | .grpc =>
          { kind
            path := (entry.get "grpc-opts").bind fun g => getStr g "grpc-service-name"
            host := none
            xhttpMode := none }
      | .h2 =>
          let opts := entry.get "h2-opts"
          { kind
            path := opts.bind fun h => getStr h "path"
            host := opts.bind fun h => getStrOrFirst h "host"
            xhttpMode := none }
      | .xhttp =>
          let opts := entry.get "xhttp-opts"
          { kind
            path := opts.bind fun x => getStr x "path"
            host := opts.bind fun x => getStr x "host"
            xhttpMode := some
              (((opts.bind fun x => getStr x "mode").bind XhttpMode.fromStrLossy).getD .auto) }
      | _ => { kind, path := none, host := none, xhttpMode := none }

/-- `extract_udp`. -/
def extractUdp (entry : Json) : UdpCapability :=
  { supported := getBool entry "udp", xudp := getBool entry "xudp" }

/-! ## 2. The mapper of each protocol -/

/-- `parse_vless`: the configuration is the Reality one whether or not Reality is set. -/
def parseVless (entry : Json) : Except ParseError Node := do
  let (name, endpoint) ← buildBase entry
  let uuid ← okOr (getStr entry "uuid") (.missingField "uuid")
  .ok
    { nodeShell with
      displayName := name
      protocol := .vless
      config := .vlessReality
        { encryption := getStr entry "encryption"
          flow := getStr entry "flow"
          packetEncoding := getStr entry "packet-encoding" }
      endpoint
      authentication := .uuid uuid
      transport := extractTransport entry
      tls := extractTls entry
      udp := extractUdp entry }

/-- `parse_trojan`. -/
def parseTrojan (entry : Json) : Except ParseError Node := do
  let (name, endpoint) ← buildBase entry
  let password ← okOr (getStr entry "password") (.missingField "password")
  .ok
    { nodeShell with
      displayName := name
      protocol := .trojan
      config := .trojan { packetEncoding := getStr entry "packet-encoding" }
      endpoint
      authentication := .password password
      transport := extractTransport entry
      tls := some ((extractTls entry).getD defaultTlsEnabled)
      udp := extractUdp entry }

/-- `parse_shadowsocks`: the plugin options are not converted. -/
def parseShadowsocks (entry : Json) : Except ParseError Node := do
  let (name, endpoint) ← buildBase entry
  let password ← okOr (getStr entry "password") (.missingField "password")
  let method ← okOr (getStr entry "cipher") (.missingField "cipher")
  .ok
    { nodeShell with
      displayName := name
      protocol := .shadowsocks
      config := .shadowsocks { method, plugin := getStr entry "plugin", pluginOpts := none }
      endpoint
      authentication := .password password
      udp := extractUdp entry }

/-- `parse_vmess`. -/
def parseVmess (entry : Json) : Except ParseError Node := do
  let (name, endpoint) ← buildBase entry
  let uuid ← okOr (getStr entry "uuid") (.missingField "uuid")
  .ok
    { nodeShell with
      displayName := name
      protocol := .vmess
      config := .vmess
        { alterId := (getU64 entry "alterId").map u32OrZero
          security := getStr entry "cipher"
          packetEncoding := getStr entry "packet-encoding" }
      endpoint
      authentication := .uuid uuid
      transport := extractTransport entry
      tls := extractTls entry
      udp := extractUdp entry }

/-- The hop interval: seconds as a text or as a number. -/
def hopInterval (entry : Json) : Option Duration :=
  (entry.get "hop-interval").bind fun v =>
    match v with
    | .str s => (parseDurationSecs s).toOption
    | .num (.posInt n) => if n.toNat < 2 ^ 63 then some (Duration.seconds n.toNat) else none
    | _ => none

/-- `parse_hysteria2`. -/
def parseHysteria2 (entry : Json) : Except ParseError Node := do
  let (name, endpoint) ← buildBase entry
  let password ← okOr (getStr entry "password") (.missingField "password")
  let upBps := (getStr entry "up").bind fun s => (parseBandwidth s).toOption
  let downBps := (getStr entry "down").bind fun s => (parseBandwidth s).toOption
  let controller := (getStr entry "congestion-controller").map congestionController
  .ok
    { nodeShell with
      displayName := name
      protocol := .hysteria2
      config := .hysteria2
        { ports := getStr entry "ports"
          hopInterval := hopInterval entry
          fastOpen := getBool entry "fast-open"
          lazy := getBool entry "lazy" }
      endpoint
      authentication := .password password
      tls := some ((extractTls entry).getD defaultTlsEnabled)
      obfuscation := (getStr entry "obfs").map fun kind =>
        { kind, password := getStr entry "obfs-password" }
      congestion :=
        if upBps.isSome || downBps.isSome || controller.isSome then
          some { controller := controller.getD .bbr, upBps, downBps }
        else none
      udp := extractUdp entry }

/-- `parse_tuic`. -/
def parseTuic (entry : Json) : Except ParseError Node := do
  let (name, endpoint) ← buildBase entry
  let uuid ← okOr (getStr entry "uuid") (.missingField "uuid")
  let password ← okOr (getStr entry "password") (.missingField "password")
  .ok
    { nodeShell with
      displayName := name
      protocol := .tuicV5
      config := .tuicV5
        { udpRelayMode := (getStr entry "udp-relay-mode").bind udpRelayMode?
          zeroRttHandshake :=
            (getBool entry "zero-rtt-handshake").or (getBool entry "reduce-rtt")
          heartbeat := (getU64 entry "heartbeat").map (secondsOr (2 ^ 63 - 1))
          disableSni := getBool entry "disable-sni" }
      endpoint
      authentication := .uuidPassword uuid password
      tls := some ((extractTls entry).getD defaultTlsEnabled)
      congestion := (getStr entry "congestion-controller").map fun c =>
        { controller := congestionController c, upBps := none, downBps := none }
      udp := extractUdp entry }

/-- `parse_naive`. -/
def parseNaive (entry : Json) : Except ParseError Node := do
  let (name, endpoint) ← buildBase entry
  let username ← okOr (getStr entry "username") (.missingField "username")
  let password ← okOr (getStr entry "password") (.missingField "password")
  .ok
    { nodeShell with
      displayName := name
      protocol := .naiveProxy
      config := .naiveProxy
        { quic := getBool entry "quic"
          http2 := getBool entry "http2"
          http3 := getBool entry "http3" }
      endpoint
      authentication := .userPassword username password
      tls := some ((extractTls entry).getD defaultTlsEnabled)
      udp := extractUdp entry }

/-- The peer fields of an entry or of a peer, once its public key is known. -/
def peerOf (v : Json) (publicKey : Str) : WireGuardPeer :=
  { publicKey
    preSharedKey := getStr v "pre-shared-key"
    allowedIps := getStrArray v "allowed-ips"
    reserved := parseReservedArray (v.get "reserved")
    persistentKeepalive := (getU64 v "persistent-keepalive").map (secondsOr 0) }

/-- `parse_wireguard_peer`. -/
def parseWireGuardPeer (peer : Json) : Except ParseError WireGuardPeer := do
  let publicKey ← okOr (getStr peer "public-key") (.missingField "peer public-key")
  .ok (peerOf peer publicKey)

/-- The peers of an entry: a list of them, which may be empty, or one at the top level. -/
def parsePeers (entry : Json) : Except ParseError (List WireGuardPeer) :=
  match (entry.get "peers").bind Json.asArray with
  | some peers => peers.mapM parseWireGuardPeer
  | none =>
      match getStr entry "public-key" with
      | some key => .ok [peerOf entry key]
      | none => .error (.missingField "public-key or peers")

/-- `parse_wireguard`. -/
def parseWireGuard (entry : Json) : Except ParseError Node := do
  let (name, endpoint) ← buildBase entry
  let privateKey ← okOr (getStr entry "private-key") (.missingField "private-key")
  let peers ← parsePeers entry
  .ok
    { nodeShell with
      displayName := name
      protocol := .wireGuard
      config := .wireGuard
        { privateKey
          address := (getStr entry "ip").toList ++ (getStr entry "ipv6").toList
          peers
          mtu := (getU64 entry "mtu").map u32OrZero
          workers := (getU64 entry "workers").map u32OrZero
          dns := getStrArray entry "dns" }
      endpoint
      authentication := .none
      udp := { supported := some true, xudp := none } }

/-- `parse_anytls`: TLS is forced on. -/
def parseAnyTls (entry : Json) : Except ParseError Node := do
  let (name, endpoint) ← buildBase entry
  let password ← okOr (getStr entry "password") (.missingField "password")
  .ok
    { nodeShell with
      displayName := name
      protocol := .anyTls
      config := .anyTls
        { idleSessionCheckInterval :=
            (getU64 entry "idle-session-check-interval").map (secondsOr 0)
          idleSessionTimeout := (getU64 entry "idle-session-timeout").map (secondsOr 0)
          minIdleSession := (getU64 entry "min-idle-session").map u32OrZero
          clientMetadata := none }
      endpoint
      authentication := .password password
      tls := some { (extractTls entry).getD defaultTlsEnabled with enabled := true }
      udp := extractUdp entry }

/-- The obfuscation modes of `obfs-opts`. -/
def obfsMode (mode : Str) : Except ParseError SnellObfsMode :=
  if mode = "tls" then .ok .tls
  else if mode = "http" then .ok .http
  else if mode = "shadow-tls" then .ok .shadowTls
  else if mode = "restls" then .ok .restls
  else if mode = "jls" then .ok .jls
  else .error (.invalidField "obfs-opts.mode" mode)

/-- `parse_snell_obfs`. -/
def parseSnellObfs (o : Json) : Except ParseError SnellObfs := do
  let modeStr ← okOr (getStr o "mode") (.missingField "obfs-opts.mode")
  let mode ← obfsMode modeStr
  .ok
    { mode
      host := getStr o "host"
      password := getStr o "password"
      version := (getU64 o "version").map u32OrZero
      alpn := getStrArray o "alpn" }

/-- The Snell version: a number or its text, 1 when absent. -/
def snellVersion (entry : Json) : Except ParseError SnellVersion :=
  match entry.get "version" with
  | none => .ok .v1
  | some v => do
      let n ← okOr
        ((v.asU64.map UInt64.toNat).or (v.asStr.bind fun s => parseUnsigned (2 ^ 64) s))
        (.invalidField "version" v.text)
      okOr (SnellVersion.fromU32 (if n < 4294967296 then n else 0))
        (.invalidField "version" (natText n))

/-- The TLS settings of a Snell entry: only under `obfs-opts.mode: tls`. -/
def snellTls (entry : Json) (obfs : Option SnellObfs) : Option TlsConfig :=
  match obfs with
  | some o =>
      if o.mode = .tls then
        let t := (extractTls entry).getD defaultTlsEnabled
        some
          { t with
            enabled := true
            serverName := t.serverName.or o.host
            alpn := if t.alpn.isEmpty then o.alpn else t.alpn }
      else none
  | none => none

/-- `parse_snell`. -/
def parseSnell (entry : Json) : Except ParseError Node := do
  let (name, endpoint) ← buildBase entry
  let psk ← okOr (getStr entry "psk") (.missingField "psk")
  let version ← snellVersion entry
  let obfs ← transpose ((entry.get "obfs-opts").map parseSnellObfs)
  .ok
    { nodeShell with
      displayName := name
      protocol := .snell
      config := .snell { version, reuse := getBool entry "reuse", obfs, v6Mode := none }
      endpoint
      authentication := .password psk
      udp := extractUdp entry
      tls := snellTls entry obfs }

/-! ## 3. ShadowTLS projections -/

/-- A ShadowTLS version in an options object. -/
def shadowTlsVersion (opts : Json) : Option ShadowTlsVersion :=
  (getU64 opts "version").bind fun n => ShadowTlsVersion.fromU32 (u32OrZero n).toNat

/-- Version, password and camouflage name of the ShadowTLS layer of an entry, if it has one:
    `shadow-tls-opts`, `plugin: shadow-tls` with `plugin-opts`, or `obfs-opts.mode: shadow-tls`. -/
def shadowTlsLayer (entry : Json) : Option (ShadowTlsVersion × Option Str × Option Str) :=
  match entry.get "shadow-tls-opts" with
  | some opts =>
      (shadowTlsVersion opts).map fun v =>
        (v, getStr opts "password",
          (getStr opts "sni").or ((getStr entry "sni").or (getStr entry "servername")))
  | none =>
      if getStr entry "plugin" = some "shadow-tls" then
        (entry.get "plugin-opts").bind fun opts =>
          (shadowTlsVersion opts).map fun v =>
            (v, getStr opts "password", (getStr opts "host").or (getStr entry "sni"))
      else
        (entry.get "obfs-opts").bind fun obfs =>
          if getStr obfs "mode" = some "shadow-tls" then
            (shadowTlsVersion obfs).map fun v =>
              (v, getStr obfs "password", (getStr obfs "host").or (getStr entry "sni"))
          else none

/-- `try_parse_shadowtls_projection`: the inner node wrapped, with TLS forced on. -/
def tryParseShadowTlsProjection (entry : Json) (inner : Node) : Option Node :=
  (shadowTlsLayer entry).bind fun (version, password, sni) =>
    if inner.config.isUnsupported then none
    else
      let tls := (extractTls entry).getD defaultTlsEnabled
      some
        { inner with
          protocol := .shadowTls
          config := .shadowTls version password inner.protocol inner.config
          tls := some { tls with enabled := true, serverName := tls.serverName.or sni } }

/-! ## 4. Entries and documents -/

/-- The mapper of a `type`. -/
def parseTyped (proxyType : Str) (entry : Json) : Except ParseError Node :=
  if proxyType = "vless" then parseVless entry
  else if proxyType = "vmess" then parseVmess entry
  else if proxyType = "trojan" then parseTrojan entry
  else if proxyType = "ss" then parseShadowsocks entry
  else if proxyType = "hysteria2" ∨ proxyType = "hy2" then parseHysteria2 entry
  else if proxyType = "tuic" then parseTuic entry
  else if proxyType = "naive" then parseNaive entry
  else if proxyType = "wireguard" then parseWireGuard entry
  else if proxyType = "anytls" then parseAnyTls entry
  else if proxyType = "snell" then parseSnell entry
  else .error (.unsupportedProxyType proxyType)

/-- `parse_proxy_entry`. -/
def parseProxyEntry (entry : Json) : Node :=
  match getStr entry "type" with
  | none => unsupportedEntry entry "mihomo-yaml" (.unknown []) "missing 'type' field"
  | some proxyType =>
      match parseTyped proxyType entry with
      | .ok node => (tryParseShadowTlsProjection entry node).getD node
      | .error e => unsupportedEntry entry "mihomo-yaml" (.unknown proxyType) e.text

/-- `parse_mihomo_yaml`; `load` is the YAML crate's `parse_source_json`. -/
def parseMihomoYaml (load : Str → Except Str Json) (text : Str) :
    Except ParseError (List Node) := do
  let value ← (load text).mapError .invalidYaml
  let proxies ← okOr (value.get "proxies") (.missingContainerKey "proxies")
  let proxies ← okOr proxies.asArray (.missingContainerKey "proxies (not a list)")
  checkEntryCount proxies.length
  .ok (proxies.map parseProxyEntry)

end DeveSub.Mihomo
