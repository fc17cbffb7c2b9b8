/-
  File:      DeveSub/Properties/UriDefaults.lean
  Subject:   Parsing, emitting and parsing again: Hysteria2 and WireGuard URIs, whose emitters
             leave out a value that is not the one an absent parameter stands for.

  * Hysteria2: BBR is not written as the controller, and without a controller there are no
    congestion settings at all: **`hysteria2_round_trips_iff`**;
  * WireGuard: the allowed addresses of the peer are not written, and neither is an empty list of
    own addresses: **`wireguard_round_trips_iff`**.
-/
import DeveSub.Properties.UriQuery

namespace DeveSub

namespace Uri

/-! ## 1. Hysteria2 -/

/-- A Hysteria2 node of a URI without bandwidths. -/
def hysteria2Node (name password : Str) (endpoint : Endpoint) (cfg : Hysteria2Config)
    (tls : TlsConfig) (obfs : Option Obfuscation) (controller : Option CongestionController) :
    Node :=
  { nodeShell with
    displayName := name
    protocol := .hysteria2
    config := .hysteria2 cfg
    endpoint
    authentication := .password password
    tls := some tls
    obfuscation := obfs
    congestion := controller.map controllerOnly }

/-- The controller an emitter writes. -/
def writtenController (controller : Option CongestionController) : Option CongestionController :=
  controller.filter fun c => c ≠ .bbr

/-- The parameters of an emitted Hysteria2 URI. -/
def hysteria2Params (cfg : Hysteria2Config) (tls : TlsConfig) (obfs : Option Obfuscation)
    (controller : Option CongestionController) : List (Str × Str) :=
  param "sni" tls.serverName ++ listParam "alpn" tls.alpn ++
      param "insecure" (tls.skipCertVerify.map boolDigit) ++
      param "pinSHA256" (pinsValue tls.certificatePins) ++
    (param "obfs" (obfs.map Obfuscation.kind) ++
      param "obfs-password" (obfs.bind Obfuscation.password)) ++
    param "congestion-controller" ((writtenController controller).map CongestionController.name) ++
    param "ports" cfg.ports ++
    durationParam "hop_interval" (cfg.hopInterval.map Duration.wholeSeconds) ++
    param "fast-open" (cfg.fastOpen.map boolDigit) ++ param "lazy" (cfg.lazy.map boolDigit)

section Hysteria2

variable (cfg : Hysteria2Config) (tls : TlsConfig) (obfs : Option Obfuscation)
  (controller : Option CongestionController)

theorem hysteria2Params_plain : PlainKeys (hysteria2Params cfg tls obfs controller) := by
  simp [hysteria2Params, plainKeys_param, isKeyChar]

theorem hysteria2Params_tls :
    CarriesTls (hysteria2Params cfg tls obfs controller) "insecure" ["skip-cert-verify"]
      (some "pinSHA256") tls := by
  constructor <;> simp [hysteria2Params]

theorem hysteria2Params_obfs :
    ((Query.get (hysteria2Params cfg tls obfs controller) "obfs").map fun kind =>
      ({ kind, password := Query.get (hysteria2Params cfg tls obfs controller) "obfs-password" } :
        Obfuscation)) = obfs := by
  cases obfs <;> simp [hysteria2Params]

theorem hysteria2Params_bandwidth :
    Query.get (hysteria2Params cfg tls obfs controller) "up" = none ∧
      Query.get (hysteria2Params cfg tls obfs controller) "down" = none := by
  simp [hysteria2Params]

theorem hysteria2Params_controller :
    Query.get (hysteria2Params cfg tls obfs controller) "congestion-controller" =
      (writtenController controller).map CongestionController.name := by
  simp [hysteria2Params]

theorem hysteria2Params_hop :
    Query.get (hysteria2Params cfg tls obfs controller) "hop_interval" =
      countValue (cfg.hopInterval.map Duration.wholeSeconds) := by
  simp [hysteria2Params]

theorem hysteria2Params_ports :
    Query.get (hysteria2Params cfg tls obfs controller) "ports" = cfg.ports := by
  simp [hysteria2Params]

theorem hysteria2Params_fastOpen :
    queryBool (hysteria2Params cfg tls obfs controller) "fast-open" = .ok cfg.fastOpen :=
  queryBool_of_digit (by simp [hysteria2Params])

theorem hysteria2Params_lazy :
    queryBool (hysteria2Params cfg tls obfs controller) "lazy" = .ok cfg.lazy :=
  queryBool_of_digit (by simp [hysteria2Params])

/-- Without bandwidths the congestion settings of a query are those of its controller. -/
theorem congestion_of_controller (c : Option CongestionController) :
    (if (none : Option UInt64).isSome || (none : Option UInt64).isSome || c.isSome then
      some (CongestionConfig.mk (c.getD .bbr) none none) else none) = c.map controllerOnly := by
  cases c <;> rfl

theorem emitHysteria2_eq (json : JsonCodec) (name password : Str) (endpoint : Endpoint) :
    emitUri json (hysteria2Node name password endpoint cfg tls obfs controller) =
      .ok (uriTextOpt "hysteria2" (encodeUserinfo password)
        (hysteria2Node name password endpoint cfg tls obfs controller)
        (formatQuery (hysteria2Params cfg tls obfs controller))) := by
  rw [hysteria2Params, ← pinsParam_eq]
  rcases obfs with _ | ⟨kind, pw⟩
  · rcases controller with _ | (_ | _ | _ | other) <;> rfl
  · rcases controller with _ | (_ | _ | _ | other) <;> rfl

variable {cfg tls controller}

/-- What an emitted Hysteria2 URI parses to: the node, without the controller that is not
    written. -/
theorem parse_emit_hysteria2 (json : JsonCodec) (name : Str) {password : Str} {endpoint : Endpoint}
    (hpassword : password ≠ []) (hhost : endpoint.host.Written)
    (htls : CommonTls (some "pinSHA256") tls)
    (hhop : transpose ((countValue (cfg.hopInterval.map Duration.wholeSeconds)).map
      parseDurationSecs) = .ok cfg.hopInterval)
    (hcontroller : ∀ c, controller = some c → ∃ v, c = congestionController v) :
    ∃ v, emitUri json (hysteria2Node name password endpoint cfg tls obfs controller) = .ok v ∧
      parseUri (.rfc3986 json) v =
        .ok (hysteria2Node name password endpoint cfg tls obfs (writtenController controller)) := by
  refine ⟨_, emitHysteria2_eq cfg tls obfs controller json name password endpoint, ?_⟩
  obtain ⟨n, hn⟩ : ∃ n, n = hysteria2Node name password endpoint cfg tls obfs controller := ⟨_, rfl⟩
  have hnode : n.endpoint.host.Written := hn ▸ hhost
  obtain ⟨t', ht', hget⟩ := buildCommonTls_carried (hysteria2Params_tls cfg tls obfs controller) htls
  have hread : ((writtenController controller).map CongestionController.name).map
      congestionController = writtenController controller := by
    rw [Option.map_map]
    cases hw : writtenController controller with
    | none => rfl
    | some c =>
        obtain ⟨v, rfl⟩ := hcontroller c (Option.filter_eq_some_iff.mp hw).1
        exact congrArg some (congestionController_name v)
  rw [← hn, ParserOf.hysteria2.parseUri_uriTextOpt (userText_encodeUserinfo password) hnode
    (hysteria2Params_plain cfg tls obfs controller), parseHysteria2]
  simp only [emittedUrl_username, decodeUserinfo_encodeUserinfo,
    List.isEmpty_eq_false_iff.mpr hpassword, rejectWhen_false, ok_bind,
    urlEndpoint_emittedUrl _ _ _ hnode, emittedUrl_queryPairs, ht', hget,
    hysteria2Params_bandwidth, Option.map_none, transpose_none, hysteria2Params_controller, hread,
    hysteria2Params_hop, hhop, hysteria2Params_fastOpen, hysteria2Params_lazy,
    hysteria2Params_ports, hysteria2Params_obfs, congestion_of_controller,
    decodeFragment_emittedUrl]
  rw [hn]
  rfl

end Hysteria2

theorem parseHysteria2_eq_ok {url : Url} {n : Node} (h : parseHysteria2 url = .ok n)
    (hup : Query.get url.queryPairs "up" = none) (hdown : Query.get url.queryPairs "down" = none) :
    ∃ endpoint cfg t obfs,
      decodeUserinfo url.username ≠ [] ∧ urlEndpoint url "hysteria2" = .ok endpoint ∧
      buildCommonTls url.queryPairs ["insecure", "skip-cert-verify"] (some "pinSHA256") = .ok t ∧
      transpose ((Query.get url.queryPairs "hop_interval").map parseDurationSecs) =
        .ok cfg.hopInterval ∧
      n = hysteria2Node (decodeFragment url.fragment) (decodeUserinfo url.username) endpoint cfg
        (t.getD defaultTlsEnabled) obfs
        ((Query.get url.queryPairs "congestion-controller").map congestionController) := by
  obtain ⟨_, hpassword, h⟩ := bind_eq_ok.mp h
  obtain ⟨endpoint, hendpoint, h⟩ := bind_eq_ok.mp h
  obtain ⟨t, ht, h⟩ := bind_eq_ok.mp h
  rw [hup, hdown] at h
  obtain ⟨_, hnone, h⟩ := bind_eq_ok.mp h
  cases hnone
  obtain ⟨_, hnone, h⟩ := bind_eq_ok.mp h
  cases hnone
  obtain ⟨hop, hhop, h⟩ := bind_eq_ok.mp h
  obtain ⟨fastOpen, -, h⟩ := bind_eq_ok.mp h
  obtain ⟨lazy, -, h⟩ := bind_eq_ok.mp h
  rw [congestion_of_controller] at h
  exact ⟨endpoint, ⟨_, hop, fastOpen, lazy⟩, t, _, by simpa using rejectWhen_eq_ok.mp hpassword,
    hendpoint, ht, hhop, (Except.ok.inj h).symm⟩

end Uri

open Uri

/-- **A Hysteria2 URI without bandwidths survives the round trip exactly when it does not name BBR
    as its controller.** -/
theorem hysteria2_round_trips_iff {json : JsonCodec} {u : Str} {url : Url} {n : Node}
    (hurl : Url.parse u = .ok url) (hscheme : url.scheme = "hysteria2" ∨ url.scheme = "hy2")
    (hup : Query.get url.queryPairs "up" = none) (hdown : Query.get url.queryPairs "down" = none)
    (hn : parseUri (.rfc3986 json) u = .ok n) :
    RoundTrips json n ↔ Query.get url.queryPairs "congestion-controller" ≠ some "bbr" := by
  have hparse : parseHysteria2 url = .ok n := by
    rcases hscheme with hscheme | hscheme
    · rwa [ParserOf.hysteria2.parseUri_eq hurl hscheme] at hn
    · rwa [ParserOf.hy2.parseUri_eq hurl hscheme] at hn
  obtain ⟨endpoint, cfg, t, obfs, hpassword, hendpoint, ht, hhop, rfl⟩ :=
    parseHysteria2_eq_ok hparse hup hdown
  have hnamed : ∀ c, (Query.get url.queryPairs "congestion-controller").map congestionController =
      some c → ∃ v, c = congestionController v := by
    intro c hc
    obtain ⟨v, -, rfl⟩ := Option.map_eq_some_iff.mp hc
    exact ⟨v, rfl⟩
  obtain ⟨v, hv, hparse⟩ := parse_emit_hysteria2 obfs json (decodeFragment url.fragment) hpassword
    (urlEndpoint_written hurl hendpoint) (buildCommonTls_common ht) (transpose_secs hhop) hnamed
  rw [roundTrips_iff hv hparse]
  constructor
  · intro heq hbbr
    have hcongestion := congrArg Node.congestion heq
    rw [hbbr] at hcongestion
    cases hcongestion
  · intro hne
    have hkept : writtenController ((Query.get url.queryPairs "congestion-controller").map
        congestionController) =
        (Query.get url.queryPairs "congestion-controller").map congestionController := by
      cases hq : Query.get url.queryPairs "congestion-controller" with
      | none => rfl
      | some v =>
          have hv : congestionController v ≠ .bbr := fun h =>
            hne (hq.trans (congrArg some (eq_bbr_of_congestionController h)))
          simp [writtenController, Option.filter, hv]
    rw [hkept]

/-- BBR named in the URI is lost with the congestion settings. -/
theorem hysteria2_named_bbr_is_lost :
    ∃ n, ∀ json : JsonCodec,
      parseUri (.rfc3986 json) "hy2://p@h:1?congestion-controller=bbr" = .ok n ∧
        ¬ RoundTrips json n := by
  have hurl : Url.parse "hy2://p@h:1?congestion-controller=bbr" =
      .ok ⟨"hy2", "p", none, some "h", some 1, [("congestion-controller", "bbr")], none⟩ := rfl
  refine ⟨hysteria2Node [] "p" ⟨.domain "h", 1⟩ ⟨none, none, none, none⟩ defaultTlsEnabled none
    (some .bbr), fun json => ⟨?_, ?_⟩⟩
  · rw [ParserOf.hy2.parseUri_eq hurl rfl]
    rfl
  · have hhost : (Endpoint.mk (.domain "h") 1).host.Written := by decide
    have hcfg : transpose ((countValue ((Hysteria2Config.mk none none none none).hopInterval.map
        Duration.wholeSeconds)).map parseDurationSecs) = .ok none := rfl
    obtain ⟨v, hv, hparse⟩ := parse_emit_hysteria2 none json [] (show "p".toList ≠ [] by decide)
      hhost (defaultTlsEnabled_common _) hcfg
      (fun c (hc : some .bbr = some c) => ⟨"bbr", (Option.some.inj hc).symm⟩)
    rw [roundTrips_iff hv hparse]
    intro heq
    cases congrArg Node.congestion heq

theorem hysteria2_round_trips_cubic :
    ∃ n, ∀ json : JsonCodec,
      parseUri (.rfc3986 json) "hy2://p@h:1?congestion-controller=cubic" = .ok n ∧
        RoundTrips json n := by
  have hurl : Url.parse "hy2://p@h:1?congestion-controller=cubic" =
      .ok ⟨"hy2", "p", none, some "h", some 1, [("congestion-controller", "cubic")], none⟩ := rfl
  obtain ⟨n, hn⟩ : ∃ n, ∀ json : JsonCodec,
      parseUri (.rfc3986 json) "hy2://p@h:1?congestion-controller=cubic" = .ok n :=
    ⟨_, fun _ => ParserOf.hy2.parseUri_eq hurl rfl⟩
  exact ⟨n, fun json => ⟨hn json,
    (hysteria2_round_trips_iff hurl (.inr rfl) rfl rfl (hn json)).mpr (by decide)⟩⟩

namespace Uri

/-! ## 2. WireGuard -/

/-- A WireGuard node of a URI: one peer, no workers, no name servers. -/
def wireGuardNode (name privateKey : Str) (endpoint : Endpoint) (address : List Str)
    (peer : WireGuardPeer) (mtu : Option UInt32) : Node :=
  { nodeShell with
    displayName := name
    protocol := .wireGuard
    config := .wireGuard
      { privateKey
        address
        peers := [peer]
        mtu
        workers := none
        dns := [] }
    endpoint
    authentication := .none }

/-- The parameters of an emitted WireGuard URI. -/
def wireGuardParams (address : List Str) (peer : WireGuardPeer) (mtu : Option UInt32) :
    List (Str × Str) :=
  [("publickey".toList, peer.publicKey)] ++ listParam "address" address ++
    param "presharedkey" peer.preSharedKey ++
    param "reserved" (peer.reserved.map reservedText) ++
    param "mtu" (mtu.map fun m => natText m.toNat) ++
    durationParam "keepalive" (peer.persistentKeepalive.map Duration.wholeSeconds)

theorem trim_natText (n : Nat) : trim (natText n) = natText n :=
  trim_eq_self fun _ hc =>
    forall_digit (P := fun c => isWhitespace c = false) (by decide) (isDigit_of_mem_natText hc)

/-- **The reserved octets are read back.** -/
theorem parseReserved_reservedText (r : UInt8 × UInt8 × UInt8) :
    parseReserved (reservedText r) = .ok r := by
  obtain ⟨x, y, z⟩ := r
  have hsplit : (reservedText (x, y, z)).splitOn ',' =
      [natText x.toNat, natText y.toNat, natText z.toNat] := by
    refine split_join (List.cons_ne_nil _ _) fun p hp => ?_
    simp only [List.mem_cons, List.not_mem_nil, or_false] at hp
    rcases hp with rfl | rfl | rfl <;> exact UriText.not_mem_natText (by decide)
  simp [parseReserved, hsplit, trim_natText, parseU8_natText]

section WireGuard

variable (address : List Str) (peer : WireGuardPeer) (mtu : Option UInt32)

theorem wireGuardParams_plain : PlainKeys (wireGuardParams address peer mtu) := by
  simp [wireGuardParams, plainKeys_param, isKeyChar]

theorem wireGuardParams_address :
    Query.get (wireGuardParams address peer mtu) "address" = listValue address := by
  simp [wireGuardParams]

theorem wireGuardParams_keys :
    Query.get (wireGuardParams address peer mtu) "publickey" = some peer.publicKey ∧
      Query.get (wireGuardParams address peer mtu) "presharedkey" = peer.preSharedKey ∧
      Query.get (wireGuardParams address peer mtu) "allowedips" = none := by
  simp [wireGuardParams]

theorem wireGuardParams_reservedText :
    Query.get (wireGuardParams address peer mtu) "reserved" = peer.reserved.map reservedText := by
  simp [wireGuardParams]

theorem wireGuardParams_reserved :
    transpose ((Query.get (wireGuardParams address peer mtu) "reserved").map parseReserved) =
      .ok peer.reserved := by
  rw [wireGuardParams_reservedText]
  cases peer.reserved with
  | none => rfl
  | some r => rw [Option.map_some, Option.map_some, parseReserved_reservedText, transpose_ok]

theorem wireGuardParams_mtu :
    transpose ((Query.get (wireGuardParams address peer mtu) "mtu").map fun v =>
      okOr (parseU32 v) (ParseError.invalidField "mtu" v)) = .ok mtu := by
  have hget : Query.get (wireGuardParams address peer mtu) "mtu" =
      mtu.map fun m => natText m.toNat := by simp [wireGuardParams]
  rw [hget]
  cases mtu with
  | none => rfl
  | some m => rw [Option.map_some, Option.map_some, parseU32_natText, okOr_some, transpose_ok]

theorem wireGuardParams_keepalive :
    Query.get (wireGuardParams address peer mtu) "keepalive" =
      countValue (peer.persistentKeepalive.map Duration.wholeSeconds) := by
  simp [wireGuardParams]

theorem listValue_commaList {v : Str} (hv : v ≠ []) : listValue (commaList v) = some v := by
  have hne : (v.splitOn ',').isEmpty = false := by simp
  rw [commaList, if_neg hv, listValue, hne, commaJoin, join_split]
  rfl

/-- What an emitted WireGuard URI parses to: the node, with the default for the allowed addresses.
    Without an address it is not accepted. -/
theorem parse_emit_wireGuard (json : JsonCodec) (name : Str) {privateKey : Str}
    {endpoint : Endpoint} (hkey : privateKey ≠ []) (hhost : endpoint.host.Written)
    (halive : transpose ((countValue (peer.persistentKeepalive.map Duration.wholeSeconds)).map
      parseDurationSecs) = .ok peer.persistentKeepalive) :
    ∃ v, emitUri json (wireGuardNode name privateKey endpoint address peer mtu) = .ok v ∧
      parseUri (.rfc3986 json) v = (okOr (listValue address) (.missingField "address")).map fun w =>
        wireGuardNode name privateKey endpoint (commaList w)
          { peer with allowedIps := defaultAllowedIps } mtu := by
  refine ⟨uriText "wireguard" (encodeUserinfo privateKey)
    (wireGuardNode name privateKey endpoint address peer mtu)
    (formatQuery (wireGuardParams address peer mtu)), rfl, ?_⟩
  obtain ⟨n, hn⟩ : ∃ n, n = wireGuardNode name privateKey endpoint address peer mtu := ⟨_, rfl⟩
  have hnode : n.endpoint.host.Written := hn ▸ hhost
  obtain ⟨hpub, hpsk, hallowed⟩ := wireGuardParams_keys address peer mtu
  rw [← hn, ParserOf.wireGuard.parseUri_uriText (userText_encodeUserinfo privateKey) hnode
    (wireGuardParams_plain address peer mtu), parseWireGuard]
  simp only [emittedUrl_username, decodeUserinfo_encodeUserinfo,
    List.isEmpty_eq_false_iff.mpr hkey, rejectWhen_false, ok_bind,
    urlEndpoint_emittedUrl _ _ _ hnode, emittedUrl_queryPairs, hpub, okOr_some,
    wireGuardParams_address, wireGuardParams_reserved, wireGuardParams_mtu,
    wireGuardParams_keepalive, halive, hpsk, hallowed, Option.map_none, Option.getD_none,
    decodeFragment_emittedUrl]
  rw [hn]
  cases listValue address <;> rfl

end WireGuard

theorem parseWireGuard_eq_ok {url : Url} {n : Node} (h : parseWireGuard url = .ok n) :
    ∃ endpoint v peer mtu,
      decodeUserinfo url.username ≠ [] ∧ urlEndpoint url "wireguard" = .ok endpoint ∧
      Query.get url.queryPairs "address" = some v ∧
      peer.allowedIps =
        ((Query.get url.queryPairs "allowedips").map commaList).getD defaultAllowedIps ∧
      transpose ((Query.get url.queryPairs "keepalive").map parseDurationSecs) =
        .ok peer.persistentKeepalive ∧
      n = wireGuardNode (decodeFragment url.fragment) (decodeUserinfo url.username) endpoint
        (commaList v) peer mtu := by
  obtain ⟨_, hkey, h⟩ := bind_eq_ok.mp h
  obtain ⟨endpoint, hendpoint, h⟩ := bind_eq_ok.mp h
  obtain ⟨publicKey, -, h⟩ := bind_eq_ok.mp h
  obtain ⟨address, haddress, h⟩ := bind_eq_ok.mp h
  obtain ⟨reserved, -, h⟩ := bind_eq_ok.mp h
  obtain ⟨mtu, -, h⟩ := bind_eq_ok.mp h
  obtain ⟨alive, halive, h⟩ := bind_eq_ok.mp h
  exact ⟨endpoint, address, ⟨publicKey, _, _, reserved, alive⟩, mtu,
    by simpa using rejectWhen_eq_ok.mp hkey, hendpoint, okOr_eq_ok.mp haddress, rfl, halive,
    (Except.ok.inj h).symm⟩

end Uri

/-- **A WireGuard URI survives the round trip exactly when its address is not empty and it allows
    what is allowed by default.** -/
theorem wireguard_round_trips_iff {json : JsonCodec} {u : Str} {url : Url} {n : Node}
    (hurl : Url.parse u = .ok url) (hscheme : url.scheme = "wireguard")
    (hn : parseUri (.rfc3986 json) u = .ok n) :
    (∀ v, emitUri json n = .ok v → parseUri (.rfc3986 json) v = .ok n) ↔
      Query.get url.queryPairs "address" ≠ some [] ∧
        ∀ v, Query.get url.queryPairs "allowedips" = some v → commaList v = defaultAllowedIps := by
  rw [ParserOf.wireGuard.parseUri_eq hurl hscheme] at hn
  obtain ⟨endpoint, a, peer, mtu, hkey, hendpoint, ha, hallowed, halive, rfl⟩ :=
    parseWireGuard_eq_ok hn
  obtain ⟨v, hv, hparse⟩ := parse_emit_wireGuard (commaList a) peer mtu json
    (decodeFragment url.fragment) hkey (urlEndpoint_written hurl hendpoint) (transpose_secs halive)
  refine (forall_ok_iff hv).trans ?_
  rw [hparse]
  by_cases hnil : a = []
  · subst hnil
    refine ⟨fun h => ?_, fun h => absurd ha h.1⟩
    cases h
  · rw [listValue_commaList hnil]
    have hpeer : wireGuardNode (decodeFragment url.fragment) (decodeUserinfo url.username) endpoint
        (commaList a) { peer with allowedIps := defaultAllowedIps } mtu =
          wireGuardNode (decodeFragment url.fragment) (decodeUserinfo url.username) endpoint
            (commaList a) peer mtu ↔ peer.allowedIps = defaultAllowedIps := by
      constructor
      · intro h
        have hpeers := congrArg WireGuardConfig.peers
          (ProtocolConfig.wireGuard.inj (congrArg Node.config h))
        exact (congrArg WireGuardPeer.allowedIps (List.cons.inj hpeers).1).symm
      · intro h
        rw [← h]
    have hdefault : peer.allowedIps = defaultAllowedIps ↔
        ∀ w, Query.get url.queryPairs "allowedips" = some w → commaList w = defaultAllowedIps := by
      rw [hallowed]
      cases Query.get url.queryPairs "allowedips" with
      | none => simp
      | some w => simp
    rw [← hdefault, ← hpeer]
    constructor
    · intro h
      exact ⟨fun he => hnil (Option.some.inj (ha.symm.trans he)), Except.ok.inj h⟩
    · rintro ⟨-, heq⟩
      exact congrArg Except.ok heq

/-- The allowed addresses of a URI are lost. -/
theorem wireguard_allowed_ips_are_lost :
    ∃ n, ∀ json : JsonCodec,
      parseUri (.rfc3986 json) "wireguard://k@h:1?publickey=p&address=a&allowedips=b" = .ok n ∧
        ∃ v, emitUri json n = .ok v ∧ parseUri (.rfc3986 json) v ≠ .ok n := by
  have hurl : Url.parse "wireguard://k@h:1?publickey=p&address=a&allowedips=b" =
      .ok ⟨"wireguard", "k", none, some "h", some 1,
        [("publickey", "p"), ("address", "a"), ("allowedips", "b")], none⟩ := rfl
  let peer : WireGuardPeer := ⟨"p", none, ["b"], none, none⟩
  refine ⟨wireGuardNode [] "k" ⟨.domain "h", 1⟩ ["a"] peer none, fun json => ⟨?_, ?_⟩⟩
  · rw [ParserOf.wireGuard.parseUri_eq hurl rfl]
    rfl
  · have hhost : (Endpoint.mk (.domain "h") 1).host.Written := by decide
    obtain ⟨v, hv, hparse⟩ := parse_emit_wireGuard ["a"] peer none json []
      (show "k".toList ≠ [] by decide) hhost rfl
    refine ⟨v, hv, fun h => ?_⟩
    rw [hparse] at h
    have hpeers := congrArg WireGuardConfig.peers
      (ProtocolConfig.wireGuard.inj (congrArg Node.config (Except.ok.inj h)))
    exact absurd hpeers (by decide)

theorem wireguard_round_trips_default :
    ∃ n, ∀ json : JsonCodec,
      parseUri (.rfc3986 json) "wireguard://k@h:1?publickey=p&address=a" = .ok n ∧
        ∃ v, emitUri json n = .ok v ∧ parseUri (.rfc3986 json) v = .ok n := by
  have hurl : Url.parse "wireguard://k@h:1?publickey=p&address=a" =
      .ok ⟨"wireguard", "k", none, some "h", some 1, [("publickey", "p"), ("address", "a")],
        none⟩ := rfl
  refine ⟨wireGuardNode [] "k" ⟨.domain "h", 1⟩ ["a"] ⟨"p", none, defaultAllowedIps, none, none⟩
    none, fun json => ?_⟩
  have hn : parseUri (.rfc3986 json) "wireguard://k@h:1?publickey=p&address=a" =
      .ok (wireGuardNode [] "k" ⟨.domain "h", 1⟩ ["a"] ⟨"p", none, defaultAllowedIps, none, none⟩
        none) := by
    rw [ParserOf.wireGuard.parseUri_eq hurl rfl]
    rfl
  refine ⟨hn, _, rfl, (wireguard_round_trips_iff hurl rfl hn).mpr ⟨by decide, ?_⟩ _ rfl⟩
  rintro v ⟨⟩

end DeveSub
