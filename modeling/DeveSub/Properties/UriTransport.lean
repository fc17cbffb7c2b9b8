/-
  File:      DeveSub/Properties/UriTransport.lean
  Subject:   Parsing, emitting and parsing again: Trojan and VLESS URIs, the two with a transport.

  Everything is read back but the mode of an XHTTP transport: a mode the parser does not know is
  left out of the node, the emitter then writes none, and an absent mode is read as `auto`. A VLESS
  URI without `security=reality` is parsed as unsupported and has no emitter.

  * **`trojan_round_trips_iff`**, **`vless_round_trips_iff`** -- exactly when a parsed node comes
    back.
-/
import DeveSub.Properties.UriQuery

namespace DeveSub

namespace Uri

/-! ## 1. Trojan -/

/-- A Trojan node of a URI. -/
def trojanNode (name password : Str) (endpoint : Endpoint) (cfg : TrojanConfig) (t : Transport)
    (tls : TlsConfig) : Node :=
  { nodeShell with
    displayName := name
    protocol := .trojan
    config := .trojan cfg
    endpoint
    authentication := .password password
    transport := some t
    tls := some tls }

/-- The parameters of an emitted Trojan URI. -/
def trojanParams (cfg : TrojanConfig) (t : Transport) (tls : TlsConfig) : List (Str × Str) :=
  param "sni" tls.serverName ++ listParam "alpn" tls.alpn ++
      param "skip-cert-verify" (tls.skipCertVerify.map boolDigit) ++
    [("type".toList, t.kind.text)] ++ transportParams (some t) ++
    param "packetEncoding" cfg.packetEncoding

section Trojan

variable (cfg : TrojanConfig) (t : Transport) (tls : TlsConfig)

theorem trojanParams_plain : PlainKeys (trojanParams cfg t tls) := by
  simp [trojanParams, transportParams, plainKeys_param, isKeyChar]

theorem trojanParams_tls :
    CarriesTls (trojanParams cfg t tls) "skip-cert-verify" ["allowInsecure", "insecure"] none
      tls := by
  constructor <;> simp [trojanParams, transportParams]

theorem trojanParams_transport : CarriesTransport (trojanParams cfg t tls) t := by
  constructor <;> simp [trojanParams, transportParams]

theorem trojanParams_packetEncoding :
    Query.get (trojanParams cfg t tls) "packetEncoding" = cfg.packetEncoding := by
  simp [trojanParams, transportParams]

variable {tls}

/-- What an emitted Trojan URI parses to: the node, with the transport read from the query. -/
theorem parse_emit_trojan (json : JsonCodec) (name : Str) {password : Str} {endpoint : Endpoint}
    (hpassword : password ≠ []) (hhost : endpoint.host.Written) (htls : CommonTls none tls) :
    ∃ v, emitUri json (trojanNode name password endpoint cfg t tls) = .ok v ∧
      parseUri (.rfc3986 json) v =
        .ok (trojanNode name password endpoint cfg
          (queryTransport (trojanParams cfg t tls) t.kind) tls) := by
  refine ⟨uriText "trojan" (encodeUserinfo password) (trojanNode name password endpoint cfg t tls)
    (formatQuery (trojanParams cfg t tls)), rfl, ?_⟩
  have hnode : (trojanNode name password endpoint cfg t tls).endpoint.host.Written := hhost
  obtain ⟨t', ht', hget⟩ := buildCommonTls_carried (trojanParams_tls cfg t tls) htls
  rw [ParserOf.trojan.parseUri_uriText (userText_encodeUserinfo password) hnode
    (trojanParams_plain cfg t tls), parseTrojan]
  simp only [emittedUrl_username, decodeUserinfo_encodeUserinfo,
    List.isEmpty_eq_false_iff.mpr hpassword, rejectWhen_false, ok_bind,
    urlEndpoint_emittedUrl _ _ _ hnode, emittedUrl_queryPairs,
    queryTransportKind_carried (trojanParams_transport cfg t tls), ht', hget,
    trojanParams_packetEncoding, decodeFragment_emittedUrl]
  rfl

end Trojan

theorem parseTrojan_eq_ok {url : Url} {n : Node} (h : parseTrojan url = .ok n) :
    ∃ endpoint kind t,
      decodeUserinfo url.username ≠ [] ∧ urlEndpoint url "trojan" = .ok endpoint ∧
      queryTransportKind url.queryPairs = .ok kind ∧
      buildCommonTls url.queryPairs ["skip-cert-verify", "allowInsecure", "insecure"] none = .ok t ∧
      n = trojanNode (decodeFragment url.fragment) (decodeUserinfo url.username) endpoint
        { packetEncoding := Query.get url.queryPairs "packetEncoding" }
        (queryTransport url.queryPairs kind) (t.getD defaultTlsEnabled) := by
  obtain ⟨_, hpassword, h⟩ := bind_eq_ok.mp h
  obtain ⟨endpoint, hendpoint, h⟩ := bind_eq_ok.mp h
  obtain ⟨kind, hkind, h⟩ := bind_eq_ok.mp h
  obtain ⟨t, ht, h⟩ := bind_eq_ok.mp h
  exact ⟨endpoint, kind, t, by simpa using rejectWhen_eq_ok.mp hpassword, hendpoint, hkind, ht,
    (Except.ok.inj h).symm⟩

end Uri

open Uri

/-- **A Trojan URI survives the round trip exactly when its query does not ask for an XHTTP
    transport with a mode other than the four.** -/
theorem trojan_round_trips_iff {json : JsonCodec} {u : Str} {url : Url} {n : Node}
    (hurl : Url.parse u = .ok url) (hscheme : url.scheme = "trojan")
    (hn : parseUri (.rfc3986 json) u = .ok n) :
    RoundTrips json n ↔ Query.ModeKnown url.queryPairs := by
  rw [ParserOf.trojan.parseUri_eq hurl hscheme] at hn
  obtain ⟨endpoint, kind, tls, hpassword, hendpoint, hkind, htls, rfl⟩ := parseTrojan_eq_ok hn
  obtain ⟨v, hv, hparse⟩ := parse_emit_trojan ⟨Query.get url.queryPairs "packetEncoding"⟩
    (queryTransport url.queryPairs kind) json (decodeFragment url.fragment) hpassword
    (urlEndpoint_written hurl hendpoint) (buildCommonTls_common htls)
  rw [roundTrips_iff hv hparse]
  have hmode := queryTransport_carried (q := url.queryPairs)
    (trojanParams_transport ⟨Query.get url.queryPairs "packetEncoding"⟩
      (queryTransport url.queryPairs kind) (tls.getD defaultTlsEnabled)) hkind rfl
  constructor
  · intro heq
    exact hmode.mp (Option.some.inj (congrArg Node.transport heq))
  · intro h
    rw [hmode.mpr h]

/-- A mode the parser does not know comes back as `auto`. -/
theorem trojan_unknown_mode_becomes_auto :
    ∃ n, ∀ json : JsonCodec,
      parseUri (.rfc3986 json) "trojan://p@h:1?type=xhttp&mode=x" = .ok n ∧
        ¬ RoundTrips json n := by
  let t : Transport := ⟨.xhttp, none, none, none⟩
  have hurl : Url.parse "trojan://p@h:1?type=xhttp&mode=x" =
      .ok ⟨"trojan", "p", none, some "h", some 1, [("type", "xhttp"), ("mode", "x")], none⟩ := rfl
  refine ⟨trojanNode [] "p" ⟨.domain "h", 1⟩ ⟨none⟩ t defaultTlsEnabled, fun json => ⟨?_, ?_⟩⟩
  · rw [ParserOf.trojan.parseUri_eq hurl rfl]
    rfl
  · have hhost : (Endpoint.mk (.domain "h") 1).host.Written := by decide
    obtain ⟨v, hv, hparse⟩ := parse_emit_trojan ⟨none⟩ t json []
      (show "p".toList ≠ [] by decide) hhost (defaultTlsEnabled_common none)
    rw [roundTrips_iff hv hparse]
    intro heq
    exact absurd (Option.some.inj (congrArg Node.transport heq)) (by decide)

theorem trojan_round_trips_xhttp :
    ∃ n, ∀ json : JsonCodec,
      parseUri (.rfc3986 json) "trojan://p@h:1?type=xhttp&mode=stream-up" = .ok n ∧ RoundTrips json n := by
  have hurl : Url.parse "trojan://p@h:1?type=xhttp&mode=stream-up" =
      .ok ⟨"trojan", "p", none, some "h", some 1, [("type", "xhttp"), ("mode", "stream-up")], none⟩ := rfl
  obtain ⟨n, hn⟩ : ∃ n, ∀ json : JsonCodec,
      parseUri (.rfc3986 json) "trojan://p@h:1?type=xhttp&mode=stream-up" = .ok n :=
    ⟨_, fun _ => ParserOf.trojan.parseUri_eq hurl rfl⟩
  refine ⟨n, fun json => ⟨hn json, (trojan_round_trips_iff hurl rfl (hn json)).mpr ?_⟩⟩
  rintro - _ ⟨⟩
  decide

namespace Uri

/-! ## 2. VLESS -/

/-- A VLESS node of a URI with `security=reality`. -/
def vlessNode (name uuid : Str) (endpoint : Endpoint) (cfg : VlessRealityConfig) (t : Transport)
    (tls : TlsConfig) (udp : UdpCapability) : Node :=
  { nodeShell with
    displayName := name
    protocol := .vless
    config := .vlessReality cfg
    endpoint
    authentication := .uuid uuid
    transport := some t
    tls := some tls
    udp }

/-- The parameters of an emitted VLESS URI. -/
def vlessParams (cfg : VlessRealityConfig) (t : Transport) (tls : TlsConfig) (reality : RealityConfig)
    (udp : UdpCapability) : List (Str × Str) :=
  [("security".toList, "reality".toList), ("type".toList, t.kind.text)] ++
    param "allowInsecure" (tls.skipCertVerify.map boolDigit) ++
    param "sni" tls.serverName ++
    param "fp" tls.clientFingerprint ++
    param "flow" cfg.flow ++
    [("sid".toList, reality.shortId), ("pbk".toList, reality.publicKey)] ++
    param "encryption" cfg.encryption ++
    param "packetEncoding" cfg.packetEncoding ++
    param "udp" (udp.supported.map boolText) ++
    param "xudp" (udp.xudp.map boolText) ++
    param "spx" reality.spiderX ++
    transportParams (some t) ++
    listParam "alpn" tls.alpn

/-- TLS settings as the VLESS parser makes them for `security=reality`. -/
structure RealityTls (tls : TlsConfig) (reality : RealityConfig) : Prop where
  enabled : tls.enabled = true
  alpn : ∃ v, tls.alpn = parseAlpn v
  pins : tls.certificatePins = []
  reality : tls.reality = some reality

section Vless

variable (cfg : VlessRealityConfig) (t : Transport) (tls : TlsConfig) (r : RealityConfig)
  (udp : UdpCapability)

theorem vlessParams_plain : PlainKeys (vlessParams cfg t tls r udp) := by
  simp [vlessParams, transportParams, plainKeys_param, isKeyChar]

theorem vlessParams_transport : CarriesTransport (vlessParams cfg t tls r udp) t := by
  constructor <;> simp [vlessParams, transportParams]

theorem vlessParams_config :
    ({ encryption := Query.get (vlessParams cfg t tls r udp) "encryption"
       flow := Query.get (vlessParams cfg t tls r udp) "flow"
       packetEncoding := Query.get (vlessParams cfg t tls r udp) "packetEncoding" } :
      VlessRealityConfig) = cfg := by
  simp [vlessParams, transportParams]

theorem vlessParams_security :
    (Query.get (vlessParams cfg t tls r udp) "security").getD [] = "reality" := by
  simp [vlessParams, transportParams]

theorem vlessParams_supported :
    queryBool (vlessParams cfg t tls r udp) "udp" = .ok udp.supported :=
  queryBool_of_text (by simp [vlessParams, transportParams])

theorem vlessParams_xudp : queryBool (vlessParams cfg t tls r udp) "xudp" = .ok udp.xudp :=
  queryBool_of_text (by simp [vlessParams, transportParams])

variable {tls r}

theorem vlessParams_tls (h : RealityTls tls r) :
    vlessTls (vlessParams cfg t tls r udp) true = .ok (some tls) := by
  obtain ⟨enabled, serverName, skip, alpn, fingerprint, pins, reality⟩ := tls
  obtain ⟨rfl, ⟨va, rfl⟩, rfl, rfl⟩ := h
  obtain ⟨q, hq⟩ : ∃ q : Query, q = vlessParams cfg t
      ⟨true, serverName, skip, parseAlpn va, fingerprint, [], some r⟩ r udp := ⟨_, rfl⟩
  have hinsecure : queryInsecure q ["allowInsecure"] = .ok skip :=
    queryInsecure_of_digit (by simp [hq, vlessParams, transportParams]) (by simp)
  have hget : q.get "pbk" = some r.publicKey ∧ q.get "sid" = some r.shortId ∧
      q.get "spx" = r.spiderX ∧ q.get "sni" = serverName ∧ q.get "fp" = fingerprint ∧
      q.get "alpn" = listValue (parseAlpn va) := by
    simp [hq, vlessParams, transportParams]
  obtain ⟨hpbk, hsid, hspx, hsni, hfp, halpn⟩ := hget
  rw [← hq, vlessTls, Bool.true_or, Bool.true_or, Bool.true_or, Bool.true_or, if_pos rfl, hinsecure,
    hpbk, hsid, hspx, hsni, hfp, halpn, parseAlpn_listValue]
  rfl

/-- What an emitted VLESS URI parses to: the node, with the transport read from the query. -/
theorem parse_emit_vless (json : JsonCodec) (name : Str) {uuid : Str} {endpoint : Endpoint}
    (huuid : uuid ≠ []) (hhost : endpoint.host.Written) (htls : RealityTls tls r) :
    ∃ v, emitUri json (vlessNode name uuid endpoint cfg t tls udp) = .ok v ∧
      parseUri (.rfc3986 json) v =
        .ok (vlessNode name uuid endpoint cfg
          (queryTransport (vlessParams cfg t tls r udp) t.kind) tls udp) := by
  have hnode : (vlessNode name uuid endpoint cfg t tls udp).endpoint.host.Written := hhost
  have hemit : emitUri json (vlessNode name uuid endpoint cfg t tls udp) =
      .ok (uriText "vless" (encodeUserinfo uuid) (vlessNode name uuid endpoint cfg t tls udp)
        (formatQuery (vlessParams cfg t tls r udp))) := by
    obtain ⟨enabled, serverName, skip, alpn, fingerprint, pins, reality⟩ := tls
    obtain rfl := htls.reality
    rfl
  refine ⟨_, hemit, ?_⟩
  rw [ParserOf.vless.parseUri_uriText (userText_encodeUserinfo uuid) hnode
    (vlessParams_plain cfg t tls r udp), parseVless]
  simp only [emittedUrl_username, decodeUserinfo_encodeUserinfo,
    List.isEmpty_eq_false_iff.mpr huuid, rejectWhen_false, ok_bind,
    urlEndpoint_emittedUrl _ _ _ hnode, emittedUrl_queryPairs,
    queryTransportKind_carried (vlessParams_transport cfg t tls r udp), vlessParams_security,
    decide_true, vlessParams_tls cfg t udp htls, if_true, vlessParams_config, vlessParams_supported,
    vlessParams_xudp, decodeFragment_emittedUrl]
  rfl

end Vless

theorem vlessTls_reality {q : Query} {tls : Option TlsConfig} (h : vlessTls q true = .ok tls) :
    ∃ tls' r, tls = some tls' ∧ RealityTls tls' r := by
  rw [vlessTls, Bool.true_or, Bool.true_or, Bool.true_or, Bool.true_or, if_pos rfl] at h
  obtain ⟨skip, -, h⟩ := bind_eq_ok.mp h
  obtain ⟨pbk, -, h⟩ := bind_eq_ok.mp h
  obtain ⟨sid, -, h⟩ := bind_eq_ok.mp h
  cases h
  exact ⟨_, _, rfl, rfl, exists_parseAlpn _, rfl, rfl⟩

theorem parseVless_reality {url : Url} {u : Str} {n : Node} (h : parseVless url u = .ok n)
    (hs : Query.get url.queryPairs "security" = some "reality") :
    ∃ endpoint kind cfg tls r udp,
      decodeUserinfo url.username ≠ [] ∧ urlEndpoint url "vless" = .ok endpoint ∧
      queryTransportKind url.queryPairs = .ok kind ∧ RealityTls tls r ∧
      n = vlessNode (decodeFragment url.fragment) (decodeUserinfo url.username) endpoint cfg
        (queryTransport url.queryPairs kind) tls udp := by
  obtain ⟨_, huuid, h⟩ := bind_eq_ok.mp h
  obtain ⟨endpoint, hendpoint, h⟩ := bind_eq_ok.mp h
  obtain ⟨kind, hkind, h⟩ := bind_eq_ok.mp h
  obtain ⟨tls, htls, h⟩ := bind_eq_ok.mp h
  rw [hs] at htls h
  obtain ⟨tls, r, rfl, hreality⟩ := vlessTls_reality htls
  obtain ⟨supported, -, h⟩ := bind_eq_ok.mp h
  obtain ⟨xudp, -, h⟩ := bind_eq_ok.mp h
  exact ⟨endpoint, kind, _, tls, r, ⟨supported, xudp⟩, by simpa using rejectWhen_eq_ok.mp huuid,
    hendpoint, hkind, hreality, (Except.ok.inj h).symm⟩

/-- A VLESS URI without `security=reality` has no emitter. -/
theorem not_roundTrips_of_parseVless {json : JsonCodec} {url : Url} {u : Str} {n : Node}
    (h : parseVless url u = .ok n) (hs : Query.get url.queryPairs "security" ≠ some "reality") :
    ¬ RoundTrips json n := by
  obtain ⟨_, huuid, h⟩ := bind_eq_ok.mp h
  obtain ⟨endpoint, hendpoint, h⟩ := bind_eq_ok.mp h
  obtain ⟨kind, -, h⟩ := bind_eq_ok.mp h
  obtain ⟨tls, -, h⟩ := bind_eq_ok.mp h
  obtain ⟨supported, -, h⟩ := bind_eq_ok.mp h
  obtain ⟨xudp, -, h⟩ := bind_eq_ok.mp h
  have hno : (Query.get url.queryPairs "security").getD [] ≠ "reality" := by
    intro he
    cases hq : Query.get url.queryPairs "security" with
    | none => rw [hq] at he; exact absurd he (by decide)
    | some v => rw [hq] at he hs; exact hs (congrArg some he)
  rw [decide_eq_false hno] at h
  cases h
  rintro ⟨v, hv, -⟩
  cases hv

end Uri

/-- **A VLESS URI survives the round trip exactly when it has `security=reality` and its query does
    not ask for an XHTTP transport with a mode other than the four.** -/
theorem vless_round_trips_iff {json : JsonCodec} {u : Str} {url : Url} {n : Node}
    (hurl : Url.parse u = .ok url) (hscheme : url.scheme = "vless")
    (hn : parseUri (.rfc3986 json) u = .ok n) :
    RoundTrips json n ↔
      Query.get url.queryPairs "security" = some "reality" ∧ Query.ModeKnown url.queryPairs := by
  rw [ParserOf.vless.parseUri_eq hurl hscheme] at hn
  by_cases hs : Query.get url.queryPairs "security" = some "reality"
  · obtain ⟨endpoint, kind, cfg, tls, r, udp, huuid, hendpoint, hkind, htls, rfl⟩ :=
      parseVless_reality hn hs
    obtain ⟨v, hv, hparse⟩ := parse_emit_vless cfg (queryTransport url.queryPairs kind) udp json
      (decodeFragment url.fragment) huuid (urlEndpoint_written hurl hendpoint) htls
    have hmode := queryTransport_carried (q := url.queryPairs)
      (vlessParams_transport cfg (queryTransport url.queryPairs kind) tls r udp) hkind rfl
    rw [roundTrips_iff hv hparse]
    constructor
    · intro heq
      exact ⟨hs, hmode.mp (Option.some.inj (congrArg Node.transport heq))⟩
    · intro h
      rw [hmode.mpr h.2]
  · exact ⟨fun h => absurd h (not_roundTrips_of_parseVless hn hs), fun h => absurd h.1 hs⟩

/-- With Reality too, a mode the parser does not know comes back as `auto`. -/
theorem vless_unknown_mode_becomes_auto :
    ∃ n, ∀ json : JsonCodec,
      parseUri (.rfc3986 json)
          "vless://i@h:1?security=reality&pbk=k&sid=s&type=xhttp&mode=x" = .ok n ∧
        ¬ RoundTrips json n := by
  let t : Transport := ⟨.xhttp, none, none, none⟩
  let r : RealityConfig := ⟨"k", "s", none⟩
  let tls : TlsConfig := { defaultTlsEnabled with reality := some r }
  have hurl : Url.parse "vless://i@h:1?security=reality&pbk=k&sid=s&type=xhttp&mode=x" =
      .ok ⟨"vless", "i", none, some "h", some 1, [("security", "reality"), ("pbk", "k"),
        ("sid", "s"), ("type", "xhttp"), ("mode", "x")], none⟩ := rfl
  refine ⟨vlessNode [] "i" ⟨.domain "h", 1⟩ ⟨none, none, none⟩ t tls ⟨none, none⟩,
    fun json => ⟨?_, ?_⟩⟩
  · rw [ParserOf.vless.parseUri_eq hurl rfl]
    rfl
  · have hhost : (Endpoint.mk (.domain "h") 1).host.Written := by decide
    have htls : RealityTls tls r := ⟨rfl, ⟨[], rfl⟩, rfl, rfl⟩
    obtain ⟨v, hv, hparse⟩ := parse_emit_vless ⟨none, none, none⟩ t ⟨none, none⟩ json []
      (show "i".toList ≠ [] by decide) hhost htls
    rw [roundTrips_iff hv hparse]
    intro heq
    exact absurd (Option.some.inj (congrArg Node.transport heq)) (by decide)

theorem vless_round_trips_xhttp :
    ∃ n, ∀ json : JsonCodec,
      parseUri (.rfc3986 json) "vless://i@h:1?security=reality&pbk=k&sid=s&type=xhttp&mode=auto" = .ok n ∧
        RoundTrips json n := by
  have hurl : Url.parse "vless://i@h:1?security=reality&pbk=k&sid=s&type=xhttp&mode=auto" =
      .ok ⟨"vless", "i", none, some "h", some 1, [("security", "reality"), ("pbk", "k"),
        ("sid", "s"), ("type", "xhttp"), ("mode", "auto")], none⟩ := rfl
  obtain ⟨n, hn⟩ : ∃ n, ∀ json : JsonCodec, parseUri (.rfc3986 json)
      "vless://i@h:1?security=reality&pbk=k&sid=s&type=xhttp&mode=auto" = .ok n :=
    ⟨_, fun _ => ParserOf.vless.parseUri_eq hurl rfl⟩
  refine ⟨n, fun json => ⟨hn json, (vless_round_trips_iff hurl rfl (hn json)).mpr ⟨rfl, ?_⟩⟩⟩
  rintro - _ ⟨⟩
  decide

end DeveSub
