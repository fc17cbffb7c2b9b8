/-
  File:      DeveSub/Properties/UriRoundTrip.lean
  Subject:   Parsing, emitting and parsing again: TUIC, NaiveProxy, AnyTLS, Snell and ShadowTLS
             URIs. Every node of theirs is emitted, and comes back as it was.

  Each section has the node a parser makes (`tuicNode` and so on), the parameters the emitter
  writes for it (`tuicParams`), what the parser reads from them, and the round trip of the node;
  **`uri_round_trips`** puts them together.
-/
import DeveSub.Properties.UriQuery

namespace DeveSub

namespace Uri

/-! ## 1. TUIC -/

/-- A TUIC node of a URI. -/
def tuicNode (name uuid password : Str) (endpoint : Endpoint) (cfg : TuicV5Config)
    (tls : TlsConfig) (congestion : Option CongestionConfig) : Node :=
  { nodeShell with
    displayName := name
    protocol := .tuicV5
    config := .tuicV5 cfg
    endpoint
    authentication := .uuidPassword uuid password
    tls := some tls
    congestion }

/-- The parameters of an emitted TUIC URI. -/
def tuicParams (cfg : TuicV5Config) (tls : TlsConfig) (congestion : Option CongestionConfig) :
    List (Str × Str) :=
  param "sni" tls.serverName ++ listParam "alpn" tls.alpn ++
      param "skip-cert-verify" (tls.skipCertVerify.map boolDigit) ++
    param "congestion-controller" (congestion.map fun c => c.controller.name) ++
    param "udp-relay-mode" (cfg.udpRelayMode.map UdpRelayMode.name) ++
    param "zero-rtt-handshake" (cfg.zeroRttHandshake.map boolDigit) ++
    durationParam "heartbeat" (cfg.heartbeat.map Duration.wholeMilliseconds) ++
    param "disable-sni" (cfg.disableSni.map boolDigit)

section Tuic

variable (cfg : TuicV5Config) (tls : TlsConfig) (congestion : Option CongestionConfig)

theorem tuicParams_plain : PlainKeys (tuicParams cfg tls congestion) := by
  simp [tuicParams, plainKeys_param, isKeyChar]

theorem tuicParams_tls :
    CarriesTls (tuicParams cfg tls congestion) "skip-cert-verify" ["insecure"] none tls := by
  constructor <;> simp [tuicParams]

theorem tuicParams_controller :
    Query.get (tuicParams cfg tls congestion) "congestion-controller" =
      congestion.map fun c => c.controller.name := by
  simp [tuicParams]

theorem tuicParams_relayMode :
    transpose ((Query.get (tuicParams cfg tls congestion) "udp-relay-mode").map parseUdpRelayMode) =
      .ok cfg.udpRelayMode := by
  have hget : Query.get (tuicParams cfg tls congestion) "udp-relay-mode" =
      cfg.udpRelayMode.map UdpRelayMode.name := by simp [tuicParams]
  rw [hget]
  match cfg.udpRelayMode with
  | none => rfl
  | some .native => rfl
  | some .quic => rfl

theorem tuicParams_zeroRtt :
    queryBool (tuicParams cfg tls congestion) "zero-rtt-handshake" = .ok cfg.zeroRttHandshake :=
  queryBool_of_digit (by simp [tuicParams])

theorem tuicParams_disableSni :
    queryBool (tuicParams cfg tls congestion) "disable-sni" = .ok cfg.disableSni :=
  queryBool_of_digit (by simp [tuicParams])

theorem tuicParams_heartbeat :
    Query.get (tuicParams cfg tls congestion) "heartbeat" =
      countValue (cfg.heartbeat.map Duration.wholeMilliseconds) := by
  simp [tuicParams]

variable {tls congestion}

/-- **A TUIC node comes back.** -/
theorem tuicNode_roundTrips (json : JsonCodec) (name : Str) {uuid password : Str}
    {endpoint : Endpoint} (huuid : uuid ≠ []) (hpassword : password ≠ [])
    (hhost : endpoint.host.Written) (htls : CommonTls none tls)
    (hbeat : transpose ((countValue (cfg.heartbeat.map Duration.wholeMilliseconds)).map
      parseDurationMillis) = .ok cfg.heartbeat)
    (hcongestion : ∃ value : Option Str,
      congestion = value.map fun v => controllerOnly (congestionController v)) :
    RoundTrips json (tuicNode name uuid password endpoint cfg tls congestion) := by
  refine ⟨uriText "tuic" (encodeUserinfo uuid ++ ':' :: encodeUserinfo password)
    (tuicNode name uuid password endpoint cfg tls congestion)
    (formatQuery (tuicParams cfg tls congestion)), rfl, ?_⟩
  obtain ⟨n, hn⟩ : ∃ n, n = tuicNode name uuid password endpoint cfg tls congestion := ⟨_, rfl⟩
  have hnode : n.endpoint.host.Written := hn ▸ hhost
  obtain ⟨t', ht', hget⟩ := buildCommonTls_carried (tuicParams_tls cfg tls congestion) htls
  have hread : ((congestion.map fun c => c.controller.name).map fun v =>
      CongestionConfig.mk (congestionController v) none none) = congestion := by
    obtain ⟨value, rfl⟩ := hcongestion
    cases value with
    | none => rfl
    | some v => simp only [Option.map_some, controllerOnly, congestionController_name]
  rw [← hn, ParserOf.tuic.parseUri_uriText (userText_pair uuid password) hnode
    (tuicParams_plain cfg tls congestion), parseTuic]
  simp only [emittedUrl_pair_username, emittedUrl_pair_password _ _ hpassword, okOr_some,
    decodeUserinfo_encodeUserinfo, List.isEmpty_eq_false_iff.mpr huuid, rejectWhen_false, ok_bind,
    urlEndpoint_emittedUrl _ _ _ hnode, emittedUrl_queryPairs, ht', hget, tuicParams_relayMode,
    tuicParams_zeroRtt, tuicParams_heartbeat, hbeat, tuicParams_disableSni, tuicParams_controller,
    hread, decodeFragment_emittedUrl]
  rw [hn]
  rfl

end Tuic

theorem parseTuic_roundTrips {json : JsonCodec} {u : Str} {url : Url} {n : Node}
    (hurl : Url.parse u = .ok url) (h : parseTuic url = .ok n) : RoundTrips json n := by
  obtain ⟨_, huuid, h⟩ := bind_eq_ok.mp h
  obtain ⟨password, hpassword, h⟩ := bind_eq_ok.mp h
  obtain ⟨endpoint, hendpoint, h⟩ := bind_eq_ok.mp h
  obtain ⟨t, ht, h⟩ := bind_eq_ok.mp h
  obtain ⟨mode, -, h⟩ := bind_eq_ok.mp h
  obtain ⟨zeroRtt, -, h⟩ := bind_eq_ok.mp h
  obtain ⟨heartbeat, hbeat, h⟩ := bind_eq_ok.mp h
  obtain ⟨disableSni, -, h⟩ := bind_eq_ok.mp h
  have hpw : password ≠ [] := Url.password_ne_nil hurl (okOr_eq_ok.mp hpassword)
  rw [← Except.ok.inj h]
  exact tuicNode_roundTrips ⟨mode, zeroRtt, heartbeat, disableSni⟩ json
    (decodeFragment url.fragment) (by simpa using rejectWhen_eq_ok.mp huuid)
    (percentDecode_ne_nil hpw) (urlEndpoint_written hurl hendpoint) (buildCommonTls_common ht)
    (transpose_millis hbeat) ⟨Query.get url.queryPairs "congestion-controller", rfl⟩

/-! ## 2. NaiveProxy -/

/-- A NaiveProxy node of a URI. -/
def naiveNode (name username password : Str) (endpoint : Endpoint) (cfg : NaiveProxyConfig)
    (tls : Option TlsConfig) : Node :=
  { nodeShell with
    displayName := name
    protocol := .naiveProxy
    config := .naiveProxy cfg
    endpoint
    authentication := .userPassword username password
    tls }

/-- The TLS parameters of an emitted NaiveProxy URI. -/
def naiveTlsParams : Option TlsConfig → List (Str × Str)
  | some tls =>
      param "sni" tls.serverName ++ listParam "alpn" tls.alpn ++
        param "skip-cert-verify" (tls.skipCertVerify.map boolDigit) ++
        param "pinSHA256" (pinsValue tls.certificatePins)
  | none => []

/-- The parameters of an emitted NaiveProxy URI. -/
def naiveParams (cfg : NaiveProxyConfig) (tls : Option TlsConfig) : List (Str × Str) :=
  naiveTlsParams tls ++ param "quic" (cfg.quic.map boolDigit) ++
    param "http2" (cfg.http2.map boolDigit) ++ param "http3" (cfg.http3.map boolDigit)

/-- The scheme of an emitted NaiveProxy URI. -/
def naiveScheme (tls : Option TlsConfig) : Str :=
  if tls.isSome then "naive+https" else "naive+http"

section Naive

variable (cfg : NaiveProxyConfig) (tls : Option TlsConfig)

theorem naiveParams_plain : PlainKeys (naiveParams cfg tls) := by
  cases tls <;> simp [naiveParams, naiveTlsParams, plainKeys_param, isKeyChar]

theorem naiveParams_tls (tls : TlsConfig) :
    CarriesTls (naiveParams cfg (some tls)) "skip-cert-verify" ["insecure"] (some "pinSHA256")
      tls := by
  constructor <;> simp [naiveParams, naiveTlsParams]

theorem naiveParams_config :
    queryBool (naiveParams cfg tls) "quic" = .ok cfg.quic ∧
      queryBool (naiveParams cfg tls) "http2" = .ok cfg.http2 ∧
      queryBool (naiveParams cfg tls) "http3" = .ok cfg.http3 := by
  refine ⟨queryBool_of_digit ?_, queryBool_of_digit ?_, queryBool_of_digit ?_⟩ <;>
    cases tls <;> simp [naiveParams, naiveTlsParams]

theorem emitNaive_eq (json : JsonCodec) (name username password : Str) (endpoint : Endpoint) :
    emitUri json (naiveNode name username password endpoint cfg tls) =
      .ok (uriTextOpt (naiveScheme tls) (encodeUserinfo username ++ ':' :: encodeUserinfo password)
        (naiveNode name username password endpoint cfg tls) (formatQuery (naiveParams cfg tls))) := by
  cases tls with
  | none => rfl
  | some tls =>
      rw [naiveParams, naiveTlsParams, ← pinsParam_eq]
      rfl

variable {tls}

theorem naiveTls_emitted {user : Str} {node : Node}
    (htls : ∀ t, tls = some t → CommonTls (some "pinSHA256") t) :
    naiveTls (emittedUrl (naiveScheme tls) user node (naiveParams cfg tls)) = .ok tls := by
  cases tls with
  | none => rfl
  | some t =>
      obtain ⟨t', ht', hget⟩ := buildCommonTls_carried (naiveParams_tls cfg t) (htls t rfl)
      have hscheme : (emittedUrl (naiveScheme (some t)) user node
          (naiveParams cfg (some t))).scheme = "naive+https" := rfl
      rw [naiveTls, if_pos hscheme, emittedUrl_queryPairs, ht', ok_bind, hget]

/-- **A NaiveProxy node comes back.** -/
theorem naiveNode_roundTrips (json : JsonCodec) (name : Str) {username password : Str}
    {endpoint : Endpoint} (husername : username ≠ []) (hpassword : password ≠ [])
    (hhost : endpoint.host.Written) (htls : ∀ t, tls = some t → CommonTls (some "pinSHA256") t) :
    RoundTrips json (naiveNode name username password endpoint cfg tls) := by
  refine ⟨_, emitNaive_eq cfg tls json name username password endpoint, ?_⟩
  obtain ⟨n, hn⟩ : ∃ n, n = naiveNode name username password endpoint cfg tls := ⟨_, rfl⟩
  have hnode : n.endpoint.host.Written := hn ▸ hhost
  have hparser : ParserOf (naiveScheme tls) fun url _ => parseNaive url := by
    cases tls with
    | none => exact .naiveHttp
    | some t => exact .naiveHttps
  obtain ⟨hquic, hhttp2, hhttp3⟩ := naiveParams_config cfg tls
  rw [← hn, hparser.parseUri_uriTextOpt (userText_pair username password) hnode
    (naiveParams_plain cfg tls), parseNaive]
  simp only [emittedUrl_pair_username, emittedUrl_pair_password _ _ hpassword, okOr_some,
    decodeUserinfo_encodeUserinfo, List.isEmpty_eq_false_iff.mpr husername, rejectWhen_false,
    ok_bind, urlEndpoint_emittedUrl _ _ _ hnode, emittedUrl_queryPairs, naiveTls_emitted cfg htls,
    hquic, hhttp2, hhttp3, decodeFragment_emittedUrl]
  rw [hn]
  rfl

end Naive

theorem naiveTls_common {url : Url} {tls : Option TlsConfig} (h : naiveTls url = .ok tls) :
    ∀ t, tls = some t → CommonTls (some "pinSHA256") t := by
  unfold naiveTls at h
  split at h
  · obtain ⟨t, ht, h⟩ := bind_eq_ok.mp h
    cases h
    rintro _ ⟨⟩
    exact buildCommonTls_common ht
  · cases h
    rintro _ ⟨⟩

theorem parseNaive_roundTrips {json : JsonCodec} {u : Str} {url : Url} {n : Node}
    (hurl : Url.parse u = .ok url) (h : parseNaive url = .ok n) : RoundTrips json n := by
  obtain ⟨_, husername, h⟩ := bind_eq_ok.mp h
  obtain ⟨password, hpassword, h⟩ := bind_eq_ok.mp h
  obtain ⟨endpoint, hendpoint, h⟩ := bind_eq_ok.mp h
  obtain ⟨tls, htls, h⟩ := bind_eq_ok.mp h
  obtain ⟨quic, -, h⟩ := bind_eq_ok.mp h
  obtain ⟨http2, -, h⟩ := bind_eq_ok.mp h
  obtain ⟨http3, -, h⟩ := bind_eq_ok.mp h
  have hpw : password ≠ [] := Url.password_ne_nil hurl (okOr_eq_ok.mp hpassword)
  rw [← Except.ok.inj h]
  exact naiveNode_roundTrips ⟨quic, http2, http3⟩ json (decodeFragment url.fragment)
    (by simpa using rejectWhen_eq_ok.mp husername) (percentDecode_ne_nil hpw)
    (urlEndpoint_written hurl hendpoint) (naiveTls_common htls)

/-! ## 3. AnyTLS -/

/-- An AnyTLS node of a URI; the fingerprint is not one of the common TLS settings. -/
def anyTlsNode (name password : Str) (endpoint : Endpoint) (tls : TlsConfig) (fp : Option Str) :
    Node :=
  { nodeShell with
    displayName := name
    protocol := .anyTls
    config := .anyTls
      { idleSessionCheckInterval := none
        idleSessionTimeout := none
        minIdleSession := none
        clientMetadata := none }
    endpoint
    authentication := .password password
    tls := some { tls with clientFingerprint := fp } }

/-- The parameters of an emitted AnyTLS URI. -/
def anyTlsParams (tls : TlsConfig) (fp : Option Str) : List (Str × Str) :=
  param "sni" tls.serverName ++ listParam "alpn" tls.alpn ++
    param "insecure" (tls.skipCertVerify.map boolDigit) ++ param "fp" fp

section AnyTls

variable (tls : TlsConfig) (fp : Option Str)

theorem anyTlsParams_plain : PlainKeys (anyTlsParams tls fp) := by
  simp [anyTlsParams, plainKeys_param, isKeyChar]

theorem anyTlsParams_tls :
    CarriesTls (anyTlsParams tls fp) "insecure" ["skip-cert-verify", "allowInsecure"] none tls := by
  constructor <;> simp [anyTlsParams]

theorem anyTlsParams_fp : Query.get (anyTlsParams tls fp) "fp" = fp := by
  simp [anyTlsParams]

theorem formatQuery_eq_nil {params : List (Str × Str)} : formatQuery params = [] ↔ params = [] := by
  cases params with
  | nil => simp [formatQuery]
  | cons p ps => simp [formatQuery, join_cons]

theorem emitAnyTls_eq (json : JsonCodec) (name password : Str) (endpoint : Endpoint) :
    emitUri json (anyTlsNode name password endpoint tls fp) =
      .ok (uriTextOpt "anytls" (encodeUserinfo password) (anyTlsNode name password endpoint tls fp)
        (formatQuery (anyTlsParams tls fp))) := by
  have hsame : (anyTlsParams tls fp).isEmpty = decide (formatQuery (anyTlsParams tls fp) = []) := by
    rw [Bool.eq_iff_iff, List.isEmpty_iff, decide_eq_true_eq, formatQuery_eq_nil]
  show Except.ok (if (anyTlsParams tls fp).isEmpty then _ else _) = _
  rw [hsame, uriTextOpt]
  split
  · rename_i h
    rw [if_pos (of_decide_eq_true h)]
    rfl
  · rename_i h
    rw [if_neg (by simpa using h)]
    rfl

variable {tls}

/-- **An AnyTLS node comes back.** -/
theorem anyTlsNode_roundTrips (json : JsonCodec) (name : Str) {password : Str} {endpoint : Endpoint}
    (hpassword : password ≠ []) (hhost : endpoint.host.Written) (htls : CommonTls none tls) :
    RoundTrips json (anyTlsNode name password endpoint tls fp) := by
  refine ⟨_, emitAnyTls_eq tls fp json name password endpoint, ?_⟩
  obtain ⟨n, hn⟩ : ∃ n, n = anyTlsNode name password endpoint tls fp := ⟨_, rfl⟩
  have hnode : n.endpoint.host.Written := hn ▸ hhost
  obtain ⟨t', ht', hget⟩ := buildCommonTls_carried (anyTlsParams_tls tls fp) htls
  rw [← hn, ParserOf.anyTls.parseUri_uriTextOpt (userText_encodeUserinfo password) hnode
    (anyTlsParams_plain tls fp), parseAnyTls]
  simp only [emittedUrl_username, decodeUserinfo_encodeUserinfo,
    List.isEmpty_eq_false_iff.mpr hpassword, rejectWhen_false, ok_bind,
    urlEndpoint_emittedUrl _ _ _ hnode, emittedUrl_queryPairs, ht', hget, htls.fingerprint,
    Option.isNone_none, if_true, anyTlsParams_fp, decodeFragment_emittedUrl]
  rw [hn]
  rfl

end AnyTls

theorem parseAnyTls_roundTrips {json : JsonCodec} {u : Str} {url : Url} {n : Node}
    (hurl : Url.parse u = .ok url) (h : parseAnyTls url = .ok n) : RoundTrips json n := by
  obtain ⟨_, hpassword, h⟩ := bind_eq_ok.mp h
  obtain ⟨endpoint, hendpoint, h⟩ := bind_eq_ok.mp h
  obtain ⟨t, ht, h⟩ := bind_eq_ok.mp h
  have htls := buildCommonTls_common ht
  dsimp only at h
  rw [htls.fingerprint] at h
  rw [← Except.ok.inj h]
  exact anyTlsNode_roundTrips (Query.get url.queryPairs "fp") json (decodeFragment url.fragment)
    (by simpa using rejectWhen_eq_ok.mp hpassword) (urlEndpoint_written hurl hendpoint) htls

/-! ## 4. Snell -/

/-- The TLS settings that mirror `obfs=tls`. -/
def snellTls (obfs : Option SnellObfs) : Option TlsConfig :=
  (obfs.filter fun o => o.mode = .tls).map fun o =>
    { enabled := true
      serverName := o.host
      skipCertVerify := none
      alpn := o.alpn
      clientFingerprint := none
      certificatePins := []
      reality := none }

/-- A Snell node of a URI. -/
def snellNode (name psk : Str) (endpoint : Endpoint) (version : SnellVersion)
    (reuse supported : Option Bool) (obfs : Option SnellObfs) : Node :=
  { nodeShell with
    displayName := name
    protocol := .snell
    config := .snell { version, reuse, obfs, v6Mode := none }
    endpoint
    authentication := .password psk
    udp := { supported, xudp := none }
    tls := snellTls obfs }

/-- The parameters of an emitted Snell URI. -/
def snellParams (version : SnellVersion) (reuse supported : Option Bool) (obfs : Option SnellObfs) :
    List (Str × Str) :=
  [("version".toList, natText version.asU32)] ++ param "udp" (supported.map boolDigit) ++
    param "reuse" (reuse.map boolDigit) ++
    (param "obfs" (obfs.map fun o => o.mode.name) ++ param "obfs-host" (obfs.bind SnellObfs.host) ++
      param "alpn" (obfs.bind fun o => listValue o.alpn))

/-- Obfuscation settings as the Snell parser makes them. -/
structure UriObfs (o : SnellObfs) : Prop where
  mode : o.mode = .http ∨ o.mode = .tls
  password : o.password = none
  version : o.version = none
  alpn : ∃ v, o.alpn = commaList v

section Snell

variable (version : SnellVersion) (reuse supported : Option Bool) (obfs : Option SnellObfs)

theorem snellParams_plain : PlainKeys (snellParams version reuse supported obfs) := by
  simp [snellParams, plainKeys_param, isKeyChar]

theorem snellParams_version :
    Query.get (snellParams version reuse supported obfs) "version" = some (natText version.asU32) := by
  simp [snellParams]

theorem snellParams_reuse :
    queryBool (snellParams version reuse supported obfs) "reuse" = .ok reuse :=
  queryBool_of_digit (by simp [snellParams])

theorem snellParams_udp :
    queryBool (snellParams version reuse supported obfs) "udp" = .ok supported :=
  queryBool_of_digit (by simp [snellParams])

theorem snellParams_obfsKeys :
    Query.get (snellParams version reuse supported obfs) "obfs" = obfs.map (fun o => o.mode.name) ∧
      Query.get (snellParams version reuse supported obfs) "obfs-host" = obfs.bind SnellObfs.host ∧
      Query.get (snellParams version reuse supported obfs) "alpn" =
        obfs.bind fun o => listValue o.alpn := by
  simp [snellParams]

theorem snellVersion_lt : version.asU32 < 4294967296 := by
  cases version <;> decide

theorem fromU32_asU32 : SnellVersion.fromU32 version.asU32 = some version := by
  cases version <;> rfl

variable {obfs}

theorem snellParams_obfs (hobfs : ∀ o, obfs = some o → UriObfs o) :
    parseSnellObfs (snellParams version reuse supported obfs) = .ok obfs := by
  obtain ⟨hmode, hhost, halpn⟩ := snellParams_obfsKeys version reuse supported obfs
  rw [parseSnellObfs, hmode, hhost, halpn]
  cases obfs with
  | none => rfl
  | some o =>
      obtain ⟨mode, host, password, ver, alpn⟩ := o
      obtain ⟨hkind, rfl, rfl, ⟨v, rfl⟩⟩ := hobfs _ rfl
      have hread : ((listValue (commaList v)).map commaList).getD [] = commaList v :=
        parseAlpn_listValue v
      rcases hkind with rfl | rfl
      · simp only [Option.map_some, Option.bind_some, hread]
        rfl
      · simp only [Option.map_some, Option.bind_some, hread]
        rfl

theorem snellTls_alias :
    SnellConfig.tlsIsObfsAlias { version, reuse, obfs, v6Mode := none } (snellTls obfs) = true := by
  cases obfs with
  | none => rfl
  | some o =>
      by_cases hm : o.mode = .tls
      · simp [snellTls, Option.filter, hm, SnellConfig.tlsIsObfsAlias]
      · simp [snellTls, Option.filter, hm, SnellConfig.tlsIsObfsAlias]

theorem snellObfsParams_eq (hobfs : ∀ o, obfs = some o → UriObfs o) :
    snellObfsParams obfs =
      .ok (param "obfs" (obfs.map fun o => o.mode.name) ++
        param "obfs-host" (obfs.bind SnellObfs.host) ++
        param "alpn" (obfs.bind fun o => listValue o.alpn)) := by
  cases obfs with
  | none => rfl
  | some o =>
      obtain ⟨mode, host, password, ver, alpn⟩ := o
      rcases (hobfs _ rfl).mode with rfl | rfl
      · show Except.ok ([("obfs".toList, "http".toList)] ++ _ ++ listParam "alpn" alpn) = _
        rw [listParam_eq]
        rfl
      · show Except.ok ([("obfs".toList, "tls".toList)] ++ _ ++ listParam "alpn" alpn) = _
        rw [listParam_eq]
        rfl

theorem emitSnell_eq (json : JsonCodec) (name psk : Str) (endpoint : Endpoint)
    (hobfs : ∀ o, obfs = some o → UriObfs o) :
    emitUri json (snellNode name psk endpoint version reuse supported obfs) =
      .ok (uriText "snell" (encodeUserinfo psk)
        (snellNode name psk endpoint version reuse supported obfs)
        (formatQuery (snellParams version reuse supported obfs))) := by
  have hextras : ((none : Option SnellV6Mode).isSome ||
      (snellNode name psk endpoint version reuse supported obfs).hasExtra "snell_userkey" ||
      !SnellConfig.tlsIsObfsAlias { version, reuse, obfs, v6Mode := none } (snellTls obfs) ||
      obfs.any fun o => o.password.isSome || o.version.isSome) = false := by
    rw [snellTls_alias]
    cases obfs with
    | none => rfl
    | some o =>
        obtain ⟨-, hpassword, hversion, -⟩ := hobfs o rfl
        rw [Option.any_some, hpassword, hversion]
        rfl
  show (do
    rejectWhen _ _
    let obfsParams ← snellObfsParams obfs
    _ : Except EmitError Str) = _
  rw [show (snellNode name psk endpoint version reuse supported obfs).tls = snellTls obfs from rfl]
  rw [hextras, rejectWhen_false, ok_bind, snellObfsParams_eq hobfs]
  rfl

/-- A number that fits is read back from the parameter `version`. -/
theorem queryVersion_natText {q : Query} {n : Nat} (hn : n < 4294967296)
    (h : q.get "version" = some (natText n)) : queryVersion q = .ok (UInt32.ofNat n) := by
  rw [queryVersion, h, okOr_some, ok_bind, parseU32, parseUnsigned_natText hn]
  rfl

/-- **A Snell node comes back.** -/
theorem snellNode_roundTrips (json : JsonCodec) (name : Str) {psk : Str} {endpoint : Endpoint}
    (hpsk : psk ≠ []) (hhost : endpoint.host.Written) (hobfs : ∀ o, obfs = some o → UriObfs o) :
    RoundTrips json (snellNode name psk endpoint version reuse supported obfs) := by
  refine ⟨_, emitSnell_eq version reuse supported json name psk endpoint hobfs, ?_⟩
  obtain ⟨n, hn⟩ : ∃ n, n = snellNode name psk endpoint version reuse supported obfs := ⟨_, rfl⟩
  have hnode : n.endpoint.host.Written := hn ▸ hhost
  have hlt := snellVersion_lt version
  have hversion : (UInt32.ofNat version.asU32).toNat = version.asU32 := UInt32.toNat_ofNat_of_lt' hlt
  have huser : snellPsk (emittedUrl "snell" (encodeUserinfo psk) n
      (snellParams version reuse supported obfs)) = .ok psk := by
    rw [snellPsk, emittedUrl_username, decodeUserinfo_encodeUserinfo]
    exact if_neg (by simpa using hpsk)
  rw [← hn, ParserOf.snell.parseUri_uriText (userText_encodeUserinfo psk) hnode
    (snellParams_plain version reuse supported obfs), parseSnell]
  simp only [huser, ok_bind, urlEndpoint_emittedUrl _ _ _ hnode, emittedUrl_queryPairs,
    queryVersion_natText hlt (snellParams_version version reuse supported obfs), hversion,
    fromU32_asU32, okOr_some, snellParams_reuse, snellParams_udp,
    snellParams_obfs version reuse supported hobfs, decodeFragment_emittedUrl]
  rw [hn]
  rfl

end Snell

theorem parseSnellObfs_uriObfs {q : Query} {obfs : Option SnellObfs}
    (h : parseSnellObfs q = .ok obfs) : ∀ o, obfs = some o → UriObfs o := by
  have halpn : ∃ v, ((q.get "alpn").map commaList).getD [] = commaList v :=
    exists_parseAlpn (q.get "alpn")
  unfold parseSnellObfs at h
  split at h
  · cases h
    rintro _ ⟨⟩
  · split at h
    · cases h
      rintro _ ⟨⟩
      exact ⟨.inl rfl, rfl, rfl, halpn⟩
    · split at h
      · cases h
        rintro _ ⟨⟩
        exact ⟨.inr rfl, rfl, rfl, halpn⟩
      · cases h

theorem snellPsk_ne_nil {url : Url} {psk : Str} (h : snellPsk url = .ok psk) : psk ≠ [] := by
  unfold snellPsk at h
  dsimp only at h
  split at h
  · have hfilter := (Option.filter_eq_some_iff.mp (okOr_eq_ok.mp h)).2
    simpa using hfilter
  · rename_i hne
    cases h
    simpa using hne

theorem parseSnell_roundTrips {json : JsonCodec} {u : Str} {url : Url} {n : Node}
    (hurl : Url.parse u = .ok url) (h : parseSnell url = .ok n) : RoundTrips json n := by
  obtain ⟨psk, hpsk, h⟩ := bind_eq_ok.mp h
  obtain ⟨endpoint, hendpoint, h⟩ := bind_eq_ok.mp h
  obtain ⟨number, -, h⟩ := bind_eq_ok.mp h
  obtain ⟨version, -, h⟩ := bind_eq_ok.mp h
  obtain ⟨reuse, -, h⟩ := bind_eq_ok.mp h
  obtain ⟨supported, -, h⟩ := bind_eq_ok.mp h
  obtain ⟨obfs, hobfs, h⟩ := bind_eq_ok.mp h
  rw [← Except.ok.inj h]
  exact snellNode_roundTrips version reuse supported json (decodeFragment url.fragment)
    (snellPsk_ne_nil hpsk) (urlEndpoint_written hurl hendpoint) (parseSnellObfs_uriObfs hobfs)

/-! ## 5. ShadowTLS -/

/-- A ShadowTLS node of a URI. -/
def shadowTlsNode (name : Str) (endpoint : Endpoint) (version : ShadowTlsVersion)
    (password sni : Option Str) (insecure : Option Bool) : Node :=
  { nodeShell with
    displayName := name
    protocol := .shadowTls
    config := .shadowTls version password (.unknown [])
      (.unsupported
        { raw := .null
          rawFormat := none
          reason := "shadow-tls URI: inner protocol not representable" })
    endpoint
    authentication := .none
    tls := some { defaultTlsEnabled with serverName := sni, skipCertVerify := insecure } }

/-- The parameters of an emitted ShadowTLS URI. -/
def shadowTlsParams (version : ShadowTlsVersion) (sni : Option Str) (insecure : Option Bool) :
    List (Str × Str) :=
  [("version".toList, natText version.asU32)] ++
    (param "sni" sni ++ param "insecure" (insecure.map boolDigit))

section ShadowTls

variable (version : ShadowTlsVersion) (sni : Option Str) (insecure : Option Bool)

theorem shadowTlsParams_plain : PlainKeys (shadowTlsParams version sni insecure) := by
  simp [shadowTlsParams, plainKeys_param, isKeyChar]

theorem shadowTlsParams_version :
    Query.get (shadowTlsParams version sni insecure) "version" = some (natText version.asU32) := by
  simp [shadowTlsParams]

theorem shadowTlsParams_sni : Query.get (shadowTlsParams version sni insecure) "sni" = sni := by
  simp [shadowTlsParams]

theorem shadowTlsParams_insecure :
    queryInsecure (shadowTlsParams version sni insecure) ["insecure"] = .ok insecure :=
  queryInsecure_of_digit (by simp [shadowTlsParams]) (by simp)

theorem shadowTlsVersion_lt : version.asU32 < 4294967296 := by
  cases version <;> decide

theorem shadowTls_fromU32_asU32 : ShadowTlsVersion.fromU32 version.asU32 = some version := by
  cases version <;> rfl

/-- **A ShadowTLS node comes back**; only version 1 may do without a password. -/
theorem shadowTlsNode_roundTrips (json : JsonCodec) (name : Str) {password : Option Str}
    {endpoint : Endpoint} (hsome : ∀ p, password = some p → p ≠ [])
    (hnone : password = none → version = .v1) (hhost : endpoint.host.Written) :
    RoundTrips json (shadowTlsNode name endpoint version password sni insecure) := by
  refine ⟨uriText "shadow-tls" (encodeUserinfo (password.getD []))
    (shadowTlsNode name endpoint version password sni insecure)
    (formatQuery (shadowTlsParams version sni insecure)), rfl, ?_⟩
  obtain ⟨n, hn⟩ : ∃ n, n = shadowTlsNode name endpoint version password sni insecure := ⟨_, rfl⟩
  have hnode : n.endpoint.host.Written := hn ▸ hhost
  have hlt := shadowTlsVersion_lt version
  have hversion : (UInt32.ofNat version.asU32).toNat = version.asU32 := UInt32.toNat_ofNat_of_lt' hlt
  have huser : shadowTlsPassword (emittedUrl "shadow-tls" (encodeUserinfo (password.getD [])) n
      (shadowTlsParams version sni insecure)) version = .ok password := by
    rw [shadowTlsPassword, emittedUrl_username, decodeUserinfo_encodeUserinfo]
    cases password with
    | none => exact if_pos (hnone rfl)
    | some p => exact if_neg (by simpa using hsome p rfl)
  rw [← hn, ParserOf.shadowTls.parseUri_uriText (userText_encodeUserinfo _) hnode
    (shadowTlsParams_plain version sni insecure), parseShadowTls]
  simp only [urlEndpoint_emittedUrl _ _ _ hnode, ok_bind, emittedUrl_queryPairs,
    queryVersion_natText hlt (shadowTlsParams_version version sni insecure), hversion,
    shadowTls_fromU32_asU32, okOr_some, huser, shadowTlsParams_insecure, shadowTlsParams_sni,
    decodeFragment_emittedUrl]
  rw [hn]
  rfl

end ShadowTls

theorem parseShadowTls_roundTrips {json : JsonCodec} {u : Str} {url : Url} {n : Node}
    (hurl : Url.parse u = .ok url) (h : parseShadowTls url = .ok n) : RoundTrips json n := by
  obtain ⟨endpoint, hendpoint, h⟩ := bind_eq_ok.mp h
  obtain ⟨number, -, h⟩ := bind_eq_ok.mp h
  obtain ⟨version, -, h⟩ := bind_eq_ok.mp h
  obtain ⟨password, hpassword, h⟩ := bind_eq_ok.mp h
  obtain ⟨insecure, -, h⟩ := bind_eq_ok.mp h
  have huser : (∀ p, password = some p → p ≠ []) ∧ (password = none → version = .v1) := by
    unfold shadowTlsPassword at hpassword
    dsimp only at hpassword
    split at hpassword
    · split at hpassword
      · rename_i hv
        cases hpassword
        refine ⟨?_, fun _ => hv⟩
        rintro _ ⟨⟩
      · cases hpassword
    · rename_i hne
      cases hpassword
      refine ⟨?_, fun hnone => nomatch hnone⟩
      rintro _ ⟨⟩
      simpa using hne
  rw [← Except.ok.inj h]
  exact shadowTlsNode_roundTrips version (Query.get url.queryPairs "sni") insecure json
    (decodeFragment url.fragment) huser.1 huser.2 (urlEndpoint_written hurl hendpoint)

end Uri

/-! ## 6. All of them -/

open Uri

/-- **Every TUIC, AnyTLS, NaiveProxy, Snell or ShadowTLS URI survives the round trip**: its node
    is emitted, and the emitted URI parses to the same node. -/
theorem uri_round_trips {json : JsonCodec} {u : Str} {url : Url} {n : Node}
    (hurl : Url.parse u = .ok url)
    (hscheme : url.scheme ∈ (["tuic", "anytls", "naive+https", "naive+http", "snell",
      "shadow-tls"] : List Str))
    (hn : parseUri (.rfc3986 json) u = .ok n) : RoundTrips json n := by
  simp only [List.mem_cons, List.not_mem_nil, or_false] at hscheme
  rcases hscheme with hs | hs | hs | hs | hs | hs
  · exact parseTuic_roundTrips hurl (ParserOf.tuic.parseUri_eq hurl hs ▸ hn)
  · exact parseAnyTls_roundTrips hurl (ParserOf.anyTls.parseUri_eq hurl hs ▸ hn)
  · exact parseNaive_roundTrips hurl (ParserOf.naiveHttps.parseUri_eq hurl hs ▸ hn)
  · exact parseNaive_roundTrips hurl (ParserOf.naiveHttp.parseUri_eq hurl hs ▸ hn)
  · exact parseSnell_roundTrips hurl (ParserOf.snell.parseUri_eq hurl hs ▸ hn)
  · exact parseShadowTls_roundTrips hurl (ParserOf.shadowTls.parseUri_eq hurl hs ▸ hn)

theorem uri_round_trips_snell :
    ∃ n, ∀ json : JsonCodec,
      parseUri (.rfc3986 json) "snell://k@h:1?version=4&obfs=tls" = .ok n ∧ RoundTrips json n := by
  have hurl : Url.parse "snell://k@h:1?version=4&obfs=tls" =
      .ok ⟨"snell", "k", none, some "h", some 1, [("version", "4"), ("obfs", "tls")], none⟩ := rfl
  obtain ⟨n, hn⟩ : ∃ n, ∀ json : JsonCodec,
      parseUri (.rfc3986 json) "snell://k@h:1?version=4&obfs=tls" = .ok n :=
    ⟨_, fun _ => ParserOf.snell.parseUri_eq hurl rfl⟩
  exact ⟨n, fun json => ⟨hn json, uri_round_trips hurl (by decide) (hn json)⟩⟩

end DeveSub
