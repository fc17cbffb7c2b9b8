/-
  File:      DeveSub/Properties/UriVmess.lean
  Subject:   Parsing, emitting and parsing again: `vmess://` URIs.

  The emitter writes every field, with `0` for an absent `aid`, `auto` for an absent `scy` and the
  empty text for a `tls` that is not enabled; the parser keeps absent and default apart.

  * **`vmess_round_trips_iff`** -- exactly when a parsed node comes back.
-/
import DeveSub.Properties.UriShadowsocks
import DeveSub.Properties.UriQuery

namespace DeveSub

namespace Uri

/-! ## 1. The text -/

/-- `vmess://` and the Base64 of an object of texts. -/
def vmessText (json : JsonCodec) (ms : List (Str × Str)) : Str :=
  "vmess://".toList ++
    Base64.encode .standard (utf8Bytes (json.write (.obj (ms.map fun m => (m.1, .str m.2)))))

/-- The JSON value in the body of a `vmess://` URI. -/
def vmessValue (json : JsonCodec) (u : Str) : Except ParseError Json := do
  let body ← okOr (stripPrefix "vmess://" u) (.unknownScheme "expected vmess://")
  let bytes ← decodeBase64Flexible body
  let text ← fromUtf8 bytes
  (json.read text).mapError .invalidJson

/-- A `vmess://` URI is parsed from the value in its body. -/
theorem parseUri_vmess (crates : UriCrates) {u : Str} (hu : startsWith "vmess://" u = true) :
    parseUri crates u = (do
      let value ← vmessValue crates.json u
      let vmess ← (VmessJson.fromJson value).mapError .invalidJson
      vmessNode vmess) := by
  obtain ⟨body, hbody⟩ := Option.isSome_iff_exists.mp hu
  have hss : startsWith "ss://" u = false := by
    rw [stripPrefix_some hbody]
    simp [startsWith, stripPrefix]
  rw [parseUri, hss, hu, if_neg (by decide), if_pos rfl, parseVmess, vmessValue]
  simp only [bind_assoc]

theorem stripPrefix_vmessText (json : JsonCodec) (ms : List (Str × Str)) :
    stripPrefix "vmess://" (vmessText json ms) =
      some (Base64.encode .standard
        (utf8Bytes (json.write (.obj (ms.map fun m => (m.1, .str m.2)))))) :=
  stripPrefix_append "vmess://".toList _

theorem startsWith_vmessText (json : JsonCodec) (ms : List (Str × Str)) :
    startsWith "vmess://" (vmessText json ms) = true := by
  rw [startsWith, stripPrefix_vmessText, Option.isSome_some]

/-- **An object of texts is read back** from its Base64. -/
theorem vmessValue_vmessText (json : JsonCodec) {ms : List (Str × Str)}
    (hnodup : (ms.map Prod.fst).Nodup) :
    vmessValue json (vmessText json ms) = .ok (.obj (ms.map fun m => (m.1, .str m.2))) := by
  obtain ⟨text, htext⟩ : ∃ text, text = json.write (.obj (ms.map fun m => (m.1, .str m.2))) :=
    ⟨_, rfl⟩
  have hread : json.read text = .ok (.obj (ms.map fun m => (m.1, .str m.2))) := by
    rw [htext, json.read_write ms hnodup]
  have hutf8 : fromUtf8 (utf8Bytes text) = .ok text := by
    rw [fromUtf8, utf8Strict_utf8Bytes, okOr_some]
  rw [vmessValue, stripPrefix_vmessText, ← htext, okOr_some, ok_bind, decodeBase64Flexible_encode,
    ok_bind, hutf8, ok_bind, hread]
  rfl

theorem parseUri_vmessText (crates : UriCrates) {ms : List (Str × Str)}
    (hnodup : (ms.map Prod.fst).Nodup) :
    parseUri crates (vmessText crates.json ms) = (do
      let vmess ← (VmessJson.fromJson (.obj (ms.map fun m => (m.1, .str m.2)))).mapError .invalidJson
      vmessNode vmess) := by
  rw [parseUri_vmess crates (startsWith_vmessText _ ms), vmessValue_vmessText _ hnodup]
  rfl

/-! ## 2. The node of a URI -/

/-- The extras a parser keeps of a header type. -/
def headerExtras (ht : Option Str) : List (Str × Json) :=
  ht.toList.map fun ht => ("vmess_header_type", .str ht)

/-- A VMess node of a URI. -/
def vmessUriNode (name uuid : Str) (endpoint : Endpoint) (cfg : VMessConfig) (kind : TransportKind)
    (path host : Option Str) (tls : Option TlsConfig) (headerType : Option Str) : Node :=
  { nodeShell with
    displayName := name
    protocol := .vmess
    config := .vmess cfg
    endpoint
    authentication := .uuid uuid
    transport := some { kind, path, host, xhttpMode := none }
    tls
    extras := headerExtras headerType }

/-- A text that is there is not empty. -/
def NotBlank (s : Option Str) : Prop := ∀ t, s = some t → t ≠ []

theorem nonEmpty_eq_some_iff {s : Option Str} {t : Str} :
    nonEmpty s = some t ↔ s = some t ∧ t ≠ [] := by
  simp [nonEmpty, Option.filter_eq_some_iff]

theorem nonEmpty_notBlank (s : Option Str) : NotBlank (nonEmpty s) :=
  fun _ ht => (nonEmpty_eq_some_iff.mp ht).2

/-- An absent text and the empty one are the same to the parser. -/
theorem nonEmpty_getD {s : Option Str} (h : NotBlank s) : nonEmpty (some (s.getD [])) = s := by
  cases s with
  | none => rfl
  | some t =>
      have ht := h t rfl
      simp [nonEmpty, Option.filter, ht]

/-- TLS settings as the VMess parser makes them. -/
structure VmessTls (tls : TlsConfig) : Prop where
  serverName : NotBlank tls.serverName
  skip : tls.skipCertVerify = none
  alpn : tls.alpn = [] ∨ ∃ v, v ≠ [] ∧ tls.alpn = v.splitOn ','
  fingerprint : tls.clientFingerprint = none
  pins : tls.certificatePins = []
  reality : tls.reality = none

/-- The header type as the VMess parser keeps it. -/
def HeaderKept (ht : Option Str) : Prop := ∀ t, ht = some t → t ≠ [] ∧ t ≠ "none"

/-- What a parser made of a `vmess://` URI. -/
structure VmessRead (cfg : VMessConfig) (path host : Option Str) (tls : Option TlsConfig)
    (headerType : Option Str) : Prop where
  security : NotBlank cfg.security
  packetEncoding : NotBlank cfg.packetEncoding
  path : NotBlank path
  host : NotBlank host
  tls : ∀ t, tls = some t → VmessTls t
  headerType : HeaderKept headerType

/-- The header type a parser keeps. -/
def keptHeader (ht : Option Str) : Option Str := ht.filter fun t => t ≠ [] ∧ t ≠ "none"

theorem keptHeader_kept (ht : Option Str) : HeaderKept (keptHeader ht) := by
  intro t h
  simpa using (Option.filter_eq_some_iff.mp h).2

theorem headerExtras_kept (ht : Option Str) :
    headerExtras (keptHeader ht) =
      match ht with
      | some ht => if ht = [] ∨ ht = "none" then [] else [("vmess_header_type", .str ht)]
      | none => [] := by
  cases ht with
  | none => rfl
  | some t =>
      by_cases h : t = [] ∨ t = "none"
      · have hdrop : keptHeader (some t) = none :=
          Option.filter_some_neg (by simpa [or_iff_not_imp_left] using h)
        rw [hdrop]
        exact (if_pos h).symm
      · have hkeep : keptHeader (some t) = some t :=
          Option.filter_some_pos (by simpa using not_or.mp h)
        rw [hkeep]
        exact (if_neg h).symm

/-- The TLS settings of a VMess body. -/
def vmessTls (vmess : VmessJson) : Option TlsConfig :=
  (nonEmpty vmess.tls).map fun t : Str =>
    { enabled := t = "tls" || t = "reality" || t = "xtls"
      serverName := nonEmpty vmess.sni
      skipCertVerify := none
      alpn := ((nonEmpty vmess.alpn).map fun a => a.splitOn ',').getD []
      clientFingerprint := none
      certificatePins := []
      reality := none }

theorem vmessTls_read (vmess : VmessJson) : ∀ t, vmessTls vmess = some t → VmessTls t := by
  intro t ht
  obtain ⟨text, -, rfl⟩ := Option.map_eq_some_iff.mp ht
  refine ⟨nonEmpty_notBlank _, rfl, ?_, rfl, rfl, rfl⟩
  cases ha : nonEmpty vmess.alpn with
  | none => exact .inl rfl
  | some a => exact .inr ⟨a, nonEmpty_notBlank _ a ha, rfl⟩

theorem vmessNode_eq_ok {vmess : VmessJson} {n : Node} (h : vmessNode vmess = .ok n) :
    ∃ endpoint cfg kind path host headerType,
      VmessRead cfg path host (vmessTls vmess) headerType ∧
      parseHost vmess.add = .ok endpoint.host ∧ (cfg.alterId = none ↔ vmess.aid = none) ∧
      cfg.security = nonEmpty vmess.scy ∧
      n = vmessUriNode (vmess.ps.getD []) vmess.id endpoint cfg kind path host (vmessTls vmess)
        headerType := by
  obtain ⟨port, -, h⟩ := bind_eq_ok.mp h
  obtain ⟨alterId, haid, h⟩ := bind_eq_ok.mp h
  obtain ⟨host, hhost, h⟩ := bind_eq_ok.mp h
  obtain ⟨kind, -, h⟩ := bind_eq_ok.mp h
  refine ⟨⟨host, port⟩, ⟨alterId, nonEmpty vmess.scy, nonEmpty vmess.packetEncoding⟩,
    kind.getD .tcp, nonEmpty vmess.path, nonEmpty vmess.host, keptHeader vmess.headerType, ?_, hhost,
    ?_, rfl, (Except.ok.inj h).symm.trans ?_⟩
  · exact ⟨nonEmpty_notBlank _, nonEmpty_notBlank _, nonEmpty_notBlank _, nonEmpty_notBlank _,
      vmessTls_read vmess, keptHeader_kept _⟩
  · obtain ⟨rfl, hnone⟩ | ⟨v, a, hsome, -, rfl⟩ := transpose_map_eq_ok haid
    · simp [hnone]
    · simp [hsome]
  · rw [vmessUriNode, headerExtras_kept]
    rfl

/-! ## 3. The emitted URI -/

section Emitted

variable (name uuid : Str) (endpoint : Endpoint) (cfg : VMessConfig) (kind : TransportKind)
  (path host : Option Str) (tls : Option TlsConfig) (headerType : Option Str)

/-- The body of an emitted `vmess://` URI. -/
def emittedBody : VmessJson where
  ps := some name
  add := hostToString endpoint.host
  port := .str (natText endpoint.port.toNat)
  id := uuid
  aid := some (.str (natText (cfg.alterId.getD 0).toNat))
  scy := some (cfg.security.getD "auto")
  net := some kind.text
  headerType := some (headerType.getD "none")
  host := some (host.getD [])
  path := some (path.getD [])
  tls := some (if tls.any TlsConfig.enabled then "tls" else [])
  sni := some ((tls.bind TlsConfig.serverName).getD [])
  alpn := some (commaJoin ((tls.map TlsConfig.alpn).getD []))
  packetEncoding := some (cfg.packetEncoding.getD [])

theorem fromJson_vmessMembers :
    VmessJson.fromJson (.obj ((vmessMembers
        (vmessUriNode name uuid endpoint cfg kind path host tls headerType) uuid cfg).map
          fun m => (m.1, .str m.2))) =
      .ok (emittedBody name uuid endpoint cfg kind path host tls headerType) := by
  cases headerType <;> rfl

/-- The configuration an emitted URI stands for: nothing is absent. -/
def writtenConfig : VMessConfig :=
  { cfg with
    alterId := some (cfg.alterId.getD 0)
    security := some (cfg.security.getD "auto") }

/-- The TLS settings an emitted URI stands for: none unless they are enabled. -/
def writtenTls : Option TlsConfig := tls.filter TlsConfig.enabled

variable {cfg path host tls headerType}

theorem splitOn_commaJoin {alpn : List Str} (h : alpn = [] ∨ ∃ v, v ≠ [] ∧ alpn = v.splitOn ',') :
    ((nonEmpty (some (commaJoin alpn))).map fun a => a.splitOn ',').getD [] = alpn := by
  rcases h with rfl | ⟨v, hv, rfl⟩
  · rfl
  · rw [commaJoin, join_split]
    simp [nonEmpty, Option.filter, hv]

theorem vmessTls_emittedBody (h : VmessRead cfg path host tls headerType) :
    vmessTls (emittedBody name uuid endpoint cfg kind path host tls headerType) =
      writtenTls tls := by
  cases tls with
  | none => rfl
  | some t =>
      obtain ⟨enabled, serverName, skip, alpn, fingerprint, pins, reality⟩ := t
      obtain ⟨hname, rfl, halpn, rfl, rfl, rfl⟩ := h.tls _ rfl
      cases enabled with
      | false => rfl
      | true =>
          have hsni : nonEmpty (some (serverName.getD [])) = serverName := nonEmpty_getD hname
          have hlist := splitOn_commaJoin halpn
          show some (TlsConfig.mk true (nonEmpty (some (serverName.getD []))) none
            (((nonEmpty (some (commaJoin alpn))).map fun a => a.splitOn ',').getD []) none [] none) =
            some _
          rw [hsni, hlist]

theorem keptHeader_getD {ht : Option Str} (h : HeaderKept ht) :
    keptHeader (some (ht.getD "none")) = ht := by
  cases ht with
  | none => rfl
  | some t => exact Option.filter_some_pos (decide_eq_true (h t rfl))

/-- What the body of an emitted URI is read as. -/
theorem vmessNode_emittedBody (h : VmessRead cfg path host tls headerType)
    (hhost : endpoint.host.Written) :
    vmessNode (emittedBody name uuid endpoint cfg kind path host tls headerType) =
      .ok (vmessUriNode name uuid endpoint (writtenConfig cfg) kind path host (writtenTls tls)
        headerType) := by
  have hport : jsonValueAsU16 (.str (natText endpoint.port.toNat)) "port" = .ok endpoint.port := by
    show okOr (parseU16 _) _ = _
    rw [parseU16_natText, okOr_some]
  have haid : jsonValueAsU32 (.str (natText (cfg.alterId.getD 0).toNat)) "aid" =
      .ok (cfg.alterId.getD 0) := by
    show okOr (parseU32 _) _ = _
    rw [parseU32_natText, okOr_some]
  have hscy : nonEmpty (some (cfg.security.getD "auto")) = some (cfg.security.getD "auto") := by
    refine Option.filter_some_pos ?_
    cases hs : cfg.security with
    | none => rfl
    | some t => simpa using h.security t hs
  have hextras : headerExtras headerType =
      if headerType.getD "none" = [] ∨ headerType.getD "none" = "none" then []
      else [("vmess_header_type".toList, .str (headerType.getD "none"))] := by
    have hkept := headerExtras_kept (some (headerType.getD "none"))
    rwa [keptHeader_getD h.headerType] at hkept
  have htls := vmessTls_emittedBody name uuid endpoint kind h
  rw [vmessUriNode, ← htls, hextras]
  simp only [vmessNode, emittedBody, hport, ok_bind, Option.map_some, haid, transpose_ok,
    parseHost_hostToString hhost, mapTransportKind_text, hscy, nonEmpty_getD h.packetEncoding,
    nonEmpty_getD h.path, nonEmpty_getD h.host, Option.getD_some]
  rfl

variable (cfg path host tls headerType)

/-- What an emitted `vmess://` URI is read as. -/
theorem parse_emit_vmess (crates : UriCrates) :
    ∃ v, emitUri crates.json (vmessUriNode name uuid endpoint cfg kind path host tls headerType) =
        .ok v ∧
      parseUri crates v =
        vmessNode (emittedBody name uuid endpoint cfg kind path host tls headerType) := by
  obtain ⟨n, hn⟩ : ∃ n, n = vmessUriNode name uuid endpoint cfg kind path host tls headerType :=
    ⟨_, rfl⟩
  have hkeys : ((vmessMembers n uuid cfg).map Prod.fst).Nodup := by
    show (["v", "ps", "add", "port", "id", "aid", "scy", "net", "type", "host", "path", "tls", "sni",
      "alpn", "packetEncoding"] : List Str).Nodup
    decide +kernel
  refine ⟨vmessText crates.json (vmessMembers n uuid cfg), by rw [hn]; rfl, ?_⟩
  rw [parseUri_vmessText crates hkeys, hn, fromJson_vmessMembers]
  rfl

end Emitted

/-! ## 4. What the body has to say -/

/-- A field of the body, which is an object or the array of all the fields in order. -/
def vmessField (j : Json) (key : Str) : Option Json :=
  match j with
  | .arr items => (Json.obj (VmessJson.fieldNames.zip items)).get key
  | _ => j.get key

/-- The body leaves nothing to the defaults of the emitter. -/
structure VmessKept (j : Json) : Prop where
  aid : ∃ v, vmessField j "aid" = some v ∧ v ≠ .null
  scy : ∃ s, vmessField j "scy" = some (.str s) ∧ s ≠ []
  tls : ∀ s, vmessField j "tls" = some (.str s) →
    s = [] ∨ s = "tls" ∨ s = "reality" ∨ s = "xtls"
  add : vmessField j "add" ≠ some (.str "[]")

theorem vmessField_of_members {j : Json} {ms : List (Str × Json)}
    (h : VmessJson.members j = .ok ms) (key : Str) : vmessField j key = (Json.obj ms).get key := by
  unfold VmessJson.members at h
  split at h
  · split_ifs at h
    cases h
    rfl
  · split_ifs at h
    cases h
    rfl
  · cases h

theorem get_eq_str_iff_of_optString {ms : List (Str × Json)} {key : Str} {r : Option Str}
    (h : VmessJson.optString ms key = .ok r) (s : Str) :
    (Json.obj ms).get key = some (.str s) ↔ r = some s := by
  unfold VmessJson.optString at h
  split at h <;> cases h <;> simp_all

theorem get_eq_str_of_reqString {ms : List (Str × Json)} {key s : Str}
    (h : VmessJson.reqString ms key = .ok s) : (Json.obj ms).get key = some (.str s) := by
  unfold VmessJson.reqString at h
  split at h <;> cases h
  assumption

theorem optValue_ne_none_iff (ms : List (Str × Json)) (key : Str) :
    VmessJson.optValue ms key ≠ none ↔ ∃ v, (Json.obj ms).get key = some v ∧ v ≠ .null := by
  unfold VmessJson.optValue
  split <;> simp_all

/-- The condition on the body, on the fields that are read from it. -/
theorem vmessKept_iff {j : Json} {vmess : VmessJson} (h : VmessJson.fromJson j = .ok vmess) :
    VmessKept j ↔ vmess.aid ≠ none ∧ nonEmpty vmess.scy ≠ none ∧
      (∀ t, vmessTls vmess = some t → t.enabled = true) ∧ vmess.add ≠ "[]" := by
  obtain ⟨ms, hms, h⟩ := bind_eq_ok.mp h
  obtain ⟨_, -, h⟩ := bind_eq_ok.mp h
  obtain ⟨_, -, h⟩ := bind_eq_ok.mp h
  obtain ⟨add, hadd, h⟩ := bind_eq_ok.mp h
  obtain ⟨_, -, h⟩ := bind_eq_ok.mp h
  obtain ⟨_, -, h⟩ := bind_eq_ok.mp h
  obtain ⟨scy, hscy, h⟩ := bind_eq_ok.mp h
  obtain ⟨_, -, h⟩ := bind_eq_ok.mp h
  obtain ⟨_, -, h⟩ := bind_eq_ok.mp h
  obtain ⟨_, -, h⟩ := bind_eq_ok.mp h
  obtain ⟨_, -, h⟩ := bind_eq_ok.mp h
  obtain ⟨tls, htls, h⟩ := bind_eq_ok.mp h
  obtain ⟨_, -, h⟩ := bind_eq_ok.mp h
  obtain ⟨_, -, h⟩ := bind_eq_ok.mp h
  obtain ⟨_, -, h⟩ := bind_eq_ok.mp h
  cases h
  have hscy' : (∃ s, vmessField j "scy" = some (.str s) ∧ s ≠ []) ↔ nonEmpty scy ≠ none := by
    simp only [vmessField_of_members hms, get_eq_str_iff_of_optString hscy]
    rw [Option.ne_none_iff_exists']
    exact exists_congr fun s => nonEmpty_eq_some_iff.symm
  have htls' : (∀ s, vmessField j "tls" = some (.str s) →
      s = [] ∨ s = "tls" ∨ s = "reality" ∨ s = "xtls") ↔
      ∀ s, nonEmpty tls = some s → (s = "tls" || s = "reality" || s = "xtls") = true := by
    simp only [vmessField_of_members hms, get_eq_str_iff_of_optString htls, nonEmpty_eq_some_iff,
      and_imp, Bool.or_eq_true, decide_eq_true_eq, or_assoc]
    exact forall_congr' fun s => imp_congr_right fun _ => or_iff_not_imp_left
  have hadd' : vmessField j "add" ≠ some (.str "[]") ↔ add ≠ "[]" := by
    rw [vmessField_of_members hms, get_eq_str_of_reqString hadd]
    simp
  have haid' : (∃ v, vmessField j "aid" = some v ∧ v ≠ .null) ↔
      VmessJson.optValue ms "aid" ≠ none := by
    rw [optValue_ne_none_iff, vmessField_of_members hms]
  constructor
  · intro hk
    refine ⟨haid'.mp hk.aid, hscy'.mp hk.scy, ?_, hadd'.mp hk.add⟩
    intro t ht
    obtain ⟨s, hs, rfl⟩ := Option.map_eq_some_iff.mp ht
    exact htls'.mp hk.tls s hs
  · rintro ⟨haid, hscy, htls, hadd⟩
    exact ⟨haid'.mpr haid, hscy'.mpr hscy,
      htls'.mpr fun s hs => htls _ (Option.map_eq_some_iff.mpr ⟨s, hs, rfl⟩), hadd'.mpr hadd⟩

/-- **The node of a body comes back exactly when the body leaves nothing to the defaults.** -/
theorem vmessNode_comes_back_iff {crates : UriCrates} {vmess : VmessJson} {n : Node}
    (h : vmessNode vmess = .ok n) :
    (∀ v, emitUri crates.json n = .ok v → parseUri crates v = .ok n) ↔
      vmess.aid ≠ none ∧ nonEmpty vmess.scy ≠ none ∧
        (∀ t, vmessTls vmess = some t → t.enabled = true) ∧ vmess.add ≠ "[]" := by
  obtain ⟨endpoint, cfg, kind, path, host, headerType, hread, hhost, haid, hscy, rfl⟩ :=
    vmessNode_eq_ok h
  obtain ⟨tls, htls⟩ : ∃ tls, tls = vmessTls vmess := ⟨_, rfl⟩
  rw [← htls] at hread h ⊢
  obtain ⟨v, hv, hparse⟩ := parse_emit_vmess (vmess.ps.getD []) vmess.id endpoint cfg kind path host
    tls headerType crates
  rw [Ne, ← haid, ← hscy]
  refine (forall_ok_iff hv).trans ?_
  rw [hparse]
  by_cases hadd : vmess.add = "[]"
  · -- the empty domain is written as an empty `add`
    have hempty : endpoint.host = .domain [] := by
      rw [hadd] at hhost
      exact (Except.ok.inj hhost).symm
    refine ⟨fun h => ?_, fun h => absurd hadd h.2.2.2⟩
    obtain ⟨_, _, _, _, _, _, -, hhost', -⟩ := vmessNode_eq_ok h
    rw [emittedBody, hempty] at hhost'
    cases hhost'
  · rw [vmessNode_emittedBody _ _ _ _ hread (parseHost_written hadd hhost)]
    constructor
    · intro h
      have hcfg := ProtocolConfig.vmess.inj (congrArg Node.config (Except.ok.inj h))
      have htls : writtenTls tls = tls := congrArg Node.tls (Except.ok.inj h)
      refine ⟨?_, ?_, ?_, hadd⟩
      · rw [← congrArg VMessConfig.alterId hcfg]
        exact Option.some_ne_none _
      · rw [← congrArg VMessConfig.security hcfg]
        exact Option.some_ne_none _
      · intro t ht
        rw [ht] at htls
        exact (Option.filter_eq_some_iff.mp htls).2
    · rintro ⟨haid, hscy, htls, -⟩
      obtain ⟨aid, haid⟩ := Option.ne_none_iff_exists'.mp haid
      obtain ⟨scy, hscy⟩ := Option.ne_none_iff_exists'.mp hscy
      have hcfg : writtenConfig cfg = cfg := by
        obtain ⟨a, b, c⟩ := cfg
        obtain rfl : a = some aid := haid
        obtain rfl : b = some scy := hscy
        rfl
      have hkept : writtenTls tls = tls := by
        cases tls with
        | none => rfl
        | some t => exact Option.filter_some_pos (htls t rfl)
      rw [hcfg, hkept]

end Uri

open Uri

/-- **A VMess URI survives the round trip exactly when the JSON in its body leaves nothing to the
    defaults of the emitter**: it has an `aid` that is not null and a `scy` that is not empty, a
    `tls` that is there is empty or one that enables TLS, and `add` is not `[]`. -/
theorem vmess_round_trips_iff {crates : UriCrates} {u : Str} {n : Node}
    (hu : startsWith "vmess://" u = true) (hn : parseUri crates u = .ok n) :
    ∃ j, vmessValue crates.json u = .ok j ∧
      ((∀ v, emitUri crates.json n = .ok v → parseUri crates v = .ok n) ↔ VmessKept j) := by
  rw [parseUri_vmess crates hu] at hn
  obtain ⟨j, hj, hn⟩ := bind_eq_ok.mp hn
  obtain ⟨vmess, hvmess, hn⟩ := bind_eq_ok.mp hn
  refine ⟨j, hj, ?_⟩
  rw [vmessNode_comes_back_iff hn, vmessKept_iff (mapError_eq_ok.mp hvmess)]

/-- An absent `aid` comes back as `0`. -/
theorem vmess_absent_aid_becomes_zero :
    ∃ ms : List (Str × Str), ∀ crates : UriCrates, ∃ n,
      parseUri crates (vmessText crates.json ms) = .ok n ∧
        ∃ v, emitUri crates.json n = .ok v ∧ parseUri crates v ≠ .ok n := by
  refine ⟨[("add", "h"), ("port", "1"), ("id", "i"), ("scy", "auto")], fun crates =>
    ⟨vmessUriNode [] "i" ⟨.domain "h", 1⟩ ⟨none, some "auto", none⟩ .tcp none none none none, ?_, ?_⟩⟩
  · rw [parseUri_vmessText crates (by decide +kernel)]
    rfl
  · obtain ⟨v, hv, hparse⟩ := parse_emit_vmess [] "i" ⟨.domain "h", 1⟩
      ⟨none, some "auto", none⟩ .tcp none none none none crates
    have hread : VmessRead ⟨none, some "auto", none⟩ none none none none :=
      ⟨by rintro t ⟨⟩; decide, by rintro t ⟨⟩, by rintro t ⟨⟩, by rintro t ⟨⟩, by rintro t ⟨⟩,
        by rintro t ⟨⟩⟩
    have hhost : (Endpoint.mk (.domain "h") 1).host.Written := by decide
    refine ⟨v, hv, ?_⟩
    rw [hparse, vmessNode_emittedBody _ _ _ _ hread hhost]
    intro h
    have hcfg := ProtocolConfig.vmess.inj (congrArg Node.config (Except.ok.inj h))
    exact absurd hcfg (by decide)

theorem vmess_round_trips_complete :
    ∃ ms : List (Str × Str), ∀ crates : UriCrates, ∃ n,
      parseUri crates (vmessText crates.json ms) = .ok n ∧
        ∃ v, emitUri crates.json n = .ok v ∧ parseUri crates v = .ok n := by
  refine ⟨[("add", "h"), ("port", "1"), ("id", "i"), ("aid", "0"), ("scy", "auto")], fun crates => ?_⟩
  have hn : parseUri crates (vmessText crates.json
      [("add", "h"), ("port", "1"), ("id", "i"), ("aid", "0"), ("scy", "auto")]) =
      .ok (vmessUriNode [] "i" ⟨.domain "h", 1⟩ ⟨some 0, some "auto", none⟩ .tcp none none none
        none) := by
    rw [parseUri_vmessText crates (by decide +kernel)]
    rfl
  obtain ⟨v, hv, -⟩ := parse_emit_vmess [] "i" ⟨.domain "h", 1⟩
    ⟨some 0, some "auto", none⟩ .tcp none none none none crates
  obtain ⟨j, hj, hiff⟩ := vmess_round_trips_iff (startsWith_vmessText crates.json _) hn
  rw [vmessValue_vmessText crates.json (by decide +kernel)] at hj
  cases hj
  refine ⟨_, hn, v, hv, hiff.mpr ⟨⟨_, rfl, by rintro ⟨⟩⟩, ⟨_, rfl, by decide⟩, ?_, by rintro ⟨⟩⟩ v hv⟩
  rintro s ⟨⟩

end DeveSub
