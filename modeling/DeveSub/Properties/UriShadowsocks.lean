/-
  File:      DeveSub/Properties/UriShadowsocks.lean
  Subject:   Parsing, emitting and parsing again: `ss://` URIs, and the legacy form.

  The parser splits at the first `@` and the first `:` of what it has decoded. The emitter writes
  method and password in Base64 with a `:` between them, so a method that holds a colon (a plain
  URI can have it percent-coded) does not come back. In the legacy form all of
  `method:password@host:port` is Base64, and an `@` in the password ends the user information too
  early.

  * **`shadowsocks_round_trips_iff`** -- both parts, each with the exact condition.
-/
import DeveSub.Properties.EmittedUri

namespace DeveSub

/-! ## 1. Base64 by any of the four engines -/

/-- A text without padding that some engine reads is read so. -/
theorem decodeBase64Flexible_of_decode {al : Base64.Alphabet} {pad : Base64.Padding} {t : Str}
    {bs : List UInt8} (ht : '=' ∉ t) (h : Base64.decode al pad t = some bs) :
    decodeBase64Flexible t = .ok bs := by
  have hagree : ∀ {al' pad' xs}, Base64.decode al' pad' t = some xs → xs = bs :=
    fun hx => Base64.decode_agree ht hx h
  unfold decodeBase64Flexible
  split
  · rename_i h1
    rw [hagree h1]
  · rename_i h1
    split
    · rename_i h2
      rw [hagree h2]
    · rename_i h2
      split
      · rename_i h3
        rw [hagree h3]
      · rename_i h3
        split
        · rename_i h4
          rw [hagree h4]
        · rename_i h4
          cases al <;> cases pad <;> simp_all

theorem decodeBase64Flexible_encodeNoPad (bs : List UInt8) :
    decodeBase64Flexible (Base64.encodeNoPad .urlSafe bs) = .ok bs :=
  decodeBase64Flexible_of_decode (Base64.not_mem_encodeNoPad (by decide) bs)
    (Base64.decode_encodeNoPad .urlSafe bs)

theorem decodeBase64Flexible_encode (bs : List UInt8) :
    decodeBase64Flexible (Base64.encode .standard bs) = .ok bs := by
  rw [decodeBase64Flexible, Base64.decode_encode]

/-- No engine reads a text with a colon. -/
theorem decodeBase64Flexible_of_colon {t : Str} (h : ':' ∈ t) :
    decodeBase64Flexible t = .error (.invalidBase64 t) := by
  have hnone : ∀ al pad, Base64.decode al pad t = none := fun al pad =>
    Base64.decode_eq_none_of_mem (by cases al <;> decide) (by decide) h
  simp only [decodeBase64Flexible, hnone]

/-! ## 2. Host and port -/

/-- The host of a `host:port` is one a parser may produce. -/
theorem parseHostPort_written {s : Str} {h : Host} {port : UInt16}
    (hp : parseHostPort s = .ok (h, port)) : h.Written := by
  unfold parseHostPort at hp
  split at hp
  · obtain ⟨⟨inner, after⟩, hsplit, hp⟩ := bind_eq_ok.mp hp
    obtain ⟨_, -, hp⟩ := bind_eq_ok.mp hp
    obtain ⟨host, hhost, hp⟩ := bind_eq_ok.mp hp
    obtain ⟨_, -, hp⟩ := bind_eq_ok.mp hp
    cases hp
    refine parseHost_written ?_ hhost
    rintro rfl
    exact absurd (splitOnce_some (okOr_eq_ok.mp hsplit)).2 (by decide)
  · rename_i hopen
    obtain ⟨⟨hostStr, portStr⟩, hsplit, hp⟩ := bind_eq_ok.mp hp
    obtain ⟨host, hhost, hp⟩ := bind_eq_ok.mp hp
    obtain ⟨_, -, hp⟩ := bind_eq_ok.mp hp
    cases hp
    refine parseHost_written ?_ hhost
    rintro rfl
    rw [(rsplitOnce_some (okOr_eq_ok.mp hsplit)).1] at hopen
    exact absurd hopen (by simp [stripPrefix])

theorem parseU16_natText (n : UInt16) : parseU16 (natText n.toNat) = some n := by
  rw [parseU16, parseUnsigned_natText n.toNat_lt, Option.map_some, UInt16.ofNat_toNat]

/-- **Host and port are read back.** -/
theorem parseHostPort_text {h : Host} (hh : h.Written) (port : UInt16) :
    parseHostPort (h.uriHost ++ ':' :: natText port.toNat) = .ok (h, port) := by
  have hcolon : ':' ∉ natText port.toNat := UriText.not_mem_natText (by decide)
  -- a host without brackets is all that stands before the last colon
  have hplain : ∀ {s : Str}, h.uriHost = s → (∀ r, s ≠ '[' :: r) → s ≠ [] →
      parseHostPort (s ++ ':' :: natText port.toNat) = .ok (h, port) := by
    intro s hs hopen hne
    have hstrip : stripPrefix "[" (s ++ ':' :: natText port.toNat) = none := by
      cases s with
      | nil => exact absurd rfl hne
      | cons c r =>
          have hc : '[' ≠ c := fun e => hopen r (by rw [e])
          simp [stripPrefix, hc]
    have hhost := parseHost_uriHost hh
    rw [hs] at hhost
    rw [parseHostPort, hstrip]
    simp only [rsplitOnce_append s hcolon, okOr_some, ok_bind, hhost, parseU16_natText]
  cases h with
  | ipv4 a => exact hplain rfl a.text_ne_bracket (Ipv4Addr.text_ne_nil a)
  | ipv6 a =>
      have hclose : ']' ∉ a.text := UriText.not_mem_ipv6 a (by decide) (by decide) (by decide)
      have hopen : stripPrefix "[" ((Host.ipv6 a).uriHost ++ ':' :: natText port.toNat) =
          some (a.text ++ ']' :: ':' :: natText port.toNat) := by
        have h1 := stripPrefix_append "[".toList (a.text ++ ']' :: ':' :: natText port.toNat)
        rw [← h1]
        simp [Host.uriHost]
      have hport : stripPrefix ":" (':' :: natText port.toNat) = some (natText port.toNat) :=
        stripPrefix_append ":".toList (natText port.toNat)
      have hhost : parseHost a.text = .ok (.ipv6 a) := parseHost_hostToString hh
      rw [parseHostPort, hopen]
      simp only [splitOnce_append _ hclose, okOr_some, ok_bind, hport, hhost, parseU16_natText]
  | domain d => exact hplain rfl hh.ne_bracket hh.1

namespace Uri

/-! ## 3. The node of a URI -/

/-- A Shadowsocks node of a URI. -/
def ssNode (name : Str) (endpoint : Endpoint) (cfg : ShadowsocksConfig) (password : Str) : Node :=
  { nodeShell with
    displayName := name
    protocol := .shadowsocks
    config := .shadowsocks cfg
    endpoint
    authentication := .password password }

/-- Plugin and options as the parser makes them: the name ends at the first `;`, and there are no
    options without a name. -/
def PluginRead (plugin opts : Option Str) : Prop :=
  (∀ name, plugin = some name → ';' ∉ name) ∧ (plugin = none → opts = none)

theorem parsePlugin_read (query : Option Str) :
    PluginRead (parsePlugin query).1 (parsePlugin query).2 := by
  unfold parsePlugin
  split
  · split
    · rename_i hsplit
      refine ⟨?_, fun h => by cases h⟩
      rintro _ ⟨⟩
      exact (splitOnce_some hsplit).2
    · rename_i hsplit
      refine ⟨?_, fun h => by cases h⟩
      rintro _ ⟨⟩
      exact splitOnce_none hsplit
  · refine ⟨?_, fun _ => rfl⟩
    rintro _ ⟨⟩

/-- Plugin and options in one text. -/
def pluginValue (name : Str) : Option Str → Str
  | some opts => name ++ ';' :: opts
  | none => name

/-- The query of an emitted plugin. -/
def pluginQuery (plugin opts : Option Str) : Option Str :=
  plugin.map fun name =>
    "plugin=".toList ++ percentEncode queryValueEncode (pluginValue name opts)

/-- **Plugin and options are read back.** -/
theorem parsePlugin_pluginQuery {plugin opts : Option Str} (h : PluginRead plugin opts) :
    parsePlugin (pluginQuery plugin opts) = (plugin, opts) := by
  cases plugin with
  | none => rw [h.2 rfl]; rfl
  | some name =>
      have hname : ';' ∉ name := h.1 name rfl
      have hform : ∀ value : Str, parseForm ("plugin=".toList ++ percentEncode queryValueEncode value) =
          [("plugin".toList, value)] := by
        intro value
        have hkeys : PlainKeys [("plugin".toList, value)] := by simp [PlainKeys, isKeyChar]
        simpa [formatQuery, List.intercalate] using parseForm_formatQuery hkeys
      rw [parsePlugin, pluginQuery, Option.map_some, Option.bind_some, hform]
      cases opts with
      | none => simp [pluginValue, splitOnce_of_not_mem hname]
      | some o => simp [pluginValue, splitOnce_append o hname]

theorem parseShadowsocks_eq (uri : Str) :
    parseShadowsocks uri = (do
      let afterScheme ← okOr (stripPrefix "ss://" (UriText.cut '#' uri).1)
        (.unknownScheme "expected ss://")
      let (method, password, host, port) ←
        parseShadowsocksAuthority (UriText.cut '?' afterScheme).1
      let plugin := parsePlugin (UriText.cut '?' afterScheme).2
      .ok (ssNode (decodeFragment (UriText.cut '#' uri).2) ⟨host, port⟩
        { method, plugin := plugin.1, pluginOpts := plugin.2 } password)) := by
  rfl

/-! ## 4. The emitted URI -/

/-- Method and password in Base64. -/
def ssUserinfo (method password : Str) : Str :=
  Base64.encodeNoPad .urlSafe (utf8Bytes (method ++ ':' :: password))

/-- What an emitted URI has between the scheme and the query; a path stands before a query. -/
def ssAuthority (endpoint : Endpoint) (cfg : ShadowsocksConfig) (password : Str) : Str :=
  ssUserinfo cfg.method password ++
    '@' :: (endpoint.host.uriHost ++ ':' :: natText endpoint.port.toNat ++
      if cfg.plugin.isSome then ['/'] else [])

theorem emitShadowsocks_eq (json : JsonCodec) (name : Str) (endpoint : Endpoint)
    (cfg : ShadowsocksConfig) (password : Str) :
    emitUri json (ssNode name endpoint cfg password) =
      .ok ("ss://".toList ++ (ssAuthority endpoint cfg password ++
          UriText.suffix '?' (pluginQuery cfg.plugin cfg.pluginOpts)) ++
        UriText.suffix '#' (nameFragment name)) := by
  obtain ⟨method, plugin, opts⟩ := cfg
  rw [suffix_nameFragment]
  rcases plugin with _ | plugin
  · simp [emitUri, emitShadowsocks, ssNode, ssAuthority, ssUserinfo, hostPort, pluginQuery,
      UriText.suffix]
  · rcases opts with _ | opts <;>
      simp [emitUri, emitShadowsocks, ssNode, ssAuthority, ssUserinfo, hostPort, pluginQuery,
        pluginValue, UriText.suffix]

theorem not_mem_ssUserinfo (method password : Str) {c : Char}
    (h : Base64.value .urlSafe c = none) : c ∉ ssUserinfo method password :=
  Base64.not_mem_encodeNoPad h _

/-- The authority ends before a `?` or a `#`. -/
theorem not_mem_ssAuthority {endpoint : Endpoint} (hhost : endpoint.host.Written)
    (cfg : ShadowsocksConfig) (password : Str) {c : Char} (hc : c = '?' ∨ c = '#') :
    c ∉ ssAuthority endpoint cfg password := by
  have hclean : Base64.value .urlSafe c = none ∧ c ∈ ['@', '/', '?', '#'] ∧ c.isDigit = false ∧
      c ≠ '@' ∧ c ≠ ':' ∧ c ≠ '/' := by
    rcases hc with rfl | rfl <;> decide
  obtain ⟨hvalue, hdelim, hdigit, hat, hcolon, hslash⟩ := hclean
  have huser := not_mem_ssUserinfo cfg.method password hvalue
  have hname := hhost.hostText.not_mem hdelim
  have hport : c ∉ natText endpoint.port.toNat := UriText.not_mem_natText hdigit
  cases hp : cfg.plugin <;> simp [ssAuthority, hp, huser, hname, hport, hat, hcolon, hslash]

theorem not_mem_pluginQuery (plugin opts : Option Str) :
    '#' ∉ UriText.suffix '?' (pluginQuery plugin opts) := by
  cases plugin with
  | none => simp [pluginQuery, UriText.suffix]
  | some name =>
      have hvalue := not_mem_value (pluginValue name opts) (c := '#') (by decide)
      simp [pluginQuery, UriText.suffix, hvalue]

/-- The authority of an emitted URI is read back, with method and password split anew. -/
theorem parseShadowsocksAuthority_emitted {endpoint : Endpoint} (hhost : endpoint.host.Written)
    (cfg : ShadowsocksConfig) {password m p : Str}
    (hsplit : splitOnce ':' (cfg.method ++ ':' :: password) = some (m, p)) :
    parseShadowsocksAuthority (ssAuthority endpoint cfg password) =
      .ok (m, p, endpoint.host, endpoint.port) := by
  have hat : '@' ∉ ssUserinfo cfg.method password := not_mem_ssUserinfo _ _ (by decide)
  obtain ⟨t, ht⟩ : ∃ t, t = endpoint.host.uriHost ++ ':' :: natText endpoint.port.toNat := ⟨_, rfl⟩
  have hslash : ∀ c ∈ t, decide (c ≠ '/') = true := by
    intro c hc
    rw [decide_eq_true_eq]
    rintro rfl
    have hname := hhost.hostText.not_mem (c := '/') (by decide)
    have hport : '/' ∉ natText endpoint.port.toNat := UriText.not_mem_natText (by decide)
    rw [ht] at hc
    simp [hname, hport] at hc
  have hpath : (t ++ if cfg.plugin.isSome then ['/'] else []).takeWhile (· ≠ '/') = t := by
    refine (takeWhile_append_of_stop hslash fun c r h => ?_).1
    split at h
    · cases h
      rfl
    · cases h
  have htext : fromUtf8 (utf8Bytes (cfg.method ++ ':' :: password)) =
      .ok (cfg.method ++ ':' :: password) := by
    rw [fromUtf8, utf8Strict_utf8Bytes, okOr_some]
  rw [parseShadowsocksAuthority, ssAuthority, splitOnce_append _ hat, ← ht]
  simp only [hpath, ssUserinfo, decodeBase64Flexible_encodeNoPad, htext, Except.map, ok_bind,
    hsplit, okOr_some]
  rw [ht, parseHostPort_text hhost]
  rfl

/-- What an emitted `ss://` URI parses to. -/
theorem parse_emit_ss (json : JsonCodec) (name : Str) {endpoint : Endpoint}
    (hhost : endpoint.host.Written) {cfg : ShadowsocksConfig} {password m p : Str}
    (hplugin : PluginRead cfg.plugin cfg.pluginOpts)
    (hsplit : splitOnce ':' (cfg.method ++ ':' :: password) = some (m, p)) :
    ∃ v, emitUri json (ssNode name endpoint cfg password) = .ok v ∧
      parseUri (.rfc3986 json) v = .ok (ssNode name endpoint { cfg with method := m } p) := by
  refine ⟨_, emitShadowsocks_eq json name endpoint cfg password, ?_⟩
  obtain ⟨a, ha⟩ : ∃ a, a = ssAuthority endpoint cfg password := ⟨_, rfl⟩
  have hquery : '?' ∉ a := ha ▸ not_mem_ssAuthority hhost cfg password (.inl rfl)
  have hbody : '#' ∉ "ss://".toList ++ (a ++ UriText.suffix '?' (pluginQuery cfg.plugin
      cfg.pluginOpts)) := by
    have h1 : '#' ∉ a := ha ▸ not_mem_ssAuthority hhost cfg password (.inr rfl)
    have h2 := not_mem_pluginQuery cfg.plugin cfg.pluginOpts
    simp [h1, h2]
  have hstart : startsWith "ss://" ("ss://".toList ++ (a ++ UriText.suffix '?' (pluginQuery
      cfg.plugin cfg.pluginOpts)) ++ UriText.suffix '#' (nameFragment name)) = true := by
    rw [startsWith, List.append_assoc, stripPrefix_append]
    rfl
  rw [← ha, parseUri, hstart, if_pos rfl, parseShadowsocks_eq, UriText.cut_suffix hbody,
    stripPrefix_append, okOr_some, ok_bind, UriText.cut_suffix hquery, ha,
    parseShadowsocksAuthority_emitted hhost cfg hsplit, ok_bind]
  dsimp only
  rw [parsePlugin_pluginQuery hplugin, decodeFragment_nameFragment]

/-! ## 5. The node of an accepted URI -/

/-- The method of a plain user information, still percent-coded: what stands before the first
    colon of the text before the first `@`. -/
def plainMethod (authority : Str) : Option Str :=
  (splitOnce '@' authority).bind fun user => (splitOnce ':' user.1).map Prod.fst

/-- The plain method of an `ss://` URI. -/
def ssPlainMethod (u : Str) : Option Str :=
  (stripPrefix "ss://" (UriText.cut '#' u).1).bind fun rest => plainMethod (UriText.cut '?' rest).1

/-- The host of an authority, and when its method holds a colon: what Base64 holds is split at its
    first one, and only a plain method is decoded after that. -/
theorem parseShadowsocksAuthority_eq_ok {s m p : Str} {h : Host} {port : UInt16}
    (hp : parseShadowsocksAuthority s = .ok (m, p, h, port)) :
    h.Written ∧
      (':' ∉ m ↔ ∀ method, plainMethod s = some method → ':' ∉ decodeUserinfo method) := by
  unfold parseShadowsocksAuthority at hp
  split at hp
  · rename_i userinfo hostPortPath hat
    have hplain : plainMethod s = (splitOnce ':' userinfo).map Prod.fst := by
      rw [plainMethod, hat, Option.bind_some]
    dsimp only at hp
    by_cases hcolon : ':' ∈ userinfo
    · rw [decodeBase64Flexible_of_colon hcolon] at hp
      dsimp only at hp
      rw [if_pos hcolon, ok_bind] at hp
      obtain ⟨⟨method, password⟩, hsplit, hp⟩ := bind_eq_ok.mp hp
      obtain ⟨⟨host, port'⟩, hhost, hp⟩ := bind_eq_ok.mp hp
      cases hp
      refine ⟨parseHostPort_written hhost, ?_⟩
      rw [hplain, okOr_eq_ok.mp hsplit]
      simp
    · split at hp
      · rename_i bytes _
        obtain ⟨⟨decoded, plain⟩, hdecoded, hp⟩ := bind_eq_ok.mp hp
        obtain rfl : plain = false := by
          cases ht : fromUtf8 bytes with
          | error e => rw [ht] at hdecoded; cases hdecoded
          | ok text => rw [ht] at hdecoded; cases hdecoded; rfl
        obtain ⟨⟨method, password⟩, hsplit, hp⟩ := bind_eq_ok.mp hp
        obtain ⟨⟨host, port'⟩, hhost, hp⟩ := bind_eq_ok.mp hp
        cases hp
        refine ⟨parseHostPort_written hhost, ?_⟩
        rw [hplain, splitOnce_of_not_mem hcolon]
        simpa using (splitOnce_some (okOr_eq_ok.mp hsplit)).2
      · rw [if_neg hcolon] at hp
        cases hp
  · rename_i hat
    obtain ⟨bytes, -, hp⟩ := bind_eq_ok.mp hp
    obtain ⟨decoded, -, hp⟩ := bind_eq_ok.mp hp
    obtain ⟨⟨userinfo, hostPort⟩, -, hp⟩ := bind_eq_ok.mp hp
    obtain ⟨⟨method, password⟩, hsplit, hp⟩ := bind_eq_ok.mp hp
    obtain ⟨⟨host, port'⟩, hhost, hp⟩ := bind_eq_ok.mp hp
    cases hp
    refine ⟨parseHostPort_written hhost, ?_⟩
    rw [plainMethod, hat]
    simpa using (splitOnce_some (okOr_eq_ok.mp hsplit)).2

theorem parseShadowsocks_eq_ok {u : Str} {n : Node} (h : parseShadowsocks u = .ok n) :
    ∃ name endpoint cfg password,
      endpoint.host.Written ∧ PluginRead cfg.plugin cfg.pluginOpts ∧
      (':' ∉ cfg.method ↔ ∀ method, ssPlainMethod u = some method → ':' ∉ decodeUserinfo method) ∧
      n = ssNode name endpoint cfg password := by
  rw [parseShadowsocks_eq] at h
  obtain ⟨rest, hrest, h⟩ := bind_eq_ok.mp h
  obtain ⟨⟨m, p, host, port⟩, hauth, h⟩ := bind_eq_ok.mp h
  obtain ⟨hhost, hmethod⟩ := parseShadowsocksAuthority_eq_ok hauth
  refine ⟨_, ⟨host, port⟩, _, p, hhost, parsePlugin_read _, ?_, (Except.ok.inj h).symm⟩
  rw [ssPlainMethod, okOr_eq_ok.mp hrest]
  exact hmethod

/-- **A Shadowsocks node comes back exactly when its method holds no colon.** -/
theorem ssNode_roundTrips_iff (json : JsonCodec) (name : Str) {endpoint : Endpoint}
    (hhost : endpoint.host.Written) {cfg : ShadowsocksConfig}
    (hplugin : PluginRead cfg.plugin cfg.pluginOpts) (password : Str) :
    RoundTrips json (ssNode name endpoint cfg password) ↔ ':' ∉ cfg.method := by
  by_cases hmethod : ':' ∈ cfg.method
  · -- the first colon is in the method, so the method that is read is shorter
    have hcolon : ':' ∈ cfg.method ++ ':' :: password := by simp
    cases hs : splitOnce ':' (cfg.method ++ ':' :: password) with
    | none => exact absurd hcolon (splitOnce_none hs)
    | some mp =>
        obtain ⟨m, p⟩ := mp
        obtain ⟨v, hv, hparse⟩ := parse_emit_ss json name hhost hplugin hs
        rw [roundTrips_iff hv hparse]
        refine ⟨fun heq => ?_, fun h => absurd hmethod h⟩
        have hconfig := ProtocolConfig.shadowsocks.inj (congrArg Node.config heq)
        have hm : m = cfg.method := congrArg ShadowsocksConfig.method hconfig
        exact absurd (hm ▸ hmethod) (splitOnce_some hs).2
  · obtain ⟨v, hv, hparse⟩ :=
      parse_emit_ss json name hhost hplugin (splitOnce_append password hmethod)
    rw [roundTrips_iff hv hparse]
    exact ⟨fun _ => hmethod, fun _ => rfl⟩

/-! ## 6. The legacy form -/

/-- `ss://` and the Base64 of `method:password@host:port`. -/
def legacyText (method password : Str) (host : Host) (port : UInt16) : Str :=
  "ss://".toList ++ Base64.encode .standard (utf8Bytes (method ++ ':' :: password ++
    '@' :: (host.uriHost ++ ':' :: natText port.toNat)))

theorem parseUri_legacyText (json : JsonCodec) (method password : Str) (host : Host)
    (port : UInt16) :
    parseUri (.rfc3986 json) (legacyText method password host port) = (do
      let (userinfo, hostPort) ←
        okOr (splitOnce '@' (method ++ ':' :: password ++
            '@' :: (host.uriHost ++ ':' :: natText port.toNat)))
          (.missingField "method:password@host:port in legacy base64")
      let (method, password) ← okOr (splitOnce ':' userinfo) (.missingField "method:password")
      let (host, port) ← parseHostPort hostPort
      .ok (ssNode [] ⟨host, port⟩ { method, plugin := none, pluginOpts := none } password)) := by
  obtain ⟨t, ht⟩ : ∃ t, t = method ++ ':' :: password ++
      '@' :: (host.uriHost ++ ':' :: natText port.toNat) := ⟨_, rfl⟩
  have hclean : ∀ c, Base64.value .standard c = none → c ≠ '=' →
      c ∉ Base64.encode .standard (utf8Bytes t) :=
    fun c hc hpad => Base64.not_mem_encode hc hpad _
  obtain ⟨b, hb⟩ : ∃ b, b = Base64.encode .standard (utf8Bytes t) := ⟨_, rfl⟩
  rw [← hb] at hclean
  have hhash : '#' ∉ "ss://".toList ++ b := by simp [hclean '#' (by decide) (by decide)]
  have hcut1 : UriText.cut '#' ("ss://".toList ++ b) = ("ss://".toList ++ b, none) := by
    simpa [UriText.suffix] using UriText.cut_suffix hhash none
  have hcut2 : UriText.cut '?' b = (b, none) := by
    simpa [UriText.suffix] using UriText.cut_suffix (hclean '?' (by decide) (by decide)) none
  have hat : splitOnce '@' b = none := splitOnce_of_not_mem (hclean '@' (by decide) (by decide))
  have hstart : startsWith "ss://" ("ss://".toList ++ b) = true := by
    rw [startsWith, stripPrefix_append]
    rfl
  have hdecode : decodeBase64Flexible b = .ok (utf8Bytes t) := hb ▸ decodeBase64Flexible_encode _
  have htext : fromUtf8 (utf8Bytes t) = .ok t := by
    rw [fromUtf8, utf8Strict_utf8Bytes, okOr_some]
  rw [legacyText, ← ht, ← hb, parseUri, hstart, if_pos rfl, parseShadowsocks_eq, hcut1,
    stripPrefix_append, okOr_some, ok_bind, hcut2, parseShadowsocksAuthority, hat]
  simp only [hdecode, ok_bind, htext]
  cases splitOnce '@' t with
  | none => rfl
  | some ab =>
      obtain ⟨userinfo, hp⟩ := ab
      simp only [okOr_some, ok_bind]
      cases splitOnce ':' userinfo with
      | none => rfl
      | some mp =>
          simp only [okOr_some, ok_bind]
          cases parseHostPort hp <;> rfl

/-- **The legacy form is read back exactly when neither method nor password holds an `@`** and the
    host is one a parser may produce. -/
theorem legacy_recovered_iff (json : JsonCodec) {method : Str} (hmethod : ':' ∉ method)
    (password : Str) (host : Host) (port : UInt16) :
    parseUri (.rfc3986 json) (legacyText method password host port) =
        .ok (ssNode [] ⟨host, port⟩ { method, plugin := none, pluginOpts := none } password) ↔
      '@' ∉ method ∧ '@' ∉ password ∧ host.Written := by
  rw [parseUri_legacyText]
  constructor
  · intro h
    obtain ⟨⟨userinfo, hp⟩, hat, h⟩ := bind_eq_ok.mp h
    obtain ⟨⟨m, p⟩, hcolon, h⟩ := bind_eq_ok.mp h
    obtain ⟨⟨host', port'⟩, hhost, h⟩ := bind_eq_ok.mp h
    have hnode := Except.ok.inj h
    have hm : m = method := congrArg ShadowsocksConfig.method
      (ProtocolConfig.shadowsocks.inj (congrArg Node.config hnode))
    have hpw : p = password := Authentication.password.inj (congrArg Node.authentication hnode)
    have hend : host' = host := congrArg (fun n : Node => n.endpoint.host) hnode
    have huser := (splitOnce_some (okOr_eq_ok.mp hat)).2
    rw [(splitOnce_some (okOr_eq_ok.mp hcolon)).1, hm, hpw] at huser
    rw [hend] at hhost
    refine ⟨fun hmem => huser ?_, fun hmem => huser ?_, parseHostPort_written hhost⟩
    · exact List.mem_append_left _ hmem
    · exact List.mem_append_right _ (List.mem_cons_of_mem _ hmem)
  · rintro ⟨hm, hp, hhost⟩
    have hat : '@' ∉ method ++ ':' :: password := by simp [hm, hp]
    simp only [splitOnce_append _ hat, splitOnce_append _ hmethod, okOr_some, ok_bind,
      parseHostPort_text hhost]

end Uri

open Uri

/-- **Round trip and legacy form of Shadowsocks**: a parsed node comes back exactly when the method
    of a plain user information holds no colon once it is percent-decoded, and method, password,
    host and port are recovered from the legacy form exactly when neither method nor password holds
    an `@` (and the host is one a parser may produce at all). -/
theorem shadowsocks_round_trips_iff (json : JsonCodec) :
    (∀ {u : Str} {n : Node}, startsWith "ss://" u = true → parseUri (.rfc3986 json) u = .ok n →
      (RoundTrips json n ↔
        ∀ method, ssPlainMethod u = some method → ':' ∉ decodeUserinfo method)) ∧
    ∀ {method : Str}, ':' ∉ method → ∀ (password : Str) (host : Host) (port : UInt16),
      (parseUri (.rfc3986 json) (legacyText method password host port) =
          .ok (ssNode [] ⟨host, port⟩ { method, plugin := none, pluginOpts := none } password) ↔
        '@' ∉ method ∧ '@' ∉ password ∧ host.Written) := by
  refine ⟨?_, fun hmethod password host port => legacy_recovered_iff json hmethod password host port⟩
  intro u n hu hn
  rw [parseUri, hu, if_pos rfl] at hn
  obtain ⟨name, endpoint, cfg, password, hhost, hplugin, hmethod, rfl⟩ := parseShadowsocks_eq_ok hn
  rw [ssNode_roundTrips_iff json name hhost hplugin password, hmethod]

/-- A colon in the method, and an `@` in the password of the legacy form. -/
theorem shadowsocks_colon_and_at_are_lost :
    (∃ n, ∀ json : JsonCodec,
      parseUri (.rfc3986 json) "ss://a%3Ab:p@h:1" = .ok n ∧ ¬ RoundTrips json n) ∧
    ∀ json : JsonCodec,
      parseUri (.rfc3986 json) (legacyText "m" "a@b" (.domain "h") 1) ≠
        .ok (ssNode [] ⟨.domain "h", 1⟩ { method := "m", plugin := none, pluginOpts := none }
          "a@b") := by
  have hhost : (Endpoint.mk (.domain "h") 1).host.Written := by decide
  refine ⟨⟨ssNode [] ⟨.domain "h", 1⟩ ⟨"a:b", none, none⟩ "p", fun json => ⟨rfl, ?_⟩⟩, fun json => ?_⟩
  · have hplugin : PluginRead none none := ⟨fun _ h => (by cases h), fun _ => rfl⟩
    rw [ssNode_roundTrips_iff json [] hhost hplugin "p"]
    decide
  · rw [ne_eq, legacy_recovered_iff json (by decide)]
    decide

theorem shadowsocks_round_trips_plain :
    ∃ n, ∀ json : JsonCodec,
      parseUri (.rfc3986 json) "ss://m:p@h:1" = .ok n ∧ RoundTrips json n ∧
        parseUri (.rfc3986 json) (legacyText "m" "a:b" (.domain "h") 1) =
          .ok (ssNode [] ⟨.domain "h", 1⟩ { method := "m", plugin := none, pluginOpts := none }
            "a:b") := by
  refine ⟨ssNode [] ⟨.domain "h", 1⟩ ⟨"m", none, none⟩ "p", fun json => ⟨rfl, ?_, ?_⟩⟩
  · refine ((shadowsocks_round_trips_iff json).1 (u := "ss://m:p@h:1") rfl rfl).mpr ?_
    rintro method ⟨⟩
    decide
  · exact ((shadowsocks_round_trips_iff json).2 (by decide) "a:b" (.domain "h") 1).mpr (by decide)

end DeveSub
