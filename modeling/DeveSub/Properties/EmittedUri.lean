/-
  File:      DeveSub/Properties/EmittedUri.lean
  Subject:   What an emitted share URI is read as: its host, its query, the URL record.

  * `Host.Written` -- the hosts the parsers produce; each is read back from its own text
    (`parseHost_uriHost`);
  * **`parseForm_formatQuery`** -- a formatted query parses to its parameters;
  * `emittedUrl` -- the record of an emitted URI; **`ParserOf.parseUri_uriText`** says that
    `parseUri` gives this record to the parser of the scheme;
  * `RoundTrips` -- what it means that a node survives emitting and parsing.
-/
import DeveSub.Protocol.Url
import DeveSub.Emitter.Uri

namespace DeveSub

/-! ## 1. Hosts -/

/-- A host as a parser produces it: a domain name is not empty, holds no forbidden character and
    is not the text of an address. -/
def Host.Written : Host → Prop
  | .domain d =>
      d ≠ [] ∧ d.any isForbiddenInDomain = false ∧ Ipv4Addr.parse d = none ∧ Ipv6Addr.parse d = none
  | _ => True

instance : (h : Host) → Decidable h.Written
  | .ipv4 _ => inferInstanceAs (Decidable True)
  | .ipv6 _ => inferInstanceAs (Decidable True)
  | .domain _ => inferInstanceAs (Decidable (_ ∧ _ ∧ _ ∧ _))

theorem stripBrackets_of_head {s : Str} (h : ∀ r, s ≠ '[' :: r) : stripBrackets s = s := by
  have hstrip : stripPrefix "[" s = none := by
    cases s with
    | nil => rfl
    | cons c r =>
        have hc : '[' ≠ c := fun e => h r (by rw [e])
        simp [stripPrefix, hc]
  rw [stripBrackets, hstrip]
  rfl

@[simp] theorem stripBrackets_bracketed (s : Str) : stripBrackets ('[' :: (s ++ [']'])) = s := by
  have hopen : stripPrefix "[" ('[' :: (s ++ [']'])) = some (s ++ [']']) :=
    stripPrefix_append "[".toList (s ++ [']'])
  have hclose : stripSuffix "]" (s ++ [']']) = some s := stripSuffix_append s "]".toList
  rw [stripBrackets, hopen, Option.bind_some, hclose]
  rfl

theorem stripBrackets_eq_nil {s : Str} (h : stripBrackets s = []) : s = [] ∨ s = "[]".toList := by
  rw [stripBrackets] at h
  cases hstrip : (stripPrefix "[" s).bind (stripSuffix "]") with
  | none =>
      rw [hstrip] at h
      exact .inl h
  | some r =>
      obtain ⟨t, ht, hr⟩ := Option.bind_eq_some_iff.mp hstrip
      rw [hstrip] at h
      obtain rfl : r = [] := h
      right
      rw [stripPrefix_some ht, stripSuffix_some hr]
      rfl

/-- **Every parsed host is one a parser may produce**; only `[]` gives the empty name. -/
theorem parseHost_written {s : Str} {h : Host} (hs : s ≠ "[]".toList) (hp : parseHost s = .ok h) :
    h.Written := by
  unfold parseHost at hp
  split at hp
  · cases hp
  · rename_i hne
    dsimp only at hp
    split at hp
    · cases hp
      trivial
    · rename_i h4
      split at hp
      · cases hp
        trivial
      · rename_i h6
        split at hp
        · cases hp
        · rename_i hany
          cases hp
          refine ⟨fun hnil => ?_, by simpa using hany, h4, h6⟩
          exact (stripBrackets_eq_nil hnil).elim hne hs

theorem isForbiddenInDomain_bracket : isForbiddenInDomain '[' = true := by decide

theorem Ipv4Addr.text_ne_bracket (a : Ipv4Addr) (r : Str) : a.text ≠ '[' :: r := by
  intro he
  have hmem : '[' ∈ a.text := he ▸ List.mem_cons_self
  rcases Ipv4Addr.mem_text hmem with h | h
  · exact absurd h (by decide)
  · exact absurd h (by decide)

theorem Host.Written.ne_bracket {d : Str} (h : (Host.domain d).Written) (r : Str) :
    d ≠ '[' :: r := by
  intro he
  have hfree := h.2.1
  rw [he, List.any_cons, isForbiddenInDomain_bracket] at hfree
  cases hfree

theorem Ipv4Addr.text_ne_nil (a : Ipv4Addr) : a.text ≠ [] := by
  intro h
  have hparse := Ipv4Addr.parse_text a
  rw [h] at hparse
  cases hparse

theorem Ipv6Addr.text_ne_nil (a : Ipv6Addr) : a.text ≠ [] :=
  List.ne_nil_of_mem (Ipv6Addr.colon_mem_text a)

/-- What `parseHost` answers for a text whose brackets are gone. -/
theorem parseHost_of_strip {s t : Str} (hne : s ≠ []) (ht : stripBrackets s = t) {h : Host}
    (hh : h.Written) (htext : t = Uri.hostToString h) : parseHost s = .ok h := by
  subst htext
  cases h with
  | ipv4 a => simp [parseHost, hne, ht, Uri.hostToString, Ipv4Addr.parse_text]
  | ipv6 a =>
      simp [parseHost, hne, ht, Uri.hostToString, Ipv6Addr.ipv4_parse_text, Ipv6Addr.parse_text]
  | domain d =>
      obtain ⟨-, hfree, h4, h6⟩ := hh
      simp [parseHost, hne, ht, Uri.hostToString, h4, h6, hfree]

/-- **A host is read back from the text of a URI.** -/
theorem parseHost_uriHost {h : Host} (hh : h.Written) : parseHost h.uriHost = .ok h := by
  cases h with
  | ipv4 a => exact parseHost_of_strip (Ipv4Addr.text_ne_nil a) (stripBrackets_of_head a.text_ne_bracket) hh rfl
  | ipv6 a => exact parseHost_of_strip (List.cons_ne_nil _ _) (stripBrackets_bracketed _) hh rfl
  | domain d => exact parseHost_of_strip hh.1 (stripBrackets_of_head hh.ne_bracket) hh rfl

/-- A host is read back from its bare text, where an IPv6 address has no brackets. -/
theorem parseHost_hostToString {h : Host} (hh : h.Written) :
    parseHost (Uri.hostToString h) = .ok h := by
  cases h with
  | ipv4 a => exact parseHost_of_strip (Ipv4Addr.text_ne_nil a) (stripBrackets_of_head a.text_ne_bracket) hh rfl
  | ipv6 a =>
      refine parseHost_of_strip (Ipv6Addr.text_ne_nil a) (stripBrackets_of_head fun r he => ?_) hh rfl
      have hmem : '[' ∈ a.text := he ▸ List.mem_cons_self
      exact UriText.not_mem_ipv6 a (by decide) (by decide) (by decide) hmem
  | domain d => exact parseHost_of_strip hh.1 (stripBrackets_of_head hh.ne_bracket) hh rfl

/-- The text of a host fits into the authority of a URI. -/
theorem Host.Written.hostText {h : Host} (hh : h.Written) : UriText.HostText h.uriHost := by
  cases h with
  | ipv4 a =>
      refine .name fun c hc hmem => ?_
      have hclean : ∀ d ∈ [':', '@', '/', '?', '#', '[', ']'], d.isDigit = false ∧ d ≠ '.' :=
        forall_mem_of_all (by decide)
      rcases Ipv4Addr.mem_text hc with hd | hd
      · rw [(hclean c hmem).1] at hd
        cases hd
      · exact (hclean c hmem).2 hd
  | ipv6 a => exact .ipv6 a
  | domain d =>
      refine .name fun c hc hmem => ?_
      have hbad : ∀ d ∈ [':', '@', '/', '?', '#', '[', ']'], isForbiddenInDomain d = true :=
        forall_mem_of_all (by decide)
      have hfree := hh.2.1
      rw [List.any_eq_false] at hfree
      exact hfree c hc (hbad c hmem)

/-! ## 2. Queries -/

/-- A character of a parameter name. -/
def isKeyChar (c : Char) : Bool := c.isAlphanum || c = '-' || c = '_'

/-- The names of the parameters are plain. -/
def PlainKeys (params : List (Str × Str)) : Prop := ∀ p ∈ params, p.1.all isKeyChar = true

theorem isKeyChar_lt {c : Char} (h : isKeyChar c = true) : c.toNat < 128 := by
  have h : (decide (c.val ≥ 65 ∧ c.val ≤ 90) || (c.val ≥ 97 && c.val ≤ 122) ||
      (c.val ≥ 48 && c.val ≤ 57) || c = '-' || c = '_') = true := h
  simp only [Bool.or_eq_true, Bool.and_eq_true, decide_eq_true_eq, UInt32.le_iff_toNat_le] at h
  have hval : c.toNat = c.val.toNat := rfl
  rcases h with (((⟨-, h⟩ | ⟨-, h⟩) | ⟨-, h⟩) | rfl) | rfl
  · exact hval ▸ Nat.lt_of_le_of_lt h (by decide)
  · exact hval ▸ Nat.lt_of_le_of_lt h (by decide)
  · exact hval ▸ Nat.lt_of_le_of_lt h (by decide)
  · decide
  · decide

/-- A plain character is not encoded, and it is none of the delimiters of a query. -/
theorem isKeyChar_plain {c : Char} (h : isKeyChar c = true) :
    queryValueEncode c = false ∧ c ∉ ['&', '=', '#'] := by
  exact forall_ascii
    (P := fun c => isKeyChar c = true → queryValueEncode c = false ∧ c ∉ ['&', '=', '#'])
    (by decide +kernel) (isKeyChar_lt h) h

theorem not_mem_key {k : Str} (h : k.all isKeyChar = true) {c : Char} (hc : c ∈ ['&', '=', '#']) :
    c ∉ k := by
  intro hmem
  exact (isKeyChar_plain (List.all_eq_true.mp h c hmem)).2 hc

theorem formDecode_key {k : Str} (h : k.all isKeyChar = true) : formDecode k = k := by
  have hself : percentEncode queryValueEncode k = k :=
    percentEncode_eq_self fun c hc =>
      have hkey := List.all_eq_true.mp h c hc
      ⟨isKeyChar_lt hkey, (isKeyChar_plain hkey).1⟩
  calc formDecode k = formDecode (percentEncode queryValueEncode k) := by rw [hself]
    _ = k := formDecode_percentEncode (by decide) (by decide) k

/-- A value holds none of the delimiters of a query. -/
theorem not_mem_value (v : Str) {c : Char} (hc : c ∈ ['&', '=', '#']) :
    c ∉ percentEncode queryValueEncode v := by
  have hclean : ∀ d ∈ ['&', '=', '#'], queryValueEncode d = true ∧ d ≠ '%' ∧
      d.isAlphanum = false := forall_mem_of_all (by decide)
  obtain ⟨hset, hpc, halnum⟩ := hclean c hc
  exact not_mem_percentEncode v hset hpc fun n hn => upperHex_ne hn halnum

/-- **A formatted query parses to its parameters.** -/
theorem parseForm_formatQuery {params : List (Str × Str)} (h : PlainKeys params) :
    parseForm (formatQuery params) = params := by
  cases hp : params with
  | nil => rfl
  | cons p ps =>
      have hparts : ∀ part ∈ params.map fun p => p.1 ++ '=' :: percentEncode queryValueEncode p.2,
          '&' ∉ part := by
        intro part hpart
        obtain ⟨q, hq, rfl⟩ := List.mem_map.mp hpart
        simp [not_mem_key (h q hq), not_mem_value]
      have hne : (params.map fun p => p.1 ++ '=' :: percentEncode queryValueEncode p.2) ≠ [] := by
        simp [hp]
      rw [← hp, parseForm, formatQuery, split_join hne hparts, List.filter_eq_self.mpr, List.map_map]
      · conv_rhs => rw [← List.map_id params]
        refine List.map_congr_left fun q hq => ?_
        have hsplit := splitOnce_append (percentEncode queryValueEncode q.2)
          (not_mem_key (h q hq) (c := '=') (by decide))
        simp only [Function.comp_apply, hsplit, formDecode_key (h q hq), id]
        rw [formDecode_percentEncode (by decide) (by decide)]
      · intro part hpart
        obtain ⟨q, -, rfl⟩ := List.mem_map.mp hpart
        simp

theorem not_mem_formatQuery {params : List (Str × Str)} (h : PlainKeys params) :
    '#' ∉ formatQuery params := by
  intro hmem
  rcases mem_join hmem with he | ⟨part, hpart, hc⟩
  · exact absurd he (by decide)
  · obtain ⟨p, hp, rfl⟩ := List.mem_map.mp hpart
    have hclean : '#' ∉ p.1 ++ '=' :: percentEncode queryValueEncode p.2 := by
      simp [not_mem_key (h p hp), not_mem_value]
    exact hclean hc

/-! ## 3. The record of an emitted URI -/

/-- The fragment of a display name. -/
def nameFragment (name : Str) : Option Str :=
  if name = [] then none else some (formatFragment name)

theorem suffix_nameFragment (name : Str) :
    UriText.suffix '#' (nameFragment name) = fragmentSuffix name := by
  unfold nameFragment fragmentSuffix
  split <;> rfl

/-- **A display name is read back.** -/
theorem decodeFragment_nameFragment (name : Str) : decodeFragment (nameFragment name) = name := by
  unfold nameFragment
  split
  · rename_i h
    exact h.symm
  · exact percentDecode_percentEncode (by decide) name

/-- The record an emitted URI is read as. -/
def emittedUrl (scheme user : Str) (node : Node) (params : List (Str × Str)) : Url :=
  { scheme
    username := (UriText.cut ':' user).1
    password := (UriText.cut ':' user).2.filter fun s => !s.isEmpty
    hostStr := some node.endpoint.host.uriHost
    port := some node.endpoint.port
    queryPairs := params
    fragment := nameFragment node.displayName }

/-- A scheme in lower case that `parseUri` gives to the URL parser. -/
def IsUrlScheme (s : Str) : Prop :=
  UriText.isScheme s = true ∧ toAsciiLowercase s = s ∧ s ≠ "ss" ∧ s ≠ "vmess"

instance (s : Str) : Decidable (IsUrlScheme s) := inferInstanceAs (Decidable (_ ∧ _ ∧ _ ∧ _))

/-- A text that starts with a scheme has it. -/
theorem scheme_of_startsWith {p s : Str} (hp : ∀ c ∈ p, c ∉ [':', '?', '#']) {url : Url}
    (h : Url.parse s = .ok url) (hs : startsWith (p ++ "://".toList) s = true) :
    url.scheme = toAsciiLowercase p := by
  obtain ⟨r, hr⟩ := Option.isSome_iff_exists.mp hs
  have htext : s = p ++ ':' :: ("//".toList ++ r) := by
    rw [stripPrefix_some hr, List.append_assoc]
    rfl
  rw [htext] at h
  exact Url.scheme_of_parse hp h

/-- **A URL whose scheme is neither `ss` nor `vmess` is parsed by its scheme.** -/
theorem parseUri_of_parse {json : JsonCodec} {u : Str} {url : Url} (hurl : Url.parse u = .ok url)
    (hss : url.scheme ≠ "ss") (hvmess : url.scheme ≠ "vmess") :
    parseUri (.rfc3986 json) u = parseUrl url u := by
  have h1 : startsWith "ss://" u = false := by
    rw [Bool.eq_false_iff]
    exact fun h => hss (scheme_of_startsWith (p := "ss".toList) (forall_mem_of_all (by decide)) hurl h)
  have h2 : startsWith "vmess://" u = false := by
    rw [Bool.eq_false_iff]
    exact fun h =>
      hvmess (scheme_of_startsWith (p := "vmess".toList) (forall_mem_of_all (by decide)) hurl h)
  have h3 : ((UriCrates.rfc3986 json).url u).mapError ParseError.invalidUri = .ok url :=
    mapError_eq_ok.mpr hurl
  rw [parseUri, h1, h2, h3]
  rfl

/-- A text without the delimiters that end the user information. -/
def UserText (user : Str) : Prop := ∀ c ∈ user, c ∉ ['/', '?', '#']

theorem parseUri_text {json : JsonCodec} {scheme user : Str} {node : Node} {query : Option Str}
    (hscheme : IsUrlScheme scheme) (huser : UserText user) (hhost : node.endpoint.host.Written)
    (hquery : ∀ q, query = some q → '#' ∉ q) :
    let v := UriText.text scheme user node.endpoint.host.uriHost node.endpoint.port.toNat query
      (nameFragment node.displayName)
    parseUri (.rfc3986 json) v =
      parseUrl (emittedUrl scheme user node (parseForm (query.getD []))) v := by
  obtain ⟨hvalid, hlower, hss, hvmess⟩ := hscheme
  exact parseUri_of_parse (Url.parse_text hvalid hlower huser hhost.hostText hquery) hss hvmess

theorem uriText_eq (scheme user : Str) (node : Node) (query : Str) :
    Uri.uriText scheme user node query =
      UriText.text scheme user node.endpoint.host.uriHost node.endpoint.port.toNat (some query)
        (nameFragment node.displayName) := by
  rw [UriText.text, suffix_nameFragment]
  simp [Uri.uriText, Uri.hostPort, UriText.suffix]

theorem uriTextOpt_eq (scheme user : Str) (node : Node) (query : Str) :
    Uri.uriTextOpt scheme user node query =
      UriText.text scheme user node.endpoint.host.uriHost node.endpoint.port.toNat
        (if query = [] then none else some query) (nameFragment node.displayName) := by
  unfold Uri.uriTextOpt
  split
  · rw [UriText.text, suffix_nameFragment]
    simp [Uri.hostPort, UriText.suffix]
  · exact uriText_eq scheme user node query

/-! ## 4. Credentials -/

theorem userText_encodeUserinfo (s : Str) : UserText (encodeUserinfo s) := by
  have hclean : ∀ d ∈ ['/', '?', '#'], userinfoEncode d = true ∧ d ≠ '%' ∧ d.isAlphanum = false :=
    forall_mem_of_all (by decide)
  intro c hc hmem
  obtain ⟨hset, hpc, halnum⟩ := hclean c hmem
  exact not_mem_percentEncode s hset hpc (fun n hn => upperHex_ne hn halnum) hc

theorem colon_not_mem_encodeUserinfo (s : Str) : ':' ∉ encodeUserinfo s :=
  not_mem_percentEncode s (by decide) (by decide) fun n hn => upperHex_ne hn (by decide)

theorem userText_pair (s t : Str) : UserText (encodeUserinfo s ++ ':' :: encodeUserinfo t) := by
  intro c hc
  rcases List.mem_append.mp hc with hc | hc
  · exact userText_encodeUserinfo s c hc
  · rcases List.mem_cons.mp hc with rfl | hc
    · decide
    · exact userText_encodeUserinfo t c hc

/-- **Credentials are read back.** -/
@[simp] theorem decodeUserinfo_encodeUserinfo (s : Str) : decodeUserinfo (encodeUserinfo s) = s :=
  percentDecode_percentEncode (by decide) s

@[simp] theorem emittedUrl_username (scheme s : Str) (node : Node) (params : List (Str × Str)) :
    (emittedUrl scheme (encodeUserinfo s) node params).username = encodeUserinfo s := by
  simp [emittedUrl, UriText.cut, splitOnce_of_not_mem (colon_not_mem_encodeUserinfo s)]

@[simp] theorem emittedUrl_pair_username (scheme s t : Str) (node : Node)
    (params : List (Str × Str)) :
    (emittedUrl scheme (encodeUserinfo s ++ ':' :: encodeUserinfo t) node params).username =
      encodeUserinfo s := by
  simp [emittedUrl, UriText.cut, splitOnce_append _ (colon_not_mem_encodeUserinfo s)]

theorem emittedUrl_pair_password (scheme s : Str) {t : Str} (ht : t ≠ []) (node : Node)
    (params : List (Str × Str)) :
    (emittedUrl scheme (encodeUserinfo s ++ ':' :: encodeUserinfo t) node params).password =
      some (encodeUserinfo t) := by
  have hne : encodeUserinfo t ≠ [] := percentEncode_ne_nil (by decide) ht
  simp [emittedUrl, UriText.cut, splitOnce_append _ (colon_not_mem_encodeUserinfo s), hne]

@[simp] theorem emittedUrl_queryPairs (scheme user : Str) (node : Node)
    (params : List (Str × Str)) : (emittedUrl scheme user node params).queryPairs = params := rfl

@[simp] theorem decodeFragment_emittedUrl (scheme user : Str) (node : Node)
    (params : List (Str × Str)) :
    decodeFragment (emittedUrl scheme user node params).fragment = node.displayName :=
  decodeFragment_nameFragment node.displayName

/-- **The endpoint is read back.** -/
theorem urlEndpoint_emittedUrl (scheme user : Str) {node : Node} (params : List (Str × Str))
    (h : node.endpoint.host.Written) (name : Str) :
    urlEndpoint (emittedUrl scheme user node params) name = .ok node.endpoint := by
  simp [urlEndpoint, emittedUrl, parseHost_uriHost h]

/-- The endpoint of a parsed URL has a host a parser may produce. -/
theorem urlEndpoint_written {s : Str} {url : Url} (hurl : Url.parse s = .ok url) {name : Str}
    {e : Endpoint} (h : urlEndpoint url name = .ok e) : e.host.Written := by
  obtain ⟨hostStr, hhost, h⟩ := bind_eq_ok.mp h
  obtain ⟨host, hparse, h⟩ := bind_eq_ok.mp h
  obtain ⟨port, -, h⟩ := bind_eq_ok.mp h
  cases h
  exact parseHost_written (Url.hostStr_ne hurl (okOr_eq_ok.mp hhost)) hparse

/-! ## 5. Round trips -/

/-- **The node survives the round trip**: it is emitted, and the emitted URI parses to it. -/
def RoundTrips (json : JsonCodec) (n : Node) : Prop :=
  ∃ v, emitUri json n = .ok v ∧ parseUri (.rfc3986 json) v = .ok n

theorem roundTrips_iff {json : JsonCodec} {n n' : Node} {v : Str} (hv : emitUri json n = .ok v)
    (hn : parseUri (.rfc3986 json) v = .ok n') : RoundTrips json n ↔ n' = n := by
  constructor
  · rintro ⟨w, hw, hparse⟩
    rw [hv] at hw
    cases hw
    rw [hn] at hparse
    exact Except.ok.inj hparse
  · rintro rfl
    exact ⟨v, hv, hn⟩

/-- A scheme and the parser `parseUrl` gives its URLs to. -/
inductive ParserOf : Str → (Url → Str → Except ParseError Node) → Prop where
  | vless : ParserOf "vless" Uri.parseVless
  | trojan : ParserOf "trojan" fun url _ => Uri.parseTrojan url
  | hysteria2 : ParserOf "hysteria2" fun url _ => Uri.parseHysteria2 url
  | hy2 : ParserOf "hy2" fun url _ => Uri.parseHysteria2 url
  | tuic : ParserOf "tuic" fun url _ => Uri.parseTuic url
  | naiveHttps : ParserOf "naive+https" fun url _ => Uri.parseNaive url
  | naiveHttp : ParserOf "naive+http" fun url _ => Uri.parseNaive url
  | wireGuard : ParserOf "wireguard" fun url _ => Uri.parseWireGuard url
  | anyTls : ParserOf "anytls" fun url _ => Uri.parseAnyTls url
  | snell : ParserOf "snell" fun url _ => Uri.parseSnell url
  | shadowTls : ParserOf "shadow-tls" fun url _ => Uri.parseShadowTls url

namespace ParserOf

variable {scheme : Str} {parse : Url → Str → Except ParseError Node} (h : ParserOf scheme parse)

include h

theorem isUrlScheme : IsUrlScheme scheme := by
  cases h <;> decide +kernel

theorem parseUrl_eq {url : Url} (hs : url.scheme = scheme) (u : Str) :
    parseUrl url u = parse url u := by
  cases h <;> simp [parseUrl, hs]

/-- **A URI is parsed by the parser of its scheme.** -/
theorem parseUri_eq {json : JsonCodec} {u : Str} {url : Url} (hurl : Url.parse u = .ok url)
    (hs : url.scheme = scheme) : parseUri (.rfc3986 json) u = parse url u := by
  obtain ⟨-, -, hss, hvmess⟩ := h.isUrlScheme
  rw [parseUri_of_parse hurl (hs ▸ hss) (hs ▸ hvmess), h.parseUrl_eq hs]

/-- **An emitted URI is parsed by the parser of its scheme.** -/
theorem parseUri_uriText {json : JsonCodec} {user : Str} {node : Node} {params : List (Str × Str)}
    (huser : UserText user) (hhost : node.endpoint.host.Written) (hkeys : PlainKeys params) :
    parseUri (.rfc3986 json) (Uri.uriText scheme user node (formatQuery params)) =
      parse (emittedUrl scheme user node params)
        (Uri.uriText scheme user node (formatQuery params)) := by
  have hclean : ∀ q, some (formatQuery params) = some q → '#' ∉ q := by
    rintro _ ⟨⟩
    exact not_mem_formatQuery hkeys
  rw [uriText_eq, parseUri_text h.isUrlScheme huser hhost hclean, Option.getD_some,
    parseForm_formatQuery hkeys, h.parseUrl_eq rfl]

/-- The same for an emitter that leaves out the question mark of an empty query. -/
theorem parseUri_uriTextOpt {json : JsonCodec} {user : Str} {node : Node}
    {params : List (Str × Str)} (huser : UserText user) (hhost : node.endpoint.host.Written)
    (hkeys : PlainKeys params) :
    parseUri (.rfc3986 json) (Uri.uriTextOpt scheme user node (formatQuery params)) =
      parse (emittedUrl scheme user node params)
        (Uri.uriTextOpt scheme user node (formatQuery params)) := by
  obtain ⟨query, hq⟩ : ∃ q, q = if formatQuery params = [] then none else some (formatQuery params) :=
    ⟨_, rfl⟩
  have hclean : ∀ q, query = some q → '#' ∉ q := by
    intro q he
    rw [hq] at he
    split at he
    · cases he
    · cases he
      exact not_mem_formatQuery hkeys
  have hget : query.getD [] = formatQuery params := by
    rw [hq]
    split
    · rename_i hnil
      exact hnil.symm
    · rfl
  rw [uriTextOpt_eq, ← hq, parseUri_text h.isUrlScheme huser hhost hclean, hget,
    parseForm_formatQuery hkeys, h.parseUrl_eq rfl]

end ParserOf

end DeveSub
