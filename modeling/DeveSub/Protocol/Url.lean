/-
  File:      DeveSub/Protocol/Url.lean
  Subject:   The URL parser the share-URI parsers stand on, taken as an RFC 3986 splitter.

  The record of a URL holds the components as they stand in the text, apart from the scheme,
  which is in lower case, and the query, which is decoded into its pairs. Of the user information
  the part after the first `:` is the password; an empty one counts as none.
-/
import DeveSub.Lib.UriText
import DeveSub.Protocol.Uri

namespace DeveSub

/-- The record of the components of a URI. -/
def Url.ofParts (p : UriParts) : Url :=
  let userinfo := UriText.cut ':' ((p.authority.bind UriAuthority.userinfo).getD [])
  { scheme := toAsciiLowercase p.scheme
    username := userinfo.1
    password := userinfo.2.filter fun s => !s.isEmpty
    hostStr := p.authority.map UriAuthority.host
    port := (p.authority.bind UriAuthority.port).map UInt16.ofNat
    queryPairs := parseForm (p.query.getD [])
    fragment := p.fragment }

/-- `url::Url::parse`. -/
def Url.parse (s : Str) : Except Str Url :=
  okOr ((UriText.split s).map Url.ofParts) "relative URL without a base"

/-- The parsers on this URL parser. -/
def UriCrates.rfc3986 (json : JsonCodec) : UriCrates := ⟨Url.parse, json⟩

/-- **A URI that is put together parses to its components.** -/
theorem Url.parse_text {scheme user host : Str} {port : UInt16} {query fragment : Option Str}
    (hscheme : UriText.isScheme scheme = true) (hlower : toAsciiLowercase scheme = scheme)
    (huser : ∀ c ∈ user, c ∉ ['/', '?', '#']) (hhost : UriText.HostText host)
    (hquery : ∀ q, query = some q → '#' ∉ q) :
    Url.parse (UriText.text scheme user host port.toNat query fragment) =
      .ok { scheme
            username := (UriText.cut ':' user).1
            password := (UriText.cut ':' user).2.filter fun s => !s.isEmpty
            hostStr := some host
            port := some port
            queryPairs := parseForm (query.getD [])
            fragment } := by
  rw [Url.parse, UriText.split_text hscheme huser hhost port.toNat_lt hquery]
  simp [Url.ofParts, hlower]

theorem Url.parse_eq_ok {s : Str} {url : Url} (h : Url.parse s = .ok url) :
    ∃ parts, UriText.split s = some parts ∧ url = Url.ofParts parts := by
  obtain ⟨parts, hsplit, rfl⟩ := Option.map_eq_some_iff.mp (okOr_eq_ok.mp h)
  exact ⟨parts, hsplit, rfl⟩

/-- The scheme is what stands before the first colon, in lower case. -/
theorem Url.scheme_of_parse {p r : Str} (hp : ∀ c ∈ p, c ∉ [':', '?', '#']) {url : Url}
    (h : Url.parse (p ++ ':' :: r) = .ok url) : url.scheme = toAsciiLowercase p := by
  obtain ⟨parts, hsplit, rfl⟩ := Url.parse_eq_ok h
  exact congrArg toAsciiLowercase (UriText.split_scheme hp hsplit)

/-- A host in brackets is not empty. -/
theorem Url.hostStr_ne {s host : Str} {url : Url} (h : Url.parse s = .ok url)
    (hhost : url.hostStr = some host) : host ≠ "[]".toList := by
  obtain ⟨parts, hsplit, rfl⟩ := Url.parse_eq_ok h
  obtain ⟨a, ha, rfl⟩ := Option.map_eq_some_iff.mp hhost
  exact UriText.split_host_ne hsplit ha

/-- A password is not empty. -/
theorem Url.password_ne_nil {s p : Str} {url : Url} (h : Url.parse s = .ok url)
    (hp : url.password = some p) : p ≠ [] := by
  obtain ⟨parts, -, rfl⟩ := Url.parse_eq_ok h
  have hfilter := (Option.filter_eq_some_iff.mp hp).2
  simpa using hfilter

end DeveSub
