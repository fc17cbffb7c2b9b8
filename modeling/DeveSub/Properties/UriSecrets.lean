/-
  File:      DeveSub/Properties/UriSecrets.lean
  Subject:   The secret of a share URI whose user information is one secret: Trojan, Hysteria2 and
             AnyTLS.

  The URL parser takes the user information apart at its first colon, as a name and a password.
  The parsers of these schemes read the name only. Nothing else is asked of the URL parser
  (`SplitsUserinfo`).

  * `secretOf` -- the user information, whole;
  * **`secret_kept_iff`** -- the password that is stored is the decoded secret exactly when the
    secret has no colon;
  * `secret_cut_at_colon` -- a URI whose secret loses its second half.
-/
import DeveSub.Properties.EmittedUri

namespace DeveSub

/-- The schemes whose user information is one secret. -/
def secretSchemes : List Str := ["trojan", "hysteria2", "hy2", "anytls"]

/-- The scheme of a URI with an authority, and what stands before the last `@` of the authority. -/
def secretOf (u : Str) : Option (Str × Str) := do
  let (scheme, rest) ← splitOnce ':' (UriText.cut '?' (UriText.cut '#' u).1).1
  let hier ← stripPrefix "//" rest
  pure (scheme, ((rsplitOnce '@' (hier.takeWhile (· ≠ '/'))).map Prod.fst).getD [])

/-- A text without the characters that `url::Url::parse` drops from its input. -/
def Clean (s : Str) : Prop := ∀ c ∈ s, c ∉ ['\t', '\n', '\r']

/-- **What is asked of `url::Url::parse`** on a URI of one of these schemes: the scheme is in lower
    case, and the name, which may be percent-coded anew, is what stands before the first colon of
    the user information. -/
structure SplitsUserinfo (parse : Str → Except Str Url) : Prop where
  scheme : ∀ {u scheme secret : Str} {url : Url}, secretOf u = some (scheme, secret) →
    toAsciiLowercase scheme ∈ secretSchemes → parse u = .ok url →
    url.scheme = toAsciiLowercase scheme
  username : ∀ {u scheme secret : Str} {url : Url}, secretOf u = some (scheme, secret) →
    toAsciiLowercase scheme ∈ secretSchemes → Clean secret → parse u = .ok url →
    percentDecode url.username = percentDecode (UriText.cut ':' secret).1

/-- The RFC 3986 splitter does so. -/
theorem splitsUserinfo_parse : SplitsUserinfo Url.parse := by
  have hparts : ∀ {u scheme secret : Str} {url : Url}, secretOf u = some (scheme, secret) →
      Url.parse u = .ok url →
      url.scheme = toAsciiLowercase scheme ∧ url.username = (UriText.cut ':' secret).1 := by
    intro u scheme secret url hu hurl
    obtain ⟨parts, hsplit, rfl⟩ := Url.parse_eq_ok hurl
    obtain ⟨⟨s, rest⟩, hs, hu⟩ := Option.bind_eq_some_iff.1 hu
    obtain ⟨hier, hhier, hu⟩ := Option.bind_eq_some_iff.1 hu
    cases hu
    simp only [UriText.split, hs, hhier, Option.bind_eq_bind, Option.bind_some,
      Option.ite_none_right_eq_some] at hsplit
    obtain ⟨-, hsplit⟩ := hsplit
    obtain ⟨a, ha, hsplit⟩ := Option.bind_eq_some_iff.1 hsplit
    cases hsplit
    refine ⟨rfl, ?_⟩
    unfold UriText.readAuthority at ha
    split at ha <;> rename_i hat
    · obtain ⟨hp, -, rfl⟩ := Option.map_eq_some_iff.1 ha
      rw [hat]
      rfl
    · obtain ⟨hp, -, rfl⟩ := Option.map_eq_some_iff.1 ha
      rw [hat]
      rfl
  exact ⟨fun hu _ hurl => (hparts hu hurl).1, fun hu _ _ hurl => by rw [(hparts hu hurl).2]⟩

/-- **The parsers of these schemes store the decoded name.** -/
theorem password_of_parseUrl {u : Str} {url : Url} {n : Node} (hscheme : url.scheme ∈ secretSchemes)
    (hn : parseUrl url u = .ok n) : n.authentication = .password (percentDecode url.username) := by
  -- whatever the steps before it answer, the last one stores the name
  have htrojan : Yields (fun n : Node => n.authentication = .password (percentDecode url.username))
      (Uri.parseTrojan url) :=
    .bind fun _ => .bind fun _ => .bind fun _ => .bind fun _ => .ok rfl
  have hhysteria : Yields (fun n : Node => n.authentication = .password (percentDecode url.username))
      (Uri.parseHysteria2 url) :=
    .bind fun _ => .bind fun _ => .bind fun _ => .bind fun _ => .bind fun _ => .bind fun _ =>
      .bind fun _ => .bind fun _ => .ok rfl
  have hanyTls : Yields (fun n : Node => n.authentication = .password (percentDecode url.username))
      (Uri.parseAnyTls url) :=
    .bind fun _ => .bind fun _ => .bind fun _ => .ok rfl
  simp only [secretSchemes, List.mem_cons, List.not_mem_nil, or_false] at hscheme
  rcases hscheme with hs | hs | hs | hs
  · exact htrojan n (ParserOf.trojan.parseUrl_eq hs u ▸ hn)
  · exact hhysteria n (ParserOf.hysteria2.parseUrl_eq hs u ▸ hn)
  · exact hhysteria n (ParserOf.hy2.parseUrl_eq hs u ▸ hn)
  · exact hanyTls n (ParserOf.anyTls.parseUrl_eq hs u ▸ hn)

/-- A URI of one of these schemes goes to the URL parser. -/
theorem startsWith_of_secretOf {u scheme secret p : Str} (hu : secretOf u = some (scheme, secret))
    (hscheme : toAsciiLowercase scheme ∈ secretSchemes) (hp : ∀ c ∈ p, c ∉ [':', '?', '#'])
    (hother : toAsciiLowercase p ∉ secretSchemes) : startsWith (p ++ "://".toList) u = false := by
  rw [Bool.eq_false_iff]
  intro hstart
  obtain ⟨r, hr⟩ := Option.isSome_iff_exists.1 hstart
  have htext : u = p ++ ':' :: ("//".toList ++ r) := by
    rw [stripPrefix_some hr]
    simp
  obtain ⟨⟨s, rest⟩, hs, hu⟩ := Option.bind_eq_some_iff.1 hu
  obtain ⟨hier, -, hu⟩ := Option.bind_eq_some_iff.1 hu
  cases hu
  obtain ⟨t, ht⟩ := UriText.splitOnce_hier hp (r := "//".toList ++ r)
  rw [← htext, hs] at ht
  cases ht
  exact hother hscheme

/-- The name is the whole secret, as far as decoding goes, if there is no colon. -/
theorem percentDecode_cut_iff (s : Str) :
    percentDecode (UriText.cut ':' s).1 = percentDecode s ↔ ':' ∉ s := by
  cases hcut : splitOnce ':' s with
  | none =>
    have hfirst : (UriText.cut ':' s).1 = s := by rw [UriText.cut, hcut]
    rw [hfirst]
    exact iff_of_true rfl (splitOnce_none hcut)
  | some pair =>
    obtain ⟨a, b⟩ := pair
    have hs := (splitOnce_some hcut).1
    have hfirst : (UriText.cut ':' s).1 = a := by rw [UriText.cut, hcut]
    rw [hfirst, hs]
    refine iff_of_false (fun heq => ?_) fun hno => hno (by simp)
    have hcount := congrArg (List.count ':') heq
    rw [count_percentDecode_append (by decide) (by decide) (by decide)] at hcount
    omega

/-- **The password that is stored is the decoded secret exactly when the secret has no colon**, for
    every URL parser that splits the user information so and every secret without the characters
    that it drops. -/
theorem secret_kept_iff {crates : UriCrates} (hcrate : SplitsUserinfo crates.url)
    {u scheme secret : Str} {n : Node} (hu : secretOf u = some (scheme, secret))
    (hscheme : toAsciiLowercase scheme ∈ secretSchemes) (hclean : Clean secret)
    (hn : parseUri crates u = .ok n) :
    n.authentication = .password (percentDecode secret) ↔ ':' ∉ secret := by
  have hss : startsWith "ss://" u = false :=
    startsWith_of_secretOf hu hscheme (p := "ss".toList) (forall_mem_of_all (by decide)) (by decide)
  have hvmess : startsWith "vmess://" u = false :=
    startsWith_of_secretOf hu hscheme (p := "vmess".toList) (forall_mem_of_all (by decide)) (by decide)
  rw [parseUri, hss, hvmess, if_neg (by decide), if_neg (by decide)] at hn
  obtain ⟨url, hurl, hn⟩ := bind_eq_ok.1 hn
  have hurl := mapError_eq_ok.1 hurl
  rw [password_of_parseUrl (hcrate.scheme hu hscheme hurl ▸ hscheme) hn,
    hcrate.username hu hscheme hclean hurl, ← percentDecode_cut_iff]
  exact ⟨fun h => Authentication.password.inj h, fun h => congrArg _ h⟩

/-- The record of `trojan://name@h:1`, or with a password after the name. -/
def trojanUrl (name : Str) (password : Option Str) : Url :=
  ⟨"trojan", name, password, some "h", some 1, [], none⟩

theorem parseUri_trojanUrl (crates : UriCrates) {r name : Str} {password : Option Str}
    (hurl : crates.url ("trojan://".toList ++ r) = .ok (trojanUrl name password)) :
    parseUri crates ("trojan://".toList ++ r) = Uri.parseTrojan (trojanUrl name password) := by
  rw [parseUri, hurl]
  rfl

theorem secret_kept_iff_percent : ∃ n, ∀ json : JsonCodec,
    parseUri (.rfc3986 json) "trojan://a%3Ab@h:1" = .ok n ∧
      n.authentication = .password "a:b" := by
  obtain ⟨n, hn⟩ : ∃ n, Uri.parseTrojan (trojanUrl "a%3Ab" none) = .ok n := ⟨_, rfl⟩
  refine ⟨n, fun json => ?_⟩
  have hparse : parseUri (.rfc3986 json) "trojan://a%3Ab@h:1" = .ok n :=
    (parseUri_trojanUrl (.rfc3986 json) (r := "a%3Ab@h:1".toList) rfl).trans hn
  have hsecret : secretOf "trojan://a%3Ab@h:1" = some ("trojan".toList, "a%3Ab".toList) := rfl
  have hkept := (secret_kept_iff splitsUserinfo_parse hsecret (by decide)
    (forall_mem_of_all (by decide)) hparse).2 (by decide)
  have htext : percentDecode "a%3Ab" = "a:b".toList := by decide +kernel
  rw [htext] at hkept
  exact ⟨hparse, hkept⟩

/-- A secret with a colon loses what follows it, once the URL parser has the name end there. -/
theorem secret_cut_at_colon : ∃ n, ∀ crates : UriCrates,
    crates.url "trojan://a:b@h:1" = .ok (trojanUrl "a" (some "b")) →
      parseUri crates "trojan://a:b@h:1" = .ok n ∧ n.authentication = .password "a" ∧
        secretOf "trojan://a:b@h:1" = some ("trojan".toList, "a:b".toList) ∧
        percentDecode "a:b" = "a:b".toList := by
  obtain ⟨n, hn⟩ : ∃ n, Uri.parseTrojan (trojanUrl "a" (some "b")) = .ok n := ⟨_, rfl⟩
  refine ⟨n, fun crates hurl => ?_⟩
  have hname : percentDecode (trojanUrl "a" (some "b")).username = "a".toList := by decide +kernel
  have hauth : n.authentication = .password "a" := by
    have hscheme : (trojanUrl "a" (some "b")).scheme ∈ secretSchemes := by decide
    rw [password_of_parseUrl (u := []) hscheme hn, hname]
  exact ⟨(parseUri_trojanUrl crates (r := "a:b@h:1".toList) hurl).trans hn, hauth, rfl,
    by decide +kernel⟩

end DeveSub
