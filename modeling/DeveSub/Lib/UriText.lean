/-
  File:      DeveSub/Lib/UriText.lean
  Subject:   Splitting a URI into its components, as RFC 3986 has them.

  The splitter of appendix B of the RFC for URIs with a scheme: the fragment starts at the first
  `#`, the query at the first `?` before it, the authority stands between `//` and the next `/`.
  In the authority the user information ends at the last `@`; a host in brackets is an IPv6
  address; a port is a decimal number below 65536, or empty. Nothing is decoded.

  * `UriText.split_text` -- a URI put together from its components splits into them.
-/
import DeveSub.Lib.IpAddr

namespace DeveSub

/-- The authority of a URI; a host in brackets keeps them. -/
structure UriAuthority where
  userinfo : Option Str
  host : Str
  port : Option Nat
  deriving DecidableEq

/-- The components of a URI. -/
structure UriParts where
  scheme : Str
  authority : Option UriAuthority
  path : Str
  query : Option Str
  fragment : Option Str
  deriving DecidableEq

namespace UriText

/-! ## 1. Splitting -/

/-- What stands before the first `c`, and what stands after it if there is one. -/
def cut (c : Char) (s : Str) : Str × Option Str :=
  match splitOnce c s with
  | some (a, b) => (a, some b)
  | none => (s, none)

/-- A character of a scheme. -/
def isSchemeChar (c : Char) : Bool := c.isAlphanum || c = '+' || c = '-' || c = '.'

/-- A scheme starts with a letter. -/
def isScheme (s : Str) : Bool := s.head?.any Char.isAlpha && s.all isSchemeChar

/-- A port: nothing, or a number below 65536. -/
def readPort (s : Str) : Option (Option Nat) :=
  if s = [] then some none
  else ((digits? s).filter (· < 65536)).map some

/-- What follows a host in brackets: nothing, or a colon and a port. -/
def readPortSuffix : Str → Option (Option Nat)
  | [] => some none
  | c :: p => if c = ':' then readPort p else none

/-- Host and port. -/
def readHostPort (s : Str) : Option (Str × Option Nat) :=
  match stripPrefix ['['] s with
  | some rest => do
      let (inner, after) ← splitOnce ']' rest
      let _ ← Ipv6Addr.parse inner
      let port ← readPortSuffix after
      pure ('[' :: (inner ++ [']']), port)
  | none =>
      match splitOnce ':' s with
      | some (host, p) => (readPort p).map fun port => (host, port)
      | none => some (s, none)

/-- User information, host and port. -/
def readAuthority (s : Str) : Option UriAuthority :=
  match rsplitOnce '@' s with
  | some (userinfo, hostPort) =>
      (readHostPort hostPort).map fun hp => ⟨some userinfo, hp.1, hp.2⟩
  | none => (readHostPort s).map fun hp => ⟨none, hp.1, hp.2⟩

/-- The components of a URI. -/
def split (s : Str) : Option UriParts := do
  let (body, fragment) := cut '#' s
  let (hier, query) := cut '?' body
  let (scheme, rest) ← splitOnce ':' hier
  if isScheme scheme then
    match stripPrefix "//" rest with
    | some r => do
        let authority ← readAuthority (r.takeWhile (· ≠ '/'))
        pure ⟨scheme, some authority, r.dropWhile (· ≠ '/'), query, fragment⟩
    | none => pure ⟨scheme, none, rest, query, fragment⟩
  else none

theorem cut_append {c : Char} {p : Str} (h : c ∉ p) (s : Str) :
    cut c (p ++ s) = (p ++ (cut c s).1, (cut c s).2) := by
  cases hs : splitOnce c s with
  | none =>
      have hnone : c ∉ p ++ s := by simp [h, splitOnce_none hs]
      simp [cut, splitOnce_of_not_mem hnone, hs]
  | some ab =>
      obtain ⟨a, b⟩ := ab
      obtain ⟨rfl, ha⟩ := splitOnce_some hs
      have hpa : c ∉ p ++ a := by simp [h, ha]
      have hsplit := splitOnce_append b hpa
      rw [List.append_assoc] at hsplit
      simp [cut, hsplit, hs]

/-- What stands before query and fragment starts with what stands before the first colon. -/
theorem splitOnce_hier {p r : Str} (hp : ∀ c ∈ p, c ∉ [':', '?', '#']) :
    ∃ t, splitOnce ':' (cut '?' (cut '#' (p ++ ':' :: r)).1).1 = some (p, t) := by
  have hclean : ∀ c ∈ [':', '?', '#'], c ∉ p := fun c hc hmem => hp c hmem hc
  have hfront : ∀ c ∈ ['?', '#'], c ∉ p ++ [':'] := by
    intro c hc
    have hrest := hclean c (List.mem_cons_of_mem _ hc)
    simp only [List.mem_cons, List.not_mem_nil, or_false] at hc
    rcases hc with rfl | rfl <;> simp [hrest]
  rw [show p ++ ':' :: r = (p ++ [':']) ++ r by simp, cut_append (hfront '#' (by decide)),
    cut_append (hfront '?' (by decide))]
  refine ⟨(cut '?' (cut '#' r).1).1, ?_⟩
  simpa using splitOnce_append (cut '?' (cut '#' r).1).1 (hclean ':' (by decide))

/-- The scheme is what stands before the first colon. -/
theorem split_scheme {p r : Str} (hp : ∀ c ∈ p, c ∉ [':', '?', '#']) {parts : UriParts}
    (h : split (p ++ ':' :: r) = some parts) : parts.scheme = p := by
  obtain ⟨t, ht⟩ := splitOnce_hier hp (r := r)
  simp only [split, ht, Option.bind_eq_bind, Option.bind_some] at h
  split at h
  · split at h
    · obtain ⟨_, -, h⟩ := Option.bind_eq_some_iff.mp h
      cases h
      rfl
    · cases h
      rfl
  · cases h

/-- A host in brackets is an IPv6 address. -/
theorem readHostPort_ne {s host : Str} {port : Option Nat}
    (h : readHostPort s = some (host, port)) : host ≠ "[]".toList := by
  rintro rfl
  unfold readHostPort at h
  split at h
  · obtain ⟨⟨inner, after⟩, -, h⟩ := Option.bind_eq_some_iff.mp h
    obtain ⟨a, hparse, h⟩ := Option.bind_eq_some_iff.mp h
    obtain ⟨p, -, h⟩ := Option.bind_eq_some_iff.mp h
    have hinner : inner ++ [']'] = [] ++ [']'] :=
      (List.cons.inj (Prod.mk.inj (Option.some.inj h)).1).2
    have hempty : Ipv6Addr.parse [] = none := by decide
    rw [List.append_cancel_right hinner, hempty] at hparse
    cases hparse
  · rename_i hstrip
    have hopen : ∀ t : Str, stripPrefix ['['] ("[]".toList ++ t) ≠ none := fun t => by
      simp [stripPrefix]
    split at h
    · rename_i hsplit
      obtain ⟨q, -, heq⟩ := Option.map_eq_some_iff.mp h
      obtain ⟨rfl, -⟩ := splitOnce_some hsplit
      rw [(Prod.mk.inj heq).1] at hstrip
      exact hopen _ hstrip
    · rw [(Prod.mk.inj (Option.some.inj h)).1] at hstrip
      exact hopen [] hstrip

theorem split_host_ne {s : Str} {parts : UriParts} {a : UriAuthority}
    (h : split s = some parts) (ha : parts.authority = some a) : a.host ≠ "[]".toList := by
  simp only [split] at h
  obtain ⟨⟨scheme, rest⟩, -, h⟩ := Option.bind_eq_some_iff.mp h
  dsimp only at h
  split at h
  · split at h
    · obtain ⟨b, hread, h⟩ := Option.bind_eq_some_iff.mp h
      cases h
      cases ha
      unfold readAuthority at hread
      split at hread <;>
      · obtain ⟨⟨host, port⟩, hhost, rfl⟩ := Option.map_eq_some_iff.mp hread
        exact readHostPort_ne hhost
    · cases h
      cases ha
  · cases h

/-! ## 2. Putting together -/

/-- A component with its delimiter, if it is there. -/
def suffix (c : Char) : Option Str → Str
  | some s => c :: s
  | none => []

/-- `scheme://user@host:port`, with a query and a fragment if they are there. -/
def text (scheme user host : Str) (port : Nat) (query fragment : Option Str) : Str :=
  scheme ++ "://".toList ++ user ++ '@' :: (host ++ ':' :: natText port) ++ suffix '?' query ++
    suffix '#' fragment

/-- A host as it is written: a name without delimiters, or an IPv6 address in brackets. -/
inductive HostText : Str → Prop where
  | name {s : Str} (h : ∀ c ∈ s, c ∉ [':', '@', '/', '?', '#', '[', ']']) : HostText s
  | ipv6 (a : Ipv6Addr) : HostText ('[' :: (a.text ++ [']']))

theorem cut_suffix {c : Char} {s : Str} (h : c ∉ s) (t : Option Str) :
    cut c (s ++ suffix c t) = (s, t) := by
  cases t with
  | none => simp [cut, suffix, splitOnce_of_not_mem h]
  | some t => simp [cut, suffix, splitOnce_append t h]

theorem readPort_natText {n : Nat} (h : n < 65536) : readPort (natText n) = some (some n) := by
  simp [readPort, natText_ne_nil, Option.filter, h]

theorem not_mem_natText {n : Nat} {c : Char} (h : c.isDigit = false) : c ∉ natText n := by
  intro hc
  rw [isDigit_of_mem_natText hc] at h
  cases h

/-- Hexadecimal digits, colons and dots are none of the other delimiters. -/
theorem not_mem_ipv6 (a : Ipv6Addr) {c : Char} (hhex : isHexDigit c = false) (h1 : c ≠ ':')
    (h2 : c ≠ '.') : c ∉ a.text := by
  intro hc
  rcases Ipv6Addr.mem_text hc with h | h | h
  · rw [h] at hhex
    cases hhex
  · exact h1 h
  · exact h2 h

/-- A host holds none of the characters that end the authority or the user information. -/
theorem HostText.not_mem {host : Str} (h : HostText host) {c : Char}
    (hc : c ∈ ['@', '/', '?', '#']) : c ∉ host := by
  simp only [List.mem_cons, List.not_mem_nil, or_false] at hc
  cases h with
  | name h =>
      intro hmem
      refine h c hmem ?_
      rcases hc with rfl | rfl | rfl | rfl <;> decide
  | ipv6 a =>
      have hne : isHexDigit c = false ∧ c ≠ ':' ∧ c ≠ '.' ∧ c ≠ '[' ∧ c ≠ ']' := by
        rcases hc with rfl | rfl | rfl | rfl <;> decide
      simp [hne.2.2.2.1, hne.2.2.2.2, not_mem_ipv6 a hne.1 hne.2.1 hne.2.2.1]

theorem readHostPort_text {host : Str} (h : HostText host) {port : Nat} (hp : port < 65536) :
    readHostPort (host ++ ':' :: natText port) = some (host, some port) := by
  cases h with
  | name h =>
      have hcolon : ':' ∉ host := fun hmem => h ':' hmem (by decide)
      have hbracket : stripPrefix ['['] (host ++ ':' :: natText port) = none := by
        cases hhost : host with
        | nil => simp [stripPrefix]
        | cons x rest =>
            have hx : '[' ≠ x := fun e => h x (hhost ▸ List.mem_cons_self) (by rw [← e]; decide)
            simp [stripPrefix, hx]
      simp [readHostPort, hbracket, splitOnce_append _ hcolon, readPort_natText hp]
  | ipv6 a =>
      have hclose : ']' ∉ a.text := not_mem_ipv6 a (by decide) (by decide) (by decide)
      have hsplit : splitOnce ']' (a.text ++ ']' :: ':' :: natText port) =
          some (a.text, ':' :: natText port) := splitOnce_append _ hclose
      simp [readHostPort, stripPrefix, hsplit, Ipv6Addr.parse_text, readPortSuffix, readPort_natText hp]

theorem readAuthority_text {user host : Str} (hhost : HostText host) {port : Nat}
    (hp : port < 65536) :
    readAuthority (user ++ '@' :: (host ++ ':' :: natText port)) =
      some ⟨some user, host, some port⟩ := by
  have hat : '@' ∉ host ++ ':' :: natText port := by
    simp [hhost.not_mem, not_mem_natText]
  simp [readAuthority, rsplitOnce_append user hat, readHostPort_text hhost hp]

/-- **A URI that is put together splits into its components.** -/
theorem split_text {scheme user host : Str} {port : Nat} {query fragment : Option Str}
    (hscheme : isScheme scheme = true) (huser : ∀ c ∈ user, c ∉ ['/', '?', '#'])
    (hhost : HostText host) (hp : port < 65536) (hquery : ∀ q, query = some q → '#' ∉ q) :
    split (text scheme user host port query fragment) =
      some ⟨scheme, some ⟨some user, host, some port⟩, [], query, fragment⟩ := by
  have hword : ∀ c, isSchemeChar c = false → c ∉ scheme := by
    intro c hc hmem
    rw [isScheme, Bool.and_eq_true] at hscheme
    rw [List.all_eq_true.mp hscheme.2 c hmem] at hc
    cases hc
  -- no component before the query holds a delimiter of a later one
  obtain ⟨authority, hauth⟩ : ∃ a, a = user ++ '@' :: (host ++ ':' :: natText port) := ⟨_, rfl⟩
  have hclean : ∀ c ∈ ['/', '?', '#'], c ∉ authority := by
    intro c hc
    have hhost' : c ∉ host := hhost.not_mem (List.mem_cons_of_mem _ hc)
    have huser' : c ∉ user := fun hmem => huser c hmem hc
    have hnat : c ∉ natText port ∧ c ≠ '@' ∧ c ≠ ':' := by
      simp only [List.mem_cons, List.not_mem_nil, or_false] at hc
      rcases hc with rfl | rfl | rfl <;> exact ⟨not_mem_natText (by decide), by decide, by decide⟩
    simp [hauth, hhost', huser', hnat]
  have hhier : ∀ c ∈ ['?', '#'], c ∉ scheme ++ ':' :: '/' :: '/' :: authority := by
    intro c hc
    have hrest := hclean c (List.mem_cons_of_mem _ hc)
    simp only [List.mem_cons, List.not_mem_nil, or_false] at hc
    rcases hc with rfl | rfl <;> simp [hword, hrest, isSchemeChar]
  have hbody : '#' ∉ (scheme ++ ':' :: '/' :: '/' :: authority) ++ suffix '?' query := by
    cases query with
    | none => simpa [suffix] using hhier '#' (by decide)
    | some q => simpa [suffix, hquery q rfl] using hhier '#' (by decide)
  have htext : text scheme user host port query fragment =
      (scheme ++ ':' :: '/' :: '/' :: authority) ++ suffix '?' query ++ suffix '#' fragment := by
    simp [text, hauth]
  have hslash : authority.takeWhile (· ≠ '/') = authority ∧ authority.dropWhile (· ≠ '/') = [] := by
    have hall : ∀ c ∈ authority, decide (c ≠ '/') = true := by
      intro c hc
      rw [decide_eq_true_eq]
      rintro rfl
      exact hclean '/' (by decide) hc
    have hstop : (authority ++ []).takeWhile (· ≠ '/') = authority ∧
        (authority ++ []).dropWhile (· ≠ '/') = [] :=
      takeWhile_append_of_stop hall fun c s h => by cases h
    rwa [List.append_nil] at hstop
  have hread : readAuthority authority = some ⟨some user, host, some port⟩ :=
    hauth ▸ readAuthority_text hhost hp
  rw [split, htext, cut_suffix hbody]
  simp only [cut_suffix (hhier '?' (by decide)), splitOnce_append _ (hword ':' (by decide))]
  have hstrip : stripPrefix "//" ('/' :: '/' :: authority) = some authority :=
    stripPrefix_append "//".toList authority
  simp only [Option.bind_eq_bind, Option.bind_some, hscheme, if_true, hstrip, hslash.1, hslash.2,
    hread, Option.pure_def]

end UriText

end DeveSub
