/-
  File:      DeveSub/Adapters/HttpFetcher.lean
  Subject:   The HTTP fetcher (`http_fetcher.rs`): SSRF check, pinned clients, redirects by hand,
             bounded bodies.

  A fetch is a program over three calls: the SSRF check with its resolver, the cache of clients, and
  the sending of a request. All fetches share the cache, so any number of them are threads
  over one store. What the remote side answers is open. `reqwest` is taken at its word: a request
  goes to the address that is written in its URL, or else to the addresses its client pins for the
  host; redirects are not followed. The outer deadline stops a fetch between two calls. URL parsing
  and joining, and the lossy decoding of an error body, are arguments.

  * `fetchInner` -- the loop over the hops;
  * `HopProtocol`, `fetchInner_follows` -- what precedes each request, and what is returned;
  * `pins_step` -- every cached client pins the addresses it is filed with.
-/
import DeveSub.Application.Ports
import DeveSub.Security.Ssrf

namespace DeveSub.HttpFetcher

open Program

/-! ## 1. The environment -/

/-- The functions of `url` and `std` a fetch uses. `urlHost` is `Url::parse` with `host_str`, and
    `join` is `Url::join`; their errors are the texts of the fetch error. -/
structure Env where
  urlHost : Str → Except Str Str
  join : Str → Str → Except Str Str
  lossy : List UInt8 → Str

/-- `HttpFetcher`'s limits. -/
structure Limits where
  maxBodySize : Nat
  maxRedirects : Nat

/-- `DEFAULT_MAX_BODY_SIZE`, `DEFAULT_MAX_REDIRECTS`. -/
def Limits.default : Limits := ⟨10 * 1024 * 1024, 3⟩

/-- `ERROR_BODY_CAP`. -/
def errorBodyCap : Nat := 1024

/-- `CLIENT_CACHE_MAX_HOSTS`. -/
def clientCacheMaxHosts : Nat := 64

/-- A client: the addresses it pins, for one host name. -/
structure Client where
  pins : Option (Str × List IpAddr)
  deriving DecidableEq

/-- `PinnedClient`. -/
structure PinnedClient where
  ips : List IpAddr
  client : Client
  deriving DecidableEq

/-- The `HashMap` from host names. -/
abbrev ClientCache := List (Str × PinnedClient)

/-- A response: the headers that are read, and the chunks of the body as they arrive. -/
structure Response where
  status : Nat
  etag : Option Str
  contentType : Option Str
  location : Option Str
  chunks : List (Except FetchError (List UInt8))

/-- What sending a request came to: the addresses it was sent to, and what came back. -/
structure Sent where
  peers : List IpAddr
  response : Except FetchError Response

/-! ## 2. The calls -/

/-- A call of a fetch. -/
inductive HttpCall where
  | check (url : Str)
  | clientFor (host : Str) (ips : List IpAddr)
  | send (client : Client) (url : Str) (etag : Option Str)

/-- What a call answers. -/
def HttpCall.Reply : HttpCall → Type
  | .check _ => Except SsrfError (List IpAddr)
  | .clientFor _ _ => Except FetchError Client
  | .send _ _ _ => Sent

/-- The client `client_for` builds: names are pinned, address literals connect directly. -/
def buildClient (host : Str) (ips : List IpAddr) : Client :=
  ⟨if (IpAddr.parse host).isNone then some (host, ips) else none⟩

/-- `cache.insert`. -/
def cacheInsert (cache : ClientCache) (host : Str) (entry : PinnedClient) : ClientCache :=
  cache.filter (fun p => p.1 ≠ host) ++ [(host, entry)]

/-- `client_for`, when the builder succeeds: the client, and the cache then. -/
def clientFor (cache : ClientCache) (host : Str) (ips : List IpAddr) : Client × ClientCache :=
  match (cache.find? fun p => p.1 = host).filter fun p => p.2.ips = ips with
  | some p => (p.2.client, cache)
  | none =>
    let cleared := if clientCacheMaxHosts ≤ cache.length then [] else cache
    (buildClient host ips, cacheInsert cleared host ⟨ips, buildClient host ips⟩)

/-- The address a host text writes out, an IPv6 address in brackets. -/
def literalHost (host : Str) : Option IpAddr :=
  match IpAddr.parse host with
  | some ip => some ip
  | none =>
    match host with
    | '[' :: rest => if rest.getLast? = some ']' then (Ipv6Addr.parse rest.dropLast).map .v6 else none
    | _ => none

/-- **Where a request may go**: to the address its URL writes out, or else to what its client pins
    for the host; without a pin, anywhere. -/
def Reaches (client : Client) (host : Str) (ip : IpAddr) : Prop :=
  match literalHost host with
  | some literal => ip = literal
  | none => ∀ ips, client.pins = some (host, ips) → ip ∈ ips

/-- The resolver's answer for a host: anything, but for an address in brackets that address. -/
def Resolves (host : Str) (lookup : Except SsrfError (List IpAddr)) : Prop :=
  ∀ ip ips, literalHost host = some ip → lookup = .ok ips → ips = [ip]

/-- **What the calls may answer, and what the cache then is.** -/
def calls (E : Env) : Semantics HttpCall.Reply ClientCache
  | .check url, cache, a, cache' => cache' = cache ∧ ∃ lookup,
      (∀ host, E.urlHost url = .ok host → Resolves host lookup) ∧
      a = SsrfGuard.check (E.urlHost url) lookup
  | .clientFor host ips, cache, a, cache' =>
      (a = .ok (clientFor cache host ips).1 ∧ cache' = (clientFor cache host ips).2) ∨
        (∃ detail, a = .error (.connection detail)) ∧ cache' = cache
  | .send client url _, cache, a, cache' => cache' = cache ∧
      ∀ ip ∈ a.peers, ∀ host, E.urlHost url = .ok host → Reaches client host ip

/-! ## 3. A fetch -/

/-- A fetch operation. -/
abbrev FetchOp := ExceptT FetchError (Program HttpCall.Reply)

/-- `fetch_single`. -/
def fetchSingle (E : Env) (url : Str) (etag : Option Str) : FetchOp Response := do
  let host ← lift ((E.urlHost url).mapError .connection)
  let ips ← ask (.check url) (Except.mapError fun e => .ssrf e.text)
  let client ← ask (.clientFor host ips) id
  ask (.send client url etag) Sent.response

/-- `read_body`: the size is checked after each chunk. -/
def readBody (limit : Nat) : List UInt8 → List (Except FetchError (List UInt8)) →
    Except FetchError (List UInt8)
  | body, [] => .ok body
  | _, .error e :: _ => .error e
  | body, .ok chunk :: rest =>
    if limit < (body ++ chunk).length then .error (.tooLarge (body ++ chunk).length)
    else readBody limit (body ++ chunk) rest

/-- `read_error_body`, before the decoding: a failed chunk ends it. -/
def readErrorBody : List UInt8 → List (Except FetchError (List UInt8)) → List UInt8
  | body, [] => body
  | body, .error _ :: _ => body
  | body, .ok chunk :: rest =>
    if errorBodyCap ≤ (body ++ chunk).length then (body ++ chunk).take errorBodyCap
    else readErrorBody (body ++ chunk) rest

/-- The loop of `fetch_inner`, with the requests it may still make. -/
def fetchLoop (E : Env) (limits : Limits) : Nat → Str → Option Str → FetchOp FetchResult
  | 0, _, _ => lift (.error .tooManyRedirects)
  | hops + 1, url, etag => do
    let response ← fetchSingle E url etag
    if response.status = 200 then do
      let body ← lift (readBody limits.maxBodySize [] response.chunks)
      return .ok body response.etag response.contentType
    else if response.status = 304 then return .notModified
    else if 300 ≤ response.status && response.status ≤ 399 then do
      let loc ← lift (okOr response.location (.connection "redirect without Location header"))
      let next ← lift ((E.join url loc).mapError .connection)
      fetchLoop E limits hops next none
    else
      lift (.error (.http response.status (E.lossy (readErrorBody [] response.chunks))))

/-- `fetch_inner`. -/
def fetchInner (E : Env) (limits : Limits) (url : Str) (etag : Option Str) : FetchOp FetchResult :=
  fetchLoop E limits (limits.maxRedirects + 1) url etag

/-- **A body that is read is within the limit.** -/
theorem readBody_length {limit : Nat} {start body : List UInt8}
    {chunks : List (Except FetchError (List UInt8))} (h : readBody limit start chunks = .ok body)
    (hstart : start.length ≤ limit) : body.length ≤ limit := by
  induction chunks generalizing start with
  | nil =>
    obtain rfl := Except.ok.inj h
    exact hstart
  | cons chunk rest ih =>
    cases chunk with
    | error e => cases h
    | ok chunk =>
      rw [readBody] at h
      split at h
      · cases h
      · rename_i hsmall
        exact ih h (Nat.le_of_not_lt hsmall)

/-! ## 4. What precedes a request -/

/-- The requests of a history. -/
def requests (h : History HttpCall.Reply) : Nat :=
  (h.filter fun x => match x.1 with
    | .send .. => true
    | _ => false).length

/-- The status of the newest response. -/
def lastStatus : History HttpCall.Reply → Option Nat
  | [] => none
  | ⟨.send _ _ _, sent⟩ :: _ =>
    match sent.response with
    | .ok response => some response.status
    | .error _ => none
  | ⟨.check _, _⟩ :: h => lastStatus h
  | ⟨.clientFor _ _, _⟩ :: h => lastStatus h

/-- **What precedes a request of a fetch**: the check of its own URL and the client for what the
    check returned; a validator only at the first. -/
def HopProtocol (E : Env) (limits : Limits) (etag₀ : Option Str) (h : History HttpCall.Reply) :
    HttpCall → Prop
  | .send client url etag => (∃ host ips rest, E.urlHost url = .ok host ∧
        h = ⟨.clientFor host ips, .ok client⟩ :: ⟨.check url, .ok ips⟩ :: rest) ∧
      requests h ≤ limits.maxRedirects ∧ (etag = none ∨ etag = etag₀ ∧ requests h = 0)
  | _ => True

/-- How a fetch ends: within the limits, and as not modified exactly after a 304. -/
def Fetches (limits : Limits) (h : History HttpCall.Reply) (r : FetchResult) : Prop :=
  (r = .notModified ↔ lastStatus h = some 304) ∧ requests h ≤ limits.maxRedirects + 1 ∧
    ∀ body etag contentType, r = .ok body etag contentType → body.length ≤ limits.maxBodySize

/-- How a fetch fails: not after a 304. -/
def Fails (limits : Limits) (h : History HttpCall.Reply) : Prop :=
  lastStatus h ≠ some 304 ∧ requests h ≤ limits.maxRedirects + 1

section Follows

variable {E : Env} {limits : Limits} {etag₀ : Option Str} {h : History HttpCall.Reply}

/-- One hop, and then the rest. -/
theorem follows_fetchSingle {α : Type} {url : Str} {etag : Option Str} {g : Response → FetchOp α}
    {Q : History HttpCall.Reply → α → Prop} (hcount : requests h ≤ limits.maxRedirects)
    (hstatus : lastStatus h ≠ some 304) (hetag : etag = none ∨ etag = etag₀ ∧ requests h = 0)
    (hg : ∀ h' response, requests h' = requests h + 1 → lastStatus h' = some response.status →
      (g response).run.Follows (HopProtocol E limits etag₀) (Ends (Fails limits) Q) h') :
    (fetchSingle E url etag >>= g).run.Follows (HopProtocol E limits etag₀)
      (Ends (Fails limits) Q) h := by
  have hfail : Fails limits h := ⟨hstatus, by omega⟩
  have hsingle : (fetchSingle E url etag).run.Follows (HopProtocol E limits etag₀)
      (Ends (Fails limits) fun h' response => requests h' = requests h + 1 ∧
        lastStatus h' = some response.status) h := by
    refine follows_lift_bind (fun _ _ => hfail) fun host hhost => ?_
    refine follows_ask_bind trivial (fun _ _ _ => hfail) fun a ips hips => ?_
    obtain rfl := mapError_eq_ok.1 hips
    refine follows_ask_bind trivial (fun _ _ _ => hfail) fun a client hclient => ?_
    obtain rfl : a = .ok client := hclient
    refine follows_ask ⟨⟨host, ips, h, mapError_eq_ok.1 hhost, rfl⟩, hcount, hetag⟩ fun sent => ?_
    refine ends_of (fun response hok => ⟨rfl, ?_⟩) fun e he => ⟨?_, Nat.succ_le_succ hcount⟩
    · simp only [lastStatus, hok]
    · simp [lastStatus, he]
  exact hsingle.bindOk fun h' response hr => hg h' response hr.1 hr.2

/-- The loop keeps to the protocol. -/
theorem follows_fetchLoop {hops : Nat} {url : Str} {etag : Option Str}
    (hcount : requests h + hops = limits.maxRedirects + 1) (hstatus : lastStatus h ≠ some 304)
    (hetag : etag = none ∨ etag = etag₀ ∧ requests h = 0) :
    (fetchLoop E limits hops url etag).run.Follows (HopProtocol E limits etag₀)
      (Ends (Fails limits) (Fetches limits)) h := by
  induction hops generalizing h url etag with
  | zero => exact follows_lift ⟨hstatus, by omega⟩
  | succ hops ih =>
    refine follows_fetchSingle (by omega) hstatus hetag fun h' response hreq hlast => ?_
    have hmax : requests h' ≤ limits.maxRedirects + 1 := by omega
    by_cases h200 : response.status = 200
    · rw [if_pos h200]
      have hlast' : lastStatus h' ≠ some 304 := by simp [hlast, h200]
      refine follows_lift_bind (fun _ _ => ⟨hlast', hmax⟩) fun body hbody => ?_
      refine ⟨⟨nofun, fun h304 => absurd h304 hlast'⟩, hmax, fun body' etag' ct' hr => ?_⟩
      cases hr
      exact readBody_length hbody (Nat.zero_le _)
    by_cases h304 : response.status = 304
    · rw [if_neg h200, if_pos h304]
      exact ⟨⟨fun _ => by rw [hlast, h304], fun _ => rfl⟩, hmax, fun body etag' ct hr => by cases hr⟩
    have hlast' : lastStatus h' ≠ some 304 := by
      rw [hlast]
      exact fun heq => h304 (Option.some.inj heq)
    rw [if_neg h200, if_neg h304]
    by_cases hredirect : (decide (300 ≤ response.status) && decide (response.status ≤ 399)) = true
    · rw [if_pos hredirect]
      refine follows_lift_bind (fun _ _ => ⟨hlast', hmax⟩) fun loc _ => ?_
      refine follows_lift_bind (fun _ _ => ⟨hlast', hmax⟩) fun next _ => ?_
      exact ih (by omega) hlast' (.inl rfl)
    · rw [if_neg hredirect]
      exact follows_lift ⟨hlast', hmax⟩

/-- **Every fetch keeps to the protocol.** -/
theorem fetchInner_follows (E : Env) (limits : Limits) (url : Str) (etag : Option Str) :
    (fetchInner E limits url etag).run.Follows (HopProtocol E limits etag)
      (Ends (Fails limits) (Fetches limits)) [] :=
  follows_fetchLoop (Nat.zero_add _) (by simp [lastStatus]) (.inr ⟨rfl, rfl⟩)

end Follows

/-- **What `fetch` may answer**: the end of the loop after the history, or the outer deadline. -/
def Answers (E : Env) (limits : Limits) (url : Str) (etag : Option Str)
    (hist : History HttpCall.Reply) (a : Except FetchError FetchResult) : Prop :=
  (fetchInner E limits url etag).run.Ran [] hist a ∨ ∃ seconds, a = .error (.timeout seconds)

/-- A fetch that succeeds does so as not modified exactly after a 304. -/
theorem Answers.notModified_iff {E : Env} {limits : Limits} {url : Str} {etag : Option Str}
    {hist : History HttpCall.Reply} {r : FetchResult} (h : Answers E limits url etag hist (.ok r)) :
    r = .notModified ↔ lastStatus hist = some 304 := by
  rcases h with hran | ⟨seconds, htimeout⟩
  · exact ((fetchInner_follows E limits url etag).ran hran).1
  · cases htimeout

/-! ## 5. The cache -/

/-- Every cached client pins the addresses it is filed with. -/
def CachePins (cache : ClientCache) : Prop :=
  ∀ p ∈ cache, p.2.client = buildClient p.1 p.2.ips

/-- The client that is handed out pins what was asked for. -/
theorem clientFor_pins {cache : ClientCache} (hpins : CachePins cache) (host : Str)
    (ips : List IpAddr) : (clientFor cache host ips).1 = buildClient host ips ∧
      CachePins (clientFor cache host ips).2 := by
  unfold clientFor
  split
  · rename_i p hp
    obtain ⟨hfind, hips⟩ := Option.filter_eq_some_iff.1 hp
    have hhost : p.1 = host := by simpa using List.find?_some hfind
    have hsame : p.2.ips = ips := by simpa using hips
    refine ⟨?_, hpins⟩
    rw [hpins p (List.mem_of_find?_eq_some hfind), hhost, hsame]
  · refine ⟨rfl, fun p hp => ?_⟩
    rcases List.mem_append.1 hp with hp | hp
    · have hmem := (List.mem_filter.1 hp).1
      split at hmem
      · cases hmem
      · exact hpins p hmem
    · rw [List.mem_singleton.1 hp]

/-- **Every call keeps the pins.** -/
theorem pins_step {E : Env} {op : HttpCall} {cache cache' : ClientCache} {a : op.Reply}
    (hpins : CachePins cache) (h : calls E op cache a cache') : CachePins cache' := by
  cases op with
  | check => exact h.1 ▸ hpins
  | send => exact h.1 ▸ hpins
  | clientFor host ips =>
    rcases h with ⟨-, rfl⟩ | ⟨-, rfl⟩
    · exact (clientFor_pins hpins host ips).2
    · exact hpins

end DeveSub.HttpFetcher
