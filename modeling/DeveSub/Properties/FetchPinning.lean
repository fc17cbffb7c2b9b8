/-
  File:      DeveSub/Properties/FetchPinning.lean
  Subject:   Where the requests of a fetch go, for any number of fetches over one client cache.

  Every client in the cache pins the addresses it is filed with, and is handed out only for those
  addresses. A request therefore goes only to addresses the guard returned for the URL of its own
  hop, just before it. With the counts and the body limit of the loop this is `fetch_confined`.
-/
import DeveSub.Adapters.HttpFetcher

namespace DeveSub.HttpFetcher

variable {E : Env} {limits : Limits} {ι : Type} [DecidableEq ι]

/-! ## 1. One hop -/

theorem literalHost_of_parse {host : Str} {ip : IpAddr} (h : IpAddr.parse host = some ip) :
    literalHost host = some ip := by
  unfold literalHost
  rw [h]

/-- What the guard returns for an address that is written out is that address. -/
theorem check_literal {host : Str} {lookup : Except SsrfError (List IpAddr)} {ips : List IpAddr}
    {ip : IpAddr} (hcheck : SsrfGuard.check (.ok host) lookup = .ok ips)
    (hresolves : Resolves host lookup) (hliteral : literalHost host = some ip) : ips = [ip] := by
  obtain ⟨host', hhost, hcheck⟩ := bind_eq_ok.1 hcheck
  obtain rfl : host = host' := Except.ok.inj (mapError_eq_ok.1 hhost)
  cases hparse : IpAddr.parse host with
  | some x =>
    rw [hparse] at hcheck
    obtain ⟨_, -, hcheck⟩ := bind_eq_ok.1 hcheck
    rw [literalHost_of_parse hparse] at hliteral
    rw [← Except.ok.inj hcheck, ← Option.some.inj hliteral]
  | none =>
    rw [hparse] at hcheck
    obtain ⟨addrs, hlookup, hcheck⟩ := bind_eq_ok.1 hcheck
    obtain ⟨_, -, hcheck⟩ := bind_eq_ok.1 hcheck
    rw [(SsrfGuard.checkAll_eq_ok hcheck).1]
    exact hresolves ip addrs hliteral hlookup

/-- **A client built for what the guard returned reaches nothing else.** -/
theorem reaches_checked {host : Str} {lookup : Except SsrfError (List IpAddr)} {ips : List IpAddr}
    (hcheck : SsrfGuard.check (.ok host) lookup = .ok ips) (hresolves : Resolves host lookup)
    {ip : IpAddr} (hreaches : Reaches (buildClient host ips) host ip) : ip ∈ ips := by
  unfold Reaches at hreaches
  split at hreaches
  · rename_i literal hliteral
    rw [check_literal hcheck hresolves hliteral, hreaches]
    exact List.mem_singleton_self _
  · rename_i hliteral
    have hname : IpAddr.parse host = none := by
      cases hparse : IpAddr.parse host with
      | none => rfl
      | some x =>
        rw [literalHost_of_parse hparse] at hliteral
        cases hliteral
    exact hreaches ips (by rw [buildClient, hname]; rfl)

/-! ## 2. Runs -/

/-- Fetches over one client cache, empty at the start. -/
def fetches (E : Env) (limits : Limits) (requested : ι → Str × Option Str) :
    Config HttpCall.Reply ClientCache ι (Except FetchError FetchResult) :=
  ⟨[], fun i => (fetchInner E limits (requested i).1 (requested i).2).run⟩

/-- **A request of a fetch**: its addresses are what the guard returned for its own URL in the
    call before last, every one of them has passed, and only the first request of the fetch carries
    the validator. -/
structure HopConfined (limits : Limits) (before : History HttpCall.Reply) (url : Str)
    (etag : Option Str) (peers : List IpAddr) : Prop where
  checked : ∃ client rest ips, before = client :: ⟨.check url, .ok ips⟩ :: rest ∧
    ∀ ip ∈ peers, ip ∈ ips ∧ checkIp ip = .ok ()
  count : requests before ≤ limits.maxRedirects
  validator : etag ≠ none → requests before = 0

/-- **What confines a run of fetches.** -/
structure FetchConfined (limits : Limits) (es : List (Event HttpCall.Reply ClientCache ι))
    (c : Config HttpCall.Reply ClientCache ι (Except FetchError FetchResult)) : Prop where
  hop : ∀ pre e post client url etag sent, es = pre ++ e :: post →
    e.Is (.send client url etag) sent → HopConfined limits (own e.thread pre) url etag sent.peers
  requests_le : ∀ i, requests (own i es) ≤ limits.maxRedirects + 1
  body_le : ∀ i body etag contentType, c.threads i = .done (.ok (.ok body etag contentType)) →
    body.length ≤ limits.maxBodySize

section Runs

variable {requested : ι → Str × Option Str} {es : List (Event HttpCall.Reply ClientCache ι)}
  {c : Config HttpCall.Reply ClientCache ι (Except FetchError FetchResult)}
  (hrun : Run (calls E) (fetches E limits requested) es c)

include hrun

theorem hopProtocol_of {pre post : List (Event HttpCall.Reply ClientCache ι)}
    {e : Event HttpCall.Reply ClientCache ι} (hes : es = pre ++ e :: post) :
    HopProtocol E limits (requested e.thread).2 (own e.thread pre) e.call := by
  have hfollows : ∀ i, ((fetches E limits requested).threads i).Follows
      (HopProtocol E limits (requested i).2) (Program.Ends (Fails limits) (Fetches limits)) [] :=
    fun i => fetchInner_follows E limits (requested i).1 (requested i).2
  exact hrun.follows hfollows hes

/-- The client a hop got pins what was asked for. -/
theorem clientFor_event {pre post : List (Event HttpCall.Reply ClientCache ι)}
    {f : Event HttpCall.Reply ClientCache ι} (hes : es = pre ++ f :: post) {host : Str}
    {ips : List IpAddr} {client : Client} (hf : f.Is (.clientFor host ips) (.ok client)) :
    client = buildClient host ips := by
  have hmem : f ∈ es := by rw [hes]; simp
  have hpins : CachePins f.before :=
    hrun.always_before (fun _ _ _ _ hi hs => pins_step hi hs) (fun p hp => by cases hp) hmem
  rcases hrun.sem_of_is hmem hf with ⟨hclient, -⟩ | ⟨⟨detail, herr⟩, -⟩
  · rw [Except.ok.inj hclient]
    exact (clientFor_pins hpins host ips).1
  · cases herr

/-- **Every request is confined.** -/
theorem hop_confined {pre post : List (Event HttpCall.Reply ClientCache ι)}
    {e : Event HttpCall.Reply ClientCache ι} {client : Client} {url : Str} {etag : Option Str}
    {sent : Sent} (hes : es = pre ++ e :: post) (he : e.Is (.send client url etag) sent) :
    HopConfined limits (own e.thread pre) url etag sent.peers := by
  have hkeeps := hopProtocol_of hrun hes
  rw [he.call_eq] at hkeeps
  obtain ⟨⟨host, ips, rest, hhost, hown⟩, hcount, hetag⟩ := hkeeps
  -- the two calls before: the client, and before it the check of this URL
  obtain ⟨p₁, f, q₁, hpre, -, hf, hown'⟩ := own_eq_append_cons (show own e.thread pre = [] ++ _ from hown)
  obtain ⟨p₂, g, q₂, hpre', -, hg, -⟩ := own_eq_append_cons (show own e.thread p₁ = [] ++ _ from hown')
  have hclient := clientFor_event hrun
    (show es = p₁ ++ f :: (q₁ ++ e :: post) by rw [hes, hpre]; simp) hf
  have hgmem : g ∈ es := by rw [hes, hpre, hpre']; simp
  obtain ⟨-, lookup, hresolves, hcheck⟩ := hrun.sem_of_is hgmem hg
  rw [hhost] at hcheck
  have hsem := (hrun.sem_of_is (by rw [hes]; simp : e ∈ es) he).2
  refine ⟨⟨_, rest, ips, hown, fun ip hip => ?_⟩, hcount, fun hne => ?_⟩
  · have hreaches := hsem ip hip host hhost
    rw [hclient] at hreaches
    have hmem := reaches_checked hcheck.symm (hresolves host hhost) hreaches
    exact ⟨hmem, (SsrfGuard.check_accepts hcheck.symm).2 ip hmem⟩
  · rcases hetag with hnone | ⟨-, hfirst⟩
    · exact absurd hnone hne
    · exact hfirst

/-- The requests of a fetch, at any time. -/
theorem requests_own_le (i : ι) : requests (own i es) ≤ limits.maxRedirects + 1 := by
  refine hrun.traced (I := fun pre _ => requests (own i pre) ≤ limits.maxRedirects + 1)
    (Nat.zero_le _) fun pre e post hes hle => ?_
  by_cases hi : e.thread = i
  · subst hi
    rw [own_snoc_self]
    have hkeeps := hopProtocol_of hrun hes
    obtain ⟨i, op, a, before, after⟩ := e
    cases op with
    | check => exact hle
    | clientFor => exact hle
    | send client url etag => exact Nat.succ_le_succ hkeeps.2.1
  · rw [own_snoc_of_ne hi]
    exact hle

/-- **Every fetch is confined**: whatever the servers and the resolver answer, and whatever the
    other fetches put into the cache. -/
theorem fetch_confined : FetchConfined limits es c := by
  refine ⟨fun pre e post client url etag sent hes he => hop_confined hrun hes he,
    requests_own_le hrun, fun i body etag contentType hdone => ?_⟩
  have hfollows : ∀ i, ((fetches E limits requested).threads i).Follows
      (HopProtocol E limits (requested i).2) (Program.Ends (Fails limits) (Fetches limits)) [] :=
    fun i => fetchInner_follows E limits (requested i).1 (requested i).2
  have hends := hrun.follows_done hfollows hdone
  exact hends.2.2 body etag contentType rfl

end Runs

/-- An environment in which every URL has the host `a`. -/
def Env.plain : Env := ⟨fun _ => .ok ['a'], fun _ loc => .ok loc, fun _ => []⟩

/-- A turn in which `a` resolves to `1.1.1.1` and the server answers with the response. -/
def hopTurn (response : Response) : Turn HttpCall.Reply ClientCache Unit where
  thread := ()
  answer
    | .check url, cache =>
      (SsrfGuard.check (Env.plain.urlHost url) (.ok [.v4 ⟨1, 1, 1, 1⟩]), cache)
    | .clientFor host ips, cache =>
      (.ok (clientFor cache host ips).1, (clientFor cache host ips).2)
    | .send client _ _, cache =>
      (⟨client.pins.elim [] fun p => if p.1 = ['a'] then p.2 else [], .ok response⟩, cache)

theorem hopTurn_calls (response : Response) (op : HttpCall) (cache : ClientCache) :
    calls Env.plain op cache ((hopTurn response).answer op cache).1
      ((hopTurn response).answer op cache).2 := by
  cases op with
  | check url =>
    refine ⟨rfl, .ok [.v4 ⟨1, 1, 1, 1⟩], fun host hhost ip ips hliteral => ?_, rfl⟩
    obtain rfl := Except.ok.inj hhost
    cases hliteral
  | clientFor host ips => exact .inl ⟨rfl, rfl⟩
  | send client url etag =>
    refine ⟨rfl, fun ip hip host hhost => ?_⟩
    obtain rfl := Except.ok.inj hhost
    intro ips hpins
    simpa [hopTurn, hpins] using hip

/-- A fetch that is redirected once: the second hop reuses the client of the first. -/
def redirectTrace : List (Event HttpCall.Reply ClientCache Unit) ×
    Config HttpCall.Reply ClientCache Unit (Except FetchError FetchResult) :=
  (fetches Env.plain .default fun _ => (['u'], some ['x'])).exec
    (List.replicate 3 (hopTurn ⟨302, none, none, some ['v'], []⟩) ++
      List.replicate 3 (hopTurn ⟨200, some ['e'], none, none, [.ok [1]]⟩))

theorem redirectTrace_run : Run (calls Env.plain)
    (fetches Env.plain .default fun _ => (['u'], some ['x'])) redirectTrace.1 redirectTrace.2 := by
  refine Config.run_exec _ _ fun t ht op cache => ?_
  rcases List.mem_append.1 ht with ht | ht
  · rw [(List.mem_replicate.1 ht).2]
    exact hopTurn_calls _ op cache
  · rw [(List.mem_replicate.1 ht).2]
    exact hopTurn_calls _ op cache

theorem fetch_confined_redirect :
    redirectTrace.1[5]?.map Event.view = some ((), ⟨.send ⟨some (['a'], [.v4 ⟨1, 1, 1, 1⟩])⟩ ['v'] none,
      ⟨[.v4 ⟨1, 1, 1, 1⟩], .ok ⟨200, some ['e'], none, none, [.ok [1]]⟩⟩⟩) ∧
    FetchConfined .default redirectTrace.1 redirectTrace.2 :=
  ⟨rfl, fetch_confined redirectTrace_run⟩

end DeveSub.HttpFetcher
