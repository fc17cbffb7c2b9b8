/-
  File:      DeveSub/Application/Refresh.lean
  Subject:   The refresh of a source (`source/refresh.rs`, `source/filter.rs`, `source/geoip.rs`):
             a job takes the lease, fetches, parses, filters, and publishes a snapshot.

  Each operation is a program over the ports. A job reads the source and its active snapshot after
  it took the lease; a 304 answer completes it without a new snapshot, any other body goes through
  the parser and the two filters to `reconcile`, which publishes and completes in one transaction.

  * `refreshSource` -- `start_refresh_job`, then `execute_refresh_job`;
  * `RefreshProtocol` -- what each write of a job was preceded by, and `refresh_follows` -- that
    every job keeps to it;
  * `RefreshClient` -- jobs beside any other programs that leave the job steps to them.
-/
import DeveSub.Application.Ports
import DeveSub.Application.Selection

namespace DeveSub

open Program

/-! ## 1. Errors -/

/-- `SourceAppError`, as far as a refresh raises it. -/
inductive SourceAppError where
  | sourceNotFound
  | nameExists
  | source (e : SourceError)
  | fetch (e : FetchError)
  | parse (e : ParseContentError)
  | zeroNodes
  | cancelled
  | refreshInProgress (id : Str)

/-- `map_source_error`. -/
def mapSourceError : SourceError → SourceAppError
  | .nameExists => .nameExists
  | other => .source other

/-- `map_lease_error`. -/
def mapLeaseError : SourceError → SourceAppError
  | .refreshInProgress id => .refreshInProgress id
  | other => .source other

/-- The text of a `SourceAppError`, which a failed job keeps. -/
def SourceAppError.text : SourceAppError → Str
  | .sourceNotFound => "source not found"
  | .nameExists => "source name already exists"
  | .source e => e.text
  | .fetch e => "fetch failed: ".toList ++ e.redacted
  | .parse e => e.text
  | .zeroNodes => "refresh yielded zero nodes; old snapshot preserved"
  | .cancelled => "refresh cancelled"
  | .refreshInProgress id => "refresh already in progress for source ".toList ++ id

/-! ## 2. Filters -/

/-- A value is refused: it is not included where something is, or it is excluded. -/
def isFiltered (included excluded : List Str) (value : Str) : Bool :=
  (!included.isEmpty && !included.any fun p => eqIgnoreAsciiCase p value) ||
    excluded.any fun p => eqIgnoreAsciiCase p value

/-- `is_protocol_filtered`. -/
def isProtocolFiltered (protocol : Str) (rules : SourceFilterRules) : Bool :=
  isFiltered rules.includeProtocols rules.excludeProtocols protocol

/-- `is_region_filtered`. -/
def isRegionFiltered (region : Str) (rules : SourceFilterRules) : Bool :=
  isFiltered rules.includeRegions rules.excludeRegions region

/-- `apply_protocol_filter`. -/
def applyProtocolFilter (entries : List ReconcileEntry) (rules : SourceFilterRules) :
    List ReconcileEntry :=
  entries.map fun entry => entry.filter fun n =>
    !isProtocolFiltered n.node.protocol.asFilterKey rules

/-- `apply_region_filter`. -/
def applyRegionFilter (entries : List ReconcileEntry) (rules : SourceFilterRules) :
    List ReconcileEntry :=
  if rules.includeRegions.isEmpty && rules.excludeRegions.isEmpty then entries
  else entries.map fun entry => entry.filter fun n => !isRegionFiltered (n.region.getD []) rules

/-- The mutation of `enrich_regions` for one node. -/
def enrichNode (detections : List (Str × RegionDetection)) (n : PooledNode) : PooledNode :=
  match (detections.find? fun d => d.1 = n.node.endpoint.host.uriHost).map Prod.snd with
  | none => n
  | some d =>
    let extras := if d.candidateIps.isEmpty then n.node.extras
      else Json.insertMember "candidate_ips" (.arr (d.candidateIps.map .str)) n.node.extras
    { n with region := d.region, node := { n.node with extras } }

/-- Both filters, around the regions that were detected. -/
def filteredEntries (rules : Option SourceFilterRules) (detections : List (Str × RegionDetection))
    (parsed : List ReconcileEntry) : List ReconcileEntry :=
  let entries := rules.elim parsed (applyProtocolFilter parsed)
  let enriched := entries.map (Option.map (enrichNode detections))
  rules.elim enriched (applyRegionFilter enriched)

/-- The entries that carry a node. -/
def nodeCount (entries : List ReconcileEntry) : Nat := (entries.filter Option.isSome).length

/-! ## 3. A job -/

/-- A refresh operation: a program that may fail. -/
abbrev RefreshOp := ExceptT SourceAppError (Program Call.Reply)

/-- `RefreshResult`. -/
structure RefreshResult where
  snapshot : SourceSnapshot
  reconcile : ReconcileResult
  notModified : Bool

/-- `start_refresh_job`. -/
def startRefreshJob (sourceId : SourceId) : RefreshOp JobId := do
  ask (.findSource sourceId) fun a => do
    rejectWhen (← a.mapError mapSourceError).isNone .sourceNotFound
  let id ← ask .drawId Except.ok
  let now ← ask .now Except.ok
  ask (.write (.createJob ⟨id, sourceId, .pending, .idle, now, none, none, .zero, false⟩))
    (Except.mapError mapLeaseError)
  match ← ask (.write (.markRunning id)) Except.ok with
  | .ok () => return id
  | .error (.refreshInProgress what) =>
    -- the row that lost the race is taken back, whether that succeeds or not
    ask (.write (.deleteJob id)) fun _ => .error (.refreshInProgress what)
  | .error other => lift (.error (mapLeaseError other))

/-- `if cancelled.load() { return Err(Cancelled) }`. -/
def checkCancelled : RefreshOp Unit :=
  ask .isCancelled fun cancelled => rejectWhen cancelled .cancelled

/-- `update_phase`, at the time the repository reads. -/
def updatePhase (jobId : JobId) (phase : RefreshPhase) : RefreshOp Unit := do
  let now ← ask .now Except.ok
  ask (.write (.updatePhase jobId phase now)) (Except.mapError .source)

/-- `disable_on_failure`, and then the error. -/
def failWith {α : Type} (sourceId : SourceId) (jobId : JobId) (e : SourceAppError) : RefreshOp α :=
  ask (.write (.disableAfterFailure sourceId jobId)) fun _ => .error e

/-- The lookups of `enrich_regions`, one for each host. -/
def detectRegions : List Str → RefreshOp (List (Str × RegionDetection))
  | [] => return []
  | host :: hosts => do
    let d ← ask (.detectRegion host) Except.ok
    return (host, d) :: (← detectRegions hosts)

/-- The hosts of the entries, each once. -/
def uniqueHosts (entries : List ReconcileEntry) : List Str :=
  (entries.filterMap fun e => e.map fun n => n.node.endpoint.host.uriHost).eraseDups

/-- The 304 path: the job is completed, and the active snapshot is dated. -/
def completeNotModified (jobId : JobId) (sourceId : SourceId) (active : Option SourceSnapshot) :
    RefreshOp RefreshResult := do
  let snapshot ← lift (okOr active
    (.source (.storage "server returned 304 but no active snapshot exists")))
  let now ← ask .now Except.ok
  ask (.write (.touchFetchedAt sourceId jobId now)) (Except.mapError .source)
  return ⟨snapshot, .zero, true⟩

/-- From the parsed entries to the publication. -/
def publishEntries (jobId : JobId) (source : Source) (sourceId : SourceId)
    (active : Option SourceSnapshot) (etag : Option Str) (parsed : List ReconcileEntry) :
    RefreshOp RefreshResult := do
  checkCancelled
  lift (rejectWhen (nodeCount parsed = 0 && active.isSome) .zeroNodes)
  updatePhase jobId .enriching
  let hosts := uniqueHosts (source.filterRules.elim parsed (applyProtocolFilter parsed))
  let detections ← detectRegions hosts
  let entries := filteredEntries source.filterRules detections parsed
  lift (rejectWhen (nodeCount entries = 0 && active.isSome) .zeroNodes)
  checkCancelled
  updatePhase jobId .reconciling
  let id ← ask .drawId Except.ok
  let fetchedAt ← ask .now Except.ok
  let snapshot : SourceSnapshot :=
    ⟨id, sourceId, active.elim 1 fun s => s.version + 1, fetchedAt, etag, nodeCount entries, true⟩
  let now ← ask .now Except.ok
  let reconcile ← ask (.write (.reconcile ⟨sourceId, some jobId, snapshot, entries⟩ now))
    (Except.mapError mapSourceError)
  return ⟨snapshot, reconcile, false⟩

/-- What becomes of a fetch that answered. -/
def completeFetched (jobId : JobId) (source : Source) (sourceId : SourceId)
    (active : Option SourceSnapshot) : FetchResult → RefreshOp RefreshResult
  | .notModified => completeNotModified jobId sourceId active
  | .ok body etag contentType => do
    updatePhase jobId .parsing
    match ← ask (.parseContent source.sourceType contentType body) Except.ok with
    | .error e => failWith source.id jobId (.parse e)
    | .ok parsed => publishEntries jobId source sourceId active etag parsed

/-- `execute_refresh_inner`. -/
def executeRefreshInner (jobId : JobId) (sourceId : SourceId) : RefreshOp RefreshResult := do
  checkCancelled
  let source ← ask (.findSource sourceId) fun a => do
    okOr (← a.mapError mapSourceError) .sourceNotFound
  let active ← ask (.findActiveSnapshot sourceId) (Except.mapError mapSourceError)
  updatePhase jobId .fetching
  match ← ask (.fetch source.url (active.bind (·.etag))) Except.ok with
  | .error e => failWith source.id jobId (.fetch e)
  | .ok fetched => do
    checkCancelled
    completeFetched jobId source sourceId active fetched

/-- The terminal status of a job that did not complete, whether it can be written or not. -/
def closeJob (jobId : JobId) :
    Except SourceAppError RefreshResult → Program Call.Reply Unit
  | .ok _ => return ()
  | .error e => do
    let now ← perform .now
    let _ ← perform (.write (match e with
      | .cancelled => .markCancelled jobId now
      | e => .markFailed jobId (e.text) now))
    return ()

/-- `execute_refresh_job`. -/
def executeRefreshJob (jobId : JobId) (sourceId : SourceId) :
    Program Call.Reply (Except SourceAppError RefreshResult) := do
  let result ← (executeRefreshInner jobId sourceId).run
  closeJob jobId result
  return result

/-- A refresh as the scheduler and the API run it: a job is started, and then executed. -/
def refreshSource (sourceId : SourceId) :
    Program Call.Reply (Except SourceAppError RefreshResult) := do
  match ← (startRefreshJob sourceId).run with
  | .error e => return .error e
  | .ok jobId => executeRefreshJob jobId sourceId

/-! ## 4. What a job's writes were preceded by -/

/-- The job's own calls up to its fetch, newest first: it created the row and took the lease, and
    only then read the source and the active snapshot; with what it read, it fetched. -/
def Fetched (h : History Call.Reply) (s : SourceId) (j : JobId) (S : Source)
    (active : Option SourceSnapshot) (a : Except FetchError FetchResult) : Prop :=
  ∃ job : SourceRefreshJob, job.id = j ∧ job.sourceId = s ∧
    List.Sublist [⟨.fetch S.url (active.bind (·.etag)), a⟩, ⟨.findActiveSnapshot s, .ok active⟩,
      ⟨.findSource s, .ok (some S)⟩, ⟨.write (.markRunning j), .ok ()⟩,
      ⟨.write (.createJob job), .ok ()⟩] h

/-- **What a publication carries**: the entries of the body this job received, parsed and filtered
    under the source it read, and the next version. -/
structure Publication (h : History Call.Reply) (s : SourceId) (S : Source)
    (active : Option SourceSnapshot) (body : List UInt8) (etag contentType : Option Str)
    (input : ReconcileInput) : Prop where
  sourceId : input.sourceId = s
  entries : ∃ parsed detections, ⟨.parseContent S.sourceType contentType body, .ok parsed⟩ ∈ h ∧
    (∀ d ∈ detections, ⟨.detectRegion d.1, d.2⟩ ∈ h) ∧
    input.entries = filteredEntries S.filterRules detections parsed
  version : input.snapshot.version = active.elim 1 fun x => x.version + 1
  validator : input.snapshot.etag = etag

/-- **What each write of a refresh was preceded by.** The other writes are not its own. -/
def RefreshProtocol (s : SourceId) (h : History Call.Reply) : Call → Prop
  | .write (.createJob job) => job.sourceId = s ∧ job.status = .pending
  | .write (.markRunning j) => (∃ job : SourceRefreshJob, job.id = j ∧ job.sourceId = s ∧
      ⟨.write (.createJob job), .ok ()⟩ ∈ h) ∧ ∀ x ∈ h, ∀ k, x.1 ≠ .write (.markRunning k)
  | .write (.touchFetchedAt s' j _) => s' = s ∧
      ∃ S active, Fetched h s j S (some active) (.ok .notModified)
  | .write (.reconcile input _) => ∃ j S active body etag contentType, input.jobId = some j ∧
      Fetched h s j S active (.ok (.ok body etag contentType)) ∧
      Publication h s S active body etag contentType input
  | .write (.updatePhase ..) | .write (.disableAfterFailure ..) | .write (.deleteJob _)
  | .write (.markFailed ..) | .write (.markCancelled ..) => True
  | .write _ | .store _ | .activate .. | .setSubscriptions _ | .deleteTemplate _ => False
  | _ => True

/-! ## 5. Every job keeps to it -/

section Follows

variable {s : SourceId} {h : History Call.Reply} {j : JobId} {S : Source}
  {active : Option SourceSnapshot}

/-- A refresh operation keeps to the protocol, and its result has the property. -/
abbrev RefreshKeeps {α : Type} (s : SourceId) (Q : History Call.Reply → α → Prop) (p : RefreshOp α)
    (h : History Call.Reply) : Prop :=
  p.run.Follows (RefreshProtocol s) (Ends (fun _ => True) Q) h

theorem Fetched.mono {h' : History Call.Reply} {a : Except FetchError FetchResult}
    (hf : Fetched h s j S active a) (hh : h <:+ h') : Fetched h' s j S active a := by
  obtain ⟨job, hid, hsource, hcalls⟩ := hf
  exact ⟨job, hid, hsource, hcalls.trans hh.sublist⟩

/-- Any call that is allowed, and then the rest. -/
theorem keeps_ask {α β : Type} {c : Call} {f : c.Reply → Except SourceAppError α}
    {g : α → RefreshOp β} {Q : History Call.Reply → β → Prop} (hc : RefreshProtocol s h c)
    (hok : ∀ a b, f a = .ok b → RefreshKeeps s Q (g b) (⟨c, a⟩ :: h)) :
    RefreshKeeps s Q (ask c f >>= g) h :=
  follows_ask_bind hc (fun _ _ _ => trivial) hok

theorem keeps_lift {α β : Type} {x : Except SourceAppError α} {g : α → RefreshOp β}
    {Q : History Call.Reply → β → Prop} (hok : ∀ b, x = .ok b → RefreshKeeps s Q (g b) h) :
    RefreshKeeps s Q (lift x >>= g) h :=
  follows_lift_bind (fun _ _ => trivial) hok

/-- A last call. -/
theorem keeps_last {α : Type} {c : Call} {f : c.Reply → Except SourceAppError α}
    {Q : History Call.Reply → α → Prop} (hc : RefreshProtocol s h c)
    (hok : ∀ a b, f a = .ok b → Q (⟨c, a⟩ :: h) b) : RefreshKeeps s Q (ask c f) h :=
  follows_ask hc fun a => ends_of (hok a) fun _ _ => trivial

/-- The steps between the phases only make the history longer. -/
theorem keeps_checkCancelled {β : Type} {g : Unit → RefreshOp β} {Q : History Call.Reply → β → Prop}
    (hg : ∀ h', h <:+ h' → RefreshKeeps s Q (g ()) h') :
    RefreshKeeps s Q (checkCancelled >>= g) h :=
  keeps_ask trivial fun _ _ _ => hg _ (List.suffix_cons _ h)

theorem keeps_updatePhase {β : Type} {phase : RefreshPhase} {g : Unit → RefreshOp β}
    {Q : History Call.Reply → β → Prop} (hg : ∀ h', h <:+ h' → RefreshKeeps s Q (g ()) h') :
    RefreshKeeps s Q (updatePhase j phase >>= g) h := by
  have hphase : RefreshKeeps s (fun h' _ => h <:+ h') (updatePhase j phase) h := by
    refine keeps_ask trivial fun now _ _ => ?_
    refine keeps_last trivial fun a b _ => ?_
    exact (List.suffix_cons _ h).trans (List.suffix_cons _ _)
  exact hphase.bindOk fun h' _ hh => hg h' hh

theorem keeps_failWith {α : Type} {e : SourceAppError} {Q : History Call.Reply → α → Prop} :
    RefreshKeeps s Q (failWith S.id j e) h :=
  keeps_last trivial fun _ _ hb => by cases hb

/-- What is detected was answered. -/
theorem keeps_detectRegions (hosts : List Str) :
    RefreshKeeps s (fun h' ds => h <:+ h' ∧ ∀ d ∈ ds, ⟨.detectRegion d.1, d.2⟩ ∈ h')
      (detectRegions hosts) h := by
  induction hosts generalizing h with
  | nil => exact ⟨List.suffix_refl h, fun d hd => by cases hd⟩
  | cons host hosts ih =>
    refine keeps_ask trivial fun a b hab => ?_
    obtain rfl := Except.ok.inj hab
    refine ih.bindOk fun h' ds hds => ?_
    refine ⟨(List.suffix_cons _ h).trans hds.1, fun d hd => ?_⟩
    rcases List.mem_cons.1 hd with rfl | hd
    · exact hds.1.subset List.mem_cons_self
    · exact hds.2 d hd

theorem keeps_completeNotModified
    (hf : Fetched h s j S active (.ok .notModified)) :
    RefreshKeeps s (fun _ _ => True) (completeNotModified j s active) h := by
  refine keeps_lift fun snapshot hsnapshot => ?_
  obtain rfl := okOr_eq_ok.1 hsnapshot
  refine keeps_ask trivial fun now _ _ => ?_
  exact keeps_ask ⟨rfl, S, snapshot, hf.mono (List.suffix_cons _ h)⟩ fun _ _ _ => trivial

theorem keeps_publishEntries {body : List UInt8} {etag contentType : Option Str}
    {parsed : List ReconcileEntry} (hf : Fetched h s j S active (.ok (.ok body etag contentType)))
    (hparsed : ⟨.parseContent S.sourceType contentType body, .ok parsed⟩ ∈ h) :
    RefreshKeeps s (fun _ _ => True) (publishEntries j S s active etag parsed) h := by
  refine keeps_checkCancelled fun h₁ hh₁ => ?_
  refine keeps_lift fun _ _ => ?_
  refine keeps_updatePhase fun h₂ hh₂ => ?_
  refine (keeps_detectRegions _).bindOk fun h₃ detections hd => ?_
  refine keeps_lift fun _ _ => ?_
  refine keeps_checkCancelled fun h₄ hh₄ => ?_
  refine keeps_updatePhase fun h₅ hh₅ => ?_
  refine keeps_ask trivial fun id _ hid => ?_
  refine keeps_ask trivial fun fetchedAt _ hat => ?_
  refine keeps_ask trivial fun now _ hnow => ?_
  have hlate : h₃ <:+ _ := ((hh₄.trans hh₅).trans (List.suffix_cons ⟨.drawId, id⟩ h₅)).trans
    ((List.suffix_cons ⟨.now, fetchedAt⟩ _).trans (List.suffix_cons ⟨.now, now⟩ _))
  have hall := (hh₁.trans (hh₂.trans hd.1)).trans hlate
  refine keeps_ask ?_ fun _ _ _ => trivial
  refine ⟨j, S, active, body, etag, contentType, rfl, hf.mono hall, ?_⟩
  exact
    { sourceId := rfl
      entries := ⟨parsed, detections, hall.subset hparsed, fun d hx => hlate.subset (hd.2 d hx), rfl⟩
      version := rfl
      validator := rfl }

theorem keeps_completeFetched {fetched : FetchResult} (hf : Fetched h s j S active (.ok fetched)) :
    RefreshKeeps s (fun _ _ => True) (completeFetched j S s active fetched) h := by
  cases fetched with
  | notModified => exact keeps_completeNotModified hf
  | ok body etag contentType =>
    refine keeps_updatePhase fun h₁ hh₁ => ?_
    refine keeps_ask trivial fun a b hab => ?_
    obtain rfl := Except.ok.inj hab
    cases a with
    | error e => exact keeps_failWith
    | ok parsed =>
      exact keeps_publishEntries (hf.mono (hh₁.trans (List.suffix_cons _ h₁))) List.mem_cons_self

theorem keeps_executeRefreshInner {job : SourceRefreshJob} (hid : job.id = j)
    (hsource : job.sourceId = s)
    (hlease : List.Sublist [⟨.write (.markRunning j), .ok ()⟩, ⟨.write (.createJob job), .ok ()⟩] h) :
    RefreshKeeps s (fun _ _ => True) (executeRefreshInner j s) h := by
  refine keeps_checkCancelled fun h₁ hh₁ => ?_
  refine keeps_ask trivial fun a S hS => ?_
  obtain ⟨found, hfound, hS⟩ := bind_eq_ok.1 hS
  obtain rfl := okOr_eq_ok.1 hS
  obtain rfl := mapError_eq_ok.1 hfound
  refine keeps_ask trivial fun a active hactive => ?_
  obtain rfl := mapError_eq_ok.1 hactive
  refine keeps_updatePhase fun h₂ hh₂ => ?_
  refine keeps_ask trivial fun a b hab => ?_
  obtain rfl := Except.ok.inj hab
  have hread := (((hlease.trans hh₁.sublist).cons_cons ⟨.findSource s, .ok (some S)⟩).cons_cons
    ⟨.findActiveSnapshot s, .ok active⟩).trans hh₂.sublist
  cases a with
  | error e => exact keeps_failWith
  | ok fetched =>
    refine keeps_checkCancelled fun h₃ hh₃ => keeps_completeFetched (Fetched.mono ?_ hh₃)
    exact ⟨job, hid, hsource, hread.cons_cons _⟩

theorem keeps_startRefreshJob (hfirst : ∀ x ∈ h, ∀ k, x.1 ≠ .write (.markRunning k)) :
    RefreshKeeps s (fun h' j => ∃ job : SourceRefreshJob, job.id = j ∧ job.sourceId = s ∧
      List.Sublist [⟨.write (.markRunning j), .ok ()⟩, ⟨.write (.createJob job), .ok ()⟩] h')
      (startRefreshJob s) h := by
  refine keeps_ask trivial fun _ _ _ => ?_
  refine keeps_ask trivial fun id _ hid => ?_
  obtain rfl := Except.ok.inj hid
  refine keeps_ask trivial fun now _ hnow => ?_
  obtain rfl := Except.ok.inj hnow
  refine keeps_ask ⟨rfl, rfl⟩ fun a u hcreate => ?_
  obtain rfl := mapError_eq_ok.1 hcreate
  refine keeps_ask ⟨⟨_, rfl, rfl, List.mem_cons_self⟩, fun x hx k => ?_⟩ fun a b hab => ?_
  · simp only [List.mem_cons] at hx
    rcases hx with rfl | rfl | rfl | rfl | hx
    iterate 4 exact nofun
    exact hfirst x hx k
  obtain rfl := Except.ok.inj hab
  cases a with
  | ok u => exact ⟨_, rfl, rfl, List.Sublist.cons_cons _ (List.Sublist.cons_cons _ (List.nil_sublist _))⟩
  | error e =>
    cases e with
    | refreshInProgress what => exact keeps_last trivial fun _ _ hb => by cases hb
    | sourceNotFound | nodeNotFound | nodeChain | nameExists | storage | tagNotFound | tagExists =>
      exact follows_lift trivial

/-- **Every refresh keeps to the protocol.** -/
theorem refresh_follows (s : SourceId) :
    (refreshSource s).Follows (RefreshProtocol s) (fun _ _ => True) [] := by
  have hfirst : ∀ x ∈ ([] : History Call.Reply), ∀ k, x.1 ≠ .write (.markRunning k) :=
    fun x hx => by cases hx
  refine Follows.bind (keeps_startRefreshJob (s := s) hfirst) fun h r hr => ?_
  cases r with
  | error e => trivial
  | ok j =>
    obtain ⟨job, hid, hsource, hlease⟩ := hr
    refine Follows.bind (keeps_executeRefreshInner hid hsource hlease) fun h' result _ => ?_
    cases result with
    | ok result => trivial
    | error e =>
      refine ⟨trivial, fun now => ⟨?_, fun _ => trivial⟩⟩
      cases e <;> trivial

end Follows

/-! ## 6. The system -/

/-- The calls that only a refresh makes. -/
def Call.isJobStep : Call → Bool
  | .write (.createJob _) | .write (.markRunning _) | .write (.touchFetchedAt ..)
  | .write (.reconcile ..) => true
  | _ => false

/-- A client: a refresh of a source, or any program that leaves the steps of a job to the
    refreshes (sweeps, recovery, cancellations, edits, deletions, imports, generations). -/
inductive RefreshClient where
  | refresh (sourceId : SourceId)
  | other (program : Program Call.Reply Unit) (h : program.Calls fun c => c.isJobStep = false)

/-- The program of a client; its result is the refresh's, if it is one. -/
def RefreshClient.program :
    RefreshClient → Program Call.Reply (Option (Except SourceAppError RefreshResult))
  | .refresh s => do return some (← refreshSource s)
  | .other p _ => do
    p
    return none

/-- The clients at the start, over a database. -/
def refreshSystem {ι : Type} (db : Db)
    (clients : ι → RefreshClient) :
    Config Call.Reply Db ι (Option (Except SourceAppError RefreshResult)) :=
  ⟨db, fun i => (clients i).program⟩

/-- What a client's calls were preceded by. -/
def RefreshClient.Keeps : RefreshClient → History Call.Reply → Call → Prop
  | .refresh s, h, c => RefreshProtocol s h c
  | .other _ _, _, c => c.isJobStep = false

/-- **Every client keeps to its protocol.** -/
theorem refreshClient_follows (client : RefreshClient) :
    (client.program).Follows client.Keeps (fun _ _ => True) [] := by
  cases client with
  | refresh s => exact (refresh_follows s).bind fun _ _ _ => trivial
  | other p hp => exact (hp.follows []).bind fun _ _ _ => trivial

end DeveSub
