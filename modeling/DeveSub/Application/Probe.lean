/-
  File:      DeveSub/Application/Probe.lean
  Subject:   Probe sources (`probe/commands.rs`): traffic syncs, edits and status marks, as programs
             over the repository and the panels.

  Every command reads the source first and writes it back with the revision it has read. What a
  panel answers is open, and so is when: any number of commands run side by side. The URL parser,
  the text of a time and the JSON of a snapshot are arguments. Sources are created before a run.

  * `syncProbeTraffic`, `updateProbeSource`, `markSyncFailed`, `markSyncStale` -- the commands;
  * `Protocol`, `client_follows` -- what precedes each write.
-/
import DeveSub.Adapters.ProbePanel
import DeveSub.Lib.Program
import DeveSub.Storage.Probe

namespace DeveSub

namespace Probe

open Program

/-! ## 1. Ports -/

/-- The functions outside the commands. -/
structure Env where
  codecs : SnapshotCodecs
  formatTs : Timestamp → Str
  urlValid : Str → Bool

/-- A call of a command. `fetchCounters` is the node list and the latest counters of each node, in
    the order in which the requests end. -/
inductive Call where
  | now
  | drawId
  | findSource (id : ProbeSourceId)
  | fetchServers (endpoint token : Str)
  | fetchAllnodeStatus (endpoint : Str)
  | fetchCounters (endpoint : Str)
  | update (source : ProbeSource)
  | commitSync (source : ProbeSource) (records : List TrafficRecord)
  | delete (id : ProbeSourceId)

/-- What a call answers. -/
def Call.Reply : Call → Type
  | .now => Timestamp
  | .drawId => Ulid
  | .findSource _ => Except ProbeError (Option ProbeSource)
  | .fetchServers _ _ => Except ProbeError (List (Nat × Bytes))
  | .fetchAllnodeStatus _ => Except ProbeError (List (Str × Nat))
  | .fetchCounters _ => Except ProbeError (List (Str × Except ProbeError (Option Bytes)))
  | .update _ | .commitSync _ _ | .delete _ => Except ProbeError Unit

/-- A call of a thread with its answer, and the database before and after it. -/
abbrev CallEvent (ι : Type) := Event Call.Reply ProbeDb ι

/-- The calls of a run in their order. -/
abbrev Trace (ι : Type) := List (CallEvent ι)

/-- **What the ports may answer, and what the database then is.** -/
def ports (E : Env) : Semantics Call.Reply ProbeDb
  | .now, db, _, db' | .drawId, db, _, db' | .fetchServers _ _, db, _, db'
  | .fetchAllnodeStatus _, db, _, db' | .fetchCounters _, db, _, db' => db' = db
  | .findSource id, db, a, db' => Reads (db.sources.find id) ProbeError.storage db a db'
  | .update source, db, a, db' => Writes (Probes.updateOn source) ProbeError.storage db a db'
  | .commitSync source records, db, a, db' =>
    Writes (Probes.commitSync E.formatTs source records) ProbeError.storage db a db'
  | .delete id, db, a, db' => Writes (Probes.delete id) ProbeError.storage db a db'

/-- **What a call does.** -/
inductive Change (E : Env) (db : ProbeDb) : ((c : Call) × c.Reply) → ProbeDb → Prop where
  | none {x} : Change E db x db
  | updated {source db'} (h : Probes.Updated source db db') (htraffic : db'.traffic = db.traffic) :
      Change E db ⟨.update source, .ok ()⟩ db'
  | synced {source records db'} (h : Probes.Updated source db db')
      (htraffic : db'.traffic.traffic.rows =
        db.traffic.traffic.rows ++ Probes.rowsOf E.formatTs records) :
      Change E db ⟨.commitSync source records, .ok ()⟩ db'
  | deleted {id db'} (h : ∀ s, db'.sources.find s = if s = id then Option.none else db.sources.find s)
      (htraffic : db'.traffic = db.traffic) : Change E db ⟨.delete id, .ok ()⟩ db'

theorem ports_change {E : Env} {op : Call} {db db' : ProbeDb} {a : op.Reply}
    (h : ports E op db a db') : Change E db ⟨op, a⟩ db' := by
  cases op with
  | now | drawId | fetchServers | fetchAllnodeStatus | fetchCounters =>
    obtain rfl : db' = db := h
    exact .none
  | findSource =>
    obtain rfl : db' = db := h.2
    exact .none
  | update source =>
    rcases Writes.cases h with ⟨r, rfl, hrun⟩ | ⟨-, rfl⟩
    · obtain ⟨hupdated, htraffic⟩ := Probes.updateOn_eq_ok hrun
      exact .updated hupdated htraffic
    · exact .none
  | commitSync source records =>
    rcases Writes.cases h with ⟨r, rfl, hrun⟩ | ⟨-, rfl⟩
    · obtain ⟨hupdated, htraffic⟩ := Probes.commitSync_eq_ok hrun
      exact .synced hupdated htraffic
    · exact .none
  | delete id =>
    rcases Writes.cases h with ⟨r, rfl, hrun⟩ | ⟨-, rfl⟩
    · obtain ⟨hgone, htraffic⟩ := Probes.delete_eq_ok hrun
      exact .deleted hgone htraffic
    · exact .none

/-- **Revisions only grow**, and a row changes only with its revision. -/
theorem Change.revisionLe {E : Env} {db db' : ProbeDb} {x : (c : Call) × c.Reply}
    (h : Change E db x db') (s : ProbeSourceId) : Probes.RevisionLe s db db' := by
  cases h with
  | none => exact .refl s db
  | updated h => exact h.revisionLe s
  | synced h => exact h.revisionLe s
  | deleted h =>
    intro B hB
    rw [h] at hB
    split at hB
    · cases hB
    · exact ⟨B, hB, Nat.le_refl _, fun _ => rfl⟩

/-! ## 2. The panels -/

/-- The counters of a Nezha server. -/
def nezhaBytes (p : Nat × Bytes) : Str × Bytes := (natText p.1, p.2)

/-- The counters of a Komari node, unless its request failed or it has no record. -/
def komariBytes (p : Str × Except ProbeError (Option Bytes)) : Option (Str × Bytes) :=
  match p.2 with
  | .ok (some counters) => some (p.1, counters)
  | _ => none

/-- What a panel call has reported: the kind, the endpoint, and the counters by server. -/
def reading : ((c : Call) × c.Reply) → Option (ProbeSourceKind × Str × List (Str × Bytes))
  | ⟨.fetchServers endpoint _, .ok servers⟩ => some (.nezha, endpoint, servers.map nezhaBytes)
  | ⟨.fetchAllnodeStatus endpoint, .ok data⟩ => some (.dStatus, endpoint, data.map usageBytes)
  | ⟨.fetchCounters endpoint, .ok results⟩ =>
    some (.komari, endpoint, results.filterMap komariBytes)
  | _ => none

theorem reading_reports {x : (c : Call) × c.Reply} {kind : ProbeSourceKind} {endpoint : Str}
    {servers : List (Str × Bytes)} (h : reading x = some (kind, endpoint, servers)) :
    kind.Reports servers := by
  unfold reading at h
  intro hkind
  subst hkind
  split at h
  · cases h
  · cases h
    intro p hp
    obtain ⟨q, -, rfl⟩ := List.mem_map.1 hp
    rfl
  · cases h
  · cases h

/-- An adapter: a program that may fail. -/
abbrev AdapterOp := ExceptT ProbeError (Program Call.Reply)

/-- `require_token`. -/
def requireToken (source : ProbeSource) : Except ProbeError Unit :=
  rejectWhen source.authConfig.isEmpty
    (.probeFailed "Nezha probe source requires auth_config (Bearer token)")

/-- The request of the adapter of the source's kind. -/
def fetchReading (source : ProbeSource) : AdapterOp (List (Str × Bytes)) :=
  match source.kind with
  | .nezha => ask (.fetchServers source.endpointUrl source.authConfig)
      (Except.map (List.map nezhaBytes))
  | .dStatus => ask (.fetchAllnodeStatus source.endpointUrl) (Except.map (List.map usageBytes))
  | .komari => ask (.fetchCounters source.endpointUrl) (Except.map (List.filterMap komariBytes))

/-- `sync_traffic` of the registry: the adapter of the source's kind. -/
def syncTraffic (E : Env) (source : ProbeSource) : AdapterOp ProbeSyncResult := do
  lift (if source.kind = .nezha then requireToken source else .ok ())
  let last ← lift (E.codecs.parseSnapshot source.kind source.lastCounterSnapshot)
  let servers ← fetchReading source
  let (samples, snapshot) := computeSamples last [] [] servers
  return ⟨samples, some (E.codecs.printSnapshot source.kind snapshot)⟩

/-! ## 3. The commands -/

/-- `ProbeAppError`, as far as the modelled commands raise it. -/
inductive AppError where
  | invalidInput (message : Str)
  | sourceNotFound
  | domain (e : ProbeError)

/-- A command: a program that may fail. -/
abbrev Command := ExceptT AppError (Program Call.Reply)

/-- `repo.find_by_id(id).await?.ok_or(SourceNotFound)`. -/
def findSource (id : ProbeSourceId) : Command ProbeSource :=
  ask (.findSource id) fun a => do okOr (← a.mapError .domain) .sourceNotFound

/-- `SyncProbeTrafficResult`. -/
structure SyncProbeTrafficResult where
  samplesWritten : Nat
  snapshotUpdated : Bool

/-- The failure arm of `sync_probe_traffic`: the status is written, whether that succeeds or not. -/
def recordFailure {α : Type} (source : ProbeSource) (e : ProbeError) : Command α := do
  let lastSyncAt ← ask .now Except.ok
  let updatedAt ← ask .now Except.ok
  ask (.update { source with
    lastSyncAt := some lastSyncAt
    lastSyncStatus := some (.failed e.text)
    updatedAt }) fun _ => .error (.domain e)

/-- The loop of `sync_probe_traffic` over the samples, with `TrafficRecord::new`. -/
def buildRecords (subscriptionId : SubscriptionId) (label : Str) :
    List ProbeTrafficSample → Command (List TrafficRecord)
  | [] => return []
  | sample :: samples => do
    let id ← ask .drawId Except.ok
    let recordedAt ← ask .now Except.ok
    let record : TrafficRecord := ⟨id, subscriptionId, .probe, sample.bytes.1, sample.bytes.2,
      recordedAt, label ++ ':' :: sample.externalServerId⟩
    return record :: (← buildRecords subscriptionId label samples)

/-- The success arm of `sync_probe_traffic`. -/
def commitResult (source : ProbeSource) (subscriptionId : SubscriptionId)
    (result : ProbeSyncResult) : Command SyncProbeTrafficResult := do
  let now ← ask .now Except.ok
  let records ← buildRecords subscriptionId source.kind.asKebab result.samples
  ask (.commitSync { source with
    lastCounterSnapshot := result.newCounterSnapshot
    lastSyncAt := some now
    lastSyncStatus := some .ok
    updatedAt := now } records) (Except.mapError .domain)
  return ⟨result.samples.length, result.newCounterSnapshot.isSome⟩

/-- `sync_probe_traffic`. -/
def syncProbeTraffic (E : Env) (id : ProbeSourceId) : Command SyncProbeTrafficResult := do
  let source ← findSource id
  lift (rejectWhen (!source.enabled) (.invalidInput "probe source is disabled"))
  let subscriptionId ← lift (okOr source.subscriptionId
    (.invalidInput "probe source has no subscription binding"))
  match ← attempt (syncTraffic E source) with
  | .error e => recordFailure source e
  | .ok result => commitResult source subscriptionId result

/-- `UpdateProbeSourceParams`. -/
structure UpdateParams where
  id : ProbeSourceId
  name : Option Str
  endpointUrl : Option Str
  authConfig : Option Str
  subscriptionId : Option (Option SubscriptionId)
  enabled : Option Bool

/-- The mutations of `update_probe_source`: only provided fields are written. -/
def UpdateParams.apply (p : UpdateParams) (source : ProbeSource) : ProbeSource :=
  { source with
    name := p.name.getD source.name
    endpointUrl := p.endpointUrl.getD source.endpointUrl
    authConfig := p.authConfig.getD source.authConfig
    subscriptionId := p.subscriptionId.getD source.subscriptionId
    enabled := p.enabled.getD source.enabled }

/-- `update_probe_source`. -/
def updateProbeSource (E : Env) (p : UpdateParams) : Command ProbeSource := do
  let source ← findSource p.id
  lift (rejectWhen (p.name.any fun name => (trim name).isEmpty)
    (.invalidInput "name must not be empty"))
  lift (rejectWhen (p.endpointUrl.any fun url => !E.urlValid url)
    (.invalidInput "endpoint_url is not a valid URL"))
  let now ← ask .now Except.ok
  ask (.update { p.apply source with updatedAt := now }) (Except.mapError .domain)
  return { p.apply source with updatedAt := now }

/-- `mark_sync_failed`. -/
def markSyncFailed (id : ProbeSourceId) (message : Str) : Command Unit := do
  let source ← findSource id
  let lastSyncAt ← ask .now Except.ok
  let updatedAt ← ask .now Except.ok
  ask (.update { source with
    lastSyncAt := some lastSyncAt
    lastSyncStatus := some (.failed message)
    updatedAt }) (Except.mapError .domain)

/-- `mark_sync_stale`. -/
def markSyncStale (id : ProbeSourceId) : Command Unit := do
  let source ← findSource id
  let updatedAt ← ask .now Except.ok
  ask (.update { source with lastSyncStatus := some .stale, updatedAt }) (Except.mapError .domain)

/-- `delete_probe_source`. -/
def deleteProbeSource (id : ProbeSourceId) : Command Unit :=
  ask (.delete id) (Except.mapError .domain)

/-! ## 4. What precedes a write -/

/-- The record of a sample. -/
structure RecordOf (subscriptionId : SubscriptionId) (label : Str) (sample : ProbeTrafficSample)
    (record : TrafficRecord) : Prop where
  subscriptionId : record.subscriptionId = subscriptionId
  sourceKind : record.sourceKind = .probe
  bytes : (record.upload, record.download) = sample.bytes
  sourceRef : record.sourceRef = label ++ ':' :: sample.externalServerId

/-- **What a sync commits**: it read the source, then the panel of the source; it writes the source
    with the new snapshot, and the records of the samples. -/
structure Synced (E : Env) (h : History Call.Reply) (source' : ProbeSource)
    (records : List TrafficRecord) (S : ProbeSource) (servers : List (Str × Bytes))
    (last : CounterSnapshot) : Prop where
  calls : ∃ id panel, reading panel = some (S.kind, S.endpointUrl, servers) ∧
    List.Sublist [panel, ⟨.findSource id, .ok (some S)⟩] h
  baseline : E.codecs.parseSnapshot S.kind S.lastCounterSnapshot = .ok last
  source : ∃ now, source' = { S with
    lastCounterSnapshot := some (E.codecs.printSnapshot S.kind (snapshotOf servers))
    lastSyncAt := some now
    lastSyncStatus := some .ok
    updatedAt := now }
  records : ∃ sub, S.subscriptionId = some sub ∧
    List.Forall₂ (RecordOf sub S.kind.asKebab) (servers.filterMap (sampleOf last)) records

/-- The row that was read, but for what an edit may change. -/
structure Edited (S source' : ProbeSource) : Prop where
  id : source'.id = S.id
  revision : source'.revision = S.revision
  kind : source'.kind = S.kind
  snapshot : source'.lastCounterSnapshot = S.lastCounterSnapshot

/-- **What precedes each write of a command.** -/
def Protocol (E : Env) (h : History Call.Reply) : Call → Prop
  | .update source' => ∃ id S, ⟨.findSource id, .ok (some S)⟩ ∈ h ∧ Edited S source'
  | .commitSync source' records => ∃ S servers last, Synced E h source' records S servers last
  | _ => True

section Follows

variable {E : Env} {h : History Call.Reply} {S : ProbeSource} {id : ProbeSourceId}

/-- A command keeps to the protocol. -/
abbrev Keeps {α : Type} (E : Env) (Q : History Call.Reply → α → Prop) (p : Command α)
    (h : History Call.Reply) : Prop :=
  p.run.Follows (Protocol E) (Ends (fun _ => True) Q) h

theorem keeps_ask {α β : Type} {c : Call} {f : c.Reply → Except AppError α} {g : α → Command β}
    {Q : History Call.Reply → β → Prop} (hc : Protocol E h c)
    (hok : ∀ a b, f a = .ok b → Keeps E Q (g b) (⟨c, a⟩ :: h)) : Keeps E Q (ask c f >>= g) h :=
  follows_ask_bind hc (fun _ _ _ => trivial) hok

theorem keeps_lift {α β : Type} {x : Except AppError α} {g : α → Command β}
    {Q : History Call.Reply → β → Prop} (hok : ∀ b, x = .ok b → Keeps E Q (g b) h) :
    Keeps E Q (lift x >>= g) h :=
  follows_lift_bind (fun _ _ => trivial) hok

/-- The source is read, and then the rest. -/
theorem keeps_findSource {β : Type} {g : ProbeSource → Command β}
    {Q : History Call.Reply → β → Prop}
    (hok : ∀ S, Keeps E Q (g S) (⟨.findSource id, .ok (some S)⟩ :: h)) :
    Keeps E Q (findSource id >>= g) h := by
  refine keeps_ask trivial fun a S hS => ?_
  obtain ⟨o, ho, hS⟩ := bind_eq_ok.1 hS
  obtain rfl := mapError_eq_ok.1 ho
  obtain rfl := okOr_eq_ok.1 hS
  exact hok S

/-- A last call that is allowed. -/
theorem keeps_last {α : Type} {c : Call} {f : c.Reply → Except AppError α} (hc : Protocol E h c) :
    Keeps E (fun _ _ => True) (ask c f) h :=
  follows_ask hc fun _ => ends_of (fun _ _ => trivial) fun _ _ => trivial

/-- The panel is read once. -/
theorem follows_fetchReading : (fetchReading S).run.Follows (Protocol E)
    (Ends (fun h' => h <:+ h') fun h' servers => ∃ panel, h' = panel :: h ∧
      reading panel = some (S.kind, S.endpointUrl, servers)) h := by
  unfold fetchReading
  cases hkind : S.kind with
  | nezha =>
    refine ⟨trivial, fun a => ?_⟩
    cases a with
    | ok servers => exact ⟨_, rfl, rfl⟩
    | error e => exact List.suffix_cons _ h
  | dStatus =>
    refine ⟨trivial, fun a => ?_⟩
    cases a with
    | ok data => exact ⟨_, rfl, rfl⟩
    | error e => exact List.suffix_cons _ h
  | komari =>
    refine ⟨trivial, fun a => ?_⟩
    cases a with
    | ok results => exact ⟨_, rfl, rfl⟩
    | error e => exact List.suffix_cons _ h

/-- What an adapter answers. -/
structure AdapterAnswer (E : Env) (S : ProbeSource) (h h' : History Call.Reply)
    (result : ProbeSyncResult) : Prop where
  answer : ∃ panel servers last, h' = panel :: h ∧
    reading panel = some (S.kind, S.endpointUrl, servers) ∧
    E.codecs.parseSnapshot S.kind S.lastCounterSnapshot = .ok last ∧
    result = ⟨servers.filterMap (sampleOf last),
      some (E.codecs.printSnapshot S.kind (snapshotOf servers))⟩

theorem follows_syncTraffic : (syncTraffic E S).run.Follows (Protocol E)
    (Ends (fun h' => h <:+ h') (AdapterAnswer E S h)) h := by
  refine follows_lift_bind (fun _ _ => List.suffix_refl h) fun _ _ => ?_
  refine follows_lift_bind (fun _ _ => List.suffix_refl h) fun last hlast => ?_
  refine follows_fetchReading.bindOk fun h' servers hread => ?_
  obtain ⟨panel, rfl, hpanel⟩ := hread
  refine ⟨panel, servers, last, rfl, hpanel, hlast, ?_⟩
  simp only [computeSamples_eq, List.nil_append]
  rfl

/-- The records of the samples. -/
theorem keeps_buildRecords {sub : SubscriptionId} {label : Str} (samples : List ProbeTrafficSample)
    (h : History Call.Reply) : Keeps E (fun h' records => h <:+ h' ∧
      List.Forall₂ (RecordOf sub label) samples records) (buildRecords sub label samples) h := by
  induction samples generalizing h with
  | nil => exact ⟨List.suffix_refl h, .nil⟩
  | cons sample samples ih =>
    refine keeps_ask trivial fun _ id _ => keeps_ask trivial fun _ recordedAt _ => ?_
    refine (ih _).bindOk fun h' records hr => ⟨?_, .cons ⟨rfl, rfl, rfl, rfl⟩ hr.2⟩
    exact ((List.suffix_cons _ h).trans (List.suffix_cons _ _)).trans hr.1

theorem keeps_commitResult {sub : SubscriptionId} {result : ProbeSyncResult} {h' : History Call.Reply}
    (hread : ⟨.findSource id, .ok (some S)⟩ ∈ h) (hsub : S.subscriptionId = some sub)
    (hanswer : AdapterAnswer E S h h' result) :
    Keeps E (fun _ _ => True) (commitResult S sub result) h' := by
  obtain ⟨panel, servers, last, rfl, hpanel, hlast, rfl⟩ := hanswer.answer
  refine keeps_ask trivial fun now t ht => ?_
  refine (keeps_buildRecords _ _).bindOk fun h' records hr => ?_
  refine keeps_ask ⟨S, servers, last, ?_⟩ fun _ _ _ => trivial
  refine ⟨⟨id, panel, hpanel, ?_⟩, hlast, ⟨t, rfl⟩, sub, hsub, hr.2⟩
  have hcalls : List.Sublist [panel, ⟨.findSource id, .ok (some S)⟩] (panel :: h) :=
    (List.singleton_sublist.2 hread).cons_cons panel
  exact (hcalls.trans (List.sublist_cons_self _ _)).trans hr.1.sublist

/-- **A sync keeps to the protocol.** -/
theorem keeps_syncProbeTraffic : Keeps E (fun _ _ => True) (syncProbeTraffic E id) h := by
  refine keeps_findSource fun S => keeps_lift fun _ _ => keeps_lift fun sub hsub => ?_
  refine follows_attempt_bind follows_syncTraffic fun h' r hr => ?_
  cases r with
  | ok result => exact keeps_commitResult List.mem_cons_self (okOr_eq_ok.1 hsub) hr
  | error e =>
    refine keeps_ask trivial fun _ _ _ => keeps_ask trivial fun _ _ _ => ?_
    refine keeps_last ⟨id, S, ?_, rfl, rfl, rfl, rfl⟩
    exact List.mem_cons_of_mem _ (List.mem_cons_of_mem _ (hr.subset List.mem_cons_self))

end Follows

/-! ## 5. The system -/

/-- A client runs one command. -/
inductive Client where
  | sync (id : ProbeSourceId)
  | edit (params : UpdateParams)
  | markFailed (id : ProbeSourceId) (message : Str)
  | markStale (id : ProbeSourceId)
  | delete (id : ProbeSourceId)

/-- The program of a client. -/
def Client.program (E : Env) : Client → Program Call.Reply Unit
  | .sync id => do let _ ← (syncProbeTraffic E id).run; return ()
  | .edit params => do let _ ← (updateProbeSource E params).run; return ()
  | .markFailed id message => do let _ ← (markSyncFailed id message).run; return ()
  | .markStale id => do let _ ← (markSyncStale id).run; return ()
  | .delete id => do let _ ← (deleteProbeSource id).run; return ()

/-- The clients at the start, over a database. -/
def system {ι : Type} (E : Env) (db : ProbeDb) (clients : ι → Client) :
    Config Call.Reply ProbeDb ι Unit :=
  ⟨db, fun i => (clients i).program E⟩

/-- **Every client keeps to the protocol.** -/
theorem client_follows (E : Env) (client : Client) :
    (client.program E).Follows (Protocol E) (fun _ _ => True) [] := by
  cases client with
  | sync id => exact keeps_syncProbeTraffic.bind fun _ _ _ => trivial
  | edit params =>
    have hkeeps : Keeps E (fun _ _ => True) (updateProbeSource E params) [] := by
      refine keeps_findSource fun S => keeps_lift fun _ _ => keeps_lift fun _ _ => ?_
      refine keeps_ask trivial fun _ now _ => keeps_ask ?_ fun _ _ _ => trivial
      exact ⟨_, S, List.mem_cons_of_mem _ List.mem_cons_self, rfl, rfl, rfl, rfl⟩
    exact hkeeps.bind fun _ _ _ => trivial
  | markFailed id message =>
    have hkeeps : Keeps E (fun _ _ => True) (markSyncFailed id message) [] := by
      refine keeps_findSource fun S => ?_
      refine keeps_ask trivial fun _ _ _ => keeps_ask trivial fun _ _ _ => keeps_last ?_
      exact ⟨id, S, List.mem_cons_of_mem _ (List.mem_cons_of_mem _ List.mem_cons_self),
        rfl, rfl, rfl, rfl⟩
    exact hkeeps.bind fun _ _ _ => trivial
  | markStale id =>
    have hkeeps : Keeps E (fun _ _ => True) (markSyncStale id) [] := by
      refine keeps_findSource fun S => keeps_ask trivial fun _ _ _ => keeps_last ?_
      exact ⟨_, S, List.mem_cons_of_mem _ List.mem_cons_self, rfl, rfl, rfl, rfl⟩
    exact hkeeps.bind fun _ _ _ => trivial
  | delete id =>
    have hkeeps : Keeps E (fun _ _ => True) (deleteProbeSource id) [] := keeps_last trivial
    exact hkeeps.bind fun _ _ _ => trivial

/-! ## 6. Ports that can be run -/

/-- What the outside answers in one turn of a schedule. -/
structure Outside where
  now : Timestamp
  id : Ulid
  servers : List (Nat × Bytes)
  nodes : List (Str × Nat)
  counters : List (Str × Except ProbeError (Option Bytes))

/-- The ports without faults, for one answer of the outside. -/
def Outside.answer (E : Env) (o : Outside) : (c : Call) → ProbeDb → c.Reply × ProbeDb
  | .now, db => (o.now, db)
  | .drawId, db => (o.id, db)
  | .findSource id, db => (.ok (db.sources.find id), db)
  | .fetchServers _ _, db => (.ok o.servers, db)
  | .fetchAllnodeStatus _, db => (.ok o.nodes, db)
  | .fetchCounters _, db => (.ok o.counters, db)
  | .update source, db => commit (Probes.updateOn source) db
  | .commitSync source records, db => commit (Probes.commitSync E.formatTs source records) db
  | .delete id, db => commit (Probes.delete id) db

/-- **The ports may answer so.** -/
theorem Outside.ports_answer (E : Env) (o : Outside) (c : Call) (db : ProbeDb) :
    ports E c db (o.answer E c db).1 (o.answer E c db).2 := by
  cases c with
  | now | drawId | fetchServers | fetchAllnodeStatus | fetchCounters => rfl
  | findSource => exact ⟨.inl rfl, rfl⟩
  | update | commitSync | delete => exact .inl rfl

/-- A schedule that is run from the start. -/
def trace {ι : Type} [DecidableEq ι] (E : Env) (db : ProbeDb) (clients : ι → Client)
    (turns : List (ι × Outside)) :
    Trace ι × Config Call.Reply ProbeDb ι Unit :=
  (system E db clients).exec (turns.map fun t => ⟨t.1, t.2.answer E⟩)

theorem trace_run {ι : Type} [DecidableEq ι] (E : Env) (db : ProbeDb) (clients : ι → Client)
    (turns : List (ι × Outside)) :
    Run (ports E) (system E db clients) (trace E db clients turns).1 (trace E db clients turns).2 := by
  refine Config.run_exec _ _ fun t ht op s => ?_
  obtain ⟨turn, -, rfl⟩ := List.mem_map.1 ht
  exact turn.2.ports_answer E op s

end Probe

end DeveSub
