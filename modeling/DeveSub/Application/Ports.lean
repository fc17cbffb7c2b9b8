/-
  File:      DeveSub/Application/Ports.lean
  Subject:   The ports of the application layer: every call it makes on a repository or on the
             outside, and what each may answer.

  A repository call is one atomic step on the database; it may also fail with a storage error
  and change nothing. Calls on the outside (a fresh id, the clock, the cancel flag, the fetcher,
  the content parser with the ids it draws, the GeoIP lookup) answer anything and change nothing.
  Template versions are never rewritten: whatever version a read returns is the one of
  `World.versions`. Whether a template is there, and which version is active, is left open.

  * `ports` -- the semantics of the calls;
  * `ports_change` -- what a call can do to the database, by cases;
  * `Outside.answer` -- ports that can be run, for given answers of the outside.
-/
import DeveSub.Lib.Program
import DeveSub.Storage.GenerationCache
import DeveSub.Storage.NodeOverrides
import DeveSub.Storage.Reconcile

namespace DeveSub

/-! ## 1. What the outside answers -/

/-- `FetchError`. -/
inductive FetchError where
  | ssrf (detail : Str)
  | timeout (seconds : Nat)
  | tooLarge (bytes : Nat)
  | http (status : Nat) (body : Str)
  | connection (detail : Str)
  | tooManyRedirects

/-- `FetchError::redacted`, the text that may be stored. -/
def FetchError.redacted : FetchError → Str
  | .ssrf _ => "SSRF rejected"
  | .timeout s => "fetch timeout after ".toList ++ natText s ++ ['s']
  | .tooLarge n => "response too large: ".toList ++ natText n ++ " bytes".toList
  | .http status _ => "HTTP ".toList ++ natText status
  | .connection detail => "connection error: ".toList ++ detail
  | .tooManyRedirects => "too many redirects"

/-- `FetchResult`. -/
inductive FetchResult where
  | ok (body : List UInt8) (etag contentType : Option Str)
  | notModified

/-- `ParseContentError`. -/
inductive ParseContentError where
  | tooLarge
  | invalidUtf8 (detail : Str)
  | parse (detail : Str)
  | tooManyNodes (count : Nat)

/-- The text of a parse error. -/
def ParseContentError.text : ParseContentError → Str
  | .tooLarge => "input exceeds 10485760 bytes"
  | .invalidUtf8 d => "invalid UTF-8 in response body: ".toList ++ d
  | .parse d => "parse error: ".toList ++ d
  | .tooManyNodes n => "too many nodes: ".toList ++ natText n ++ " (max 10000)".toList

/-- `RegionDetection`, with the addresses as the texts that are stored. -/
structure RegionDetection where
  region : Option Str
  candidateIps : List Str

/-! ## 2. The write transactions -/

/-- What a run does not change: the template versions, the digest that identifies a node, and
    the search for a cycle of chains. -/
structure World where
  versions : TemplateId → UInt64 → Option TemplateVersion
  versions_eq : ∀ t n v, versions t n = some v → v.templateId = t ∧ v.version = n
  fingerprint : PooledNode → Except SourceError Str
  findCycle : List (NodeId × List NodeId) → NodeId → List NodeId → Option (List NodeId)

/-- The writes of the source, job and pool repositories. -/
inductive Write where
  | createSource (source : Source)
  | updateSource (source : Source)
  | updateSourceConfig (u : SourceConfigUpdate)
  | disableAfterFailure (id : SourceId) (jobId : JobId)
  | deleteSource (id : SourceId)
  | createJob (job : SourceRefreshJob)
  | markRunning (id : JobId)
  | updatePhase (id : JobId) (phase : RefreshPhase) (now : Timestamp)
  | markFailed (id : JobId) (message : Str) (now : Timestamp)
  | markCancelled (id : JobId) (now : Timestamp)
  | deleteJob (id : JobId)
  | recoverCrashedJobs (now : Timestamp)
  | recoverStaleJobs (cutoff : Timestamp) (reason : Str) (now : Timestamp)
  | pruneJobs (cutoff : Timestamp)
  | touchFetchedAt (sourceId : SourceId) (jobId : JobId) (now : Timestamp)
  | reconcile (input : ReconcileInput) (now : Timestamp)
  | importNodes (input : List PooledNode)
  | upsertOverride (o : NodeOverride)
  | deleteOverride (nodeId : NodeId)
  | patchOverrideRegion (newId : Ulid) (nodeId : NodeId) (region : Option Str)
  | batchSetEnabled (nodeIds : List NodeId) (enabled : Bool) (newId : NodeId → Ulid)
  | applyTags (assignments : List (NodeId × List TagId)) (mode : TagUpdateMode)
  | renameTag (tagId : TagId) (name : Str) (color : Option Str)
  | createTag (id : TagId) (name : Str) (color : Option Str)
  | deleteTag (tagId : TagId)
  | setChain (nodeId : NodeId) (chain : Option (List NodeId))

/-- What a committed write answers. -/
def Write.Result : Write → Type
  | .updateSourceConfig _ => Source
  | .recoverCrashedJobs _ | .recoverStaleJobs _ _ _ | .pruneJobs _ | .batchSetEnabled _ _ _ => Nat
  | .reconcile _ _ => ReconcileResult
  | .importNodes _ => ImportResult
  | .renameTag _ _ _ | .createTag _ _ _ => Tag
  | .createSource _ | .updateSource _ | .disableAfterFailure _ _ | .deleteSource _ | .createJob _
  | .markRunning _ | .updatePhase _ _ _ | .markFailed _ _ _ | .markCancelled _ _ | .deleteJob _
  | .touchFetchedAt _ _ _ | .upsertOverride _ | .deleteOverride _ | .patchOverrideRegion _ _ _
  | .applyTags _ _ | .deleteTag _ | .setChain _ _ => Unit

/-- The transaction of a write. -/
def Write.run (W : World) : (w : Write) → Tx Db SourceError w.Result
  | .createSource source => Sources.create source
  | .updateSource source => Sources.update source
  | .updateSourceConfig u => Sources.applyConfig u
  | .disableAfterFailure id jobId => Sources.applyFailurePolicy id jobId
  | .deleteSource id => Sources.delete id
  | .createJob job => RefreshJobs.create job
  | .markRunning id => RefreshJobs.markRunning id
  | .updatePhase id phase now => RefreshJobs.updatePhase id phase now
  | .markFailed id message now => RefreshJobs.markFailed id message now
  | .markCancelled id now => RefreshJobs.markCancelled id now
  | .deleteJob id => RefreshJobs.delete id
  | .recoverCrashedJobs now => RefreshJobs.recoverCrashedJobs now
  | .recoverStaleJobs cutoff reason now => RefreshJobs.recoverStaleJobs cutoff reason now
  | .pruneJobs cutoff => RefreshJobs.prune cutoff
  | .touchFetchedAt sourceId jobId now => RefreshJobs.touchFetchedAt sourceId jobId now
  | .reconcile input now => NodePool.reconcileSource W.fingerprint input now
  | .importNodes input => NodePool.importNodes W.fingerprint input
  | .upsertOverride o => NodeOverrides.upsertOverride o
  | .deleteOverride nodeId => NodeOverrides.deleteOverride nodeId
  | .patchOverrideRegion newId nodeId region =>
    NodeOverrides.patchOverrideRegion newId nodeId region
  | .batchSetEnabled nodeIds enabled newId => NodeOverrides.batchSetEnabled nodeIds enabled newId
  | .applyTags assignments mode => NodeOverrides.applyTags assignments mode
  | .renameTag tagId name color => NodeOverrides.renameTag tagId name color
  | .createTag id name color => NodeOverrides.createTag id name color
  | .deleteTag tagId => NodeOverrides.deleteTag tagId
  | .setChain nodeId chain => NodeOverrides.setChainChecked W.findCycle nodeId chain

/-- A write of the job table alone. -/
def Write.isJobWrite : Write → Bool
  | .createJob _ | .markRunning _ | .updatePhase .. | .markFailed .. | .markCancelled ..
  | .deleteJob _ | .recoverCrashedJobs _ | .recoverStaleJobs .. | .pruneJobs _ => true
  | _ => false

/-- What such a write leaves as it was. -/
structure JobsOnly (db db' : Db) : Prop where
  nodes : db'.nodes = db.nodes
  bindings : db'.bindings = db.bindings
  sources : db'.sources = db.sources
  snapshots : db'.snapshots = db.snapshots
  poolMeta : db'.poolMeta = db.poolMeta
  entries : NodePool.entries db' = NodePool.entries db
  cache : db'.cache = db.cache

theorem Write.run_jobs {W : World} {w : Write} {db db' : Db} {r : w.Result}
    (hw : w.isJobWrite = true) (h : w.run W db = .ok (r, db')) : JobsOnly db db' := by
  cases w with
  | createJob =>
    obtain ⟨-, jobs, -, rfl⟩ := RefreshJobs.create_eq_ok h
    exact ⟨rfl, rfl, rfl, rfl, rfl, rfl, rfl⟩
  | markRunning =>
    obtain ⟨job, -, -, -, rfl⟩ := RefreshJobs.markRunning_eq_ok h
    exact ⟨rfl, rfl, rfl, rfl, rfl, rfl, rfl⟩
  | updatePhase | markFailed | markCancelled | deleteJob | recoverCrashedJobs | recoverStaleJobs
  | pruneJobs =>
    obtain ⟨-, rfl⟩ := ok_pair_inj h
    exact ⟨rfl, rfl, rfl, rfl, rfl, rfl, rfl⟩
  | _ => cases hw

/-- An administrator's write that leaves the nodes as they are. -/
def Write.isOverlay : Write → Bool
  | .upsertOverride _ | .deleteOverride _ | .patchOverrideRegion .. | .batchSetEnabled ..
  | .applyTags .. | .renameTag .. | .deleteTag _ => true
  | _ => false

theorem Write.run_overlay {W : World} {w : Write} {db db' : Db} {r : w.Result}
    (hw : w.isOverlay = true) (h : w.run W db = .ok (r, db')) :
    db' = db ∨ NodeOverrides.Administrative db.nodes db db' := by
  cases w with
  | upsertOverride => exact .inr (NodeOverrides.upsertOverride_eq_ok h)
  | deleteOverride => exact .inr (NodeOverrides.deleteOverride_eq_ok h)
  | patchOverrideRegion => exact .inr (NodeOverrides.patchOverrideRegion_eq_ok h)
  | batchSetEnabled => exact NodeOverrides.batchSetEnabled_eq_ok h
  | applyTags => exact NodeOverrides.applyTags_eq_ok h
  | renameTag => exact .inr (NodeOverrides.renameTag_eq_ok h)
  | deleteTag => exact .inr (NodeOverrides.deleteTag_eq_ok h)
  | _ => cases hw

/-! ## 3. The calls -/

/-- A call of the application layer. The last two are writes of other services that the cache
    depends on: a change of the subscriptions, and the deletion of a template, which takes its
    cache entries with it. -/
inductive Call where
  | drawId
  | now
  | isCancelled
  | fetch (url : Str) (etag : Option Str)
  | parseContent (sourceType : SourceType) (contentType : Option Str) (body : List UInt8)
  | detectRegion (host : Str)
  | templateExists (id : TemplateId)
  | findByVersionNumber (id : TemplateId) (number : UInt64)
  | findActiveVersion (id : TemplateId)
  | getRevision
  | pool (q : NodePool.Query)
  | findByKey (cacheKey : Str)
  | findActive (templateId : TemplateId) (profile : Str)
  | findLatest (shape : GenerationCache.Shape)
  | store (entry : CacheEntry)
  | activate (templateId : TemplateId) (profile : Str) (newId : CacheId)
  | findSource (id : SourceId)
  | findActiveSnapshot (id : SourceId)
  | write (w : Write)
  | setSubscriptions (rows : Table SubscriptionRow)
  | deleteTemplate (id : TemplateId)

/-- What a call answers. -/
def Call.Reply : Call → Type
  | .drawId => Ulid
  | .now => Timestamp
  | .isCancelled => Bool
  | .fetch _ _ => Except FetchError FetchResult
  | .parseContent _ _ _ => Except ParseContentError (List ReconcileEntry)
  | .detectRegion _ => RegionDetection
  | .templateExists _ => Except TemplateError Bool
  | .findByVersionNumber _ _ | .findActiveVersion _ => Except TemplateError (Option TemplateVersion)
  | .getRevision => Except SourceError Nat
  | .pool _ => Except SourceError (List NodePoolEntry)
  | .findByKey _ | .findActive _ _ | .findLatest _ => Except TemplateError (Option CacheEntry)
  | .store _ | .activate _ _ _ => Except TemplateError Unit
  | .findSource _ => Except SourceError (Option Source)
  | .findActiveSnapshot _ => Except SourceError (Option SourceSnapshot)
  | .write w => Except SourceError w.Result
  | .setSubscriptions _ | .deleteTemplate _ => Unit

/-- A call of a thread with its answer, and the database before and after it. -/
abbrev CallEvent (ι : Type) := Event Call.Reply Db ι

/-- The calls of a run in their order. -/
abbrev Trace (ι : Type) := List (CallEvent ι)

/-- A template version that is read is the one that was written. -/
def ReadsVersion (W : World) (id : TemplateId) (db : Db)
    (reply : Except TemplateError (Option TemplateVersion)) (db' : Db) : Prop :=
  (∀ v, reply = .ok (some v) → W.versions id v.version = some v) ∧ db' = db

/-- **What the ports may answer, and what the database then is.** -/
def ports (W : World) : Semantics Call.Reply Db
  | .drawId, db, _, db' | .now, db, _, db' | .isCancelled, db, _, db' | .fetch _ _, db, _, db'
  | .parseContent _ _ _, db, _, db' | .detectRegion _, db, _, db'
  | .templateExists _, db, _, db' => db' = db
  | .findByVersionNumber id number, db, a, db' =>
    ReadsVersion W id db a db' ∧ ∀ v, a = .ok (some v) → v.version = number
  | .findActiveVersion id, db, a, db' => ReadsVersion W id db a db'
  | .getRevision, db, a, db' => Reads db.revision .storage db a db'
  | .pool q, db, a, db' => Reads (NodePool.answer (NodePool.entries db) q) .storage db a db'
  | .findByKey key, db, a, db' => Reads (GenerationCache.findByKey db key) .storage db a db'
  | .findActive t p, db, a, db' => Reads (GenerationCache.findActive db t p) .storage db a db'
  | .findLatest shape, db, a, db' => Reads (GenerationCache.findLatest db shape) .storage db a db'
  | .store entry, db, a, db' => Writes (GenerationCache.store entry) .storage db a db'
  | .activate t p id, db, a, db' => Writes (GenerationCache.activate t p id) .storage db a db'
  | .findSource id, db, a, db' => Reads (Sources.findById db id) .storage db a db'
  | .findActiveSnapshot id, db, a, db' =>
    Reads (RefreshJobs.findActiveSnapshot db id) .storage db a db'
  | .write w, db, a, db' => Writes (w.run W) .storage db a db'
  | .setSubscriptions rows, db, _, db' => db' = { db with subscriptions := rows }
  | .deleteTemplate id, db, _, db' =>
    db' = { db with cache := db.cache.delete fun r => r.templateId = id }

/-! ## 4. What a call can do -/

/-- A call's effect on the database: none, or that of its committed transaction. -/
inductive Change (W : World) : Call → Db → Db → Prop where
  | none {op db} : Change W op db db
  | store {entry db db'} (h : GenerationCache.store entry db = .ok ((), db')) :
      Change W (.store entry) db db'
  | activate {t p id db db'} (h : GenerationCache.activate t p id db = .ok ((), db')) :
      Change W (.activate t p id) db db'
  | write {w r db db'} (h : Write.run W w db = .ok (r, db')) : Change W (.write w) db db'
  | setSubscriptions {rows db} :
      Change W (.setSubscriptions rows) db { db with subscriptions := rows }
  | deleteTemplate {id db} :
      Change W (.deleteTemplate id) db
        { db with cache := db.cache.delete fun r => r.templateId = id }

/-- **What a call can do to the database.** -/
theorem ports_change {W : World} {op : Call} {db db' : Db} {a : op.Reply} (h : ports W op db a db') :
    Change W op db db' := by
  cases op with
  | drawId | now | isCancelled | fetch | parseContent | detectRegion | templateExists =>
    obtain rfl : db' = db := h
    exact .none
  | findByVersionNumber =>
    obtain rfl := h.1.2
    exact .none
  | findActiveVersion | getRevision | pool | findByKey | findActive | findLatest | findSource
  | findActiveSnapshot =>
    obtain rfl := h.2
    exact .none
  | store entry =>
    rcases Writes.cases h with ⟨⟨⟩, -, h⟩ | ⟨-, rfl⟩
    · exact .store h
    · exact .none
  | activate t p id =>
    rcases Writes.cases h with ⟨⟨⟩, -, h⟩ | ⟨-, rfl⟩
    · exact .activate h
    · exact .none
  | write w =>
    rcases Writes.cases h with ⟨r, -, h⟩ | ⟨-, rfl⟩
    · exact .write h
    · exact .none
  | setSubscriptions rows =>
    obtain rfl : db' = _ := h
    exact .setSubscriptions
  | deleteTemplate id =>
    obtain rfl : db' = _ := h
    exact .deleteTemplate

/-- A write that does not answer has changed nothing. -/
theorem write_answered {W : World} {ι : Type} {e : CallEvent ι} {w : Write}
    (hs : ports W e.call e.before e.reply e.after) (hop : e.call = .write w) :
    (∃ r, e.Is (.write w) (.ok r)) ∨ e.after = e.before := by
  obtain ⟨i, op, a, before, after⟩ := e
  dsimp only at hop
  subst hop
  rcases Writes.cases hs with ⟨r, rfl, -⟩ | ⟨-, hdb⟩
  · exact .inl ⟨r, rfl⟩
  · exact .inr hdb

/-! ## 5. Ports that can be run -/

/-- What the outside answers in one turn of a schedule. -/
structure Outside (W : World) where
  id : Ulid
  now : Timestamp
  cancelled : Bool
  fetched : Except FetchError FetchResult
  parsed : Except ParseContentError (List ReconcileEntry)
  region : RegionDetection
  templateFound : Bool
  active : TemplateId → Option TemplateVersion
  active_eq : ∀ t v, active t = some v → W.versions t v.version = some v

/-- The ports without faults, for one answer of the outside. -/
def Outside.answer {W : World} (o : Outside W) : (c : Call) → Db → c.Reply × Db
  | .drawId, db => (o.id, db)
  | .now, db => (o.now, db)
  | .isCancelled, db => (o.cancelled, db)
  | .fetch _ _, db => (o.fetched, db)
  | .parseContent _ _ _, db => (o.parsed, db)
  | .detectRegion _, db => (o.region, db)
  | .templateExists _, db => (.ok o.templateFound, db)
  | .findByVersionNumber t n, db => (.ok (W.versions t n), db)
  | .findActiveVersion t, db => (.ok (o.active t), db)
  | .getRevision, db => (.ok db.revision, db)
  | .pool q, db => (.ok (NodePool.answer (NodePool.entries db) q), db)
  | .findByKey key, db => (.ok (GenerationCache.findByKey db key), db)
  | .findActive t p, db => (.ok (GenerationCache.findActive db t p), db)
  | .findLatest shape, db => (.ok (GenerationCache.findLatest db shape), db)
  | .store e, db => commit (GenerationCache.store e) db
  | .activate t p id, db => commit (GenerationCache.activate t p id) db
  | .findSource id, db => (.ok (Sources.findById db id), db)
  | .findActiveSnapshot id, db => (.ok (RefreshJobs.findActiveSnapshot db id), db)
  | .write w, db => commit (w.run W) db
  | .setSubscriptions rows, db => ((), { db with subscriptions := rows })
  | .deleteTemplate t, db => ((), { db with cache := db.cache.delete fun r => r.templateId = t })

/-- **The ports may answer so.** -/
theorem Outside.ports_answer {W : World} (o : Outside W) (c : Call) (db : Db) :
    ports W c db (o.answer c db).1 (o.answer c db).2 := by
  cases c with
  | drawId | now | isCancelled | fetch | parseContent | detectRegion | templateExists
  | setSubscriptions | deleteTemplate => rfl
  | findByVersionNumber t n =>
    have hversion : ∀ v, (.ok (W.versions t n) : Except TemplateError _) = .ok (some v) →
        v.version = n ∧ W.versions t n = some v := fun v hv =>
      ⟨(W.versions_eq t n v (Except.ok.inj hv)).2, Except.ok.inj hv⟩
    refine ⟨⟨fun v hv => ?_, rfl⟩, fun v hv => (hversion v hv).1⟩
    rw [(hversion v hv).1]
    exact (hversion v hv).2
  | findActiveVersion t => exact ⟨fun v hv => o.active_eq t v (Except.ok.inj hv), rfl⟩
  | getRevision | pool | findByKey | findActive | findLatest | findSource | findActiveSnapshot =>
    exact ⟨.inl rfl, rfl⟩
  | store | activate | write => exact .inl rfl

/-- The turn of a thread with an answer of the outside. -/
def Outside.turn {W : World} {ι : Type} (o : Outside W) (i : ι) : Turn Call.Reply Db ι :=
  ⟨i, o.answer⟩

/-- **A schedule with an answer of the outside for each turn is a run.** -/
theorem run_turns {W : World} {ι ρ : Type} [DecidableEq ι] (start : Config Call.Reply Db ι ρ)
    (schedule : List (ι × Outside W)) :
    Run (ports W) start (start.exec (schedule.map fun t => t.2.turn t.1)).1
      (start.exec (schedule.map fun t => t.2.turn t.1)).2 := by
  refine start.run_exec _ fun t ht op s => ?_
  obtain ⟨x, -, rfl⟩ := List.mem_map.1 ht
  exact x.2.ports_answer op s

/-! ## 6. For runs on fixed inputs -/

/-- A world in which every template has one version. -/
def World.plain : World where
  versions t n := if n = 1 then some ⟨t, 1, []⟩ else none
  versions_eq t n v h := by
    split at h
    · rename_i hn
      obtain rfl := Option.some.inj h
      exact ⟨rfl, hn.symm⟩
    · cases h
  fingerprint n := .ok n.id.text
  findCycle _ _ _ := none

/-- An outside that draws the given id. -/
def Outside.plain (id : Ulid) : Outside World.plain where
  id := id
  now := 0
  cancelled := false
  fetched := .error .tooManyRedirects
  parsed := .error .tooLarge
  region := ⟨none, []⟩
  templateFound := true
  active t := some ⟨t, 1, []⟩
  active_eq t v h := by
    obtain rfl := Option.some.inj h
    rfl

/-- A Trojan node with nothing but a name, an endpoint and a password. -/
def PooledNode.plain (id : NodeId) : PooledNode where
  id := id
  node :=
    { displayName := "n", protocol := .trojan, config := .trojan ⟨none⟩
      endpoint := ⟨.domain "a", 443⟩, authentication := .password "p", transport := none
      tls := none, udp := ⟨none, none⟩, multiplex := none, obfuscation := none
      congestion := none, extras := [] }
  region := none
  sourceLabel := []
  chain := none

/-- A source for runs on fixed inputs. -/
def Source.plain (id : SourceId) : Source :=
  ⟨id, "a", .auto, "u", "GET", none, false, 3600, true, true, none⟩

end DeveSub
