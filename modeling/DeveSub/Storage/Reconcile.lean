/-
  File:      DeveSub/Storage/Reconcile.lean
  Subject:   The source reconciliation transaction (`node_pool_repository/reconcile.rs`): identity
             resolution, provenance and publication, in the batches the source uses.

  `reconcileSource` is one transaction. It publishes a snapshot, rebinds the source to the nodes
  of its entries, marks as missing what nothing contributes any more, bumps the revision and
  completes the job that holds the lease; when any step fails, nothing of it happened.
-/
import DeveSub.Storage.NodePool
import DeveSub.Storage.RefreshJobs

namespace DeveSub.NodePool

/-! ## 1. The snapshot -/

/-- `SOURCE_SNAPSHOT_RETAIN`. -/
def sourceSnapshotRetain : Nat := 10

/-- Step 1: the previous snapshot is not active any more. -/
def deactivateSnapshots (snapshots : Table SourceSnapshot) (sourceId : SourceId) :
    Table SourceSnapshot :=
  snapshots.update (fun s => s.sourceId = sourceId && s.isActive)
    (fun s => { s with isActive := false }) fun _ => rfl

/-- `idx_snapshots_source_version_unique`. -/
def versionTaken (snapshots : Table SourceSnapshot) (sourceId : SourceId) (version : Nat) : Bool :=
  snapshots.rows.any fun s => s.sourceId = sourceId && s.version = version

/-- Steps 1 and 2: the new snapshot is the active one. -/
def publishSnapshot (db : Db) (sourceId : SourceId) (snapshot : SourceSnapshot) :
    Except SourceError Db :=
  match db.sources.find sourceId with
  | none => .error (.storage "FOREIGN KEY constraint failed")
  | some _ =>
    if versionTaken db.snapshots sourceId snapshot.version then
      .error (.storage "UNIQUE constraint failed: source_snapshots.version")
    else
      match (deactivateSnapshots db.snapshots sourceId).insert
          { snapshot with sourceId, isActive := true } with
      | none => .error (.storage "UNIQUE constraint failed: source_snapshots.id")
      | some snapshots => .ok { db with snapshots }

/-- Step 8: only the newest ten snapshots of the source stay. -/
def pruneSnapshots (snapshots : Table SourceSnapshot) (sourceId : SourceId) :
    Table SourceSnapshot :=
  let kept := (((snapshots.rows.filter fun s => s.sourceId = sourceId).insertionSort
    fun a b => b.version ≤ a.version).take sourceSnapshotRetain).map SourceSnapshot.id
  snapshots.delete fun s => s.sourceId = sourceId && !kept.contains s.id

/-! ## 2. Identities -/

/-- The operation-local map: the node of a fingerprint, and whether it is missing. -/
abbrev Identities := Str → Option (NodeId × Bool)

/-- One group of the grouped query: the least present id, or else the least id, and whether all
    are missing. -/
def identityOf (nodes : Table NodeRow) (fp : Str) : Option (NodeId × Bool) :=
  let rows := nodes.rows.filter fun n => n.identityFingerprint = fp
  match (rows.filter fun n => !n.missingFromSource).argmin NodeRow.id with
  | some n => some (n.id, false)
  | none => (rows.argmin NodeRow.id).map fun n => (n.id, true)

/-- `identities.insert`. -/
def Identities.insert (m : Identities) (fp : Str) (v : NodeId × Bool) : Identities :=
  fun k => if k = fp then some v else m k

/-- `identities.entry(fp).or_insert`, for one row of the query. -/
def Identities.orInsert (nodes : Table NodeRow) (m : Identities) (fp : Str) : Identities :=
  match m fp, identityOf nodes fp with
  | none, some v => m.insert fp v
  | _, _ => m

/-- The lookup of the fingerprints, 500 at a time. -/
def lookupIdentities (nodes : Table NodeRow) (keys : List Str) : Identities :=
  (chunks 500 keys).foldl (fun m chunk => chunk.foldl (Identities.orInsert nodes) m) fun _ => none

/-! ## 3. The entries -/

/-- What the loop over the entries carries. -/
structure Progress where
  nodes : Table NodeRow
  identities : Identities
  result : ReconcileResult
  seen : List NodeId

/-- `SET missing_from_source = 0, revision = revision + 1 WHERE id = ?`. -/
def reactivate (nodes : Table NodeRow) (id : NodeId) : Table NodeRow :=
  nodes.update (fun n => n.id = id)
    (fun n => { n with missingFromSource := false, revision := n.revision + 1 }) fun _ => rfl

/-- One entry that carries a node: its node comes back, is there already, or is inserted. -/
def reconcileOne (p : Progress) (n : PooledNode) (fp : Str) :
    Except SourceError (Progress × NodeId) :=
  match p.identities fp with
  | some (id, true) =>
    .ok ({ p with
      nodes := reactivate p.nodes id
      identities := p.identities.insert fp (id, false)
      result := { p.result with reactivatedNodes := p.result.reactivatedNodes + 1 }
      seen := id :: p.seen }, id)
  | some (id, false) =>
    .ok ({ p with
      result := { p.result with duplicateNodes := p.result.duplicateNodes + 1 }
      seen := id :: p.seen }, id)
  | none =>
    match insertNode p.nodes n fp [] with
    | none => .error (.storage "unexpected node identity conflict inside write transaction")
    | some nodes =>
      .ok ({ p with
        nodes
        identities := p.identities.insert fp (n.id, false)
        result := { p.result with newNodes := p.result.newNodes + 1 }
        seen := n.id :: p.seen }, n.id)

/-- The entries of one batch, with the nodes it collects bindings for. -/
def reconcileBatch (p : Progress) (bound : List NodeId) :
    List (Option (PooledNode × Str)) → Except SourceError (Progress × List NodeId)
  | [] => .ok (p, bound)
  | none :: rest => reconcileBatch p bound rest
  | some (n, fp) :: rest => do
    let (p, id) ← reconcileOne p n fp
    reconcileBatch p (bound ++ [id]) rest

/-- The batches: the bindings of a batch are written at its end. -/
def reconcileBatches (p : Progress) (bound : List NodeId) :
    List (List (Option (PooledNode × Str))) → Except SourceError (Progress × List NodeId)
  | [] => .ok (p, bound)
  | batch :: rest => do
    let (p, new) ← reconcileBatch p [] batch
    reconcileBatches p (bound ++ new) rest

/-- The bindings after step 4 and the insertions of step 5. -/
def reboundTo (bindings : List Binding) (sourceId : SourceId) (bound : List NodeId) :
    List Binding :=
  (bindings.filter fun b => b.sourceId ≠ sourceId) ++ bound.map fun id => ⟨id, sourceId⟩

/-! ## 4. Missing nodes -/

/-- The update for one candidate that no binding holds. -/
def markMissingRow (nodes : Table NodeRow) (id : NodeId) : Table NodeRow :=
  nodes.update (fun n => n.id = id && n.sourceLabel.isEmpty && !n.missingFromSource)
    Sources.markMissing Sources.markMissing_key

/-- `rows_affected` of that update. -/
def missingCount (nodes : Table NodeRow) (id : NodeId) : Nat :=
  (nodes.rows.filter fun n => n.id = id && n.sourceLabel.isEmpty && !n.missingFromSource).length

/-- Whether a binding holds the node, of any source. -/
def isBound (bindings : List Binding) (id : NodeId) : Bool := bindings.any fun b => b.nodeId = id

/-- Step 6: the candidates that are not bound any more, 500 at a time. -/
def stillBound (bindings : List Binding) (candidates : List NodeId) : List NodeId :=
  (chunks 500 candidates).flatMap fun chunk => chunk.filter (isBound bindings)

/-- Step 6: marks the candidates nothing holds. -/
def markMissingAll (bound : List NodeId) :
    List NodeId → Table NodeRow × Nat → Table NodeRow × Nat
  | [], acc => acc
  | id :: rest, (nodes, count) =>
    if bound.contains id then markMissingAll bound rest (nodes, count)
    else markMissingAll bound rest (markMissingRow nodes id, count + missingCount nodes id)

/-! ## 5. The transaction -/

section Transaction

variable (fingerprint : PooledNode → Except SourceError Str)

/-- The fingerprint of an entry, if it carries a node. -/
def withFingerprint (entry : ReconcileEntry) : Except SourceError (Option (PooledNode × Str)) :=
  match entry with
  | none => .ok none
  | some n => do
    let fp ← fingerprint n
    return some (n, fp)

/-- Steps 3 to 6 on the node and binding tables: the nodes after them, and those the source is
    now bound to. -/
def rebind (nodes : Table NodeRow) (bindings : List Binding) (sourceId : SourceId)
    (entries : List (Option (PooledNode × Str))) :
    Except SourceError (Table NodeRow × List NodeId × ReconcileResult) := do
  let oldBound := (nodes.rows.filter fun n => Sources.boundTo bindings n.id sourceId).map
    NodeRow.id
  let keys := entries.filterMap fun e => e.map Prod.snd
  let start : Progress := ⟨nodes, lookupIdentities nodes keys, .zero, []⟩
  let (p, bound) ← reconcileBatches start [] (chunks 250 entries)
  let candidates := oldBound.filter fun id => !p.seen.contains id
  let (nodes, missing) := markMissingAll
    (stillBound (reboundTo bindings sourceId bound) candidates) candidates (p.nodes, 0)
  return (nodes, bound, { p.result with missingNodes := missing })

/-- The bindings of the source are replaced. `publishSnapshot` has found the source. -/
def replaceBindings (db : Db) (sourceId : SourceId) (bound : List NodeId) : Db :=
  match h : db.sources.find sourceId with
  | none => db
  | some s =>
    { db with
      bindings := reboundTo db.bindings sourceId bound
      binding_source := fun b hb => by
        rcases List.mem_append.1 hb with hb | hb
        · exact db.binding_source b (List.mem_filter.1 hb).1
        · obtain ⟨id, -, rfl⟩ := List.mem_map.1 hb
          exact ⟨s, Table.find_eq_some.1 h⟩ }

/-- The completion at the end of the transaction. -/
def completeIf (jobId : Option JobId) (sourceId : SourceId) (result : ReconcileResult)
    (now : Timestamp) (db : Db) : Except SourceError Db :=
  match jobId with
  | none => .ok db
  | some jobId => RefreshJobs.complete sourceId jobId result false now db

/-- `reconcile_source`. -/
def reconcileSource (input : ReconcileInput) (now : Timestamp) :
    Tx Db SourceError ReconcileResult := fun db => do
  let db ← publishSnapshot db input.sourceId input.snapshot
  let entries ← input.entries.mapM (withFingerprint fingerprint)
  let (nodes, bound, result) ← rebind db.nodes db.bindings input.sourceId entries
  let db ← bumpRevisionTx (replaceBindings { db with nodes } input.sourceId bound)
  let db := { db with snapshots := pruneSnapshots db.snapshots input.sourceId }
  let db ← completeIf input.jobId input.sourceId result now db
  return (result, db)

/-! ## 6. What a committed reconciliation did -/

/-- The job of a reconciliation held the lease and is completed; without one no job changes. -/
def JobCompleted (input : ReconcileInput) (result : ReconcileResult) (now : Timestamp)
    (jobs jobs' : Table SourceRefreshJob) : Prop :=
  match input.jobId with
  | none => jobs' = jobs
  | some jobId =>
    (∃ j ∈ jobs, RefreshJobs.holdsLease input.sourceId jobId j = true) ∧
      jobs' = RefreshJobs.setCompleted jobs input.sourceId jobId result false now

/-- **A committed reconciliation.** -/
structure Reconciled (input : ReconcileInput) (now : Timestamp) (result : ReconcileResult)
    (db db' : Db) : Prop where
  published : ∃ d, publishSnapshot db input.sourceId input.snapshot = .ok d ∧
    db'.snapshots = pruneSnapshots d.snapshots input.sourceId
  rebound : ∃ entries bound, input.entries.mapM (withFingerprint fingerprint) = .ok entries ∧
    rebind db.nodes db.bindings input.sourceId entries = .ok (db'.nodes, bound, result) ∧
    db'.bindings = reboundTo db.bindings input.sourceId bound
  completed : JobCompleted input result now db.jobs db'.jobs
  revision : db'.revision = db.revision + 1
  floor : db'.floor = db.floor
  sources : db'.sources = db.sources
  cache : db'.cache = db.cache

theorem publishSnapshot_eq_ok {db db' : Db} {sourceId : SourceId} {snapshot : SourceSnapshot}
    (h : publishSnapshot db sourceId snapshot = .ok db') :
    (∃ s, db.sources.find sourceId = some s) ∧
      versionTaken db.snapshots sourceId snapshot.version = false ∧
      ∃ snapshots, (deactivateSnapshots db.snapshots sourceId).insert
          { snapshot with sourceId, isActive := true } = some snapshots ∧
        db' = { db with snapshots } := by
  unfold publishSnapshot at h
  split at h
  · cases h
  rename_i s hs
  split at h
  · cases h
  rename_i hfree
  split at h
  · cases h
  rename_i snapshots hins
  obtain rfl := Except.ok.inj h
  exact ⟨⟨s, hs⟩, Bool.eq_false_of_not_eq_true hfree, snapshots, hins, rfl⟩

theorem replaceBindings_eq (db : Db) {sourceId : SourceId} {s : Source} (bound : List NodeId)
    (h : db.sources.find sourceId = some s) :
    ∃ hb, replaceBindings db sourceId bound =
      { db with bindings := reboundTo db.bindings sourceId bound, binding_source := hb } := by
  have hsource := Table.find_eq_some.1 h
  refine ⟨fun b hb => ?_, ?_⟩
  · rcases List.mem_append.1 hb with hb | hb
    · exact db.binding_source b (List.mem_filter.1 hb).1
    · obtain ⟨id, -, rfl⟩ := List.mem_map.1 hb
      exact ⟨s, hsource⟩
  · unfold replaceBindings
    split
    · rename_i hn
      rw [h] at hn
      cases hn
    · rfl

theorem completeIf_eq_ok {input : ReconcileInput} {result : ReconcileResult} {now : Timestamp}
    {db db' : Db} (h : completeIf input.jobId input.sourceId result now db = .ok db') :
    ∃ jobs, JobCompleted input result now db.jobs jobs ∧ db' = { db with jobs } := by
  unfold completeIf at h
  unfold JobCompleted
  split at h
  · obtain rfl := Except.ok.inj h
    exact ⟨_, rfl, rfl⟩
  · obtain ⟨hlease, rfl⟩ := RefreshJobs.complete_eq_ok h
    exact ⟨_, ⟨hlease, rfl⟩, rfl⟩

/-- **Everything a committed reconciliation did.** -/
theorem reconcileSource_eq_ok {input : ReconcileInput} {now : Timestamp} {db db' : Db}
    {result : ReconcileResult}
    (h : reconcileSource fingerprint input now db = .ok (result, db')) :
    Reconciled fingerprint input now result db db' := by
  obtain ⟨d, hpub, h⟩ := bind_eq_ok.1 h
  obtain ⟨⟨s, hs⟩, -, snapshots, -, rfl⟩ := publishSnapshot_eq_ok hpub
  obtain ⟨entries, hentries, h⟩ := bind_eq_ok.1 h
  obtain ⟨⟨nodes, bound, r⟩, hrebind, h⟩ := bind_eq_ok.1 h
  obtain ⟨b, hbump, h⟩ := bind_eq_ok.1 h
  obtain ⟨hb, hreplace⟩ := replaceBindings_eq { db with snapshots, nodes } bound hs
  obtain ⟨m, hrev, hfl, rfl⟩ := bumpRevisionTx_eq_ok (hreplace ▸ hbump)
  obtain ⟨c, hcomplete, h⟩ := bind_eq_ok.1 h
  obtain ⟨jobs, hjob, rfl⟩ := completeIf_eq_ok hcomplete
  obtain ⟨rfl, rfl⟩ := ok_pair_inj h
  exact {
    published := ⟨_, hpub, rfl⟩
    rebound := ⟨entries, bound, hentries, hrebind, rfl⟩
    completed := hjob
    revision := hrev
    floor := hfl
    sources := rfl
    cache := rfl }

end Transaction

end DeveSub.NodePool
