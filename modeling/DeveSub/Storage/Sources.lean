/-
  File:      DeveSub/Storage/Sources.lean
  Subject:   The source repository (`source_repository.rs`, `source_repository/config_update.rs`).

  Administrator edits are refused while a refresh job of the source runs, take the validator of
  the active snapshot away, and bump the pool revision. Deleting a source withdraws the nodes no
  one else contributes and raises the withdrawal floor. The failure policy only writes `enabled`.
-/
import DeveSub.Storage.Schema

namespace DeveSub.Sources

/-! ## 1. Reading and creating -/

/-- `find_by_id`. -/
def findById (db : Db) (id : SourceId) : Option Source := db.sources.find id

/-- An empty header text is stored as none. -/
def stored (source : Source) : Source :=
  { source with headers := source.headers.filter fun h => !h.isEmpty }

/-- Another source has the name. -/
def nameTaken (db : Db) (id : SourceId) (name : Str) : Bool :=
  db.sources.rows.any fun s => s.name = name && s.id ≠ id

/-- `create`: a violated key or name is answered alike. -/
def create (source : Source) : Tx Db SourceError Unit := fun db =>
  if db.sources.rows.any fun s => s.name = source.name then .error .nameExists
  else match h : db.sources.insert (stored source) with
    | none => .error .nameExists
    | some sources => .ok ((), db.withSources sources fun s hs =>
        ⟨s, (Table.mem_insert h).2 (.inl hs), rfl⟩)

/-! ## 2. Configuration edits -/

/-- A refresh job of the source is running. -/
def hasRunningJob (db : Db) (id : SourceId) : Bool :=
  db.jobs.rows.any fun j => j.sourceId = id && j.status = .running

/-- `guard_config_edit`. -/
def guardConfigEdit (db : Db) (id : SourceId) : Except SourceError Unit :=
  rejectWhen (hasRunningJob db id) (.refreshInProgress id.text)

/-- `invalidate_fetch_validator`. -/
def invalidateFetchValidator (db : Db) (id : SourceId) : Db :=
  { db with
    snapshots := db.snapshots.update (fun s => s.sourceId = id && s.isActive)
      (fun s => { s with etag := none }) fun _ => rfl }

/-- The configuration columns of `update` and `update_config`, written over a row. -/
structure Edit where
  apply : Source → Source
  keeps_id : ∀ s, (apply s).id = s.id

/-- `UPDATE sources SET ... WHERE id = ?`. -/
def Edit.on (e : Edit) (db : Db) (id : SourceId) : Db :=
  db.withSources (db.sources.update (fun s => s.id = id) e.apply e.keeps_id) fun _ hs =>
    Table.exists_mem_update _ _ hs

/-- An edit inside its transaction: guard, write, validator, revision. `name` is the name it
    writes. -/
def edit (id : SourceId) (name : Str) (e : Edit) : Tx Db SourceError Source := fun db => do
  guardConfigEdit db id
  match db.sources.find id with
  | none => .error .sourceNotFound
  | some row => do
    rejectWhen (nameTaken db id name) .nameExists
    let db' ← bumpRevisionTx (invalidateFetchValidator (e.on db id) id)
    return (e.apply row, db')

/-- The columns `update` writes: all but the key. -/
def updateEdit (source : Source) : Edit where
  apply row := { stored source with id := row.id }
  keeps_id _ := rfl

/-- `update`. -/
def update (source : Source) : Tx Db SourceError Unit := fun db => do
  let (_, db') ← edit source.id source.name (updateEdit source) db
  return ((), db')

/-- The columns `apply_config` writes: an absent URL, the method and the headers stay. -/
def configEdit (u : SourceConfigUpdate) : Edit where
  apply row :=
    { row with
      name := u.name
      sourceType := u.sourceType
      url := u.url.getD row.url
      autoUpdate := u.autoUpdate
      updateIntervalSecs := u.updateIntervalSecs
      enabled := u.enabled
      keepOnFail := u.keepOnFail
      filterRules := u.filterRules }
  keeps_id _ := rfl

/-- `apply_config`. -/
def applyConfig (u : SourceConfigUpdate) : Tx Db SourceError Source :=
  edit u.id u.name (configEdit u)

/-- `apply_failure_policy`: only the job that still holds the lease disables the source. -/
def applyFailurePolicy (id : SourceId) (jobId : JobId) : Tx Db SourceError Unit := fun db =>
  let live := db.jobs.rows.any fun j => j.id = jobId && j.sourceId = id && j.status = .running
  .ok ((), db.withSources (db.sources.update (fun s => s.id = id && !s.keepOnFail && live)
    (fun s => { s with enabled := false }) fun _ => rfl) fun _ hs => Table.exists_mem_update _ _ hs)

/-! ## 3. Deletion -/

/-- A binding of the node to the source. -/
def boundTo (bindings : List Binding) (nodeId : NodeId) (id : SourceId) : Bool :=
  bindings.any fun b => b.nodeId = nodeId && b.sourceId = id

/-- A binding of the node to another source. -/
def boundElsewhere (bindings : List Binding) (nodeId : NodeId) (id : SourceId) : Bool :=
  bindings.any fun b => b.nodeId = nodeId && b.sourceId ≠ id

/-- The nodes only this source contributes. -/
def withdrawnBy (bindings : List Binding) (id : SourceId) (n : NodeRow) : Bool :=
  n.sourceLabel.isEmpty && !n.missingFromSource && boundTo bindings n.id id &&
    !boundElsewhere bindings n.id id

/-- `SET missing_from_source = 1, revision = revision + 1`. -/
def markMissing (n : NodeRow) : NodeRow :=
  { n with missingFromSource := true, revision := n.revision + 1 }

theorem markMissing_key (n : NodeRow) : Keyed.key (markMissing n) = Keyed.key n := rfl

/-- The rows of a source go with it: `ON DELETE CASCADE`. -/
def cascade (db : Db) (id : SourceId) : Db :=
  { db with
    sources := db.sources.delete fun s => s.id = id
    snapshots := db.snapshots.delete fun s => s.sourceId = id
    jobs := db.jobs.delete fun j => j.sourceId = id
    bindings := db.bindings.filter fun b => b.sourceId ≠ id
    binding_source := fun b hb => by
      obtain ⟨hb, hne⟩ := List.mem_filter.1 hb
      obtain ⟨s, hs, hid⟩ := db.binding_source b hb
      refine ⟨s, Table.mem_delete.2 ⟨hs, ?_⟩, hid⟩
      simpa [hid] using hne }

/-- `delete`. -/
def delete (id : SourceId) : Tx Db SourceError Unit := fun db =>
  match db.sources.find id with
  | none => .error .sourceNotFound
  | some _ => do
    let nodes := db.nodes.update (withdrawnBy db.bindings id) markMissing markMissing_key
    let db' ← raiseFloorTx (cascade { db with nodes } id)
    return ((), db')

/-! ## 4. What a successful write did -/

theorem create_eq_ok {db db' : Db} {source : Source} {r : Unit}
    (h : create source db = .ok (r, db')) :
    ∃ sources hs, db.sources.insert (stored source) = some sources ∧
      db' = db.withSources sources hs := by
  unfold create at h
  split at h
  · cases h
  split at h
  · cases h
  rename_i sources hins
  obtain ⟨-, rfl⟩ := ok_pair_inj h
  exact ⟨sources, _, hins, rfl⟩

/-- **A committed edit**: no job was running, the source is there, and only its row, the
    validator and the revision change. -/
theorem edit_eq_ok {db db' : Db} {id : SourceId} {name : Str} {e : Edit} {s : Source}
    (h : edit id name e db = .ok (s, db')) :
    hasRunningJob db id = false ∧ (∃ row, db.sources.find id = some row ∧ s = e.apply row) ∧
      ∃ m : PoolMeta, m.revision = db.revision + 1 ∧ m.withdrawalRevision = db.floor ∧
        db' = { invalidateFetchValidator (e.on db id) id with poolMeta := m } := by
  obtain ⟨_, hguard, h⟩ := bind_eq_ok.1 h
  have hfree := rejectWhen_eq_ok.1 hguard
  cases hrow : db.sources.find id with
  | none => rw [hrow] at h; cases h
  | some row =>
    rw [hrow] at h
    obtain ⟨_, _, h⟩ := bind_eq_ok.1 h
    obtain ⟨d, hbump, h⟩ := bind_eq_ok.1 h
    obtain ⟨rfl, rfl⟩ := ok_pair_inj h
    obtain ⟨m, hrev, hfl, heq⟩ := bumpRevisionTx_eq_ok hbump
    exact ⟨hfree, ⟨row, rfl, rfl⟩, m, hrev, hfl, heq⟩

theorem update_eq_ok {db db' : Db} {source : Source} (h : update source db = .ok ((), db')) :
    ∃ s, edit source.id source.name (updateEdit source) db = .ok (s, db') := by
  obtain ⟨⟨s, d⟩, hedit, h⟩ := bind_eq_ok.1 h
  obtain ⟨-, rfl⟩ := ok_pair_inj h
  exact ⟨s, hedit⟩

/-- **A committed deletion** withdraws the source's own nodes, drops its rows and raises the
    floor to the new revision. -/
theorem delete_eq_ok {db db' : Db} {id : SourceId} (h : delete id db = .ok ((), db')) :
    (∃ row, db.sources.find id = some row) ∧
      ∃ m : PoolMeta, m.revision = db.revision + 1 ∧ m.withdrawalRevision = db.revision + 1 ∧
        db' = { cascade { db with
          nodes := db.nodes.update (withdrawnBy db.bindings id) markMissing markMissing_key } id with
          poolMeta := m } := by
  unfold delete at h
  cases hrow : db.sources.find id with
  | none => rw [hrow] at h; cases h
  | some row =>
    rw [hrow] at h
    obtain ⟨d, hraise, h⟩ := bind_eq_ok.1 h
    obtain ⟨-, rfl⟩ := ok_pair_inj h
    obtain ⟨m, hrev, hfl, heq⟩ := raiseFloorTx_eq_ok hraise
    exact ⟨⟨row, rfl⟩, m, hrev, hfl, heq⟩

end DeveSub.Sources
