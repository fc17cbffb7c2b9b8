/-
  File:      DeveSub/Application/PoolRows.lean
  Subject:   What each write does to the nodes and their bindings, and the states writes lead to.

  * `RowChange` -- the five ways a committed write moves nodes and bindings;
  * `Write.run_rows` -- every committed write is one of them;
  * `Reachable` -- the databases any sequence of writes, committed or refused, leads to;
  * `Reachable.invariant` -- what holds at the start and through every change holds there.
-/
import DeveSub.Application.Ports
import DeveSub.Storage.EntryLoop
import DeveSub.Storage.ImportLoop

namespace DeveSub

open NodePool

/-! ## 1. The ways nodes and bindings move -/

/-- **A change of the nodes and their bindings.** -/
inductive RowChange (W : World) (db db' : Db) : Prop where
  | kept (nodes : db'.nodes = db.nodes) (bindings : db'.bindings = db.bindings)
  | withdrawn (id : SourceId)
      (nodes : db'.nodes =
        db.nodes.update (Sources.withdrawnBy db.bindings id) Sources.markMissing
          Sources.markMissing_key)
      (bindings : db'.bindings = db.bindings.filter fun b => b.sourceId ≠ id)
  | rebound (sourceId : SourceId) (entries : List (Option (PooledNode × Str)))
      (bound : List NodeId) (result : ReconcileResult)
      (nodes : rebind db.nodes db.bindings sourceId entries = .ok (db'.nodes, bound, result))
      (bindings : db'.bindings = reboundTo db.bindings sourceId bound)
  | imported (pairs : List (PooledNode × Str)) (r : ImportResult)
      (nodes : db'.nodes = (importPairs db.nodes r pairs).1) (bindings : db'.bindings = db.bindings)
  | chained (nodeId : NodeId) (chain : Option (List NodeId))
      (found : ∃ n ∈ db.nodes, n.id = nodeId)
      (checked : ∀ ids, chain = some ids → NodeOverrides.checkChain W.findCycle db nodeId ids = .ok ())
      (nodes : db'.nodes = db.nodes.update (fun n => n.id = nodeId) (fun n => { n with chain })
        fun _ => rfl)
      (bindings : db'.bindings = db.bindings)

theorem Sources.edit_kept {W : World} {db db' : Db} {id : SourceId} {name : Str} {e : Edit}
    {s : Source} (h : edit id name e db = .ok (s, db')) : RowChange W db db' := by
  obtain ⟨-, -, m, -, -, rfl⟩ := edit_eq_ok h
  exact .kept rfl rfl

/-- **What a committed write does to the nodes and their bindings.** -/
theorem Write.run_rows {W : World} {w : Write} {db db' : Db} {r : w.Result}
    (h : w.run W db = .ok (r, db')) : RowChange W db db' := by
  cases w with
  | createSource =>
    obtain ⟨sources, hs, -, rfl⟩ := Sources.create_eq_ok h
    exact .kept rfl rfl
  | updateSource =>
    obtain ⟨s, hedit⟩ := Sources.update_eq_ok h
    exact Sources.edit_kept hedit
  | updateSourceConfig => exact Sources.edit_kept h
  | deleteSource id =>
    obtain ⟨-, m, -, -, rfl⟩ := Sources.delete_eq_ok h
    exact .withdrawn id rfl rfl
  | disableAfterFailure =>
    obtain ⟨-, rfl⟩ := ok_pair_inj h
    exact .kept rfl rfl
  | createJob | markRunning | updatePhase | markFailed | markCancelled | deleteJob
  | recoverCrashedJobs | recoverStaleJobs | pruneJobs =>
    have hjobs := Write.run_jobs rfl h
    exact .kept hjobs.nodes hjobs.bindings
  | touchFetchedAt =>
    obtain ⟨-, rfl⟩ := RefreshJobs.touchFetchedAt_eq_ok h
    exact .kept rfl rfl
  | reconcile input =>
    obtain ⟨entries, bound, -, hrebind, hbind⟩ :=
      (NodePool.reconcileSource_eq_ok W.fingerprint h).rebound
    exact .rebound input.sourceId entries bound _ hrebind hbind
  | importNodes input =>
    obtain ⟨nodes, m, hall, -, -, rfl⟩ := NodePool.importNodes_eq_ok W.fingerprint h
    obtain ⟨fps, -, heq⟩ := importAll_eq_ok.1 hall
    exact .imported (input.zip fps) ⟨0, 0, []⟩ (by rw [heq]) rfl
  | upsertOverride | deleteOverride | patchOverrideRegion | batchSetEnabled | applyTags | renameTag
  | deleteTag =>
    rcases Write.run_overlay rfl h with rfl | hadmin
    · exact .kept rfl rfl
    · exact .kept hadmin.nodes_eq hadmin.bindings
  | createTag =>
    obtain ⟨tags, htags, -, rfl⟩ := NodeOverrides.createTag_eq_ok h
    exact .kept rfl rfl
  | setChain nodeId chain =>
    obtain ⟨hfound, hchecked, hadmin⟩ := NodeOverrides.setChainChecked_eq_ok h
    exact .chained nodeId chain hfound hchecked hadmin.nodes_eq hadmin.bindings

/-! ## 2. Reachable databases -/

/-- **The databases that writes lead to**, from the empty one; a write that fails is one of
    them too. -/
inductive Reachable (W : World) : Db → Prop where
  | start : Reachable W Db.empty
  | write {db db' : Db} (w : Write) (r : Except SourceError w.Result) (before : Reachable W db)
      (run : commit (w.run W) db = (r, db')) : Reachable W db'

/-- **An invariant of the rows** holds in every reachable database. -/
theorem Reachable.invariant {W : World} (Inv : Table NodeRow → List Binding → Prop)
    (hstart : Inv Table.empty [])
    (hstep : ∀ db db', RowChange W db db' → Inv db.nodes db.bindings → Inv db'.nodes db'.bindings)
    {db : Db} (h : Reachable W db) : Inv db.nodes db.bindings := by
  induction h with
  | start => exact hstart
  | @write db db' w r _ run ih =>
    rcases commit_eq run with ⟨a, -, hrun⟩ | ⟨e, -, -, rfl⟩
    · exact hstep db db' (Write.run_rows hrun) ih
    · exact ih

/-- A world in which the name of a node is its fingerprint. -/
def World.named : World := { World.plain with fingerprint := fun n => .ok n.node.displayName }

/-- The database a list of writes leads to. -/
def Db.afterWrites (W : World) (writes : List Write) : Db :=
  writes.foldl (fun db w => (commit (w.run W) db).2) Db.empty

theorem reachable_afterWrites (W : World) (writes : List Write) :
    Reachable W (Db.afterWrites W writes) := by
  unfold Db.afterWrites
  have hgen : ∀ db, Reachable W db →
      Reachable W (writes.foldl (fun db w => (commit (w.run W) db).2) db) := by
    induction writes with
    | nil => exact fun db h => h
    | cons w rest ih => exact fun db h => ih _ (.write w _ h rfl)
  exact hgen _ .start

end DeveSub
