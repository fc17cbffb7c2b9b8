/-
  File:      DeveSub/Application/RefreshSteps.lean
  Subject:   What one call does to the jobs, the sources and the snapshots.

  Every call is classified by what it does to the row of one job (`JobMove`), to one source
  (`SourceMove`) and to the snapshots of one source (`snapshot_move`). A closed job is never opened
  again; a row becomes Running only where no other job of its source is; a source is edited only
  while none of its jobs runs; its snapshots keep version and standing unless a reconciliation of
  the source publishes or the source is deleted.

  * `LeaseUnique`, `leaseUnique_step` -- at most one job of a source runs, whatever is called;
  * `underLease_step` -- while a job runs before and after a call, its source keeps its
    configuration and its snapshots.
-/
import DeveSub.Application.PoolEvolution

namespace DeveSub

variable {W : World} {op : Call} {db db' : Db}

/-! ## 1. The calls that concern a source -/

/-- A write of the pool alone: imports, overrides, tags and chains. -/
def Write.isPoolOnly : Write → Bool
  | .importNodes _ | .upsertOverride _ | .deleteOverride _ | .patchOverrideRegion ..
  | .batchSetEnabled .. | .applyTags .. | .renameTag .. | .createTag .. | .deleteTag _
  | .setChain .. => true
  | _ => false

/-- Jobs, sources and snapshots are as they were. -/
structure SourcesAside (db db' : Db) : Prop where
  jobs : db'.jobs = db.jobs
  sources : db'.sources = db.sources
  snapshots : db'.snapshots = db.snapshots

theorem SourcesAside.refl (db : Db) : SourcesAside db db := ⟨rfl, rfl, rfl⟩

theorem poolOnly_aside {w : Write} {r : w.Result} (hw : w.isPoolOnly = true)
    (h : w.run W db = .ok (r, db')) : SourcesAside db db' := by
  cases w with
  | importNodes =>
    obtain ⟨nodes, m, -, -, -, rfl⟩ := NodePool.importNodes_eq_ok W.fingerprint h
    exact ⟨rfl, rfl, rfl⟩
  | upsertOverride | deleteOverride | patchOverrideRegion | batchSetEnabled | applyTags | renameTag
  | deleteTag =>
    rcases Write.run_overlay rfl h with rfl | hadmin
    · exact .refl _
    · exact ⟨hadmin.jobs, hadmin.sources, hadmin.snapshots⟩
  | createTag =>
    obtain ⟨tags, htags, -, rfl⟩ := NodeOverrides.createTag_eq_ok h
    exact ⟨rfl, rfl, rfl⟩
  | setChain =>
    obtain ⟨-, -, hadmin⟩ := NodeOverrides.setChainChecked_eq_ok h
    exact ⟨hadmin.jobs, hadmin.sources, hadmin.snapshots⟩
  | _ => cases hw

/-- **A call leaves jobs, sources and snapshots alone, or is a committed write that concerns
    them.** -/
theorem change_aside (h : Change W op db db') : SourcesAside db db' ∨
    ∃ (w : Write) (r : w.Result), op = .write w ∧ w.isPoolOnly = false ∧
      w.run W db = .ok (r, db') := by
  cases h with
  | none => exact .inl (.refl _)
  | store h =>
    obtain ⟨cache, -, -, -, rfl⟩ := GenerationCache.store_eq_ok h
    exact .inl ⟨rfl, rfl, rfl⟩
  | activate h =>
    obtain ⟨cache, -, -, rfl⟩ := GenerationCache.activate_eq_ok h
    exact .inl ⟨rfl, rfl, rfl⟩
  | @write w r _ _ h =>
    by_cases hw : w.isPoolOnly = true
    · exact .inl (poolOnly_aside hw h)
    · exact .inr ⟨w, r, rfl, Bool.eq_false_of_not_eq_true hw, h⟩
  | setSubscriptions | deleteTemplate => exact .inl ⟨rfl, rfl, rfl⟩

/-! ## 2. The row of a job -/

/-- The row after a write of its phase. -/
def SourceRefreshJob.phased (row : SourceRefreshJob) (phase : RefreshPhase) (now : Timestamp) :
    SourceRefreshJob :=
  { row with phase := phase, startedAt := now }

/-- **What a call does to the row of one job.** -/
inductive JobMove (op : Call) (db : Db) :
    Option SourceRefreshJob → Option SourceRefreshJob → Prop where
  | absent : JobMove op db none none
  | kept {row} : JobMove op db (some row) (some row)
  | phased {row} (phase : RefreshPhase) (now : Timestamp)
      (hop : op = .write (.updatePhase row.id phase now)) :
      JobMove op db (some row) (some (row.phased phase now))
  | gone {row} : JobMove op db (some row) none
  | created {row} (hop : op = .write (.createJob row))
      (hfree : row.status = .running → RefreshJobs.leaseHeld db.jobs row.sourceId = false) :
      JobMove op db none (some row)
  | leased {row row'} (hop : op = .write (.markRunning row.id)) (hpending : row.status = .pending)
      (hfree : RefreshJobs.leaseHeld db.jobs row.sourceId = false)
      (hsource : row'.sourceId = row.sourceId) (hrunning : row'.status = .running) :
      JobMove op db (some row) (some row')
  | closed {row row'} (hopen : RefreshJobs.isOpen row = true)
      (hsource : row'.sourceId = row.sourceId) (hclosed : RefreshJobs.isOpen row' = false) :
      JobMove op db (some row) (some row')

theorem JobMove.refl (o : Option SourceRefreshJob) : JobMove op db o o := by
  cases o with
  | none => exact .absent
  | some row => exact .kept

theorem JobMove.of_eq (h : db'.jobs = db.jobs) (j : JobId) :
    JobMove op db (db.jobs.find j) (db'.jobs.find j) := by
  rw [h]
  exact .refl _

/-- The rows an update selects are rewritten. -/
theorem JobMove.of_update {o : Option SourceRefreshJob} {p : SourceRefreshJob → Bool}
    {f : SourceRefreshJob → SourceRefreshJob}
    (h : ∀ row, o = some row → p row = true → JobMove op db (some row) (some (f row))) :
    JobMove op db o (o.map fun r => if p r then f r else r) := by
  cases o with
  | none => exact .absent
  | some row =>
    rw [Option.map_some]
    by_cases hp : p row = true
    · rw [if_pos hp]
      exact h row rfl hp
    · rw [if_neg hp]
      exact .refl _

theorem JobMove.of_delete {p : SourceRefreshJob → Bool} (j : JobId) :
    JobMove op db (db.jobs.find j) ((db.jobs.delete p).find j) := by
  rw [Table.find_delete]
  cases db.jobs.find j with
  | none => exact .absent
  | some row =>
    by_cases hp : p row = true
    · rw [Option.filter_some, hp]
      exact .gone
    · rw [Option.filter_some, Bool.eq_false_of_not_eq_true hp]
      exact .refl _

theorem JobMove.of_close {p : SourceRefreshJob → Bool} {status : JobStatus} {now : Timestamp}
    {message : Option Str} (j : JobId) (hopen : ∀ row, p row = true → RefreshJobs.isOpen row = true)
    (hstatus : status = .failed ∨ status = .cancelled) :
    JobMove op db (db.jobs.find j) ((RefreshJobs.close db p status now message).jobs.find j) := by
  unfold RefreshJobs.close
  dsimp only
  rw [Table.find_update]
  refine .of_update fun row _ hp => .closed (hopen row hp) rfl ?_
  rcases hstatus with rfl | rfl <;> rfl

theorem JobMove.of_complete {sourceId : SourceId} {jobId : JobId} {result : ReconcileResult}
    {notModified : Bool} {now : Timestamp} (j : JobId) :
    JobMove op db (db.jobs.find j)
      ((RefreshJobs.setCompleted db.jobs sourceId jobId result notModified now).find j) := by
  unfold RefreshJobs.setCompleted
  rw [Table.find_update]
  refine .of_update fun row _ hp => .closed ?_ rfl rfl
  simp only [RefreshJobs.holdsLease, Bool.and_eq_true, decide_eq_true_eq] at hp
  simp [RefreshJobs.isOpen, hp.2]

theorem write_jobMove {w : Write} {r : w.Result} (hw : w.isPoolOnly = false)
    (h : w.run W db = .ok (r, db')) (j : JobId) :
    JobMove (.write w) db (db.jobs.find j) (db'.jobs.find j) := by
  cases w with
  | createSource =>
    obtain ⟨sources, hs, -, rfl⟩ := Sources.create_eq_ok h
    exact .of_eq rfl j
  | updateSource =>
    obtain ⟨s, hedit⟩ := Sources.update_eq_ok h
    obtain ⟨-, -, m, -, -, rfl⟩ := Sources.edit_eq_ok hedit
    exact .of_eq rfl j
  | updateSourceConfig =>
    obtain ⟨-, -, m, -, -, rfl⟩ := Sources.edit_eq_ok h
    exact .of_eq rfl j
  | disableAfterFailure =>
    obtain ⟨-, rfl⟩ := ok_pair_inj h
    exact .of_eq rfl j
  | deleteSource =>
    obtain ⟨-, m, -, -, rfl⟩ := Sources.delete_eq_ok h
    exact .of_delete j
  | createJob job =>
    obtain ⟨hfree, jobs, hins, rfl⟩ := RefreshJobs.create_eq_ok h
    dsimp only
    rw [Table.find_insert hins]
    by_cases hj : Keyed.key job = j
    · subst hj
      rw [if_pos rfl, Table.find_eq_none.2 fun x hx => Table.key_ne_of_insert hins hx]
      exact .created rfl hfree
    · rw [if_neg hj]
      exact .refl _
  | markRunning id =>
    obtain ⟨job, hjob, hpending, hfree, rfl⟩ := RefreshJobs.markRunning_eq_ok h
    dsimp only
    rw [RefreshJobs.setRunning, Table.find_update]
    refine .of_update fun row hrow hp => ?_
    simp only [RefreshJobs.isPending, Bool.and_eq_true, decide_eq_true_eq] at hp hpending
    obtain rfl : row = job := Table.eq_of_key (Table.find_eq_some.1 hrow).1 hjob
      (hp.1.trans hpending.1.symm)
    exact .leased (by rw [hp.1]) hp.2 hfree rfl rfl
  | updatePhase id phase now =>
    obtain ⟨-, rfl⟩ := ok_pair_inj h
    dsimp only
    rw [Table.find_update]
    exact .of_update fun row _ hp => .phased phase now (by rw [of_decide_eq_true hp])
  | markFailed =>
    obtain ⟨-, rfl⟩ := ok_pair_inj h
    exact .of_close j (fun row hp => (Bool.and_eq_true_iff.1 hp).2) (.inl rfl)
  | markCancelled =>
    obtain ⟨-, rfl⟩ := ok_pair_inj h
    exact .of_close j (fun row hp => (Bool.and_eq_true_iff.1 hp).2) (.inr rfl)
  | recoverCrashedJobs =>
    obtain ⟨-, rfl⟩ := ok_pair_inj h
    exact .of_close j (fun row hp => hp) (.inl rfl)
  | recoverStaleJobs =>
    obtain ⟨-, rfl⟩ := ok_pair_inj h
    refine .of_close j (fun row hp => ?_) (.inl rfl)
    simp only [Bool.and_eq_true, decide_eq_true_eq] at hp
    simp [RefreshJobs.isOpen, hp.1]
  | deleteJob | pruneJobs =>
    obtain ⟨-, rfl⟩ := ok_pair_inj h
    exact .of_delete j
  | touchFetchedAt =>
    obtain ⟨-, rfl⟩ := RefreshJobs.touchFetchedAt_eq_ok h
    exact .of_complete j
  | reconcile input now =>
    have hjobs := (NodePool.reconcileSource_eq_ok W.fingerprint h).completed
    unfold NodePool.JobCompleted at hjobs
    split at hjobs
    · exact .of_eq hjobs j
    · rw [hjobs.2]
      exact .of_complete j
  | _ => cases hw

/-- **What a call does to the row of a job.** -/
theorem job_move (h : Change W op db db') (j : JobId) :
    JobMove op db (db.jobs.find j) (db'.jobs.find j) := by
  rcases change_aside h with haside | ⟨w, r, rfl, hw, hrun⟩
  · exact .of_eq haside.jobs j
  · exact write_jobMove hw hrun j

/-- The job of the source is running: it holds the lease. -/
def Running (s : SourceId) (j : JobId) (db : Db) : Prop :=
  ∃ row, db.jobs.find j = some row ∧ row.sourceId = s ∧ row.status = .running

/-- The job is closed, or its row is gone. -/
def Ended (j : JobId) (db : Db) : Prop :=
  ∀ row, db.jobs.find j = some row → RefreshJobs.isOpen row = false

theorem Running.not_ended {s : SourceId} {j : JobId} (h : Running s j db) : ¬ Ended j db := by
  obtain ⟨row, hrow, -, hstatus⟩ := h
  intro hended
  have hopen := hended row hrow
  simp [RefreshJobs.isOpen, hstatus] at hopen

theorem holdsLease_running {s : SourceId} {j : JobId}
    (h : ∃ x ∈ db.jobs, RefreshJobs.holdsLease s j x = true) : Running s j db := by
  obtain ⟨x, hx, hlease⟩ := h
  simp only [RefreshJobs.holdsLease, Bool.and_eq_true, decide_eq_true_eq] at hlease
  exact ⟨x, Table.find_eq_some.2 ⟨hx, hlease.1.1⟩, hlease.1.2, hlease.2⟩

theorem Running.leaseHeld {s : SourceId} {j : JobId} (h : Running s j db) :
    RefreshJobs.leaseHeld db.jobs s = true := by
  obtain ⟨row, hrow, hsource, hstatus⟩ := h
  refine List.any_eq_true.2 ⟨row, (Table.find_eq_some.1 hrow).1, ?_⟩
  simp [hsource, hstatus]

/-- **A closed job stays closed**, unless a row with its id is created. -/
theorem ended_step (h : Change W op db db') {j : JobId} (hended : Ended j db)
    (hnew : ∀ job : SourceRefreshJob, op = .write (.createJob job) → job.id ≠ j) : Ended j db' := by
  intro row' hrow'
  have hmove := job_move h j
  rw [hrow'] at hmove
  cases hrow : db.jobs.find j with
  | none =>
    rw [hrow] at hmove
    cases hmove with
    | created hop =>
      exact absurd (Table.find_eq_some.1 hrow').2 (hnew row' hop)
  | some row =>
    have hclosed := hended row hrow
    rw [hrow] at hmove
    cases hmove with
    | kept | phased => exact hclosed
    | leased hop hpending => simp [RefreshJobs.isOpen, hpending] at hclosed
    | closed hopen hsource hclosed' => exact hclosed'

/-- **A running job goes on running, or is closed for good.** -/
theorem running_step (h : Change W op db db') {s : SourceId} {j : JobId} (hrun : Running s j db) :
    Running s j db' ∨ Ended j db' := by
  obtain ⟨row, hrow, hsource, hstatus⟩ := hrun
  have hmove := job_move h j
  rw [hrow] at hmove
  cases hrow' : db'.jobs.find j with
  | none => exact .inr fun row' h' => by rw [hrow'] at h'; cases h'
  | some row' =>
    rw [hrow'] at hmove
    cases hmove with
    | kept | phased => exact .inl ⟨_, hrow', hsource, hstatus⟩
    | leased hop hpending => rw [hstatus] at hpending; cases hpending
    | closed hopen hs hclosed =>
      refine .inr fun x hx => ?_
      rw [hrow'] at hx
      rwa [← Option.some.inj hx]

/-! ## 3. The lease -/

/-- `idx_refresh_jobs_lease`: at most one job of a source is running. -/
def LeaseUnique (db : Db) : Prop :=
  ∀ s j k, Running s j db → Running s k db → j = k

/-- A job that runs after a call ran before it, or the lease was free and the call is its own. -/
theorem running_before (h : Change W op db db') {s : SourceId} {j : JobId} (hrun : Running s j db') :
    Running s j db ∨ RefreshJobs.leaseHeld db.jobs s = false ∧
      (op = .write (.markRunning j) ∨ ∃ job : SourceRefreshJob, job.id = j ∧
        op = .write (.createJob job)) := by
  obtain ⟨row', hrow', hsource, hstatus⟩ := hrun
  have hmove := job_move h j
  rw [hrow'] at hmove
  cases hrow : db.jobs.find j with
  | none =>
    rw [hrow] at hmove
    cases hmove with
    | created hop hfree =>
      refine .inr ⟨hsource ▸ hfree hstatus, .inr ⟨row', (Table.find_eq_some.1 hrow').2, hop⟩⟩
  | some row =>
    rw [hrow] at hmove
    cases hmove with
    | kept | phased => exact .inl ⟨_, hrow, hsource, hstatus⟩
    | leased hop hpending hfree hs hst =>
      have hid : row.id = j := (Table.find_eq_some.1 hrow).2
      rw [hs] at hsource
      exact .inr ⟨hsource ▸ hfree, .inl (hid ▸ hop)⟩
    | closed hopen hs hclosed => simp [RefreshJobs.isOpen, hstatus] at hclosed

/-- **No call gives one lease to two jobs.** -/
theorem leaseUnique_step (h : Change W op db db') (hu : LeaseUnique db) : LeaseUnique db' := by
  intro s j k hj hk
  rcases running_before h hj with hj | ⟨hfree, hop⟩ <;>
    rcases running_before h hk with hk | ⟨hfree', hop'⟩
  · exact hu s j k hj hk
  · rw [hj.leaseHeld] at hfree'
    cases hfree'
  · rw [hk.leaseHeld] at hfree
    cases hfree
  · rcases hop with rfl | ⟨job, rfl, rfl⟩ <;> rcases hop' with hop' | ⟨job', rfl, hop'⟩
    · cases hop'
      rfl
    · cases hop'
    · cases hop'
    · cases hop'
      rfl

/-! ## 4. The configuration of a source -/

/-- The two administrator edits: which source, and what is written over its row. -/
def Write.configEdit : Write → Option (SourceId × Sources.Edit)
  | .updateSource source => some (source.id, Sources.updateEdit source)
  | .updateSourceConfig u => some (u.id, Sources.configEdit u)
  | _ => none

/-- The same configuration: only the failure policy's `enabled` may differ. -/
def SameConfig (a b : Source) : Prop := b = { a with enabled := b.enabled }

theorem SameConfig.trans {a b c : Source} (hab : SameConfig a b) (hbc : SameConfig b c) :
    SameConfig a c := by
  unfold SameConfig at *
  rw [hbc, hab]

/-- **What a call does to one source.** -/
inductive SourceMove (op : Call) (db : Db) (s : SourceId) : Option Source → Option Source → Prop where
  | absent : SourceMove op db s none none
  | kept {a b} (h : SameConfig a b) : SourceMove op db s (some a) (some b)
  | edited {a e w} (hop : op = .write w) (hedit : w.configEdit = some (s, e))
      (hfree : Sources.hasRunningJob db s = false) : SourceMove op db s (some a) (some (e.apply a))
  | deleted {a} (hop : op = .write (.deleteSource s)) : SourceMove op db s (some a) none
  | created {b x} (hop : op = .write (.createSource x)) (hid : x.id = s) :
      SourceMove op db s none (some b)

theorem SourceMove.refl {s : SourceId} (o : Option Source) : SourceMove op db s o o := by
  cases o with
  | none => exact .absent
  | some a => exact .kept rfl

theorem SourceMove.of_eq {s : SourceId} (h : db'.sources = db.sources) :
    SourceMove op db s (db.sources.find s) (db'.sources.find s) := by
  rw [h]
  exact .refl _

theorem edit_sourceMove {w : Write} {id s : SourceId} {name : Str} {e : Sources.Edit} {x : Source}
    (hw : w.configEdit = some (id, e)) (h : Sources.edit id name e db = .ok (x, db')) :
    SourceMove (.write w) db s (db.sources.find s) (db'.sources.find s) := by
  obtain ⟨hfree, -, m, -, -, rfl⟩ := Sources.edit_eq_ok h
  show SourceMove _ _ _ _ ((db.sources.update (fun r => r.id = id) e.apply e.keeps_id).find s)
  rw [Table.find_update]
  cases hrow : db.sources.find s with
  | none => exact .absent
  | some row =>
    have hid : row.id = s := (Table.find_eq_some.1 hrow).2
    rw [Option.map_some]
    by_cases hs : s = id
    · subst hs
      rw [if_pos (by simpa using hid)]
      exact .edited rfl hw hfree
    · rw [if_neg (by simpa [hid] using hs)]
      exact .refl _

theorem write_sourceMove {w : Write} {r : w.Result} (hw : w.isPoolOnly = false)
    (h : w.run W db = .ok (r, db')) (s : SourceId) :
    SourceMove (.write w) db s (db.sources.find s) (db'.sources.find s) := by
  cases w with
  | createSource x =>
    obtain ⟨sources, hs, hins, rfl⟩ := Sources.create_eq_ok h
    show SourceMove _ _ _ _ (sources.find s)
    rw [Table.find_insert hins]
    by_cases hid : Keyed.key (Sources.stored x) = s
    · subst hid
      rw [if_pos rfl, Table.find_eq_none.2 fun y hy => Table.key_ne_of_insert hins hy]
      exact .created rfl rfl
    · rw [if_neg hid]
      exact .refl _
  | updateSource =>
    obtain ⟨x, hedit⟩ := Sources.update_eq_ok h
    exact edit_sourceMove rfl hedit
  | updateSourceConfig => exact edit_sourceMove rfl h
  | disableAfterFailure =>
    obtain ⟨-, rfl⟩ := ok_pair_inj h
    show SourceMove _ _ _ _
      ((db.sources.update _ (fun x => { x with enabled := false }) fun _ => rfl).find s)
    rw [Table.find_update]
    cases db.sources.find s with
    | none => exact .absent
    | some row =>
      refine .kept ?_
      dsimp only
      split <;> rfl
  | deleteSource id =>
    obtain ⟨-, m, -, -, rfl⟩ := Sources.delete_eq_ok h
    show SourceMove _ _ _ _ ((db.sources.delete fun x => x.id = id).find s)
    rw [Table.find_delete]
    cases hrow : db.sources.find s with
    | none => exact .absent
    | some row =>
      have hid : row.id = s := (Table.find_eq_some.1 hrow).2
      by_cases hs : s = id
      · subst hs
        rw [Option.filter_some, if_neg (by simpa using hid)]
        exact .deleted rfl
      · rw [Option.filter_some, if_pos (by simpa [hid] using hs)]
        exact .refl _
  | createJob | markRunning | updatePhase | markFailed | markCancelled | deleteJob
  | recoverCrashedJobs | recoverStaleJobs | pruneJobs => exact .of_eq (Write.run_jobs rfl h).sources
  | touchFetchedAt =>
    obtain ⟨-, rfl⟩ := RefreshJobs.touchFetchedAt_eq_ok h
    exact .of_eq rfl
  | reconcile => exact .of_eq (NodePool.reconcileSource_eq_ok W.fingerprint h).sources
  | _ => cases hw

/-- **What a call does to a source.** -/
theorem source_move (h : Change W op db db') (s : SourceId) :
    SourceMove op db s (db.sources.find s) (db'.sources.find s) := by
  rcases change_aside h with haside | ⟨w, r, rfl, hw, hrun⟩
  · exact .of_eq haside.sources
  · exact write_sourceMove hw hrun s

/-! ## 5. The snapshots of a source -/

/-- The snapshot with its version and standing; its validator may have been taken away. -/
structure SnapshotKept (x y : SourceSnapshot) : Prop where
  id : y.id = x.id
  sourceId : y.sourceId = x.sourceId
  version : y.version = x.version
  isActive : y.isActive = x.isActive
  etag : y.etag = x.etag ∨ y.etag = none

theorem SnapshotKept.refl (x : SourceSnapshot) : SnapshotKept x x := ⟨rfl, rfl, rfl, rfl, .inl rfl⟩

theorem SnapshotKept.trans {x y z : SourceSnapshot} (h : SnapshotKept x y) (h' : SnapshotKept y z) :
    SnapshotKept x z := by
  refine ⟨h'.id.trans h.id, h'.sourceId.trans h.sourceId, h'.version.trans h.version,
    h'.isActive.trans h.isActive, ?_⟩
  rcases h'.etag with he | he
  · exact h.etag.imp he.trans he.trans
  · exact .inr he

/-- The snapshots of a source are kept, all of them, and no new one is there. -/
structure SnapshotsKept (s : SourceId) (db db' : Db) : Prop where
  back : ∀ y ∈ db'.snapshots, y.sourceId = s → ∃ x ∈ db.snapshots, SnapshotKept x y
  forth : ∀ x ∈ db.snapshots, x.sourceId = s → ∃ y ∈ db'.snapshots, SnapshotKept x y

theorem SnapshotsKept.refl (s : SourceId) (db : Db) : SnapshotsKept s db db :=
  ⟨fun y hy _ => ⟨y, hy, .refl y⟩, fun x hx _ => ⟨x, hx, .refl x⟩⟩

theorem SnapshotsKept.of_eq {s : SourceId} (h : db'.snapshots = db.snapshots) :
    SnapshotsKept s db db' :=
  ⟨fun y hy _ => ⟨y, h ▸ hy, .refl y⟩, fun x hx _ => ⟨x, h.symm ▸ hx, .refl x⟩⟩

theorem SnapshotsKept.trans {s : SourceId} {a b c : Db} (h : SnapshotsKept s a b)
    (h' : SnapshotsKept s b c) : SnapshotsKept s a c := by
  refine ⟨fun z hz hs => ?_, fun x hx hs => ?_⟩
  · obtain ⟨y, hy, hyz⟩ := h'.back z hz hs
    obtain ⟨x, hx, hxy⟩ := h.back y hy (hyz.sourceId.symm.trans hs)
    exact ⟨x, hx, hxy.trans hyz⟩
  · obtain ⟨y, hy, hxy⟩ := h.forth x hx hs
    obtain ⟨z, hz, hyz⟩ := h'.forth y hy (hxy.sourceId.trans hs)
    exact ⟨z, hz, hxy.trans hyz⟩

/-- An update that keeps version and standing of the rows. -/
theorem SnapshotsKept.of_update {s : SourceId} {p : SourceSnapshot → Bool}
    {f : SourceSnapshot → SourceSnapshot}
    (h : db'.snapshots.rows = db.snapshots.rows.map fun x => if p x then f x else x)
    (hkept : ∀ x, SnapshotKept x (f x)) : SnapshotsKept s db db' := by
  have hrow : ∀ x, SnapshotKept x (if p x then f x else x) := by
    intro x
    by_cases hp : p x = true
    · rw [if_pos hp]
      exact hkept x
    · rw [if_neg hp]
      exact .refl x
  refine ⟨fun y hy _ => ?_, fun x hx _ => ?_⟩
  · rw [Table.mem_def, h] at hy
    obtain ⟨x, hx, rfl⟩ := List.mem_map.1 hy
    exact ⟨x, hx, hrow x⟩
  · refine ⟨_, ?_, hrow x⟩
    rw [Table.mem_def, h]
    exact List.mem_map_of_mem hx

/-- The rows of another source stay. -/
theorem SnapshotsKept.of_iff {s : SourceId}
    (h : ∀ x : SourceSnapshot, x.sourceId = s → (x ∈ db'.snapshots ↔ x ∈ db.snapshots)) :
    SnapshotsKept s db db' :=
  ⟨fun y hy hs => ⟨y, (h y hs).1 hy, .refl y⟩, fun x hx hs => ⟨x, (h x hs).2 hx, .refl x⟩⟩

theorem edit_snapshotsKept {id s : SourceId} {name : Str} {e : Sources.Edit} {x : Source}
    (h : Sources.edit id name e db = .ok (x, db')) : SnapshotsKept s db db' := by
  obtain ⟨-, -, m, -, -, rfl⟩ := Sources.edit_eq_ok h
  exact .of_update rfl fun x => ⟨rfl, rfl, rfl, rfl, .inr rfl⟩

/-- **An edit leaves no validator at an active snapshot.** -/
theorem edit_validator {id : SourceId} {name : Str} {e : Sources.Edit} {x : Source}
    (h : Sources.edit id name e db = .ok (x, db')) {y : SourceSnapshot} (hy : y ∈ db'.snapshots)
    (hid : y.sourceId = id) (hactive : y.isActive = true) : y.etag = none := by
  obtain ⟨-, -, m, -, -, rfl⟩ := Sources.edit_eq_ok h
  obtain ⟨z, hz, rfl⟩ := List.mem_map.1 hy
  by_cases hp : (decide (z.sourceId = id) && z.isActive) = true
  · rw [if_pos hp]
  · rw [if_neg hp] at hid hactive
    simp [hid, hactive] at hp

namespace NodePool

/-- What is there after steps 1, 2 and 8, and belongs to another source. -/
theorem mem_published_other {s t : SourceId} (hne : s ≠ t) {snapshot x : SourceSnapshot}
    {snapshots : Table SourceSnapshot} (hx : x.sourceId = s)
    (hins : (deactivateSnapshots db.snapshots t).insert
      { snapshot with sourceId := t, isActive := true } = some snapshots) :
    x ∈ pruneSnapshots snapshots t ↔ x ∈ db.snapshots := by
  rw [pruneSnapshots, Table.mem_delete, Table.mem_insert hins, deactivateSnapshots, Table.mem_update]
  constructor
  · intro h
    rcases h.1 with ⟨y, hy, hxy⟩ | rfl
    · by_cases hp : (decide (y.sourceId = t) && y.isActive) = true
      · rw [if_pos hp] at hxy
        simp only [Bool.and_eq_true, decide_eq_true_eq] at hp
        rw [← hxy] at hx
        exact absurd (hx.symm.trans hp.1) hne
      · rw [if_neg hp] at hxy
        exact hxy ▸ hy
    · exact absurd hx.symm hne
  · intro h
    refine ⟨.inl ⟨x, h, ?_⟩, by simp [hx, hne]⟩
    rw [if_neg (by simp [hx, hne])]

end NodePool

theorem write_snapshotMove {w : Write} {r : w.Result} (hw : w.isPoolOnly = false)
    (h : w.run W db = .ok (r, db')) (s : SourceId) : SnapshotsKept s db db' ∨
      w = .deleteSource s ∧ (∀ y ∈ db'.snapshots, y.sourceId ≠ s) ∨
      ∃ input now result, w = .reconcile input now ∧ input.sourceId = s ∧
        NodePool.Reconciled W.fingerprint input now result db db' := by
  cases w with
  | createSource =>
    obtain ⟨sources, hs, -, rfl⟩ := Sources.create_eq_ok h
    exact .inl (.of_eq rfl)
  | updateSource =>
    obtain ⟨x, hedit⟩ := Sources.update_eq_ok h
    exact .inl (edit_snapshotsKept hedit)
  | updateSourceConfig => exact .inl (edit_snapshotsKept h)
  | disableAfterFailure =>
    obtain ⟨-, rfl⟩ := ok_pair_inj h
    exact .inl (.of_eq rfl)
  | deleteSource id =>
    obtain ⟨-, m, -, -, rfl⟩ := Sources.delete_eq_ok h
    by_cases hs : id = s
    · subst hs
      refine .inr (.inl ⟨rfl, fun y hy => ?_⟩)
      simpa using (Table.mem_delete.1 hy).2
    · refine .inl (.of_iff fun x hx => ?_)
      show x ∈ db.snapshots.delete _ ↔ _
      rw [Table.mem_delete]
      simp [hx, Ne.symm hs]
  | createJob | markRunning | updatePhase | markFailed | markCancelled | deleteJob
  | recoverCrashedJobs | recoverStaleJobs | pruneJobs =>
    exact .inl (.of_eq (Write.run_jobs rfl h).snapshots)
  | touchFetchedAt =>
    obtain ⟨-, rfl⟩ := RefreshJobs.touchFetchedAt_eq_ok h
    exact .inl (.of_update rfl fun x => ⟨rfl, rfl, rfl, rfl, .inl rfl⟩)
  | reconcile input now =>
    have hrec := NodePool.reconcileSource_eq_ok W.fingerprint h
    by_cases hs : s = input.sourceId
    · exact .inr (.inr ⟨input, now, r, rfl, hs.symm, hrec⟩)
    · obtain ⟨d, hpub, hsnapshots⟩ := hrec.published
      obtain ⟨-, -, snapshots, hins, rfl⟩ := NodePool.publishSnapshot_eq_ok hpub
      refine .inl (.of_iff fun x hx => ?_)
      rw [hsnapshots]
      exact NodePool.mem_published_other hs hx hins
  | _ => cases hw

/-- **What a call does to the snapshots of a source.** -/
theorem snapshot_move (h : Change W op db db') (s : SourceId) : SnapshotsKept s db db' ∨
    op = .write (.deleteSource s) ∧ (∀ y ∈ db'.snapshots, y.sourceId ≠ s) ∨
    ∃ input now result, op = .write (.reconcile input now) ∧ input.sourceId = s ∧
      NodePool.Reconciled W.fingerprint input now result db db' := by
  rcases change_aside h with haside | ⟨w, r, rfl, hw, hrun⟩
  · exact .inl (.of_eq haside.snapshots)
  · rcases write_snapshotMove hw hrun s with hkept | ⟨rfl, hgone⟩ | ⟨input, now, result, rfl, hrest⟩
    · exact .inl hkept
    · exact .inr (.inl ⟨rfl, hgone⟩)
    · exact .inr (.inr ⟨input, now, result, rfl, hrest⟩)

/-! ## 6. Publication -/

/-- The snapshots of a source: at most one is active, and none has a version above it. -/
structure SnapshotsOk (s : SourceId) (db : Db) : Prop where
  unique : ∀ x ∈ db.snapshots, ∀ y ∈ db.snapshots, x.sourceId = s → y.sourceId = s →
    x.isActive = true → y.isActive = true → x = y
  top : ∀ x ∈ db.snapshots, x.sourceId = s →
    ∃ a ∈ db.snapshots, a.sourceId = s ∧ a.isActive = true ∧ x.version ≤ a.version

theorem SnapshotsKept.ok {s : SourceId} (h : SnapshotsKept s db db') (hok : SnapshotsOk s db) :
    SnapshotsOk s db' := by
  refine ⟨fun x hx y hy hxs hys hxa hya => ?_, fun y hy hys => ?_⟩
  · obtain ⟨x', hx', hxx⟩ := h.back x hx hxs
    obtain ⟨y', hy', hyy⟩ := h.back y hy hys
    have hsame : x' = y' := hok.unique x' hx' y' hy' (hxx.sourceId.symm.trans hxs)
      (hyy.sourceId.symm.trans hys) (hxx.isActive.symm.trans hxa) (hyy.isActive.symm.trans hya)
    refine Table.eq_of_key hx hy ?_
    exact hxx.id.trans (hsame ▸ hyy.id.symm)
  · obtain ⟨x, hx, hxy⟩ := h.back y hy hys
    obtain ⟨a, ha, has, haa, hle⟩ := hok.top x hx (hxy.sourceId.symm.trans hys)
    obtain ⟨b, hb, hab⟩ := h.forth a ha has
    refine ⟨b, hb, hab.sourceId.trans has, hab.isActive.trans haa, ?_⟩
    rw [hxy.version, hab.version]
    exact hle

namespace RefreshJobs

theorem findActiveSnapshot_eq_some {s : SourceId} {a : SourceSnapshot}
    (h : findActiveSnapshot db s = some a) :
    a ∈ db.snapshots ∧ a.sourceId = s ∧ a.isActive = true := by
  have ha := List.find?_some h
  simp only [Bool.and_eq_true, decide_eq_true_eq] at ha
  exact ⟨List.mem_of_find?_eq_some h, ha⟩

theorem findActiveSnapshot_eq_none {s : SourceId} (h : findActiveSnapshot db s = none)
    {x : SourceSnapshot} (hx : x ∈ db.snapshots) (hs : x.sourceId = s) : x.isActive = false := by
  have hnot := List.find?_eq_none.1 h x hx
  simpa [hs] using hnot

/-- The active snapshot of well kept snapshots is the one that is read. -/
theorem findActiveSnapshot_of_mem {s : SourceId} (hok : SnapshotsOk s db) {a : SourceSnapshot}
    (ha : a ∈ db.snapshots) (hs : a.sourceId = s) (hactive : a.isActive = true) :
    findActiveSnapshot db s = some a := by
  cases hfind : findActiveSnapshot db s with
  | none =>
    rw [findActiveSnapshot_eq_none hfind ha hs] at hactive
    cases hactive
  | some b =>
    obtain ⟨hb, hbs, hba⟩ := findActiveSnapshot_eq_some hfind
    rw [hok.unique a ha b hb hs hbs hactive hba]

end RefreshJobs

namespace NodePool

/-- The newest version is among those that stay. -/
theorem mem_pruneSnapshots_top {s : SourceId} {snapshots : Table SourceSnapshot} {x : SourceSnapshot}
    (hx : x ∈ snapshots) (hs : x.sourceId = s)
    (htop : ∀ y ∈ snapshots, y.sourceId = s → y ≠ x → y.version < x.version) :
    x ∈ pruneSnapshots snapshots s := by
  let newest := fun a b : SourceSnapshot => b.version ≤ a.version
  have htrans : IsTrans SourceSnapshot newest := ⟨fun a b c hab hbc => hbc.trans hab⟩
  have htotal : Std.Total newest := ⟨fun a b => Nat.le_total b.version a.version⟩
  have hsorted := List.pairwise_insertionSort newest (snapshots.rows.filter fun y => y.sourceId = s)
  have hmem : x ∈ (snapshots.rows.filter fun y => y.sourceId = s).insertionSort newest :=
    (List.mem_insertionSort newest).2 (List.mem_filter.2 ⟨hx, by simpa using hs⟩)
  have hkept : x.id ∈ ((((snapshots.rows.filter fun y => y.sourceId = s).insertionSort newest).take
      sourceSnapshotRetain).map SourceSnapshot.id) := by
    cases hlist : (snapshots.rows.filter fun y => y.sourceId = s).insertionSort newest with
    | nil => rw [hlist] at hmem; cases hmem
    | cons y ys =>
      -- the head is at least as new as `x`, and only `x` is
      rw [hlist] at hmem hsorted
      have hy : y ∈ snapshots.rows.filter fun y => y.sourceId = s := by
        rw [← List.mem_insertionSort newest, hlist]
        exact List.mem_cons_self
      obtain rfl : y = x := by
        by_contra hne
        have hlt := htop y (List.mem_filter.1 hy).1 (by simpa using (List.mem_filter.1 hy).2) hne
        have hle := List.rel_of_pairwise_cons hsorted
          ((List.mem_cons.1 hmem).resolve_left (Ne.symm hne))
        exact absurd hle (Nat.not_le.2 hlt)
      exact List.mem_cons_self
  refine Table.mem_delete.2 ⟨hx, ?_⟩
  simp only [Bool.and_eq_false_iff, Bool.not_eq_false']
  exact .inr (List.contains_iff_mem.2 hkept)

/-- **A publication with a version above all others** makes its snapshot the active one. -/
theorem Reconciled.publishes {fingerprint : PooledNode → Except SourceError Str}
    {input : ReconcileInput} {now : Timestamp} {result : ReconcileResult}
    (h : Reconciled fingerprint input now result db db')
    (htop : ∀ x ∈ db.snapshots, x.sourceId = input.sourceId → x.version < input.snapshot.version) :
    SnapshotsOk input.sourceId db' ∧ RefreshJobs.findActiveSnapshot db' input.sourceId =
      some { input.snapshot with sourceId := input.sourceId, isActive := true } := by
  obtain ⟨d, hpub, hsnapshots⟩ := h.published
  obtain ⟨-, -, snapshots, hins, rfl⟩ := publishSnapshot_eq_ok hpub
  -- a row of the source that is not the new one is inactive and older
  have hold : ∀ y ∈ snapshots, y.sourceId = input.sourceId →
      y ≠ { input.snapshot with sourceId := input.sourceId, isActive := true } →
      y.isActive = false ∧ y.version < input.snapshot.version := by
    intro y hy hs hne
    rcases (Table.mem_insert hins).1 hy with hy | rfl
    · obtain ⟨x, hx, rfl⟩ := Table.mem_update.1 hy
      by_cases hp : (decide (x.sourceId = input.sourceId) && x.isActive) = true
      · rw [if_pos hp] at hs ⊢
        exact ⟨rfl, htop x hx hs⟩
      · rw [if_neg hp] at hs ⊢
        refine ⟨?_, htop x hx hs⟩
        simpa [hs] using hp
    · exact absurd rfl hne
  have hnew := (Table.mem_insert hins).2 (.inr rfl)
  have hmem := mem_pruneSnapshots_top hnew rfl fun y hy hs hne => (hold y hy hs hne).2
  have hpruned : ∀ y ∈ db'.snapshots, y ∈ snapshots := by
    intro y hy
    rw [hsnapshots] at hy
    exact (Table.mem_delete.1 hy).1
  rw [← hsnapshots] at hmem
  have hactive : ∀ y ∈ db'.snapshots, y.sourceId = input.sourceId → y.isActive = true →
      y = { input.snapshot with sourceId := input.sourceId, isActive := true } := by
    intro y hy hs ha
    by_contra hne
    rw [(hold y (hpruned y hy) hs hne).1] at ha
    cases ha
  have hok : SnapshotsOk input.sourceId db' := by
    refine ⟨fun x hx y hy hxs hys hxa hya => ?_, fun y hy hs => ⟨_, hmem, rfl, rfl, ?_⟩⟩
    · rw [hactive x hx hxs hxa, hactive y hy hys hya]
    · by_cases hne : y = { input.snapshot with sourceId := input.sourceId, isActive := true }
      · rw [hne]
      · exact (hold y (hpruned y hy) hs hne).2.le
  exact ⟨hok, RefreshJobs.findActiveSnapshot_of_mem hok hmem rfl rfl⟩

end NodePool

/-! ## 7. Under the lease -/

/-- The source keeps its configuration, and its snapshots. -/
structure UnderLease (s : SourceId) (db db' : Db) : Prop where
  snapshots : SnapshotsKept s db db'
  config : ∀ S, db.sources.find s = some S → ∃ S', db'.sources.find s = some S' ∧ SameConfig S S'

theorem UnderLease.refl (s : SourceId) (db : Db) : UnderLease s db db :=
  ⟨.refl s db, fun S hS => ⟨S, hS, rfl⟩⟩

theorem UnderLease.trans {s : SourceId} {a b c : Db} (h : UnderLease s a b) (h' : UnderLease s b c) :
    UnderLease s a c := by
  refine ⟨h.snapshots.trans h'.snapshots, fun S hS => ?_⟩
  obtain ⟨S', hS', hsame⟩ := h.config S hS
  obtain ⟨S'', hS'', hsame'⟩ := h'.config S' hS'
  exact ⟨S'', hS'', hsame.trans hsame'⟩

/-- A deleted source takes its running job along. -/
theorem not_running_of_deleted {s : SourceId} {j : JobId} {r : Unit}
    (h : Sources.delete s db = .ok (r, db')) : ¬ Running s j db' := by
  obtain ⟨-, m, -, -, rfl⟩ := Sources.delete_eq_ok h
  intro hrun
  obtain ⟨row, hrow, hsource, -⟩ := hrun
  have hkept := (Table.mem_delete.1 (Table.find_eq_some.1 hrow).1).2
  simp [hsource] at hkept

/-- The completed job is not running any more. -/
theorem not_running_of_completed {s : SourceId} {j : JobId} {result : ReconcileResult}
    {notModified : Bool} {now : Timestamp}
    (h : db'.jobs = RefreshJobs.setCompleted db.jobs s j result notModified now) :
    ¬ Running s j db' := by
  intro hrun
  obtain ⟨row, hrow, hsource, hstatus⟩ := hrun
  rw [h, RefreshJobs.setCompleted, Table.find_update] at hrow
  obtain ⟨old, hold, rfl⟩ := Option.map_eq_some_iff.1 hrow
  have hid : old.id = j := (Table.find_eq_some.1 hold).2
  by_cases hp : RefreshJobs.holdsLease s j old = true
  · rw [if_pos hp] at hstatus
    cases hstatus
  · rw [if_neg hp] at hsource hstatus
    simp [RefreshJobs.holdsLease, hid, hsource, hstatus] at hp

/-- **While a job of the source runs, nobody else touches configuration and snapshots.** -/
theorem underLease_step {a : op.Reply} (h : ports W op db a db') {s : SourceId} {j : JobId}
    (hunique : LeaseUnique db) (hjob : ∀ input now, op = .write (.reconcile input now) →
      input.jobId ≠ none) (hbefore : Running s j db) (hafter : Running s j db') :
    UnderLease s db db' := by
  have hchange := ports_change h
  have hdeleted : op = .write (.deleteSource s) → db' = db := by
    intro hop
    subst hop
    rcases Writes.cases h with ⟨r, -, hrun⟩ | ⟨-, hdb⟩
    · exact absurd hafter (not_running_of_deleted hrun)
    · exact hdb
  constructor
  · rcases snapshot_move hchange s with hkept | ⟨hop, -⟩ | ⟨input, now, result, rfl, hs, hrec⟩
    · exact hkept
    · rw [hdeleted hop]
      exact .refl s db
    · have hcompleted := hrec.completed
      unfold NodePool.JobCompleted at hcompleted
      split at hcompleted
      · rename_i hnone
        exact absurd hnone (hjob input now rfl)
      · rename_i k hk
        rw [hs] at hcompleted
        obtain rfl : j = k := hunique s j k hbefore (holdsLease_running hcompleted.1)
        exact absurd hafter (not_running_of_completed hcompleted.2)
  · intro S hS
    have hmove := source_move hchange s
    rw [hS] at hmove
    cases hS' : db'.sources.find s with
    | none =>
      rw [hS'] at hmove
      cases hmove with
      | deleted hop =>
        rw [hdeleted hop, hS] at hS'
        cases hS'
    | some S' =>
      rw [hS'] at hmove
      cases hmove with
      | kept hsame => exact ⟨S', rfl, hsame⟩
      | edited hop hedit hfree =>
        have hheld := hbefore.leaseHeld
        rw [show RefreshJobs.leaseHeld db.jobs s = Sources.hasRunningJob db s from rfl, hfree] at hheld
        cases hheld

end DeveSub
