/-
  File:      DeveSub/Storage/RefreshJobs.lean
  Subject:   The refresh job repository, the snapshot repository and the completion of a job
             (`source_refresh_job_repository.rs`, `source_snapshot_repository.rs`,
             `source_refresh_transaction.rs`).

  The lease of a source is its one job in status Running: the partial unique index refuses a
  second. A job leaves Running for good: `complete`, `mark_failed`, `mark_cancelled` and the two
  recoveries close it, and nothing opens a closed job again. The current time is an argument.
-/
import DeveSub.Storage.Sources

namespace DeveSub.RefreshJobs

/-! ## 1. Opening a job -/

/-- Another job of the source holds the lease. -/
def leaseHeld (jobs : Table SourceRefreshJob) (sourceId : SourceId) : Bool :=
  jobs.rows.any fun j => j.sourceId = sourceId && j.status = .running

/-- `create`: a taken key is reported as a refresh in progress, like a held lease. -/
def create (job : SourceRefreshJob) : Tx Db SourceError Unit := fun db =>
  match db.sources.find job.sourceId with
  | none => .error (.storage "FOREIGN KEY constraint failed")
  | some _ =>
    if job.status = .running && leaseHeld db.jobs job.sourceId then
      .error (.refreshInProgress job.sourceId.text)
    else match db.jobs.insert job with
      | none => .error (.refreshInProgress job.sourceId.text)
      | some jobs => .ok ((), { db with jobs })

/-- The job, still waiting to run. -/
def isPending (id : JobId) (j : SourceRefreshJob) : Bool := j.id = id && j.status = .pending

/-- `SET status = 'R' WHERE id = ? AND status = 'P'`. -/
def setRunning (jobs : Table SourceRefreshJob) (id : JobId) : Table SourceRefreshJob :=
  jobs.update (isPending id) (fun j => { j with status := .running }) fun _ => rfl

/-- `mark_running`: takes the lease. -/
def markRunning (id : JobId) : Tx Db SourceError Unit := fun db =>
  match db.jobs.rows.find? (isPending id) with
  | none => .error (.storage "job not found or not in Pending status")
  | some job =>
    if leaseHeld db.jobs job.sourceId then
      .error (.refreshInProgress "lease held by another running job")
    else .ok ((), { db with jobs := setRunning db.jobs id })

/-- `update_phase`: also the heartbeat, and without a look at the status. -/
def updatePhase (id : JobId) (phase : RefreshPhase) (now : Timestamp) : Tx Db SourceError Unit :=
  fun db => .ok ((), { db with
    jobs := db.jobs.update (fun j => j.id = id)
      (fun j => { j with phase := phase, startedAt := now }) fun _ => rfl })

/-! ## 2. Closing a job -/

/-- The job is pending or running. -/
def isOpen (j : SourceRefreshJob) : Bool := j.status = .pending || j.status = .running

/-- Closes jobs with a status, a time and a message. -/
def close (db : Db) (which : SourceRefreshJob → Bool) (status : JobStatus) (now : Timestamp)
    (message : Option Str) : Db :=
  { db with
    jobs := db.jobs.update which
      (fun j => { j with status := status, finishedAt := some now,
                         errorMessage := message.or j.errorMessage }) fun _ => rfl }

/-- `mark_failed`. -/
def markFailed (id : JobId) (message : Str) (now : Timestamp) : Tx Db SourceError Unit :=
  fun db => .ok ((), close db (fun j => j.id = id && isOpen j) .failed now (some message))

/-- `mark_cancelled`. -/
def markCancelled (id : JobId) (now : Timestamp) : Tx Db SourceError Unit :=
  fun db => .ok ((), close db (fun j => j.id = id && isOpen j) .cancelled now none)

/-- `delete`. -/
def delete (id : JobId) : Tx Db SourceError Unit :=
  fun db => .ok ((), { db with jobs := db.jobs.delete fun j => j.id = id })

/-- `recover_crashed_jobs`. -/
def recoverCrashedJobs (now : Timestamp) : Tx Db SourceError Nat := fun db =>
  .ok ((db.jobs.rows.filter isOpen).length,
    close db isOpen .failed now (some "process crashed during refresh"))

/-- `recover_stale_jobs`. -/
def recoverStaleJobs (cutoff : Timestamp) (reason : Str) (now : Timestamp) :
    Tx Db SourceError Nat := fun db =>
  let stale := fun j : SourceRefreshJob => j.status = .running && j.startedAt < cutoff
  .ok ((db.jobs.rows.filter stale).length, close db stale .failed now (some reason))

/-- `retention::prune`, its statement for finished jobs: at most 500 at a time. -/
def prune (cutoff : Timestamp) : Tx Db SourceError Nat := fun db =>
  let old := fun j : SourceRefreshJob => !isOpen j && j.finishedAt.any fun t => t < cutoff
  let batch := ((db.jobs.rows.filter old).take 500).map SourceRefreshJob.id
  .ok (batch.length, { db with jobs := db.jobs.delete fun j => old j && batch.contains j.id })

/-! ## 3. Completion with publication -/

/-- The job that holds the lease of the source. -/
def holdsLease (sourceId : SourceId) (jobId : JobId) (j : SourceRefreshJob) : Bool :=
  j.id = jobId && j.sourceId = sourceId && j.status = .running

/-- `SET status = 'C', phase = 'publishing', ... WHERE id = ? AND source_id = ? AND status = 'R'`. -/
def setCompleted (jobs : Table SourceRefreshJob) (sourceId : SourceId) (jobId : JobId)
    (result : ReconcileResult) (notModified : Bool) (now : Timestamp) : Table SourceRefreshJob :=
  jobs.update (holdsLease sourceId jobId)
    (fun j => { j with status := .completed, phase := .publishing, finishedAt := some now,
                       counts := result, notModified := notModified }) fun _ => rfl

/-- `complete` of `source_refresh_transaction.rs`. -/
def complete (sourceId : SourceId) (jobId : JobId) (result : ReconcileResult)
    (notModified : Bool) (now : Timestamp) (db : Db) : Except SourceError Db :=
  if db.jobs.rows.any (holdsLease sourceId jobId) then
    .ok { db with jobs := setCompleted db.jobs sourceId jobId result notModified now }
  else .error (.storage "refresh lease is no longer running")

/-- `SourceSnapshotRepository::find_active`. -/
def findActiveSnapshot (db : Db) (sourceId : SourceId) : Option SourceSnapshot :=
  db.snapshots.rows.find? fun s => s.sourceId = sourceId && s.isActive

/-- `touch_fetched_at`: a 304 completes the job and dates the active snapshot. -/
def touchFetchedAt (sourceId : SourceId) (jobId : JobId) (now : Timestamp) :
    Tx Db SourceError Unit := fun db => do
  let db ← complete sourceId jobId .zero true now db
  return ((), { db with
    snapshots := db.snapshots.update (fun s => s.sourceId = sourceId && s.isActive)
      (fun s => { s with fetchedAt := now }) fun _ => rfl })

/-! ## 4. What the steps did -/

/-- **A job is completed only by the holder of the lease.** -/
theorem complete_eq_ok {db db' : Db} {sourceId : SourceId} {jobId : JobId} {result : ReconcileResult}
    {notModified : Bool} {now : Timestamp}
    (h : complete sourceId jobId result notModified now db = .ok db') :
    (∃ j ∈ db.jobs, holdsLease sourceId jobId j = true) ∧
      db' = { db with jobs := setCompleted db.jobs sourceId jobId result notModified now } := by
  unfold complete at h
  split at h
  · rename_i hany
    obtain rfl := Except.ok.inj h
    exact ⟨List.any_eq_true.1 hany, rfl⟩
  · cases h

theorem markRunning_eq_ok {db db' : Db} {id : JobId} (h : markRunning id db = .ok ((), db')) :
    ∃ job ∈ db.jobs, isPending id job = true ∧ leaseHeld db.jobs job.sourceId = false ∧
      db' = { db with jobs := setRunning db.jobs id } := by
  unfold markRunning at h
  split at h
  · cases h
  rename_i job hjob
  split at h
  · cases h
  rename_i hfree
  obtain ⟨-, rfl⟩ := ok_pair_inj h
  exact ⟨job, List.mem_of_find?_eq_some hjob, List.find?_some hjob,
    Bool.eq_false_of_not_eq_true hfree, rfl⟩

theorem create_eq_ok {db db' : Db} {job : SourceRefreshJob} {r : Unit}
    (h : create job db = .ok (r, db')) :
    (job.status = .running → leaseHeld db.jobs job.sourceId = false) ∧
      ∃ jobs, db.jobs.insert job = some jobs ∧ db' = { db with jobs } := by
  unfold create at h
  split at h
  · cases h
  split at h
  · cases h
  rename_i hfree
  split at h
  · cases h
  rename_i jobs hins
  obtain ⟨-, rfl⟩ := ok_pair_inj h
  refine ⟨fun hrun => ?_, jobs, hins, rfl⟩
  simpa [hrun] using hfree

theorem touchFetchedAt_eq_ok {db db' : Db} {sourceId : SourceId} {jobId : JobId} {now : Timestamp}
    {r : Unit} (h : touchFetchedAt sourceId jobId now db = .ok (r, db')) :
    (∃ j ∈ db.jobs, holdsLease sourceId jobId j = true) ∧
      db' = { db with
        jobs := setCompleted db.jobs sourceId jobId .zero true now
        snapshots := db.snapshots.update (fun s => s.sourceId = sourceId && s.isActive)
          (fun s => { s with fetchedAt := now }) fun _ => rfl } := by
  obtain ⟨d, hcomplete, h⟩ := bind_eq_ok.1 h
  obtain ⟨hlease, rfl⟩ := complete_eq_ok hcomplete
  obtain ⟨-, rfl⟩ := ok_pair_inj h
  exact ⟨hlease, rfl⟩

end DeveSub.RefreshJobs
