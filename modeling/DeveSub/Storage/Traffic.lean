/-
  File:      DeveSub/Storage/Traffic.lean
  Subject:   Traffic records and their projections (`traffic_repository.rs`, the triggers of
             `0024_traffic_projections_and_retention.sql`, `retention.rs`).

  The triggers are part of the statement that inserts a record. An integer sum out of range turns
  into a floating point number in SQLite, which the checks on the type of the column refuse: a row
  fits or the statement is aborted. The breakdown of a day is kept decoded. Retention deletes
  batches whose choice SQLite leaves open; a reset deletes all rows of a subscription.

  * `insert`, `insert_eq_ok` -- a record and all it projects to;
  * `TrafficStep`, `TrafficRun` -- insertions, prunes and resets, one after the other;
  * `getSummary`, `getSummaryForUser`, `getGlobalSummary` -- the totals a caller reads.
-/
import DeveSub.Domain.Subscription
import DeveSub.Lib.Aggregate

namespace DeveSub

/-! ## 1. Tables -/

/-- `subscriptions`, the columns traffic is joined on. -/
structure OwnerRow where
  id : SubscriptionId
  ownerId : UserId
  deriving DecidableEq

/-- `subscription_traffic`. -/
structure TrafficRow where
  id : TrafficRecordId
  subscriptionId : SubscriptionId
  sourceKind : TrafficSourceKind
  bytes : Bytes
  recordedAt : Str
  sourceRef : Str
  deriving DecidableEq

/-- `traffic_totals`. -/
structure TotalRow where
  subscriptionId : SubscriptionId
  sourceKind : TrafficSourceKind
  bytes : Bytes
  deriving DecidableEq

/-- `probe_traffic_totals`. -/
structure ProbeTotalRow where
  subscriptionId : SubscriptionId
  refPrefix : Str
  bytes : Bytes
  deriving DecidableEq

/-- `traffic_daily_snapshots`, with `source_breakdown_json` decoded. -/
structure DailyRow where
  subscriptionId : SubscriptionId
  date : Str
  total : Bytes
  breakdown : List (TrafficSourceKind × Bytes)
  deriving DecidableEq

instance : Keyed OwnerRow SubscriptionId := ⟨OwnerRow.id⟩
instance : Keyed TrafficRow TrafficRecordId := ⟨TrafficRow.id⟩
instance : Keyed TotalRow (SubscriptionId × TrafficSourceKind) :=
  ⟨fun r => (r.subscriptionId, r.sourceKind)⟩
instance : Keyed ProbeTotalRow (SubscriptionId × Str) := ⟨fun r => (r.subscriptionId, r.refPrefix)⟩
instance : Keyed DailyRow (SubscriptionId × Str) := ⟨fun r => (r.subscriptionId, r.date)⟩

/-- **The tables of traffic**, with the checks on the projections. -/
structure TrafficDb where
  subscriptions : Table OwnerRow
  traffic : Table TrafficRow
  totals : Checked TotalRow fun r => r.bytes.fits
  probeTotals : Checked ProbeTotalRow fun r => r.bytes.fits
  daily : Checked DailyRow fun r => r.total.fits

namespace TrafficDb

/-- No traffic yet. -/
def empty (subscriptions : Table OwnerRow) : TrafficDb :=
  ⟨subscriptions, .empty, .empty, .empty, .empty⟩

/-- The total of a subscription and a kind. -/
def total (db : TrafficDb) (s : SubscriptionId) (kind : TrafficSourceKind) : Bytes :=
  (db.totals.find (s, kind)).elim 0 (·.bytes)

/-- The probe total of a subscription and a prefix. -/
def probeTotal (db : TrafficDb) (s : SubscriptionId) (label : Str) : Bytes :=
  (db.probeTotals.find (s, label)).elim 0 (·.bytes)

/-- The probe totals of a subscription, over all prefixes. -/
def probeSum (db : TrafficDb) (s : SubscriptionId) : Bytes :=
  (db.probeTotals.rows.map fun r => if r.subscriptionId = s then r.bytes else 0).sum

/-- The total of a day. -/
def dayTotal (db : TrafficDb) (s : SubscriptionId) (date : Str) : Bytes :=
  (db.daily.find (s, date)).elim 0 (·.total)

end TrafficDb

/-! ## 2. Insertion -/

namespace Traffic

/-- What aborts an insertion. -/
inductive Abort where
  | negative
  | foreignKey
  | duplicateId
  | totalsCheck
  | dailyOverflow
  deriving DecidableEq

/-- The message of an abort. -/
def Abort.message : Abort → Str
  | .negative => "traffic delta must be a non-negative integer"
  | .foreignKey => "FOREIGN KEY constraint failed"
  | .duplicateId => "UNIQUE constraint failed: subscription_traffic.id"
  | .totalsCheck => "CHECK constraint failed"
  | .dailyOverflow => "daily traffic integer overflow"

/-- The values an `INSERT` binds: `i64` columns. -/
structure NewTraffic where
  id : TrafficRecordId
  subscriptionId : SubscriptionId
  sourceKind : TrafficSourceKind
  upload : Int
  download : Int
  recordedAt : Str
  sourceRef : Str
  deriving DecidableEq

/-- The bytes of a record that is not negative. -/
def NewTraffic.bytes (new : NewTraffic) : Bytes := (new.upload.toNat, new.download.toNat)

/-- The row that is inserted. -/
def NewTraffic.row (new : NewTraffic) : TrafficRow :=
  ⟨new.id, new.subscriptionId, new.sourceKind, new.bytes, new.recordedAt, new.sourceRef⟩

/-- `CASE WHEN instr(source_ref, ':') > 0 THEN substr(...) ELSE source_ref END`. -/
def refPrefix (sourceRef : Str) : Str := sourceRef.takeWhile (· ≠ ':')

/-- `substr(recorded_at, 1, 10)`. -/
def dateOf (recordedAt : Str) : Str := recordedAt.take 10

/-- `json_set` of `json_array` of the sums: an absent kind counts as zero. -/
def addBreakdown (kind : TrafficSourceKind) (delta : Bytes) :
    List (TrafficSourceKind × Bytes) → List (TrafficSourceKind × Bytes)
  | [] => [(kind, delta)]
  | (k, b) :: rest => if k = kind then (k, b + delta) :: rest else (k, b) :: addBreakdown kind delta rest

/-- `INSERT INTO traffic_totals ... ON CONFLICT`. -/
def addTotal (t : Checked TotalRow fun r => r.bytes.fits) (row : TrafficRow) :
    Option (Checked TotalRow fun r => r.bytes.fits) :=
  t.upsert ⟨row.subscriptionId, row.sourceKind, row.bytes⟩
    (fun r => { r with bytes := r.bytes + row.bytes }) fun _ => rfl

/-- `INSERT INTO probe_traffic_totals ... WHERE NEW.source_kind = 'P' ON CONFLICT`. -/
def addProbeTotal (t : Checked ProbeTotalRow fun r => r.bytes.fits) (row : TrafficRow) :
    Option (Checked ProbeTotalRow fun r => r.bytes.fits) :=
  if row.sourceKind = .probe then
    t.upsert ⟨row.subscriptionId, refPrefix row.sourceRef, row.bytes⟩
      (fun r => { r with bytes := r.bytes + row.bytes }) fun _ => rfl
  else some t

/-- `INSERT INTO traffic_daily_snapshots ... ON CONFLICT`, with its own triggers. -/
def addDaily (t : Checked DailyRow fun r => r.total.fits) (row : TrafficRow) :
    Option (Checked DailyRow fun r => r.total.fits) :=
  t.upsert ⟨row.subscriptionId, dateOf row.recordedAt, row.bytes, [(row.sourceKind, row.bytes)]⟩
    (fun r => { r with
      total := r.total + row.bytes
      breakdown := addBreakdown row.sourceKind row.bytes r.breakdown }) fun _ => rfl

/-- `INSERT INTO subscription_traffic`: `traffic_validate_delta` before it,
    `traffic_project_delta` after it. -/
def insert (new : NewTraffic) : Tx TrafficDb Abort Unit := fun db => do
  rejectWhen (new.upload < 0 || new.download < 0) .negative
  rejectWhen (db.subscriptions.find new.subscriptionId).isNone .foreignKey
  let traffic ← okOr (db.traffic.insert new.row) .duplicateId
  let totals ← okOr (addTotal db.totals new.row) .totalsCheck
  let probeTotals ← okOr (addProbeTotal db.probeTotals new.row) .totalsCheck
  let daily ← okOr (addDaily db.daily new.row) .dailyOverflow
  return ((), { db with traffic, totals, probeTotals, daily })

/-- `as i64`. -/
def asI64 (n : Nat) : Int := if n ≤ i64Max then n else n - 2 ^ 64

/-- `create`: the counts are cast. -/
def create (formatTs : Timestamp → Str) (record : TrafficRecord) : Tx TrafficDb Abort Unit :=
  insert ⟨record.id, record.subscriptionId, record.sourceKind, asI64 record.upload,
    asI64 record.download, formatTs record.recordedAt, record.sourceRef⟩

/-- **What an accepted record changed.** -/
structure Inserted (new : NewTraffic) (db db' : TrafficDb) : Prop where
  nonneg : 0 ≤ new.upload ∧ 0 ≤ new.download
  subscriptions : db'.subscriptions = db.subscriptions
  subscription : ∃ x ∈ db.subscriptions, x.id = new.subscriptionId
  traffic : db.traffic.insert new.row = some db'.traffic
  totals : addTotal db.totals new.row = some db'.totals
  probeTotals : addProbeTotal db.probeTotals new.row = some db'.probeTotals
  daily : addDaily db.daily new.row = some db'.daily

theorem insert_eq_ok {new : NewTraffic} {db db' : TrafficDb} {u : Unit}
    (h : insert new db = .ok (u, db')) : Inserted new db db' := by
  obtain ⟨_, hneg, h⟩ := bind_eq_ok.1 h
  obtain ⟨_, hsub, h⟩ := bind_eq_ok.1 h
  obtain ⟨traffic, htraffic, h⟩ := bind_eq_ok.1 h
  obtain ⟨totals, htotals, h⟩ := bind_eq_ok.1 h
  obtain ⟨probeTotals, hprobe, h⟩ := bind_eq_ok.1 h
  obtain ⟨daily, hdaily, h⟩ := bind_eq_ok.1 h
  obtain ⟨-, rfl⟩ := ok_pair_inj h
  have hneg := rejectWhen_eq_ok.1 hneg
  simp only [Bool.or_eq_false_iff, decide_eq_false_iff_not, Int.not_lt] at hneg
  have hsub := rejectWhen_eq_ok.1 hsub
  obtain ⟨x, hx⟩ := Option.isSome_iff_exists.1 (Option.isNone_eq_false_iff.1 hsub)
  obtain ⟨hmem, hid⟩ := Table.find_eq_some.1 hx
  exact ⟨hneg, rfl, ⟨x, hmem, hid⟩, okOr_eq_ok.1 htraffic, okOr_eq_ok.1 htotals,
    okOr_eq_ok.1 hprobe, okOr_eq_ok.1 hdaily⟩

/-! ## 3. Resets and retention -/

/-- `delete_for_subscription`: four deletions, one commit. -/
def deleteForSubscription (s : SubscriptionId) (db : TrafficDb) : TrafficDb :=
  { db with
    traffic := db.traffic.delete fun r => r.subscriptionId = s
    totals := db.totals.delete fun r => r.subscriptionId = s
    probeTotals := db.probeTotals.delete fun r => r.subscriptionId = s
    daily := db.daily.delete fun r => r.subscriptionId = s }

/-- `LIMIT` of a retention batch. -/
def batchLimit : Nat := 500

/-- **A batch of retention**: as many of the old rows as the limit allows, SQLite chooses which. -/
structure IsBatch {α κ : Type} [Keyed α κ] (t : Table α) (old : α → Bool) (chosen : List κ) :
    Prop where
  nodup : chosen.Nodup
  chosenOld : ∀ k ∈ chosen, ∃ r ∈ t, Keyed.key r = k ∧ old r = true
  size : chosen.length = min batchLimit (t.rows.countP old)

/-- The statement of `prune` on `subscription_traffic`. -/
def pruneTraffic (chosen : List TrafficRecordId) (db : TrafficDb) : TrafficDb :=
  { db with traffic := db.traffic.delete fun r => r.id ∈ chosen }

/-- Whether a daily row was chosen is decided by its key. -/
instance : LawfulBEq (SubscriptionId × Str) := inferInstance

/-- The statement of `prune` on `traffic_daily_snapshots`. -/
def pruneDaily (chosen : List (SubscriptionId × Str)) (db : TrafficDb) : TrafficDb :=
  { db with daily := db.daily.delete fun r => (r.subscriptionId, r.date) ∈ chosen }

/-! ## 4. Runs -/

/-- An operation on the tables, as it went. -/
inductive TrafficEvent where
  | accepted (new : NewTraffic)
  | aborted (new : NewTraffic)
  | reset (s : SubscriptionId)
  | prunedTraffic (cutoff : Str) (chosen : List TrafficRecordId)
  | prunedDaily (cutoff : Str) (chosen : List (SubscriptionId × Str))

/-- **One operation.** -/
def TrafficStep (db db' : TrafficDb) : TrafficEvent → Prop
  | .accepted new => commit (insert new) db = (.ok (), db')
  | .aborted new => ∃ e, commit (insert new) db = (.error e, db')
  | .reset s => db' = deleteForSubscription s db
  | .prunedTraffic cutoff chosen =>
    IsBatch db.traffic (fun r => r.recordedAt < cutoff) chosen ∧ db' = pruneTraffic chosen db
  | .prunedDaily cutoff chosen =>
    IsBatch db.daily.toTable (fun r => r.date < cutoff) chosen ∧ db' = pruneDaily chosen db

theorem TrafficStep.inserted {new : NewTraffic} {db db' : TrafficDb}
    (h : TrafficStep db db' (.accepted new)) : Inserted new db db' := by
  rcases commit_eq h with ⟨_, -, hins⟩ | ⟨_, hok, -⟩
  · exact insert_eq_ok hins
  · cases hok

theorem TrafficStep.unchanged {new : NewTraffic} {db db' : TrafficDb}
    (h : TrafficStep db db' (.aborted new)) : db' = db := by
  obtain ⟨err, herr⟩ := h
  rcases commit_eq herr with ⟨_, hok, -⟩ | ⟨_, -, -, hsame⟩
  · cases hok
  · exact hsame

/-- **A sequence of operations**, the newest first. -/
inductive TrafficRun (start : TrafficDb) : List TrafficEvent → TrafficDb → Prop where
  | start : TrafficRun start [] start
  | step {es db db' e} (h : TrafficRun start es db) (he : TrafficStep db db' e) :
      TrafficRun start (e :: es) db'

/-! ## 5. Summaries -/

/-- `build_summary`. -/
def buildSummary (rows : List (TrafficSourceKind × Bytes)) : TrafficSummary :=
  ⟨(rows.map (·.2.1)).foldl saturatingAdd 0, (rows.map (·.2.2)).foldl saturatingAdd 0, rows⟩

/-- The totals of a subscription. -/
def totalsOf (db : TrafficDb) (s : SubscriptionId) : List TotalRow :=
  db.totals.rows.filter fun r => r.subscriptionId = s

/-- The totals of the subscriptions of a user: the join with `subscriptions`. -/
def totalsOfUser (db : TrafficDb) (user : UserId) : List TotalRow :=
  db.totals.rows.filter fun r =>
    (db.subscriptions.find r.subscriptionId).any fun x => x.ownerId = user

/-- `get_summary`: the rows by kind. -/
def getSummary (db : TrafficDb) (s : SubscriptionId) : Except SubscriptionError TrafficSummary :=
  .ok (buildSummary (TrafficSourceKind.all.flatMap fun kind =>
    ((totalsOf db s).filter fun r => r.sourceKind = kind).map fun r => (kind, r.bytes)))

/-- `SUM` of a column of one kind; out of range it is an error of the statement. -/
def sumColumn (rows : List TotalRow) (kind : TrafficSourceKind) (column : TotalRow → Nat) :
    Except SubscriptionError Nat :=
  okOr (sqlSum i64Max 0 ((rows.filter fun r => r.sourceKind = kind).map column))
    (.storage "integer overflow")

/-- `SELECT source_kind, SUM(upload), SUM(download) ... GROUP BY source_kind`. -/
def sumByKind (rows : List TotalRow) :
    Except SubscriptionError (List (TrafficSourceKind × Bytes)) :=
  (TrafficSourceKind.all.filter fun kind => rows.any fun r => r.sourceKind = kind).mapM
    fun kind => do
      let upload ← sumColumn rows kind (·.bytes.1)
      let download ← sumColumn rows kind (·.bytes.2)
      return (kind, upload, download)

/-- `get_summary_for_user`. -/
def getSummaryForUser (db : TrafficDb) (user : UserId) : Except SubscriptionError TrafficSummary :=
  (sumByKind (totalsOfUser db user)).map buildSummary

/-- `get_global_summary`. -/
def getGlobalSummary (db : TrafficDb) : Except SubscriptionError TrafficSummary :=
  (sumByKind db.totals.rows).map buildSummary

end Traffic

end DeveSub
