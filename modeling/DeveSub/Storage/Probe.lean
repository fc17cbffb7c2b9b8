/-
  File:      DeveSub/Storage/Probe.lean
  Subject:   Probe sources (`probe_repository/source.rs`): the revision check of every write, and the
             commit of a sync.

  A write names the revision it has read; it selects the row only while that is the stored one, and
  advances it. A sync writes its source and all its traffic records in one transaction. Sealed
  columns are kept open; an empty snapshot is stored as none.

  * `updateOn_eq_ok`, `commitSync_eq_ok` -- what a committed write has found and left;
  * `ProbeDb.RevisionLe` -- a revision determines the row it belongs to.
-/
import DeveSub.Domain.Probe
import DeveSub.Storage.Traffic

namespace DeveSub

instance : Keyed ProbeSource ProbeSourceId := ⟨ProbeSource.id⟩

/-- The tables of probe sources and of traffic. -/
structure ProbeDb where
  sources : Table ProbeSource
  traffic : TrafficDb

namespace Probes

/-! ## 1. Writes -/

/-- The row a write leaves: times in whole seconds, no empty snapshot, the next revision. -/
def stored (source : ProbeSource) : ProbeSource :=
  { source with
    revision := source.revision + 1
    lastSyncAt := source.lastSyncAt.map wholeSeconds
    lastCounterSnapshot := source.lastCounterSnapshot.filter fun s => !s.isEmpty
    updatedAt := wholeSeconds source.updatedAt }

/-- `UPDATE probe_sources ... WHERE id = ? AND revision = ?`. -/
def writeRow (sources : Table ProbeSource) (source : ProbeSource) : Table ProbeSource :=
  sources.update (fun r => r.id = source.id) (fun r => { stored source with id := r.id })
    fun _ => rfl

/-- `update_on`: the constraints are met only where a row is selected. -/
def updateOn (source : ProbeSource) : Tx ProbeDb ProbeError Unit := fun db => do
  rejectWhen (i64Max < source.revision) .conflict
  rejectWhen (!db.sources.rows.any fun r => r.id = source.id && r.revision = source.revision)
    .conflict
  rejectWhen (db.sources.rows.any fun r => r.id ≠ source.id && r.name = source.name) .nameExists
  rejectWhen (source.subscriptionId.any fun s => (db.traffic.subscriptions.find s).isNone)
    (.storage "FOREIGN KEY constraint failed")
  rejectWhen (source.revision = i64Max) (.storage "CHECK constraint failed")
  return ((), { db with sources := writeRow db.sources source })

/-- The values `commit_sync` binds for a record. -/
def newTraffic (formatTs : Timestamp → Str) (record : TrafficRecord) : Traffic.NewTraffic :=
  ⟨record.id, record.subscriptionId, .probe, record.upload, record.download,
    formatTs record.recordedAt, record.sourceRef⟩

/-- The loop of `commit_sync` over the records. -/
def insertRecords (formatTs : Timestamp → Str) (source : ProbeSource) :
    List TrafficRecord → Tx TrafficDb ProbeError Unit
  | [], db => .ok ((), db)
  | record :: records, db => do
    rejectWhen (some record.subscriptionId ≠ source.subscriptionId || record.sourceKind ≠ .probe)
      (.invalidInput "traffic does not belong to probe source")
    rejectWhen (i64Max < record.upload || i64Max < record.download)
      (.invalidInput "traffic overflow")
    let r ← (Traffic.insert (newTraffic formatTs record) db).mapError fun e => .storage e.message
    insertRecords formatTs source records r.2

/-- `commit_sync`. -/
def commitSync (formatTs : Timestamp → Str) (source : ProbeSource) (records : List TrafficRecord) :
    Tx ProbeDb ProbeError Unit := fun db => do
  let updated ← updateOn source db
  let inserted ← insertRecords formatTs source records updated.2.traffic
  return ((), { updated.2 with traffic := inserted.2 })

/-- `delete`. -/
def delete (id : ProbeSourceId) : Tx ProbeDb ProbeError Unit := fun db => do
  rejectWhen (db.sources.find id).isNone .sourceNotFound
  return ((), { db with sources := db.sources.delete fun r => r.id = id })

/-! ## 2. What a committed write has done -/

/-- **The row had the revision that was read, and is now the one that was written.** -/
structure Updated (source : ProbeSource) (db db' : ProbeDb) : Prop where
  found : ∃ row, db.sources.find source.id = some row ∧ row.revision = source.revision
  sources : ∀ s, db'.sources.find s =
    if s = source.id then some (stored source) else db.sources.find s

theorem find_writeRow {sources : Table ProbeSource} {source row : ProbeSource}
    (h : sources.find source.id = some row) (s : ProbeSourceId) :
    (writeRow sources source).find s = if s = source.id then some (stored source) else sources.find s := by
  unfold writeRow
  rw [Table.find_update]
  by_cases hs : s = source.id
  · have hid : row.id = source.id := (Table.find_eq_some.1 h).2
    rw [if_pos hs, hs, h, Option.map_some, if_pos (decide_eq_true hid), hid]
    rfl
  · rw [if_neg hs]
    cases hfind : sources.find s with
    | none => rfl
    | some r =>
      have hid : r.id = s := (Table.find_eq_some.1 hfind).2
      rw [Option.map_some, if_neg (by simpa [hid] using hs)]

theorem updateOn_eq_ok {source : ProbeSource} {db db' : ProbeDb} {u : Unit}
    (h : updateOn source db = .ok (u, db')) :
    Updated source db db' ∧ db'.traffic = db.traffic := by
  obtain ⟨_, -, h⟩ := bind_eq_ok.1 h
  obtain ⟨_, hfound, h⟩ := bind_eq_ok.1 h
  obtain ⟨_, -, h⟩ := bind_eq_ok.1 h
  obtain ⟨_, -, h⟩ := bind_eq_ok.1 h
  obtain ⟨_, -, h⟩ := bind_eq_ok.1 h
  obtain ⟨-, rfl⟩ := ok_pair_inj h
  have hany := rejectWhen_eq_ok.1 hfound
  obtain ⟨row, hrow, hsel⟩ := List.any_eq_true.1 ((Bool.not_eq_false' _).mp hany)
  simp only [Bool.and_eq_true, decide_eq_true_eq] at hsel
  have hfind : db.sources.find source.id = some row := Table.find_eq_some.2 ⟨hrow, hsel.1⟩
  exact ⟨⟨⟨row, hfind, hsel.2⟩, find_writeRow hfind⟩, rfl⟩

/-- The raw rows of records. -/
def rowsOf (formatTs : Timestamp → Str) (records : List TrafficRecord) : List TrafficRow :=
  records.map fun r => (newTraffic formatTs r).row

theorem insertRecords_eq_ok {formatTs : Timestamp → Str} {source : ProbeSource}
    {records : List TrafficRecord} {db db' : TrafficDb} {u : Unit}
    (h : insertRecords formatTs source records db = .ok (u, db')) :
    db'.traffic.rows = db.traffic.rows ++ rowsOf formatTs records := by
  induction records generalizing db with
  | nil =>
    obtain ⟨-, rfl⟩ := ok_pair_inj h
    exact (List.append_nil _).symm
  | cons record records ih =>
    obtain ⟨_, -, h⟩ := bind_eq_ok.1 h
    obtain ⟨_, -, h⟩ := bind_eq_ok.1 h
    obtain ⟨r, hr, h⟩ := bind_eq_ok.1 h
    obtain ⟨v, mid⟩ := r
    have hins := Traffic.insert_eq_ok (mapError_eq_ok.1 hr)
    rw [ih h, Table.insert_rows hins.traffic, List.append_assoc]
    rfl

/-- **A sync commits its source and its records together.** -/
theorem commitSync_eq_ok {formatTs : Timestamp → Str} {source : ProbeSource}
    {records : List TrafficRecord} {db db' : ProbeDb} {u : Unit}
    (h : commitSync formatTs source records db = .ok (u, db')) : Updated source db db' ∧
      db'.traffic.traffic.rows = db.traffic.traffic.rows ++ rowsOf formatTs records := by
  obtain ⟨updated, hup, h⟩ := bind_eq_ok.1 h
  obtain ⟨inserted, hins, h⟩ := bind_eq_ok.1 h
  obtain ⟨v, mid⟩ := updated
  obtain ⟨w, traffic⟩ := inserted
  obtain ⟨-, rfl⟩ := ok_pair_inj h
  obtain ⟨hupdated, htraffic⟩ := updateOn_eq_ok hup
  refine ⟨⟨hupdated.found, hupdated.sources⟩, ?_⟩
  rw [← htraffic]
  exact insertRecords_eq_ok hins

theorem delete_eq_ok {id : ProbeSourceId} {db db' : ProbeDb} {u : Unit}
    (h : delete id db = .ok (u, db')) :
    (∀ s, db'.sources.find s = if s = id then none else db.sources.find s) ∧
      db'.traffic = db.traffic := by
  obtain ⟨_, -, h⟩ := bind_eq_ok.1 h
  obtain ⟨-, rfl⟩ := ok_pair_inj h
  refine ⟨fun s => ?_, rfl⟩
  have hfind : (db.sources.delete fun r => r.id = id).find s =
      if decide (s = id) = true then none else db.sources.find s :=
    db.sources.find_delete_of_key (q := fun k => decide (k = id)) (fun _ => rfl) s
  simp only [decide_eq_true_eq] at hfind
  exact hfind

/-! ## 3. Revisions -/

/-- **A row that is still there has an earlier revision behind it, and the same revision is the same
    row.** -/
def RevisionLe (s : ProbeSourceId) (db db' : ProbeDb) : Prop :=
  ∀ B, db'.sources.find s = some B → ∃ A, db.sources.find s = some A ∧ A.revision ≤ B.revision ∧
    (A.revision = B.revision → A = B)

theorem RevisionLe.refl (s : ProbeSourceId) (db : ProbeDb) : RevisionLe s db db :=
  fun B hB => ⟨B, hB, Nat.le_refl _, fun _ => rfl⟩

theorem RevisionLe.trans {s : ProbeSourceId} {a b c : ProbeDb} (h : RevisionLe s a b)
    (h' : RevisionLe s b c) : RevisionLe s a c := by
  intro C hC
  obtain ⟨B, hB, hle', heq'⟩ := h' C hC
  obtain ⟨A, hA, hle, heq⟩ := h B hB
  refine ⟨A, hA, hle.trans hle', fun hAC => ?_⟩
  have hAB : A.revision = B.revision := by omega
  rw [heq hAB]
  exact heq' (by omega)

theorem Updated.revisionLe {source : ProbeSource} {db db' : ProbeDb} (h : Updated source db db')
    (s : ProbeSourceId) : RevisionLe s db db' := by
  intro B hB
  rw [h.sources] at hB
  by_cases hs : s = source.id
  · rw [if_pos hs] at hB
    obtain rfl := Option.some.inj hB
    obtain ⟨row, hrow, hrev⟩ := h.found
    have hstored : (stored source).revision = source.revision + 1 := rfl
    exact ⟨row, hs ▸ hrow, by omega, fun heq => by omega⟩
  · rw [if_neg hs] at hB
    exact ⟨B, hB, Nat.le_refl _, fun _ => rfl⟩

end Probes

end DeveSub
