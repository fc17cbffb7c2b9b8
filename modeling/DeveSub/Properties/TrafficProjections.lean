/-
  File:      DeveSub/Properties/TrafficProjections.lean
  Subject:   The projections of traffic are the sums of the accepted records.

  What one operation does to a total, to a day and to the probe totals is said once. A total counts
  every record since the last reset of its subscription, whatever retention removed; a day counts
  those since its row was created, which retention may have removed before.

  * `total_step`, `day_step`, `probe_step` -- one operation;
  * `projections_exact` -- every sequence of operations from empty tables, and that an insertion
    that is negative or would overflow changes nothing.
-/
import DeveSub.Storage.Traffic

namespace DeveSub.Traffic

variable {db db' : TrafficDb} {new : NewTraffic} {es : List TrafficEvent}

/-! ## 1. What has been accepted -/

/-- The records of a subscription since its last reset. -/
def sinceReset (s : SubscriptionId) : List TrafficEvent → List NewTraffic
  | [] => []
  | .accepted new :: es => if new.subscriptionId = s then new :: sinceReset s es else sinceReset s es
  | .reset t :: es => if t = s then [] else sinceReset s es
  | .aborted _ :: es | .prunedTraffic _ _ :: es | .prunedDaily _ _ :: es => sinceReset s es

/-- The records of a day since its row was last removed; the oldest of them created the row. -/
def sinceCreated (s : SubscriptionId) (date : Str) : List TrafficEvent → List NewTraffic
  | [] => []
  | .accepted new :: es =>
    if new.subscriptionId = s ∧ dateOf new.recordedAt = date then new :: sinceCreated s date es
    else sinceCreated s date es
  | .reset t :: es => if t = s then [] else sinceCreated s date es
  | .prunedDaily _ chosen :: es => if (s, date) ∈ chosen then [] else sinceCreated s date es
  | .aborted _ :: es | .prunedTraffic _ _ :: es => sinceCreated s date es

/-- The bytes of records. -/
def bytesOf (records : List NewTraffic) : Bytes := (records.map NewTraffic.bytes).sum

/-- The records of a kind. -/
def ofKind (kind : TrafficSourceKind) (records : List NewTraffic) : List NewTraffic :=
  records.filter fun r => r.sourceKind = kind

theorem bytesOf_cons (new : NewTraffic) (records : List NewTraffic) :
    bytesOf (new :: records) = bytesOf records + new.bytes := by
  rw [bytesOf, List.map_cons, List.sum_cons, add_comm]
  rfl

theorem bytesOf_ofKind_cons (new : NewTraffic) (records : List NewTraffic)
    (kind : TrafficSourceKind) : bytesOf (ofKind kind (new :: records)) =
      bytesOf (ofKind kind records) + if new.sourceKind = kind then new.bytes else 0 := by
  by_cases hk : new.sourceKind = kind
  · rw [if_pos hk, ← bytesOf_cons, ofKind, List.filter_cons_of_pos (by simpa using hk), ofKind]
  · rw [if_neg hk, add_zero, ofKind, List.filter_cons_of_neg (by simpa using hk), ofKind]

/-! ## 2. Totals -/

/-- **An accepted record adds to its own total.** -/
theorem total_inserted (h : Inserted new db db') (s : SubscriptionId)
    (kind : TrafficSourceKind) : db'.total s kind = db.total s kind +
      if new.subscriptionId = s ∧ new.sourceKind = kind then new.bytes else 0 := by
  have hfind : db'.totals.find (s, kind) =
      if (new.subscriptionId, new.sourceKind) = (s, kind) then
        some ((db.totals.find (s, kind)).elim ⟨new.subscriptionId, new.sourceKind, new.bytes⟩
          fun r => { r with bytes := r.bytes + new.bytes })
      else db.totals.find (s, kind) := by
    rw [Checked.upsert_eq_some h.totals]
    exact Table.find_upsert ..
  unfold TrafficDb.total
  rw [hfind]
  by_cases hkey : new.subscriptionId = s ∧ new.sourceKind = kind
  · obtain ⟨rfl, rfl⟩ := hkey
    rw [if_pos rfl, if_pos ⟨rfl, rfl⟩]
    cases db.totals.find (new.subscriptionId, new.sourceKind) with
    | none => exact (zero_add _).symm
    | some r => rfl
  · rw [if_neg (fun heq => hkey (Prod.mk.inj heq)), if_neg hkey, add_zero]

/-- A reset takes the totals of its subscription away. -/
theorem total_reset (t s : SubscriptionId) (kind : TrafficSourceKind) :
    (deleteForSubscription t db).total s kind = if t = s then 0 else db.total s kind := by
  have hfind : (deleteForSubscription t db).totals.find (s, kind) =
      if decide (s = t) = true then none else db.totals.find (s, kind) :=
    db.totals.toTable.find_delete_of_key (q := fun k => decide (k.1 = t)) (fun _ => rfl) (s, kind)
  rw [TrafficDb.total, hfind]
  by_cases hts : t = s
  · rw [if_pos hts, if_pos (decide_eq_true hts.symm)]
    rfl
  · rw [if_neg hts, if_neg (by simpa using Ne.symm hts)]
    rfl

/-- **What an operation does to a total.** -/
theorem total_step {e : TrafficEvent} (h : TrafficStep db db' e) (s : SubscriptionId)
    (kind : TrafficSourceKind)
    (hsum : db.total s kind = bytesOf (ofKind kind (sinceReset s es))) :
    db'.total s kind = bytesOf (ofKind kind (sinceReset s (e :: es))) := by
  cases e with
  | accepted new =>
    rw [total_inserted h.inserted, hsum, sinceReset]
    by_cases hs : new.subscriptionId = s
    · simp only [hs, true_and, if_true, bytesOf_ofKind_cons]
    · simp only [hs, false_and, if_false, add_zero]
  | aborted new =>
    rw [h.unchanged]
    exact hsum
  | reset t =>
    obtain rfl : db' = deleteForSubscription t db := h
    rw [total_reset, sinceReset]
    by_cases hts : t = s
    · rw [if_pos hts, if_pos hts]
      rfl
    · rw [if_neg hts, if_neg hts, hsum]
  | prunedTraffic cutoff chosen =>
    obtain ⟨-, rfl⟩ := h
    exact hsum
  | prunedDaily cutoff chosen =>
    obtain ⟨-, rfl⟩ := h
    exact hsum

/-! ## 3. Days -/

/-- The bytes of a kind in a breakdown. -/
def breakdownOf (kind : TrafficSourceKind) (breakdown : List (TrafficSourceKind × Bytes)) : Bytes :=
  (breakdown.lookup kind).getD 0

theorem breakdownOf_add (kind k : TrafficSourceKind) (delta : Bytes)
    (b : List (TrafficSourceKind × Bytes)) : breakdownOf k (addBreakdown kind delta b) =
      breakdownOf k b + if kind = k then delta else 0 := by
  induction b with
  | nil =>
    by_cases hk : kind = k
    · simp [addBreakdown, breakdownOf, List.lookup_nil, hk]
    · simp [addBreakdown, breakdownOf, List.lookup_cons, List.lookup_nil, beq_false_of_ne (Ne.symm hk), hk]
  | cons p rest ih =>
    obtain ⟨j, x⟩ := p
    rw [addBreakdown]
    by_cases hj : j = kind
    · subst hj
      rw [if_pos rfl]
      by_cases hk : j = k
      · simp [breakdownOf, hk]
      · simp [breakdownOf, List.lookup_cons, beq_false_of_ne (Ne.symm hk), hk]
    · rw [if_neg hj]
      by_cases hk : k = j
      · subst hk
        simp [breakdownOf, Ne.symm hj]
      · have hskip : ∀ l, breakdownOf k ((j, x) :: l) = breakdownOf k l := by
          intro l
          simp [breakdownOf, List.lookup_cons, beq_false_of_ne hk]
        rw [hskip, hskip, ih]

theorem sum_addBreakdown (kind : TrafficSourceKind) (delta : Bytes)
    (b : List (TrafficSourceKind × Bytes)) :
    ((addBreakdown kind delta b).map Prod.snd).sum = (b.map Prod.snd).sum + delta := by
  induction b with
  | nil => simp [addBreakdown]
  | cons p rest ih =>
    obtain ⟨j, x⟩ := p
    rw [addBreakdown]
    by_cases hj : j = kind
    · simp only [if_pos hj, List.map_cons, List.sum_cons, add_right_comm]
    · simp only [if_neg hj, List.map_cons, List.sum_cons, ih, add_assoc]

/-- **A day and its records**: no record, no row; else the sums, in all and by kind. -/
def DayExact : List NewTraffic → Option DailyRow → Prop
  | [], day => day = none
  | records, day => ∃ row, day = some row ∧ row.total = bytesOf records ∧
      (∀ kind, breakdownOf kind row.breakdown = bytesOf (ofKind kind records)) ∧
      (row.breakdown.map Prod.snd).sum = row.total

/-- What an accepted record does to the days. -/
theorem day_inserted (h : Inserted new db db') (s : SubscriptionId) (date : Str) :
    db'.daily.find (s, date) =
      if (new.subscriptionId, dateOf new.recordedAt) = (s, date) then
        some ((db.daily.find (s, date)).elim
          ⟨new.subscriptionId, dateOf new.recordedAt, new.bytes, [(new.sourceKind, new.bytes)]⟩
          fun r => { r with
            total := r.total + new.bytes
            breakdown := addBreakdown new.sourceKind new.bytes r.breakdown })
      else db.daily.find (s, date) := by
  rw [Checked.upsert_eq_some h.daily]
  exact Table.find_upsert ..

/-- A record more keeps a day exact. -/
theorem dayExact_cons {records : List NewTraffic} {day : Option DailyRow} {fresh : DailyRow}
    (h : DayExact records day) (htotal : fresh.total = new.bytes)
    (hbreakdown : fresh.breakdown = [(new.sourceKind, new.bytes)]) :
    DayExact (new :: records) (some (day.elim fresh fun r => { r with
      total := r.total + new.bytes
      breakdown := addBreakdown new.sourceKind new.bytes r.breakdown })) := by
  cases records with
  | nil =>
    obtain rfl : day = none := h
    refine ⟨fresh, rfl, ?_, fun kind => ?_, ?_⟩
    · simp [htotal, bytesOf]
    · have hadd := breakdownOf_add new.sourceKind kind new.bytes []
      rw [bytesOf_ofKind_cons, hbreakdown]
      exact hadd
    · simp [htotal, hbreakdown]
  | cons r rs =>
    obtain ⟨row, rfl, hsum, hkinds, hadds⟩ := h
    refine ⟨_, rfl, ?_, fun kind => ?_, ?_⟩
    · show row.total + new.bytes = _
      rw [bytesOf_cons, hsum]
    · show breakdownOf kind (addBreakdown new.sourceKind new.bytes row.breakdown) = _
      rw [breakdownOf_add, bytesOf_ofKind_cons, hkinds]
    · show ((addBreakdown new.sourceKind new.bytes row.breakdown).map Prod.snd).sum =
        row.total + new.bytes
      rw [sum_addBreakdown, hadds]

/-- **What an operation does to a day.** -/
theorem day_step {e : TrafficEvent} (h : TrafficStep db db' e) (s : SubscriptionId) (date : Str)
    (hday : DayExact (sinceCreated s date es) (db.daily.find (s, date))) :
    DayExact (sinceCreated s date (e :: es)) (db'.daily.find (s, date)) := by
  cases e with
  | accepted new =>
    rw [day_inserted h.inserted, sinceCreated]
    by_cases hkey : new.subscriptionId = s ∧ dateOf new.recordedAt = date
    · rw [if_pos hkey, if_pos (Prod.ext hkey.1 hkey.2)]
      exact dayExact_cons hday rfl rfl
    · rw [if_neg hkey, if_neg fun heq => hkey (Prod.mk.inj heq)]
      exact hday
  | aborted new =>
    rw [h.unchanged]
    exact hday
  | reset t =>
    have hfind : (deleteForSubscription t db).daily.find (s, date) =
        if decide (s = t) = true then none else db.daily.find (s, date) :=
      db.daily.toTable.find_delete_of_key (q := fun k => decide (k.1 = t)) (fun _ => rfl) (s, date)
    obtain rfl : db' = deleteForSubscription t db := h
    rw [hfind, sinceCreated]
    by_cases hts : t = s
    · rw [if_pos hts, if_pos (decide_eq_true hts.symm)]
      rfl
    · rw [if_neg hts, if_neg (by simpa using Ne.symm hts)]
      exact hday
  | prunedTraffic cutoff chosen =>
    obtain ⟨-, rfl⟩ := h
    exact hday
  | prunedDaily cutoff chosen =>
    have hfind : (pruneDaily chosen db).daily.find (s, date) =
        if decide ((s, date) ∈ chosen) = true then none else db.daily.find (s, date) :=
      db.daily.toTable.find_delete_of_key (q := fun k => decide (k ∈ chosen)) (fun _ => rfl) (s, date)
    obtain ⟨-, rfl⟩ := h
    rw [hfind, sinceCreated]
    by_cases hmem : (s, date) ∈ chosen
    · rw [if_pos hmem, if_pos (decide_eq_true hmem)]
      rfl
    · rw [if_neg hmem, if_neg (by simpa using hmem)]
      exact hday

/-! ## 4. Probe totals -/

/-- An accepted record adds to the probe totals if it is one of a probe. -/
theorem probeSum_inserted (h : Inserted new db db') (s : SubscriptionId) :
    db'.probeSum s = db.probeSum s +
      if new.subscriptionId = s ∧ new.sourceKind = .probe then new.bytes else 0 := by
  have hprobe := h.probeTotals
  unfold addProbeTotal at hprobe
  by_cases hkind : new.row.sourceKind = .probe
  · rw [if_pos hkind] at hprobe
    unfold TrafficDb.probeSum
    rw [Checked.upsert_eq_some hprobe, Table.sum_upsert]
    · show _ + (if new.subscriptionId = s then new.bytes else 0) = _
      simp only [show new.sourceKind = .probe from hkind, and_true]
    · intro x hx
      have hs : x.subscriptionId = new.subscriptionId := congrArg Prod.fst hx
      show (if x.subscriptionId = s then x.bytes + new.bytes else 0) =
        (if x.subscriptionId = s then x.bytes else 0) + if new.subscriptionId = s then new.bytes else 0
      by_cases hxs : x.subscriptionId = s
      · rw [if_pos hxs, if_pos hxs, if_pos (hs ▸ hxs)]
      · rw [if_neg hxs, if_neg hxs, if_neg fun hn => hxs (hs.trans hn), add_zero]
  · rw [if_neg hkind] at hprobe
    have hneg : ¬ (new.subscriptionId = s ∧ new.sourceKind = .probe) := fun hboth => hkind hboth.2
    rw [if_neg hneg, add_zero, TrafficDb.probeSum, ← Option.some.inj hprobe]
    rfl

/-- A reset takes the probe totals of its subscription away. -/
theorem probeSum_reset (t s : SubscriptionId) :
    (deleteForSubscription t db).probeSum s = if t = s then 0 else db.probeSum s := by
  by_cases hts : t = s
  · rw [if_pos hts]
    refine db.probeTotals.toTable.sum_delete_zero fun x hx => if_neg fun hxs => ?_
    simp [hxs, hts] at hx
  · rw [if_neg hts]
    refine db.probeTotals.toTable.sum_delete fun x hx => if_neg fun hxs => hts ?_
    exact (of_decide_eq_true hx).symm.trans hxs

/-- **What an operation does to the probe totals.** -/
theorem probe_step {e : TrafficEvent} (h : TrafficStep db db' e) (s : SubscriptionId)
    (hsum : db.probeSum s = db.total s .probe) : db'.probeSum s = db'.total s .probe := by
  cases e with
  | accepted new => rw [probeSum_inserted h.inserted, total_inserted h.inserted, hsum]
  | aborted new =>
    rw [h.unchanged]
    exact hsum
  | reset t =>
    obtain rfl : db' = deleteForSubscription t db := h
    rw [probeSum_reset, total_reset, hsum]
  | prunedTraffic cutoff chosen =>
    obtain ⟨-, rfl⟩ := h
    exact hsum
  | prunedDaily cutoff chosen =>
    obtain ⟨-, rfl⟩ := h
    exact hsum

/-! ## 5. Refusals -/

/-- A sum of the record with one of its projections is out of range. -/
def Overflows (new : NewTraffic) (db : TrafficDb) : Prop :=
  (db.total new.subscriptionId new.sourceKind + new.bytes).fits = false ∨
    (new.sourceKind = .probe ∧
      (db.probeTotal new.subscriptionId (refPrefix new.sourceRef) + new.bytes).fits = false) ∨
    (db.dayTotal new.subscriptionId (dateOf new.recordedAt) + new.bytes).fits = false

/-- The sum an upsert would store is out of range. -/
theorem elim_add_fits {α : Type} {o : Option α} {f : α → Bytes} {g : α → α} {r : α} {delta : Bytes}
    (hr : f r = delta) (hg : ∀ x, f (g x) = f x + delta)
    (h : (o.elim 0 f + delta).fits = false) : (f (o.elim r g)).fits = false := by
  cases o with
  | none => rwa [Option.elim_none, zero_add, ← hr] at h
  | some x => rwa [Option.elim_some, hg x]

/-- **A record that overflows a projection is not inserted.** -/
theorem not_inserted_of_overflows (h : Overflows new db) : ¬ Inserted new db db' := by
  intro hins
  rcases h with h | ⟨hkind, h⟩ | h
  · have hnone : addTotal db.totals new.row = none :=
      Checked.upsert_eq_none (elim_add_fits (f := TotalRow.bytes) rfl (fun _ => rfl) h)
    rw [hins.totals] at hnone
    cases hnone
  · have hnone : addProbeTotal db.probeTotals new.row = none := by
      rw [addProbeTotal, if_pos (show new.row.sourceKind = .probe from hkind)]
      exact Checked.upsert_eq_none (elim_add_fits (f := ProbeTotalRow.bytes) rfl (fun _ => rfl) h)
    rw [hins.probeTotals] at hnone
    cases hnone
  · have hnone : addDaily db.daily new.row = none :=
      Checked.upsert_eq_none (elim_add_fits (f := DailyRow.total) rfl (fun _ => rfl) h)
    rw [hins.daily] at hnone
    cases hnone

/-- **What is not inserted changes nothing.** -/
theorem commit_refused (h : ∀ db', ¬ Inserted new db db') :
    ∃ err, commit (insert new) db = (.error err, db) := by
  cases hresult : insert new db with
  | ok r =>
    obtain ⟨u, db'⟩ := r
    exact absurd (insert_eq_ok hresult) (h db')
  | error err => exact ⟨err, by simp [commit, hresult]⟩

/-! ## 6. Every sequence of operations -/

/-- **The projections are the sums of what was accepted**, and a refused insertion leaves them. -/
structure Projected (es : List TrafficEvent) (db : TrafficDb) : Prop where
  totals : ∀ s kind, db.total s kind = bytesOf (ofKind kind (sinceReset s es))
  days : ∀ s date, DayExact (sinceCreated s date es) (db.daily.find (s, date))
  probes : ∀ s, db.probeSum s = db.total s .probe
  refused : ∀ new : NewTraffic, new.upload < 0 ∨ new.download < 0 ∨ Overflows new db →
    ∃ err, commit (insert new) db = (.error err, db)
  refusedRecord : ∀ formatTs (record : TrafficRecord), record.upload ≤ u64Max →
    record.download ≤ u64Max → i64Max < record.upload ∨ i64Max < record.download →
    ∃ err, commit (create formatTs record) db = (.error err, db)

/-- A count above `i64` is cast to a negative one. -/
theorem asI64_neg {n : Nat} (hmax : n ≤ u64Max) (h : i64Max < n) : asI64 n < 0 := by
  unfold asI64
  rw [if_neg (Nat.not_le.2 h)]
  simp only [u64Max] at hmax
  omega

/-- **The projections are exact after every sequence of operations on empty tables.** -/
theorem projections_exact {subscriptions : Table OwnerRow}
    (h : TrafficRun (.empty subscriptions) es db) : Projected es db := by
  have hsums : (∀ s kind, db.total s kind = bytesOf (ofKind kind (sinceReset s es))) ∧
      (∀ s date, DayExact (sinceCreated s date es) (db.daily.find (s, date))) ∧
      ∀ s, db.probeSum s = db.total s .probe := by
    induction h with
    | start => exact ⟨fun _ _ => rfl, fun _ _ => rfl, fun _ => rfl⟩
    | step hrun he ih =>
      obtain ⟨htotals, hdays, hprobes⟩ := ih
      exact ⟨fun s kind => total_step he s kind (htotals s kind),
        fun s date => day_step he s date (hdays s date), fun s => probe_step he s (hprobes s)⟩
  have hrefused : ∀ new : NewTraffic, new.upload < 0 ∨ new.download < 0 ∨ Overflows new db →
      ∃ err, commit (insert new) db = (.error err, db) := by
    intro new hbad
    refine commit_refused fun db' hins => ?_
    rcases hbad with hup | hdown | hover
    · exact Int.not_le.2 hup hins.nonneg.1
    · exact Int.not_le.2 hdown hins.nonneg.2
    · exact not_inserted_of_overflows hover hins
  refine ⟨hsums.1, hsums.2.1, hsums.2.2, hrefused, ?_⟩
  intro formatTs record hup hdown hlarge
  refine hrefused _ ?_
  rcases hlarge with hlarge | hlarge
  · exact .inl (asI64_neg hup hlarge)
  · exact .inr (.inl (asI64_neg hdown hlarge))

/-- One subscription. -/
def oneOwner : Table OwnerRow := ⟨[⟨1, 1⟩], List.nodup_singleton _⟩

/-- A reading of a probe, and a correction by hand on another day. -/
def probeDelta : NewTraffic := ⟨1, 1, .probe, 3, 5, "2026-01-01T00:00:00Z", "nezha:7"⟩
def manualDelta : NewTraffic := ⟨2, 1, .manualCorrection, 1, 0, "2026-01-02T00:00:00Z", []⟩

theorem projections_exact_pruned : ∃ es db, TrafficRun (.empty oneOwner) es db ∧
    Projected es db ∧ db.traffic.rows.length = 1 ∧ db.total 1 .probe = (3, 5) := by
  let db₁ := (commit (insert probeDelta) (.empty oneOwner)).2
  let db₂ := (commit (insert manualDelta) db₁).2
  let db₃ := pruneTraffic [1] db₂
  have hrun : TrafficRun (.empty oneOwner) [.prunedTraffic "2026-01-02T00:00:00Z" [1],
      .accepted manualDelta, .accepted probeDelta] db₃ := by
    refine .step (.step (.step .start rfl) rfl) ⟨⟨by decide, ?_, rfl⟩, rfl⟩
    intro k hk
    exact ⟨probeDelta.row, List.mem_cons_self, (List.mem_singleton.1 hk).symm, by decide⟩
  exact ⟨_, _, hrun, projections_exact hrun, rfl, rfl⟩

end DeveSub.Traffic
