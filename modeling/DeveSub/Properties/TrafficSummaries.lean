/-
  File:      DeveSub/Properties/TrafficSummaries.lean
  Subject:   When the traffic summaries answer, and what they answer.

  Each stored total fits its column. The summary of one subscription is summed in Rust, which
  saturates. The summaries of a user and of all users are summed by kind in SQL first, which fails
  where a sum leaves the range of a column; only what is left is summed with saturation.

  * `sumByKind_eq` -- when the grouped `SUM` answers;
  * `summaries_exact_iff` -- all three summaries answer with the saturated sums exactly if every sum
    of a kind is in range.
-/
import DeveSub.Properties.TrafficProjections

namespace DeveSub.Traffic

/-! ## 1. Saturating sums -/

/-- Saturating along the way is saturating at the end. -/
theorem foldl_saturatingAdd (l : List Nat) {acc : Nat} (hacc : acc ≤ u64Max) :
    l.foldl saturatingAdd acc = min (acc + l.sum) u64Max := by
  induction l generalizing acc with
  | nil =>
    rw [List.foldl_nil, List.sum_nil]
    omega
  | cons n l ih =>
    have hstep : saturatingAdd acc n ≤ u64Max := Nat.min_le_right _ _
    rw [List.foldl_cons, ih hstep, List.sum_cons, saturatingAdd]
    omega

/-- The bytes of rows. -/
def bytesOfRows (rows : List TotalRow) : Bytes := (rows.map (·.bytes)).sum

/-- The bytes of a kind. -/
def kindSum (rows : List TotalRow) (kind : TrafficSourceKind) : Bytes :=
  bytesOfRows (rows.filter fun r => r.sourceKind = kind)

theorem sum_fst (l : List Bytes) : (l.map Prod.fst).sum = l.sum.1 := by
  induction l with
  | nil => rfl
  | cons b l ih => rw [List.map_cons, List.sum_cons, List.sum_cons, ih, Prod.fst_add]

theorem sum_snd (l : List Bytes) : (l.map Prod.snd).sum = l.sum.2 := by
  induction l with
  | nil => rfl
  | cons b l ih => rw [List.map_cons, List.sum_cons, List.sum_cons, ih, Prod.snd_add]

/-- **The kinds add up.** -/
theorem sum_kindSum (rows : List TotalRow) :
    (TrafficSourceKind.all.map (kindSum rows)).sum = bytesOfRows rows := by
  induction rows with
  | nil => rfl
  | cons r rows ih =>
    have hkind : ∀ kind, kindSum (r :: rows) kind =
        (if r.sourceKind = kind then r.bytes else 0) + kindSum rows kind := by
      intro kind
      by_cases hk : r.sourceKind = kind
      · simp [kindSum, bytesOfRows, hk]
      · simp [kindSum, bytesOfRows, hk]
    have hcons : bytesOfRows (r :: rows) = r.bytes + bytesOfRows rows := by simp [bytesOfRows]
    have hone : (TrafficSourceKind.all.map fun kind =>
        if r.sourceKind = kind then r.bytes else 0).sum = r.bytes := by
      cases r.sourceKind <;> simp [TrafficSourceKind.all]
    rw [hcons, ← ih, ← hone, ← List.sum_map_add]
    exact congrArg List.sum (List.map_congr_left fun kind _ => hkind kind)

/-! ## 2. What a summary should be -/

/-- **The summary answers the sum of the rows**, saturating at the largest `u64`. -/
def SummaryExact (rows : List TotalRow) (answer : Except SubscriptionError TrafficSummary) : Prop :=
  ∃ summary, answer = .ok summary ∧ summary.upload = min (bytesOfRows rows).1 u64Max ∧
    summary.download = min (bytesOfRows rows).2 u64Max

/-- `build_summary` sums with saturation. -/
theorem buildSummary_exact {rows : List TotalRow} {groups : List (TrafficSourceKind × Bytes)}
    (h : (groups.map Prod.snd).sum = bytesOfRows rows) :
    SummaryExact rows (.ok (buildSummary groups)) := by
  refine ⟨_, rfl, ?_, ?_⟩
  · show (groups.map fun g => g.2.1).foldl saturatingAdd 0 = _
    rw [foldl_saturatingAdd _ (Nat.zero_le _), Nat.zero_add, ← h, ← sum_fst, List.map_map]
    rfl
  · show (groups.map fun g => g.2.2).foldl saturatingAdd 0 = _
    rw [foldl_saturatingAdd _ (Nat.zero_le _), Nat.zero_add, ← h, ← sum_snd, List.map_map]
    rfl

/-- **The summary of a subscription always answers.** -/
theorem getSummary_exact (db : TrafficDb) (s : SubscriptionId) :
    SummaryExact (totalsOf db s) (getSummary db s) := by
  refine buildSummary_exact ?_
  rw [← sum_kindSum]
  simp [TrafficSourceKind.all, kindSum, bytesOfRows, Function.comp_def]

/-! ## 3. Sums in SQL -/

theorem sumColumn_eq (rows : List TotalRow) (kind : TrafficSourceKind) (column : TotalRow → Nat) :
    sumColumn rows kind column =
      if ((rows.filter fun r => r.sourceKind = kind).map column).sum ≤ i64Max then
        .ok ((rows.filter fun r => r.sourceKind = kind).map column).sum
      else .error (.storage "integer overflow") := by
  unfold sumColumn
  rw [sqlSum_eq (Nat.zero_le _), Nat.zero_add]
  split <;> rfl

/-- The sums of one kind answer exactly if both fit. -/
theorem sumKind_eq (rows : List TotalRow) (kind : TrafficSourceKind) :
    (do
      let upload ← sumColumn rows kind (·.bytes.1)
      let download ← sumColumn rows kind (·.bytes.2)
      return (kind, upload, download)) =
      if (kindSum rows kind).fits = true then .ok (kind, kindSum rows kind)
      else .error (.storage "integer overflow") := by
  have hup : ((rows.filter fun r => r.sourceKind = kind).map (·.bytes.1)).sum =
      (kindSum rows kind).1 := by
    rw [kindSum, bytesOfRows, ← sum_fst, List.map_map]
    rfl
  have hdown : ((rows.filter fun r => r.sourceKind = kind).map (·.bytes.2)).sum =
      (kindSum rows kind).2 := by
    rw [kindSum, bytesOfRows, ← sum_snd, List.map_map]
    rfl
  rw [sumColumn_eq, sumColumn_eq, hup, hdown]
  by_cases h₁ : (kindSum rows kind).1 ≤ i64Max
  · by_cases h₂ : (kindSum rows kind).2 ≤ i64Max
    · rw [if_pos h₁, if_pos h₂, if_pos (Bytes.fits_iff.2 ⟨h₁, h₂⟩)]
      rfl
    · rw [if_pos h₁, if_neg h₂, if_neg fun h => h₂ (Bytes.fits_iff.1 h).2]
      rfl
  · rw [if_neg h₁, if_neg fun h => h₁ (Bytes.fits_iff.1 h).1]
    rfl

/-- A kind without rows sums to nothing. -/
theorem kindSum_absent {rows : List TotalRow} {kind : TrafficSourceKind}
    (h : (rows.any fun r => r.sourceKind = kind) = false) : kindSum rows kind = 0 := by
  have hnil : (rows.filter fun r => r.sourceKind = kind) = [] := by
    refine List.filter_eq_nil_iff.2 fun r hr hk => ?_
    rw [List.any_eq_true.2 ⟨r, hr, hk⟩] at h
    cases h
  rw [kindSum, hnil]
  rfl

/-- **The grouped `SUM` answers exactly if every kind fits.** -/
theorem sumByKind_eq (rows : List TotalRow) :
    sumByKind rows = if ∀ kind ∈ TrafficSourceKind.all, (kindSum rows kind).fits = true then
      .ok ((TrafficSourceKind.all.filter fun kind => rows.any fun r => r.sourceKind = kind).map
        fun kind => (kind, kindSum rows kind))
      else .error (.storage "integer overflow") := by
  unfold sumByKind
  simp only [sumKind_eq]
  rw [mapM_ite]
  refine if_congr ⟨fun h kind hkind => ?_, fun h kind hkind => h kind (List.mem_filter.1 hkind).1⟩
    rfl rfl
  cases hany : rows.any fun r => r.sourceKind = kind with
  | true => exact h kind (List.mem_filter.2 ⟨hkind, hany⟩)
  | false =>
    rw [kindSum_absent hany]
    decide

/-- A summary by kind is exact where it answers, and it answers where every kind fits. -/
theorem sumByKind_exact_iff (rows : List TotalRow) :
    SummaryExact rows ((sumByKind rows).map buildSummary) ↔
      ∀ kind, (kindSum rows kind).fits = true := by
  rw [sumByKind_eq]
  by_cases hfits : ∀ kind ∈ TrafficSourceKind.all, (kindSum rows kind).fits = true
  · rw [if_pos hfits]
    refine ⟨fun _ kind => hfits kind kind.mem_all, fun _ => buildSummary_exact ?_⟩
    rw [List.map_map, ← sum_kindSum]
    exact sum_filter_of_zero (fun kind hany => kindSum_absent hany) _
  · rw [if_neg hfits]
    refine ⟨fun h => ?_, fun h => absurd (fun kind _ => h kind) hfits⟩
    obtain ⟨summary, hok, -⟩ := h
    cases hok

/-! ## 4. The three summaries -/

/-- **The summaries answer with the saturated sums exactly if no sum of a kind that SQL makes
    leaves the range of a column.** -/
theorem summaries_exact_iff (db : TrafficDb) (s : SubscriptionId) (user : UserId) :
    (SummaryExact (totalsOf db s) (getSummary db s) ∧
      SummaryExact (totalsOfUser db user) (getSummaryForUser db user) ∧
      SummaryExact db.totals.rows (getGlobalSummary db)) ↔
      (∀ kind, (kindSum (totalsOfUser db user) kind).fits = true) ∧
        ∀ kind, (kindSum db.totals.rows kind).fits = true := by
  constructor
  · intro h
    exact ⟨(sumByKind_exact_iff _).1 h.2.1, (sumByKind_exact_iff _).1 h.2.2⟩
  · intro h
    exact ⟨getSummary_exact db s, (sumByKind_exact_iff _).2 h.1, (sumByKind_exact_iff _).2 h.2⟩

/-- Two subscriptions of one user. -/
def twoOwned : Table OwnerRow := ⟨[⟨1, 7⟩, ⟨2, 7⟩], by decide⟩

/-- As much upload as a column holds, for one subscription; one more byte for the other. -/
def fullDelta : NewTraffic := ⟨1, 1, .probe, i64Max, 0, "2026-01-01T00:00:00Z", "nezha:7"⟩
def oneMore : NewTraffic := ⟨2, 2, .probe, 1, 0, "2026-01-01T00:00:00Z", "nezha:7"⟩

/-- The user's summary answers after the first record, and no longer after the second; the summary
    of each subscription still does. -/
theorem user_summary_fails : ∃ db₁ db₂ summary, TrafficRun (.empty twoOwned) [.accepted fullDelta] db₁ ∧
    TrafficRun (.empty twoOwned) [.accepted oneMore, .accepted fullDelta] db₂ ∧
    getSummaryForUser db₁ 7 = .ok summary ∧
    getSummaryForUser db₂ 7 = .error (.storage "integer overflow") ∧
    getGlobalSummary db₂ = .error (.storage "integer overflow") ∧
    getSummary db₂ 2 = .ok ⟨1, 0, [(.probe, 1, 0)]⟩ := by
  let db₁ := (commit (insert fullDelta) (.empty twoOwned)).2
  let db₂ := (commit (insert oneMore) db₁).2
  have h₁ : TrafficRun (.empty twoOwned) [.accepted fullDelta] db₁ := .step .start rfl
  have h₂ : TrafficRun (.empty twoOwned) [.accepted oneMore, .accepted fullDelta] db₂ := .step h₁ rfl
  exact ⟨db₁, db₂, ⟨i64Max, 0, [(.probe, i64Max, 0)]⟩, h₁, h₂,
    by decide +kernel, by decide +kernel, by decide +kernel, by decide +kernel⟩

end DeveSub.Traffic
