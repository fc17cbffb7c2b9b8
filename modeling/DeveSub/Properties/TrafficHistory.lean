/-
  File:      DeveSub/Properties/TrafficHistory.lean
  Subject:   A traffic history has one point for every day of its range.

  The loop advances a text; the calendar says that this text is the next day's. A day is removed
  from the map when its point is made, which no later day notices.

  * `incrementDate_text` -- the text of the next day;
  * `point_byDate` -- the figures of a day are the saturating sums of its snapshots;
  * `fillFrom_days` -- the loop, from any day of the range;
  * `fillGaps_days` -- the history.
-/
import Mathlib.Tactic.IntervalCases
import DeveSub.Application.TrafficHistory
import DeveSub.Properties.TrafficSummaries

namespace DeveSub.TrafficHistory

/-! ## 1. The next day -/

theorem splitOn_text (d : Date) :
    d.text.splitOn '-' = [padded 4 d.year, padded 2 d.month, padded 2 d.day] := by
  refine List.splitOn_intercalate '-' (fun l hl => ?_) (by simp)
  simp only [List.mem_cons, List.not_mem_nil, or_false] at hl
  rcases hl with rfl | rfl | rfl
  · exact not_mem_padded (by decide)
  · exact not_mem_padded (by decide)
  · exact not_mem_padded (by decide)

theorem parseU32_padded {w n : Nat} (h : n < 4294967296) :
    parseU32 (padded w n) = some (UInt32.ofNat n) := by
  rw [parseU32, parseUnsigned_padded h, Option.map_some]

theorem toNat_ofNat_of_lt {n : Nat} (h : n < 4294967296) : (UInt32.ofNat n).toNat = n :=
  UInt32.toNat_ofNat_of_lt h

theorem mod_eq_zero_iff {y k : Nat} (hy : y < 4294967296) (hk : k < 4294967296) :
    UInt32.ofNat y % UInt32.ofNat k = 0 ↔ y % k = 0 := by
  rw [← UInt32.toNat_inj, UInt32.toNat_mod, toNat_ofNat_of_lt hy, toNat_ofNat_of_lt hk]
  rfl

/-- The source's month lengths are those of the calendar. -/
theorem monthDays_eq {year month : Nat} (hy : year ≤ 9999) (hm : 1 ≤ month ∧ month ≤ 12) :
    monthDays (UInt32.ofNat year) (UInt32.ofNat month) =
      some (UInt32.ofNat (daysInMonth year month)) := by
  have hleap : ((UInt32.ofNat year % 4 = 0 ∧ UInt32.ofNat year % 100 ≠ 0) ∨
      UInt32.ofNat year % 400 = 0) ↔ isLeapYear year = true := by
    have h4 := mod_eq_zero_iff (y := year) (k := 4) (by omega) (by decide)
    have h100 := mod_eq_zero_iff (y := year) (k := 100) (by omega) (by decide)
    have h400 := mod_eq_zero_iff (y := year) (k := 400) (by omega) (by decide)
    simp only [isLeapYear, Bool.or_eq_true, Bool.and_eq_true, decide_eq_true_eq]
    exact or_congr (and_congr h4 (not_congr h100)) h400
  have hfebruary : monthDays (UInt32.ofNat year) 2 = some (UInt32.ofNat (daysInMonth year 2)) := by
    have hmonth : daysInMonth year 2 = if isLeapYear year then 29 else 28 := rfl
    have hdays : monthDays (UInt32.ofNat year) 2 =
        some (if (UInt32.ofNat year % 4 = 0 ∧ UInt32.ofNat year % 100 ≠ 0) ∨
          UInt32.ofNat year % 400 = 0 then 29 else 28) := rfl
    rw [hmonth, hdays]
    by_cases hl : isLeapYear year = true
    · rw [if_pos (hleap.2 hl), if_pos hl]
      rfl
    · rw [if_neg (mt hleap.1 hl), if_neg hl]
      rfl
  by_cases htwo : month = 2
  · rw [htwo]
    exact hfebruary
  · obtain ⟨hlow, hhigh⟩ := hm
    interval_cases month <;> first | rfl | exact absurd rfl htwo

theorem dateText_eq (d : Date) :
    dateText (UInt32.ofNat d.year) (UInt32.ofNat d.month) (UInt32.ofNat d.day) = d.text := by
  have hy := d.year_le
  have hm := d.month_mem
  have hd := d.day_lt
  rw [dateText, toNat_ofNat_of_lt (by omega), toNat_ofNat_of_lt (by omega),
    toNat_ofNat_of_lt (by omega)]
  rfl

/-- Reading the text of a day. -/
theorem incrementDate_eq (d : Date) : incrementDate d.text =
    if d.day < daysInMonth d.year d.month then
      some (dateText (UInt32.ofNat d.year) (UInt32.ofNat d.month) (UInt32.ofNat (d.day + 1)))
    else if d.month < 12 then
      some (dateText (UInt32.ofNat d.year) (UInt32.ofNat (d.month + 1)) 1)
    else some (dateText (UInt32.ofNat (d.year + 1)) 1 1) := by
  have hy := d.year_le
  have hm := d.month_mem
  have hd := d.day_lt
  have hdays := daysInMonth_bounds d.year d.month
  have hlt : ∀ {a b : Nat}, a < 4294967296 → b < 4294967296 →
      (UInt32.ofNat a < UInt32.ofNat b ↔ a < b) := by
    intro a b ha hb
    rw [UInt32.lt_iff_toNat_lt, toNat_ofNat_of_lt ha, toNat_ofNat_of_lt hb]
  rw [incrementDate, splitOn_text]
  simp only [parseU32_padded (show d.year < 4294967296 by omega),
    parseU32_padded (show d.month < 4294967296 by omega),
    parseU32_padded (show d.day < 4294967296 by omega), monthDays_eq hy hm, Option.bind_eq_bind,
    Option.bind_some, hlt (show d.day < 4294967296 by omega)
      (show daysInMonth d.year d.month < 4294967296 by omega), UInt32.ofNat_add]
  have htwelve := hlt (a := d.month) (b := 12) (by omega) (by decide)
  exact if_congr Iff.rfl rfl (if_congr htwelve rfl rfl)

/-- **Incrementing the text of a day gives the text of the next.** -/
theorem incrementDate_text {d n : Date} (h : d.next? = some n) :
    incrementDate d.text = some n.text := by
  rw [incrementDate_eq, ← dateText_eq n]
  unfold Date.next? at h
  split at h
  · rename_i hday
    rw [if_pos hday]
    cases h
    rfl
  rename_i hday
  rw [if_neg hday]
  split at h
  · rename_i hmonth
    rw [if_pos hmonth]
    cases h
    rfl
  · rename_i hmonth
    rw [if_neg hmonth]
    split at h
    · cases h
      rfl
    · cases h

/-! ## 2. The figures of a day -/

/-- The snapshots of a day. -/
def ofDay (snapshots : List TrafficDailySnapshot) (date : Str) : List TrafficDailySnapshot :=
  snapshots.filter fun s => s.date = date

/-- The figures of a kind. -/
def figuresOf (day : List TrafficDailySnapshot) (kind : TrafficSourceKind) :
    List (TrafficSourceKind × Nat × Nat) :=
  (day.flatMap TrafficDailySnapshot.sourceBreakdown).filter fun f => f.1 = kind

/-- A sum, at most the largest `u64`. -/
def cappedSum (l : List Nat) : Nat := min l.sum u64Max

/-- **The point of a day**: the capped sums of its snapshots, and those of each kind they list. -/
def dayPoint (snapshots : List TrafficDailySnapshot) (date : Str) : TrafficHistoryPoint where
  date := date
  totalUpload := cappedSum ((ofDay snapshots date).map (·.totalUpload))
  totalDownload := cappedSum ((ofDay snapshots date).map (·.totalDownload))
  sourceBreakdown :=
    (TrafficSourceKind.all.filter fun kind => figuresOf (ofDay snapshots date) kind ≠ []).map
      fun kind => (kind, cappedSum ((figuresOf (ofDay snapshots date) kind).map (·.2.1)),
        cappedSum ((figuresOf (ofDay snapshots date) kind).map (·.2.2)))

/-- The three parts of an accumulator are loops of their own. -/
theorem foldl_add (day : List TrafficDailySnapshot) (acc : DayAccumulator) :
    day.foldl DayAccumulator.add acc =
      ⟨(day.map (·.totalUpload)).foldl saturatingAdd acc.upload,
        (day.map (·.totalDownload)).foldl saturatingAdd acc.download,
        SortedMap.fill Prod.fst (0, 0) DayAccumulator.addFigure acc.kinds
          (day.flatMap TrafficDailySnapshot.sourceBreakdown)⟩ := by
  induction day generalizing acc with
  | nil => rfl
  | cons snap day ih =>
    rw [List.foldl_cons, ih, DayAccumulator.add]
    simp only [List.map_cons, List.foldl_cons, List.flatMap_cons, SortedMap.fill, List.foldl_append]

theorem foldl_addFigure (figures : List (TrafficSourceKind × Nat × Nat)) (sum : Nat × Nat) :
    figures.foldl DayAccumulator.addFigure sum =
      ((figures.map (·.2.1)).foldl saturatingAdd sum.1,
        (figures.map (·.2.2)).foldl saturatingAdd sum.2) := by
  induction figures generalizing sum with
  | nil => rfl
  | cons f figures ih =>
    rw [List.foldl_cons, ih]
    rfl

theorem foldl_cappedSum (l : List Nat) : l.foldl saturatingAdd 0 = cappedSum l := by
  rw [Traffic.foldl_saturatingAdd l (Nat.zero_le _), Nat.zero_add, cappedSum]

theorem all_pairwise : TrafficSourceKind.all.Pairwise (· < ·) := by decide

/-- The breakdown of a day, in the order of the kinds. -/
theorem kinds_entries (figures : List (TrafficSourceKind × Nat × Nat)) :
    (SortedMap.fill Prod.fst (0, 0) DayAccumulator.addFigure .empty figures).entries =
      (TrafficSourceKind.all.filter fun kind => figures.filter (fun f => f.1 = kind) ≠ []).map
        fun kind => (kind, cappedSum ((figures.filter fun f => f.1 = kind).map (·.2.1)),
          cappedSum ((figures.filter fun f => f.1 = kind).map (·.2.2))) := by
  rw [SortedMap.entries_eq_filterMap _ all_pairwise fun kind _ => kind.mem_all,
    ← List.filterMap_eq_map, List.filterMap_filter]
  congr 1
  funext kind
  have hsome := SortedMap.isSome_fill Prod.fst (0, 0) DayAccumulator.addFigure figures .empty kind
  have hvalue := SortedMap.getD_fill Prod.fst (0, 0) DayAccumulator.addFigure figures .empty kind
  rw [SortedMap.get?_empty, Option.isSome_none, Bool.false_or] at hsome
  rw [SortedMap.get?_empty, Option.getD_none, foldl_addFigure, foldl_cappedSum, foldl_cappedSum]
    at hvalue
  have hfilter : figures.filter (fun f => f.1 = kind) ≠ [] ↔ figures.any (fun f => f.1 = kind) := by
    rw [ne_eq, List.filter_eq_nil_iff, List.any_eq_true]
    push Not
    rfl
  cases hget : (SortedMap.fill Prod.fst (0, 0) DayAccumulator.addFigure .empty figures).get? kind with
  | none =>
    rw [hget, Option.isSome_none] at hsome
    rw [if_neg]
    · rfl
    · rw [decide_eq_true_eq, hfilter, ← hsome]
      decide
  | some v =>
    rw [hget, Option.isSome_some] at hsome
    rw [hget, Option.getD_some] at hvalue
    rw [if_pos (by rw [decide_eq_true_eq, hfilter, ← hsome]), hvalue]
    rfl

/-- **The map holds the point of every day.** -/
theorem point_byDate (snapshots : List TrafficDailySnapshot) (date : Str) :
    (((byDate snapshots).get? date).getD .zero).point date = dayPoint snapshots date := by
  rw [byDate, SortedMap.getD_fill, SortedMap.get?_empty, Option.getD_none, foldl_add]
  simp only [DayAccumulator.point, DayAccumulator.zero, foldl_cappedSum, kinds_entries]
  rfl

/-! ## 3. The loop -/

/-- **The loop makes the points of the days that are left**, in as many rounds. The map agrees
    with the one at the start on every day that is left. -/
theorem fillFrom_days {snapshots : List TrafficDailySnapshot} {first last : Date} {days : List Date}
    (h : Days first last days) (rounds : Nat) {left : SortedMap Str DayAccumulator}
    (hleft : ∀ d : Date, first ≤ d → left.get? d.text = (byDate snapshots).get? d.text) :
    fillFrom last.text rounds left first.text =
      if days.length ≤ rounds then some (days.map fun d => dayPoint snapshots d.text) else none := by
  induction h generalizing rounds left with
  | last a =>
    cases rounds with
    | zero => rfl
    | succ rounds =>
      rw [fillFrom, hleft a (.inr rfl), point_byDate, if_pos rfl, if_pos (by simp)]
      rfl
  | step hlt hnext rest ih =>
    rename_i a n b ds
    cases rounds with
    | zero => rfl
    | succ rounds =>
      have hne : a.text ≠ b.text := by
        intro he
        rw [Date.text_injective he, Date.lt_iff_rank] at hlt
        exact Nat.lt_irrefl _ hlt
      have hrest : ∀ d : Date, n ≤ d →
          (left.remove a.text).get? d.text = (byDate snapshots).get? d.text := by
        intro d hd
        have had : a < d := (Date.lt_iff_next_le hnext d).2 hd
        rw [SortedMap.get?_remove, hleft d (.inl had)]
        intro he
        rw [Date.text_injective he, Date.lt_iff_rank] at had
        exact Nat.lt_irrefl _ had
      rw [fillFrom, hleft a (.inr rfl), point_byDate, if_neg hne, incrementDate_text hnext]
      dsimp only
      rw [ih rounds hrest]
      by_cases hlen : ds.length ≤ rounds
      · rw [if_pos hlen, if_pos (by rw [List.length_cons]; omega)]
        rfl
      · rw [if_neg hlen, if_neg (by rw [List.length_cons]; omega)]
        rfl

/-- **A history has one point for each day from the first to the last, in order**, and the loop
    ends in exactly as many rounds. -/
theorem fillGaps_days (snapshots : List TrafficDailySnapshot) {first last : Date}
    (h : first ≤ last) :
    ∃ days : List Date, days.Pairwise (· < ·) ∧ (∀ d, d ∈ days ↔ first ≤ d ∧ d ≤ last) ∧
      ∀ rounds, fillGaps rounds snapshots first.text last.text =
        if days.length ≤ rounds then some (days.map fun d => dayPoint snapshots d.text)
        else none := by
  obtain ⟨days, hdays⟩ := exists_days h
  refine ⟨days, hdays.pairwise, hdays.mem_iff, fun rounds => ?_⟩
  have hguard : ¬first.text > last.text := by
    rcases Date.le_def.1 h with hlt | rfl
    · exact List.lt_asymm (Date.text_lt_text hlt)
    · exact List.lt_irrefl _
  rw [fillGaps, if_neg hguard]
  exact fillFrom_days hdays rounds fun _ _ => rfl

/-- The day before a leap day. -/
def lateFebruary : Date := ⟨2024, 2, 28, by decide, by decide, by decide⟩

/-- The day after it. -/
def march : Date := ⟨2024, 3, 1, by decide, by decide, by decide⟩

/-- Two snapshots of one day, the second past the largest `u64`. -/
def leapDaySnapshots : List TrafficDailySnapshot :=
  [⟨"2024-02-29", 7, 1, [(.probe, 7, 1)]⟩, ⟨"2024-02-29", u64Max, 2, [(.airportHeader, u64Max, 2)]⟩]

theorem fillGaps_leap_year : lateFebruary.text = "2024-02-28".toList ∧ march.text = "2024-03-01".toList ∧
    ∃ days : List Date, days.Pairwise (· < ·) ∧ (∀ d, d ∈ days ↔ lateFebruary ≤ d ∧ d ≤ march) ∧
      ∀ rounds, fillGaps rounds leapDaySnapshots lateFebruary.text march.text =
        if days.length ≤ rounds then some (days.map fun d => dayPoint leapDaySnapshots d.text)
        else none :=
  ⟨by decide +kernel, by decide +kernel, fillGaps_days leapDaySnapshots (.inl (.inr (by decide)))⟩

example : fillGaps 3 leapDaySnapshots "2024-02-28" "2024-03-01" =
    some [⟨"2024-02-28", 0, 0, []⟩,
      ⟨"2024-02-29", u64Max, 3, [(.airportHeader, u64Max, 2), (.probe, 7, 1)]⟩,
      ⟨"2024-03-01", 0, 0, []⟩] := by
  decide +kernel

end DeveSub.TrafficHistory
