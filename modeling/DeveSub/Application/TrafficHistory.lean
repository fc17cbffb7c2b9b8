/-
  File:      DeveSub/Application/TrafficHistory.lean
  Subject:   Traffic history for charts: one point a day (`subscription/traffic_history.rs` of
             `deve-sub-application`).

  Dates are texts here, as in the source: the loop ends where the text of the day is the text of
  the end. It may run for long, so that the number of its rounds is an argument, and it has no
  answer where they do not suffice.
-/
import Mathlib.Data.Char
import DeveSub.Domain.Subscription
import DeveSub.Lib.Calendar
import DeveSub.Lib.SortedMap
import DeveSub.Protocol.Common

namespace DeveSub

/-- The derived order of the kinds: as they are listed. -/
def TrafficSourceKind.index : TrafficSourceKind → Nat
  | .airportHeader => 0
  | .manualCorrection => 1
  | .probe => 2

theorem TrafficSourceKind.index_injective : Function.Injective TrafficSourceKind.index := by
  intro a b h
  cases a <;> cases b <;> first | rfl | cases h

instance : LinearOrder TrafficSourceKind :=
  LinearOrder.lift' TrafficSourceKind.index TrafficSourceKind.index_injective

namespace TrafficHistory

/-- `TrafficDailySnapshot`, the fields the history reads. -/
structure TrafficDailySnapshot where
  date : Str
  totalUpload : Nat
  totalDownload : Nat
  sourceBreakdown : List (TrafficSourceKind × Nat × Nat)
  deriving DecidableEq

/-- `TrafficHistoryPoint`. -/
structure TrafficHistoryPoint where
  date : Str
  totalUpload : Nat
  totalDownload : Nat
  sourceBreakdown : List (TrafficSourceKind × Nat × Nat)
  deriving DecidableEq

/-! ## 1. Grouping by day -/

/-- `DayAccumulator`. -/
structure DayAccumulator where
  upload : Nat
  download : Nat
  kinds : SortedMap TrafficSourceKind (Nat × Nat)

namespace DayAccumulator

/-- A day without traffic. -/
def zero : DayAccumulator := ⟨0, 0, .empty⟩

/-- One figure of a breakdown, added to those of its kind. -/
def addFigure (sum : Nat × Nat) (figure : TrafficSourceKind × Nat × Nat) : Nat × Nat :=
  (saturatingAdd sum.1 figure.2.1, saturatingAdd sum.2 figure.2.2)

/-- One snapshot, added to its day. -/
def add (day : DayAccumulator) (snap : TrafficDailySnapshot) : DayAccumulator where
  upload := saturatingAdd day.upload snap.totalUpload
  download := saturatingAdd day.download snap.totalDownload
  kinds := SortedMap.fill Prod.fst (0, 0) addFigure day.kinds snap.sourceBreakdown

/-- The point of a day. -/
def point (day : DayAccumulator) (date : Str) : TrafficHistoryPoint :=
  ⟨date, day.upload, day.download, day.kinds.entries⟩

end DayAccumulator

/-- `by_date`. -/
def byDate (snapshots : List TrafficDailySnapshot) : SortedMap Str DayAccumulator :=
  SortedMap.fill TrafficDailySnapshot.date DayAccumulator.zero DayAccumulator.add .empty snapshots

/-! ## 2. The days -/

/-- The number of days of a month, as `increment_date` finds it. -/
def monthDays (year month : UInt32) : Option UInt32 :=
  if month = 1 ∨ month = 3 ∨ month = 5 ∨ month = 7 ∨ month = 8 ∨ month = 10 ∨ month = 12 then some 31
  else if month = 4 ∨ month = 6 ∨ month = 9 ∨ month = 11 then some 30
  else if month = 2 then
    some (if (year % 4 = 0 ∧ year % 100 ≠ 0) ∨ year % 400 = 0 then 29 else 28)
  else none

/-- `format!("{year:04}-{month:02}-{day:02}")`. -/
def dateText (year month day : UInt32) : Str :=
  ['-'].intercalate [padded 4 year.toNat, padded 2 month.toNat, padded 2 day.toNat]

/-- `increment_date`. -/
def incrementDate (date : Str) : Option Str :=
  match date.splitOn '-' with
  | [y, m, d] => do
    let year ← parseU32 y
    let month ← parseU32 m
    let day ← parseU32 d
    let daysInMonth ← monthDays year month
    if day < daysInMonth then some (dateText year month (day + 1))
    else if month < 12 then some (dateText year (month + 1) 1)
    else some (dateText (year + 1) 1 1)
  | _ => none

/-! ## 3. The history -/

/-- The loop of `fill_gaps`, for a number of rounds. -/
def fillFrom (endDate : Str) :
    Nat → SortedMap Str DayAccumulator → Str → Option (List TrafficHistoryPoint)
  | 0, _, _ => none
  | rounds + 1, days, current =>
    let point := ((days.get? current).getD .zero).point current
    if current = endDate then some [point]
    else
      match incrementDate current with
      | some next => (fillFrom endDate rounds (days.remove current) next).map (point :: ·)
      | none => some [point]

/-- `fill_gaps`. -/
def fillGaps (rounds : Nat) (snapshots : List TrafficDailySnapshot) (startDate endDate : Str) :
    Option (List TrafficHistoryPoint) :=
  if startDate > endDate then some []
  else fillFrom endDate rounds (byDate snapshots) startDate

end TrafficHistory

end DeveSub
