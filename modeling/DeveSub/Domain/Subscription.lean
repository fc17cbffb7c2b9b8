/-
  File:      DeveSub/Domain/Subscription.lean
  Subject:   The traffic records of subscriptions (`deve-sub-domain`: `subscription/traffic.rs`).

  Byte counts are `u64` in the source: natural numbers here, with the casts written out where a
  repository makes them. Upload and download are one pair.
-/
import DeveSub.Domain.Identity
import DeveSub.Domain.Template

namespace DeveSub

abbrev SubscriptionId := Ulid
abbrev TrafficRecordId := Ulid

/-! ## 1. Errors -/

/-- `SubscriptionError`. -/
inductive SubscriptionError where
  | subscriptionNotFound
  | slugExists
  | tokenNotFound
  | shortCodeNotFound
  | shortCodeExists
  | tempLinkNotFound
  | tempLinkInvalid
  | concurrentModification
  | storage (message : Str)
  deriving DecidableEq

/-- The precision of stored times: `format_ts` cuts to whole seconds. -/
def wholeSeconds (t : Timestamp) : Timestamp := t / 1000000000 * 1000000000

/-! ## 2. Traffic -/

/-- The largest `i64`. -/
def i64Max : Nat := 2 ^ 63 - 1

/-- The largest `u64`. -/
def u64Max : Nat := 2 ^ 64 - 1

/-- `u64::saturating_add`. -/
def saturatingAdd (a b : Nat) : Nat := min (a + b) u64Max

/-- Bytes, uploaded and downloaded. -/
abbrev Bytes := Nat × Nat

/-- Both counts are in the range of a column. -/
def Bytes.fits (b : Bytes) : Bool := b.1 ≤ i64Max && b.2 ≤ i64Max

theorem Bytes.fits_iff {b : Bytes} : Bytes.fits b = true ↔ b.1 ≤ i64Max ∧ b.2 ≤ i64Max := by
  simp [Bytes.fits]

/-- `TrafficSourceKind`. -/
inductive TrafficSourceKind where
  | airportHeader
  | manualCorrection
  | probe
  deriving DecidableEq

/-- The kinds in the order of their discriminants `A`, `M`, `P`. -/
def TrafficSourceKind.all : List TrafficSourceKind := [.airportHeader, .manualCorrection, .probe]

theorem TrafficSourceKind.mem_all (kind : TrafficSourceKind) : kind ∈ TrafficSourceKind.all := by
  cases kind <;> decide

/-- `TrafficRecord`. -/
structure TrafficRecord where
  id : TrafficRecordId
  subscriptionId : SubscriptionId
  sourceKind : TrafficSourceKind
  upload : Nat
  download : Nat
  recordedAt : Timestamp
  sourceRef : Str
  deriving DecidableEq

/-- `TrafficSummary`. -/
structure TrafficSummary where
  upload : Nat
  download : Nat
  bySource : List (TrafficSourceKind × Bytes)
  deriving DecidableEq

end DeveSub
