/-
  File:      DeveSub/Domain/Probe.lean
  Subject:   Probe sources and traffic samples (`deve-sub-domain`: `probe/*.rs`).

  The time of creation and the time of a sample are read by none of the functions modelled here and
  are left out, and so are latency records and probe runs.
-/
import DeveSub.Domain.Subscription

namespace DeveSub

abbrev ProbeSourceId := Ulid

/-- `ProbeSourceKind`. -/
inductive ProbeSourceKind where
  | nezha
  | dStatus
  | komari
  deriving DecidableEq

/-- `ProbeSourceKind::as_kebab`. -/
def ProbeSourceKind.asKebab : ProbeSourceKind → Str
  | .nezha => "nezha"
  | .dStatus => "dstatus"
  | .komari => "komari"

/-- `SyncStatus`. -/
inductive SyncStatus where
  | ok
  | failed (message : Str)
  | stale
  deriving DecidableEq

/-- `ProbeError`, as far as the modelled functions raise it. -/
inductive ProbeError where
  | conflict
  | sourceNotFound
  | nameExists
  | invalidInput (message : Str)
  | probeFailed (message : Str)
  | storage (message : Str)
  deriving DecidableEq

/-- The text of a `ProbeError`. -/
def ProbeError.text : ProbeError → Str
  | .conflict => "probe source changed concurrently"
  | .sourceNotFound => "probe source not found"
  | .nameExists => "probe source name already exists"
  | .invalidInput m => "invalid input: ".toList ++ m
  | .probeFailed m => "probe failed: ".toList ++ m
  | .storage m => "storage error: ".toList ++ m

/-- `ProbeSource`. -/
structure ProbeSource where
  revision : Nat
  id : ProbeSourceId
  kind : ProbeSourceKind
  name : Str
  endpointUrl : Str
  authConfig : Str
  subscriptionId : Option SubscriptionId
  enabled : Bool
  lastSyncAt : Option Timestamp
  lastSyncStatus : Option SyncStatus
  lastCounterSnapshot : Option Str
  updatedAt : Timestamp
  deriving DecidableEq

/-- `ProbeTrafficSample`. -/
structure ProbeTrafficSample where
  externalServerId : Str
  bytes : Bytes
  deriving DecidableEq

/-- `ProbeSyncResult`. -/
structure ProbeSyncResult where
  samples : List ProbeTrafficSample
  newCounterSnapshot : Option Str
  deriving DecidableEq

end DeveSub
