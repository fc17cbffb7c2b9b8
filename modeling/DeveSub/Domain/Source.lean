/-
  File:      DeveSub/Domain/Source.lean
  Subject:   Sources, their snapshots and refresh jobs, and the entries of the node pool
             (`deve-sub-domain`: `source/*.rs`, `node_override.rs`).

  `PooledNode` adds to `Node` the fields of the aggregate that only the pool reads. The times of
  creation and import, the raw URI and the method of the region assignment are read by none of
  the functions modelled here and are left out.
-/
import DeveSub.Domain.Node
import DeveSub.Lib.Ulid

namespace DeveSub

abbrev NodeId := Ulid
abbrev SourceId := Ulid
abbrev SnapshotId := Ulid
abbrev JobId := Ulid
abbrev TagId := Ulid

/-- `Timestamp`, in nanoseconds. -/
abbrev Timestamp := Int

/-! ## 1. Errors -/

/-- `NodeChainError`. -/
inductive NodeChainError where
  | empty
  | selfReference
  | duplicate (id : NodeId)
  | nodeNotFound (ids : List NodeId)
  | cycle (path : List NodeId)
  deriving DecidableEq

/-- `SourceError`, as far as the modelled functions raise it. -/
inductive SourceError where
  | sourceNotFound
  | nodeNotFound (id : Str)
  | nodeChain (e : NodeChainError)
  | nameExists
  | refreshInProgress (what : Str)
  | storage (message : Str)
  | tagNotFound
  | tagExists
  deriving DecidableEq

/-- `Display for NodeChainError`. -/
def NodeChainError.text : NodeChainError → Str
  | .empty => "chain must not be empty"
  | .selfReference => "chain must not contain the node itself"
  | .duplicate id => "chain contains duplicate node: ".toList ++ id.text
  | .nodeNotFound ids => "chain references non-existent nodes: [".toList ++
    ", ".toList.intercalate (ids.map fun id => "NodeId(Ulid(".toList ++ natText id ++ "))".toList) ++
    [']']
  | .cycle path => "chain cycle detected: ".toList ++ " -> ".toList.intercalate (path.map Ulid.text)

/-- `Display for SourceError`. -/
def SourceError.text : SourceError → Str
  | .sourceNotFound => "source not found"
  | .nodeNotFound id => "node not found: ".toList ++ id
  | .nodeChain e => e.text
  | .nameExists => "source name already exists"
  | .refreshInProgress what => "refresh already in progress for source ".toList ++ what
  | .storage m => "storage error: ".toList ++ m
  | .tagNotFound => "tag not found"
  | .tagExists => "tag name already exists"

/-! ## 2. Sources -/

/-- `SourceType`. -/
inductive SourceType where
  | auto
  | base64
  | uriList
  | mihomoYaml
  | singboxJson
  | xrayJson
  | v2rayJson
  | shadowrocket
  deriving DecidableEq

/-- `SourceFilterRules`. -/
structure SourceFilterRules where
  includeProtocols : List Str
  excludeProtocols : List Str
  includeRegions : List Str
  excludeRegions : List Str
  deriving DecidableEq

/-- `Source`. -/
structure Source where
  id : SourceId
  name : Str
  sourceType : SourceType
  url : Str
  httpMethod : Str
  headers : Option Str
  autoUpdate : Bool
  updateIntervalSecs : Nat
  enabled : Bool
  keepOnFail : Bool
  filterRules : Option SourceFilterRules
  deriving DecidableEq

/-- `SourceConfigUpdate`: an absent URL keeps the stored one. -/
structure SourceConfigUpdate where
  id : SourceId
  name : Str
  sourceType : SourceType
  url : Option Str
  autoUpdate : Bool
  updateIntervalSecs : Nat
  enabled : Bool
  keepOnFail : Bool
  filterRules : Option SourceFilterRules

/-- `SourceSnapshot`. -/
structure SourceSnapshot where
  id : SnapshotId
  sourceId : SourceId
  version : Nat
  fetchedAt : Timestamp
  etag : Option Str
  nodeCount : Nat
  isActive : Bool
  deriving DecidableEq

/-! ## 3. Refresh jobs -/

/-- `SourceRefreshJobStatus`. -/
inductive JobStatus where
  | pending
  | running
  | completed
  | failed
  | cancelled
  deriving DecidableEq

/-- `RefreshPhase`. -/
inductive RefreshPhase where
  | idle
  | fetching
  | parsing
  | enriching
  | reconciling
  | publishing
  deriving DecidableEq

/-- `ReconcileResult`. -/
structure ReconcileResult where
  newNodes : Nat
  duplicateNodes : Nat
  reactivatedNodes : Nat
  missingNodes : Nat
  deriving DecidableEq

/-- `ReconcileResult::default()`. -/
def ReconcileResult.zero : ReconcileResult := ⟨0, 0, 0, 0⟩

/-- `SourceRefreshJob`. -/
structure SourceRefreshJob where
  id : JobId
  sourceId : SourceId
  status : JobStatus
  phase : RefreshPhase
  startedAt : Timestamp
  finishedAt : Option Timestamp
  errorMessage : Option Str
  counts : ReconcileResult
  notModified : Bool
  deriving DecidableEq

/-! ## 4. Pool entries -/

/-- A node with the fields of the aggregate the protocol code does not read. -/
structure PooledNode where
  id : NodeId
  node : Node
  region : Option Str
  sourceLabel : Str
  chain : Option (List NodeId)

/-- `NodeOverride`. -/
structure NodeOverride where
  id : Ulid
  nodeId : NodeId
  displayName : Option Str
  region : Option Str
  enabled : Option Bool
  sni : Option Str
  skipCertVerify : Option Bool
  fingerprint : Option Str
  sortOrder : Int
  deriving DecidableEq

/-- `Tag`. -/
structure Tag where
  id : TagId
  name : Str
  color : Option Str
  deriving DecidableEq

/-- `NodePoolEntry`. -/
structure NodePoolEntry where
  node : PooledNode
  missingFromSource : Bool
  isActive : Bool
  revision : Nat
  overrideInfo : Option NodeOverride
  tags : List Tag

/-- `NodeFilter`. -/
structure NodeFilter where
  protocol : Option ProtocolKind
  region : Option Str
  includeMissing : Bool
  includeInactive : Bool

/-- `NodeFilter::active_only`. -/
def NodeFilter.activeOnly : NodeFilter := ⟨none, none, false, false⟩

/-- `NodeFilter::all`. -/
def NodeFilter.all : NodeFilter := ⟨none, none, true, true⟩

/-- `ReconcileEntry`, without the raw URI and its parse status, which only the item list keeps. -/
abbrev ReconcileEntry := Option PooledNode

/-- `ReconcileInput`. -/
structure ReconcileInput where
  sourceId : SourceId
  jobId : Option JobId
  snapshot : SourceSnapshot
  entries : List ReconcileEntry

/-- `ImportOutcome`. -/
inductive ImportOutcome where
  | inserted (id : NodeId)
  | duplicate (id : NodeId)
  deriving DecidableEq

/-- `ImportResult`. -/
structure ImportResult where
  newNodes : Nat
  duplicateNodes : Nat
  outcomes : List ImportOutcome
  deriving DecidableEq

/-- `TagUpdateMode`. -/
inductive TagUpdateMode where
  | replace
  | add
  | remove
  deriving DecidableEq

end DeveSub
