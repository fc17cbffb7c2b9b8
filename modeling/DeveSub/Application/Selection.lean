/-
  File:      DeveSub/Application/Selection.lean
  Subject:   Which nodes a template selects, and which of them a profile can carry
             (`template/selection.rs`, `template/compatibility.rs`).

  Both read the pool in several queries. A reader is a program whose calls are queries
  (`PoolReader`), so that what it answers on a pool that stands still (`Program.eval`) and what
  it may see while the pool moves are about one definition.
-/
import DeveSub.Application.Ports
import DeveSub.Compatibility.Profiles

namespace DeveSub

/-! ## 1. Reading the pool -/

/-- A query answers entries. -/
abbrev QueryReply : NodePool.Query → Type := fun _ => List NodePoolEntry

/-- A program that only queries the pool. -/
abbrev PoolReader := Program QueryReply

/-- What a reader answers on a pool that stands still. -/
def PoolReader.on {ρ : Type} (p : PoolReader ρ) (pool : List NodePoolEntry) : ρ :=
  p.eval (NodePool.answer pool)

/-- `POOL_PAGE_SIZE`. -/
def poolPageSize : Nat := 1000

/-- The loop of `list_active_nodes`. Every page starts past the cursor, so there are never more
    pages than ids. -/
def listPages (filter : NodeFilter) : Nat → Option NodeId → PoolReader (List NodePoolEntry)
  | 0, _ => pure []
  | fuel + 1, cursor => do
    let page ← Program.perform (.listNodes filter cursor poolPageSize)
    match page.getLast? with
    | none => pure []
    | some e => do
      let rest ← listPages filter fuel (some e.node.id)
      return page ++ rest

/-- `list_active_nodes`. -/
def listActiveNodes : PoolReader (List NodePoolEntry) :=
  listPages .activeOnly (2 ^ 128 + 1) none

/-- The lookup `fetch_explicit_entries` builds, as the entries it is built from. -/
def fetchExplicitEntries (ids : List NodeId) : PoolReader (List NodePoolEntry) :=
  if ids.isEmpty then pure [] else Program.perform (.getNodes ids)

/-- The entry of a node in a lookup. -/
def entryOf (entries : List NodePoolEntry) (id : NodeId) : Option NodePoolEntry :=
  entries.find? fun e => e.node.id = id

/-- `str::eq_ignore_ascii_case`. -/
def eqIgnoreAsciiCase (a b : Str) : Bool := toAsciiLowercase a = toAsciiLowercase b

/-! ## 2. Selection -/

/-- `MissingReason`. -/
inductive MissingReason where
  | notFound
  | missingFromSource
  | inactive
  | outsideSelection
  deriving DecidableEq

/-- `Display for MissingReason`. -/
def MissingReason.text : MissingReason → Str
  | .notFound => "not_found"
  | .missingFromSource => "missing_from_source"
  | .inactive => "inactive"
  | .outsideSelection => "outside_selection"

/-- `MissingNodeRef`. -/
structure MissingNodeRef where
  nodeId : NodeId
  reason : MissingReason
  deriving DecidableEq

/-- `GroupResolution`. -/
structure GroupResolution where
  groupName : Str
  explicitNodeIds : List NodeId
  quickGroupNodeIds : List NodeId
  missing : List MissingNodeRef

/-- `TemplateResolution`. -/
structure TemplateResolution where
  selectedNodeIds : List NodeId
  selectionMissing : List MissingNodeRef
  groups : List GroupResolution

/-- `matches_filter_rule`. -/
def matchesFilterRule (e : NodePoolEntry) (r : NodeFilterRule) : Bool :=
  match r.field with
  | .protocol => eqIgnoreAsciiCase e.node.node.protocol.asFilterKey r.value
  | .region => eqIgnoreAsciiCase (e.node.region.getD []) r.value
  | .tag => e.tags.any fun t => eqIgnoreAsciiCase t.name r.value
  | .source => eqIgnoreAsciiCase e.node.sourceLabel r.value

/-- `matches_quick_group`. -/
def matchesQuickGroup (e : NodePoolEntry) (f : QuickGroupFilter) : Bool :=
  (f.region.all fun r => eqIgnoreAsciiCase (e.node.region.getD []) r) &&
    (f.protocol.all fun p => eqIgnoreAsciiCase e.node.node.protocol.asFilterKey p) &&
    f.tag.all fun t => e.tags.any fun x => eqIgnoreAsciiCase x.name t

/-- How a reference to a node resolves. -/
def resolveRef (explicit : List NodePoolEntry) (id : NodeId) : Except MissingNodeRef NodeId :=
  match entryOf explicit id with
  | none => .error ⟨id, .notFound⟩
  | some e =>
    if e.isActive && !e.missingFromSource then .ok id
    else if e.missingFromSource then .error ⟨id, .missingFromSource⟩
    else .error ⟨id, .inactive⟩

/-- The references that resolve, and those that do not, each in their order. -/
def resolveRefs (explicit : List NodePoolEntry) (ids : List NodeId) :
    List NodeId × List MissingNodeRef :=
  (ids.filterMap fun id => (resolveRef explicit id).toOption,
    ids.filterMap fun id => match resolveRef explicit id with
      | .ok _ => none
      | .error m => some m)

/-- `pinned_ids`. -/
def pinnedIds (s : NodeSelector) : List NodeId :=
  match s.mode with
  | .fixed => s.nodeIds
  | .dynamic => []

/-- `resolve_selection_impl`. -/
def resolveSelection (s : NodeSelector) (active explicit : List NodePoolEntry) :
    List NodeId × List MissingNodeRef :=
  match s.mode with
  | .dynamic =>
    ((active.filter fun e => s.filters.all (matchesFilterRule e)).map fun e => e.node.id, [])
  | .fixed => resolveRefs explicit s.nodeIds

/-- The nodes a group names. -/
def memberIds (g : ProxyGroup) : List NodeId :=
  g.members.filterMap fun
    | .node id => some id
    | .group _ => none

/-- `resolve_group_impl`, and the restriction of its explicit members to the selection. -/
def resolveGroup (selected : List NodeId) (explicit candidates : List NodePoolEntry)
    (g : ProxyGroup) : GroupResolution :=
  let (found, missing) := resolveRefs explicit (memberIds g)
  { groupName := g.name
    explicitNodeIds := found.filter selected.contains
    quickGroupNodeIds := match g.filter with
      | none => []
      | some f => (candidates.filter fun e => !found.contains e.node.id &&
          matchesQuickGroup e f).map fun e => e.node.id
    missing := missing ++ (found.filter fun id => !selected.contains id).map
      fun id => ⟨id, .outsideSelection⟩ }

/-- The entries groups may pick from: the selected ones, in the order of their ids. -/
def groupCandidates (s : NodeSelector) (selected : List NodeId)
    (active explicit : List NodePoolEntry) : List NodePoolEntry :=
  match s.mode with
  | .dynamic => active.filter fun e => selected.contains e.node.id
  | .fixed => (explicit.filter fun e => selected.contains e.node.id).insertionSort
      fun a b => a.node.id ≤ b.node.id

/-- `resolve_template`. -/
def resolveTemplate (spec : TemplateSpec) : PoolReader TemplateResolution := do
  let active ← if spec.nodeSelector.mode = .dynamic then listActiveNodes else pure []
  let explicit ← fetchExplicitEntries
    (NodeOverrides.ordered (pinnedIds spec.nodeSelector ++ spec.proxyGroups.flatMap memberIds))
  let (selected, missing) := resolveSelection spec.nodeSelector active explicit
  let candidates := groupCandidates spec.nodeSelector selected active explicit
  return ⟨selected, missing, spec.proxyGroups.map (resolveGroup selected explicit candidates)⟩

/-! ## 3. Compatibility -/

/-- How `check_compatibility` files one node. -/
def checkEntry (profile : ProfileKind) (entries : List NodePoolEntry) (id : NodeId) :
    Except ExcludedNode NodeId :=
  match entryOf entries id with
  | none => .error ⟨id, [], "node not found in pool"⟩
  | some e =>
    match checkNode e.node.node (capabilityFor profile) with
    | .ok () => .ok id
    | .error reason => .error ⟨id, e.node.node.displayName, reason.text⟩

/-- `check_compatibility`. -/
def checkCompatibility (ids : List NodeId) (profile : ProfileKind) :
    PoolReader (CompatibilityReport × List NodePoolEntry) := do
  let entries ← Program.perform (.getNodes ids)
  return ({ profile := profile.asKebab
            includedNodeIds := ids.filterMap fun id => (checkEntry profile entries id).toOption
            excluded := ids.filterMap fun id => match checkEntry profile entries id with
              | .ok _ => none
              | .error x => some x }, entries)

end DeveSub
