/-
  File:      DeveSub/Application/Pipeline.lean
  Subject:   The generation pipeline: `run_pipeline` of `template/generation.rs`, with
             `prepare_nodes` of `template/clash_generation.rs`.

  The pipeline reads the pool through `PoolReader` and is a function otherwise. Arguments of the
  model (`Engine`) are the third-party crates, the reader of template documents, and the handling
  of native Clash documents: the notices and the group names read from one, and the expansion of
  its groups, which may query the pool again. The wall-clock budget of that expansion is not part
  of the model.
-/
import DeveSub.Application.Selection
import DeveSub.Yaml.Parser

namespace DeveSub

/-! ## 1. What the pipeline is given -/

/-- The functions generation is built from. -/
structure Engine where
  crates : EmitCrates
  sha256 : List UInt8 → List UInt8
  parseTemplateDocument : Str → Except TemplateAppError TemplateSpec
  clashWarnings : Option Str → Except TemplateAppError (List Str)
  clashGroupNames : Str → Except TemplateAppError (List Str)
  materializeClash : (clash : Str) → (nodes : List PooledNode) → (originalNames : List Str) →
    PoolReader (Except TemplateAppError (Str × List Str))
  inspectGeneratedSequence : (content key : Str) → Except Str SequenceState
  debugText : List Str → Str

/-- `Display for EmitError`. -/
def EmitError.text : EmitError → Str
  | .noEmitter p => "no URI emitter for protocol: ".toList ++ p
  | .missingField f => "missing required field for emission: ".toList ++ f
  | .invalidField f v => "invalid field ".toList ++ f ++ ": ".toList ++ v
  | .encode m => "encode error: ".toList ++ m

/-- A step that does not read the pool. -/
def PoolReader.ofExcept {α : Type} (x : Except TemplateAppError α) :
    ExceptT TemplateAppError PoolReader α := ExceptT.mk (pure x)

/-! ## 2. The nodes of an output -/

/-- The nodes of the report that are still there, with their sort order, and the notices. -/
def collectNodes (entries : List NodePoolEntry) :
    List NodeId → List (PooledNode × Int) × List Str
  | [] => ([], [])
  | id :: rest =>
    let (nodes, warnings) := collectNodes entries rest
    match entryOf entries id with
    | none =>
      (nodes, ("node ".toList ++ id.text ++ " not found in pool during fetch".toList) :: warnings)
    | some e =>
      if e.isActive && !e.missingFromSource then
        ((e.node, (e.overrideInfo.map NodeOverride.sortOrder).getD 0) :: nodes, warnings)
      else
        (nodes, ("node ".toList ++ id.text ++
          " became unavailable during generation".toList) :: warnings)

/-- `Ord for str`: the order of the code points, which is that of the bytes. -/
def compareStr (a b : Str) : Ordering := if a < b then .lt else if a = b then .eq else .gt

/-- The comparator of `sort_and_dedup`. -/
def compareNodes (a b : PooledNode × Int) : Ordering :=
  (compare a.2 b.2).then <|
    (compareStr a.1.node.endpoint.host.uriHost b.1.node.endpoint.host.uriHost).then <|
      (compare a.1.node.endpoint.port.toNat b.1.node.endpoint.port.toNat).then <|
        compareStr a.1.node.protocol.asFilterKey b.1.node.protocol.asFilterKey

/-- The first node of each id. -/
def dedupNodes : (seen : List NodeId) → List (PooledNode × Int) → List (PooledNode × Int)
  | _, [] => []
  | seen, n :: rest =>
    if seen.contains n.1.id then dedupNodes seen rest else n :: dedupNodes (n.1.id :: seen) rest

/-- `sort_and_dedup`. -/
def sortAndDedup (nodes : List (PooledNode × Int)) : List (PooledNode × Int) :=
  dedupNodes [] (nodes.insertionSort fun a b => compareNodes a b ≠ .gt)

/-- `clash::POLICIES`. -/
def clashPolicies : List Str :=
  ["DIRECT", "REJECT", "REJECT-DROP", "PASS", "COMPATIBLE", "GLOBAL"]

/-- `clash_normalization::TOKENS`. -/
def clashTokens : List Str := ["__PROXY_NODES__", "__PROXY_PROVIDERS__"]

/-- The `while` of `prepare_nodes`: the base, or the base with the least counter from 2 on that
    is free. One of the first `used.length + 1` names is. -/
def freshName (used : List Str) (base : Str) : Str :=
  ((base :: (List.range used.length).map fun i => base ++ ' ' :: natText (i + 2)).find?
    fun name => !used.contains name).getD base

/-- The last loop of `prepare_nodes`: a contested name gets the id of its node. -/
def renameNodes (contested : PooledNode → Bool) : (used : List Str) → List PooledNode →
    List PooledNode
  | _, [] => []
  | used, n :: rest =>
    if contested n then
      let name := freshName used
        (trim n.node.displayName ++ " [".toList ++ n.id.text ++ [']'])
      { n with node := { n.node with displayName := name } } ::
        renameNodes contested (name :: used) rest
    else n :: renameNodes contested used rest

/-- The names of `prepare_nodes`, with the names that are taken from the start. -/
def uniqueNames (reserved : List Str) (nodes : List PooledNode) : List PooledNode :=
  let names := nodes.map fun n => n.node.displayName
  let contested := fun n : PooledNode => (trim n.node.displayName).isEmpty ||
    reserved.contains n.node.displayName || names.count n.node.displayName > 1
  renameNodes contested
    (reserved ++ (nodes.filter fun n => !contested n).map fun n => n.node.displayName) nodes

/-- `prepare_nodes`: the renamed nodes, the native document with its groups expanded, and the
    notices of the expansion. -/
def prepareNodes (E : Engine) (nodes : List PooledNode) (spec : TemplateSpec) :
    ExceptT TemplateAppError PoolReader (List PooledNode × Option Str × List Str) :=
  let groupNames := spec.proxyGroups.map ProxyGroup.name
  match spec.clash with
  | none => pure (uniqueNames (clashPolicies ++ groupNames) nodes, none, [])
  | some clash => do
    let documentNames ← PoolReader.ofExcept (E.clashGroupNames clash)
    let renamed := uniqueNames (clashPolicies ++ groupNames ++ clashTokens ++ documentNames) nodes
    let (document, warnings) ←
      ExceptT.mk (E.materializeClash clash renamed (nodes.map fun n => n.node.displayName))
    return (renamed, some document, warnings)

/-! ## 3. Groups -/

/-- Appends the names that are not there yet, in their order. -/
def appendNew : List Str → List Str → List Str
  | members, [] => members
  | members, name :: rest =>
    appendNew (if members.contains name then members else members ++ [name]) rest

/-- One group of `assemble_groups`. -/
def assembleGroup (resolutions : List GroupResolution) (nameOf : NodeId → Option Str)
    (spec : ProxyGroup) : AssembledGroup :=
  let authored := spec.members.filterMap fun
    | .node id => nameOf id
    | .group name => some name
  -- the map is collected from the resolutions, so the last of a name stands
  let resolved := ((resolutions.reverse.find? fun r => r.groupName = spec.name).map fun r =>
    (r.quickGroupNodeIds ++ r.explicitNodeIds).filterMap nameOf).getD []
  let members := appendNew (appendNew [] authored) resolved
  let sorted := members.insertionSort fun a b => compareStr a b ≠ .gt
  { name := spec.name
    groupType := spec.groupType
    members := match spec.sortOrder with
      | none => members
      | some .asc => sorted
      | some .desc => sorted.reverse }

/-- The Mihomo rule: a group without members rejects. -/
def rejectEmpty (g : AssembledGroup) : AssembledGroup :=
  if g.members.isEmpty then { g with groupType := .select, members := ["REJECT"] } else g

/-- The groups whose type the profile does not take. -/
def incompatibleGroups (profile : ProfileKind) (groups : List ProxyGroup) :
    List IncompatibleGroup :=
  groups.filterMap fun g => match checkGroupType g.groupType profile with
    | .ok () => none
    | .error reason => some ⟨g.name, g.groupType.text, reason⟩

/-- `has_json_content`. -/
def hasJsonContent : Json → Bool
  | .null => false
  | .obj ms => !ms.isEmpty
  | _ => true

/-- `fields.join(", ")`, the parts of the template a profile drops. -/
def droppedFields (spec : TemplateSpec) : List Str :=
  (if spec.proxyGroups.isEmpty then [] else ["groups"]) ++
    (if spec.rules.isEmpty then [] else ["rules"]) ++
    (if hasJsonContent spec.dns then ["dns"] else []) ++
    (if hasJsonContent spec.tun then ["tun"] else [])

/-! ## 4. The output -/

/-- `validate_output`. -/
def validateOutput (E : Engine) (content : Str) (profile : ProfileKind) :
    Except TemplateAppError Unit :=
  if (trim content).isEmpty then .error .emptyOutput
  else match profile with
    | .mihomo =>
      match E.inspectGeneratedSequence content "proxies" with
      | .error _ => .error .emptyOutput
      | .ok .missing => .error (.invalidStructure "missing 'proxies' key")
      | .ok .notSequence => .error (.invalidStructure "'proxies' is not an array")
      | .ok .empty => .error (.invalidStructure "'proxies' array is empty")
      | .ok .nonEmpty => .ok ()
    | .singBox =>
      match E.crates.json.read content with
      | .error _ => .error .emptyOutput
      | .ok v => do
        let count := fun field : Str => match v.get field with
          | none => Except.ok 0
          | some (.arr xs) => .ok xs.length
          | some _ => .error
            (TemplateAppError.invalidStructure (['\''] ++ field ++ "' is not an array".toList))
        let outbounds ← count "outbounds"
        let endpoints ← count "endpoints"
        rejectWhen (outbounds + endpoints = 0)
          (.invalidStructure "sing-box has no outbounds or endpoints")
    | .xray | .v2ray | .json =>
      match E.crates.json.read content with
      | .error _ => .error .emptyOutput
      | .ok (.arr _) | .ok (.obj _) => .ok ()
      | .ok _ => .error (.invalidStructure "expected top-level array or object")
    | .shadowrocket | .uriList => .ok ()

/-- The texts of the nodes that do not resolve. -/
def missingWarnings (r : TemplateResolution) : List Str :=
  (r.selectionMissing.map fun m =>
      "node ".toList ++ m.nodeId.text ++ " is ".toList ++ m.reason.text) ++
    r.groups.flatMap fun g => g.missing.map fun m =>
      "group '".toList ++ g.groupName ++ "': node ".toList ++ m.nodeId.text ++ " is ".toList ++
        m.reason.text

/-- The group checks of `run_pipeline`: the notices, or the refusal. -/
def checkGroups (profile : ProfileKind) (mode : GenerationMode) (groups : List ProxyGroup) :
    Except TemplateAppError (List Str) :=
  let bad := incompatibleGroups profile groups
  if !bad.isEmpty && (mode = .strict || profile = .mihomo) then
    .error (.generation (.incompatibleGroupTypes bad.length
      (", ".toList.intercalate (bad.map fun g => g.groupName ++ " (".toList ++ g.groupType ++ [')']))
      bad))
  else .ok (bad.map fun g => "group '".toList ++ g.groupName ++ "': type ".toList ++ g.groupType ++
    " incompatible with profile '".toList ++ profile.asKebab ++ "': ".toList ++ g.reason)

/-- The container-field check of `run_pipeline`: the notices, or the refusal. -/
def checkContainerFields (profile : ProfileKind) (mode : GenerationMode) (spec : TemplateSpec) :
    Except TemplateAppError (List Str) :=
  let dropped := droppedFields spec
  let fields := ", ".toList.intercalate dropped
  if profile = .mihomo || dropped.isEmpty then .ok []
  else if mode = .strict then
    .error (.generation (.containerFieldsUnsupported profile.asKebab fields))
  else .ok ["profile '".toList ++ profile.asKebab ++ "' does not yet emit ".toList ++ fields ++
    "; output is proxy-only".toList]

/-- The end of `run_pipeline`, once the nodes have their names: groups, checks and emission. -/
def assembleOutput (E : Engine) (profile : ProfileKind) (mode : GenerationMode)
    (report : CompatibilityReport) (spec : TemplateSpec) (clash : Option Str)
    (resolutions : List GroupResolution) (nodes : List PooledNode) (warnings : List Str) :
    Except TemplateAppError GenerationResult := do
  rejectWhen nodes.isEmpty .noCompatibleNodes
  let groupWarnings ← checkGroups profile mode spec.proxyGroups
  let nameOf := fun id => (nodes.find? fun n => n.id = id).map fun n => n.node.displayName
  let assembled := spec.proxyGroups.map (assembleGroup resolutions nameOf)
  let groups := if profile = .mihomo then assembled.map rejectEmpty else assembled
  let emptied := if profile = .mihomo then assembled.filter fun g => g.members.isEmpty else []
  let fieldWarnings ← checkContainerFields profile mode spec
  let content ← (emitProfile E.crates profile
    { clash, nodes := nodes.map PooledNode.node, groups, rules := spec.rules, dns := spec.dns,
      tun := spec.tun }).mapError fun e => .emit e.text
  validateOutput E content profile
  return { content
           profile := profile.asKebab
           includedNodeIds := report.includedNodeIds
           excluded := report.excluded
           warnings := warnings ++ groupWarnings ++ (emptied.map fun g => "group '".toList ++ g.name ++
             "' has no available members; using REJECT".toList) ++ fieldWarnings }

/-- **`run_pipeline`.** -/
def runPipeline (E : Engine) (version : TemplateVersion) (profile : ProfileKind)
    (mode : GenerationMode) (selection : Option NodeSelector) :
    PoolReader (Except TemplateAppError GenerationResult) := ExceptT.run do
  let doc ← PoolReader.ofExcept (E.parseTemplateDocument version.specYaml)
  let spec := { doc with nodeSelector := selection.getD doc.nodeSelector }
  let resolution ← ExceptT.lift (resolveTemplate spec)
  let (report, entries) ← ExceptT.lift
    (checkCompatibility (NodeOverrides.ordered resolution.selectedNodeIds) profile)
  PoolReader.ofExcept (rejectWhen (mode = .strict && !report.excluded.isEmpty)
    (.generation (.incompatibleNodes report)))
  let notices ← PoolReader.ofExcept (E.clashWarnings spec.clash)
  let (collected, gone) := collectNodes entries report.includedNodeIds
  let (nodes, clash, expanded) ← prepareNodes E ((sortAndDedup collected).map Prod.fst) spec
  PoolReader.ofExcept (assembleOutput E profile mode report spec clash resolution.groups nodes
    (notices ++ missingWarnings resolution ++ gone ++ expanded))

end DeveSub
