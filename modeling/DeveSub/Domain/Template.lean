/-
  File:      DeveSub/Domain/Template.lean
  Subject:   Templates, generation requests and the generation cache
             (`deve-sub-domain`: `template/*.rs`).

  Of a template document only the parts the generation pipeline reads are kept: `variables`,
  `output` and the metadata are not. The cache key is the digest of length-framed fields; the
  digest itself is an argument.
-/
import DeveSub.Domain.Source
import DeveSub.Emitter.Profile
import DeveSub.Lib.Percent

namespace DeveSub

abbrev TemplateId := Ulid
abbrev CacheId := Ulid

/-! ## 1. The template document -/

/-- `GroupMember`. -/
inductive GroupMember where
  | node (id : NodeId)
  | group (name : Str)
  deriving DecidableEq

/-- `QuickGroupFilter`. -/
structure QuickGroupFilter where
  region : Option Str
  protocol : Option Str
  tag : Option Str
  deriving DecidableEq

/-- `SortOrder`. -/
inductive SortOrder where
  | asc
  | desc
  deriving DecidableEq

/-- `ProxyGroup`. -/
structure ProxyGroup where
  name : Str
  groupType : GroupType
  members : List GroupMember
  filter : Option QuickGroupFilter
  sortOrder : Option SortOrder
  deriving DecidableEq

/-- `SelectionMode`. -/
inductive SelectionMode where
  | dynamic
  | fixed
  deriving DecidableEq

/-- The name of a mode, in the key and in the serialized selector. -/
def SelectionMode.text : SelectionMode → Str
  | .dynamic => "dynamic"
  | .fixed => "fixed"

/-- `FilterField`. -/
inductive FilterField where
  | protocol
  | region
  | tag
  | source
  deriving DecidableEq

/-- The serialized name of a field. -/
def FilterField.text : FilterField → Str
  | .protocol => "protocol"
  | .region => "region"
  | .tag => "tag"
  | .source => "source"

/-- `NodeFilterRule`. -/
structure NodeFilterRule where
  field : FilterField
  value : Str
  deriving DecidableEq

/-- `NodeSelector`. -/
structure NodeSelector where
  mode : SelectionMode
  filters : List NodeFilterRule
  nodeIds : List NodeId
  nodeRevision : UInt64
  deriving DecidableEq

/-- What `serde_json::to_string` writes for a selector: the derived serializer, camelCase. -/
def NodeSelector.json (s : NodeSelector) : Json :=
  .obj [("mode", .str s.mode.text),
    ("filters", .arr (s.filters.map fun r =>
      .obj [("field", .str r.field.text), ("value", .str r.value)])),
    ("nodeIds", .arr (s.nodeIds.map fun id => .str id.text)),
    ("nodeRevision", .num (.posInt s.nodeRevision))]

/-- `TemplateSpec`, the part the pipeline reads. -/
structure TemplateSpec where
  clash : Option Str
  targetProfiles : List Str
  nodeSelector : NodeSelector
  proxyGroups : List ProxyGroup
  rules : List Json
  dns : Json
  tun : Json

/-- `TemplateVersion`, the part generation reads. -/
structure TemplateVersion where
  templateId : TemplateId
  version : UInt64
  specYaml : Str
  deriving DecidableEq

/-! ## 2. Generation -/

/-- `GenerationMode`. -/
inductive GenerationMode where
  | strict
  | lenient
  deriving DecidableEq

/-- `GenerationMode::as_str`. -/
def GenerationMode.asStr : GenerationMode → Str
  | .strict => "strict"
  | .lenient => "lenient"

/-- `FromStr for GenerationMode`. -/
def GenerationMode.fromStr (s : Str) : Option GenerationMode :=
  if s = "strict" then some .strict else if s = "lenient" then some .lenient else none

@[simp] theorem GenerationMode.fromStr_asStr (m : GenerationMode) : fromStr m.asStr = some m := by
  cases m <;> decide

/-- `GenerationRequest`. -/
structure GenerationRequest where
  templateId : TemplateId
  profile : Str
  mode : GenerationMode
  nodeSelection : Option NodeSelector
  templateVersionPin : Option UInt64

/-- `ExcludedNode`. -/
structure ExcludedNode where
  nodeId : NodeId
  displayName : Str
  reason : Str
  deriving DecidableEq

/-- `CompatibilityReport`. -/
structure CompatibilityReport where
  profile : Str
  includedNodeIds : List NodeId
  excluded : List ExcludedNode
  deriving DecidableEq

/-- `GenerationResult`. -/
structure GenerationResult where
  content : Str
  profile : Str
  includedNodeIds : List NodeId
  excluded : List ExcludedNode
  warnings : List Str
  deriving DecidableEq

/-- `IncompatibleGroup`. -/
structure IncompatibleGroup where
  groupName : Str
  groupType : Str
  reason : Str
  deriving DecidableEq

/-- `TemplateError`, as far as the modelled functions raise it. -/
inductive TemplateError where
  | templateNotFound
  | inUse
  | nameExists
  | versionNotFound
  | cacheInvalidated
  | storage (message : Str)
  deriving DecidableEq

/-- `GenerationError`. -/
inductive GenerationError where
  | incompatibleNodes (report : CompatibilityReport)
  | incompatibleGroupTypes (count : Nat) (names : Str) (groups : List IncompatibleGroup)
  | containerFieldsUnsupported (profile fields : Str)
  deriving DecidableEq

/-- `TemplateAppError`, as far as the commands and generation raise it. -/
inductive TemplateAppError where
  | invalidInput (message : Str)
  | templateNotFound
  | versionNotFound
  | versionTemplateMismatch
  | nameExists
  | specYamlParse (message : Str)
  | specTooLarge (size max : Nat)
  | aliasDepthExceeded (depth limit : Nat)
  | forbiddenScript (key : Str)
  | template (e : TemplateError)
  | storage (message : Str)
  | unknownProfile (profile : Str)
  | generation (e : GenerationError)
  | emit (message : Str)
  | emptyOutput
  | invalidStructure (message : Str)
  | noCompatibleNodes
  deriving DecidableEq

/-! ## 3. The generation cache -/

/-- `CacheKeyParams`. -/
structure CacheKeyParams where
  templateId : TemplateId
  templateVersion : UInt64
  profile : Str
  mode : GenerationMode
  selectionMode : Str
  selectionPayload : Str
  poolRevision : Nat
  deriving DecidableEq

/-- `u64::to_le_bytes`, of the low 64 bits. -/
def leBytes64 (n : Nat) : List UInt8 :=
  (List.range 8).map fun i => UInt8.ofNat (n / 256 ^ i)

/-- `feed`: a field behind its length. -/
def frame (field : List UInt8) : List UInt8 := leBytes64 field.length ++ field

/-- The fields in the order `compute_key` feeds them to the hash. -/
def CacheKeyParams.fields (p : CacheKeyParams) : List Str :=
  ["deve-sub-generation-v5", p.templateId.text, natText p.templateVersion.toNat, p.profile,
    p.mode.asStr, p.selectionMode, p.selectionPayload, natText p.poolRevision]

/-- What the hash is fed. -/
def CacheKeyParams.message (p : CacheKeyParams) : List UInt8 :=
  p.fields.flatMap fun f => frame (utf8Bytes f)

/-- `HEX_LOWER`. -/
def hexLower (n : Nat) : Char := "0123456789abcdef".toList.getD n '0'

/-- `CacheKeyParams::compute_key`: the digest in lower-case hex. -/
def CacheKeyParams.computeKey (sha256 : List UInt8 → List UInt8) (p : CacheKeyParams) : Str :=
  (sha256 p.message).flatMap fun b => [hexLower (b.toNat / 16), hexLower (b.toNat % 16)]

/-- `GenerationCacheEntry`. -/
structure CacheEntry where
  id : CacheId
  templateId : TemplateId
  templateVersion : UInt64
  profile : Str
  mode : Str
  selectionMode : Str
  selectionPayload : Str
  poolRevision : Nat
  cacheKey : Str
  content : Str
  isActive : Bool
  deriving DecidableEq

/-- The parameters an entry was stored under, if its mode is one. -/
def CacheEntry.params (e : CacheEntry) : Option CacheKeyParams :=
  (GenerationMode.fromStr e.mode).map fun mode =>
    ⟨e.templateId, e.templateVersion, e.profile, mode, e.selectionMode, e.selectionPayload,
      e.poolRevision⟩

/-- `GenerationCacheEntry::has_current_semantics`. -/
def CacheEntry.hasCurrentSemantics (sha256 : List UInt8 → List UInt8) (e : CacheEntry) : Bool :=
  match e.params with
  | none => false
  | some p => e.cacheKey = p.computeKey sha256

end DeveSub
