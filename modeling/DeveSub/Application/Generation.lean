/-
  File:      DeveSub/Application/Generation.lean
  Subject:   Generation with its cache: `generate`, `generate_for_delivery`, `preview` and
             `get_active_generation` of `template/generation.rs`.

  Each is a program over the ports. The pool revision is read before the pool, goes into the
  cache key, and is stored with the result; the pipeline then reads the pool in as many queries
  as it needs, with other programs in between.
-/
import DeveSub.Application.Pipeline

namespace DeveSub

/-! ## 1. Programs that may fail -/

/-- A program over the ports that may end with an error. -/
abbrev Application (ε : Type) := ExceptT ε (Program Call.Reply)

namespace Application

variable {ε α : Type}

/-- One call, with its reply turned into a result. -/
def port (c : Call) (f : c.Reply → Except ε α) : Application ε α :=
  ExceptT.mk (.call c fun a => .done (f a))

/-- A step without a call. -/
def result (x : Except ε α) : Application ε α := ExceptT.mk (.done x)

end Application

open Application

/-- Runs a reader against the ports; a fault of the pool ends it with a storage error. -/
def PoolReader.run {α : Type} :
    PoolReader (Except TemplateAppError α) → Program Call.Reply (Except TemplateAppError α)
  | .done r => .done r
  | .call q next => .call (.pool q) fun
    | .ok entries => PoolReader.run (next entries)
    | .error e => .done (.error (.storage e.text))

/-! ## 2. The context of a request -/

/-- `GenerationContext`. -/
structure GenerationContext where
  version : TemplateVersion
  profile : ProfileKind
  poolRevision : Nat
  cacheKey : Str
  selectionMode : Str
  selectionPayload : Str
  normalizationWarnings : List Str

/-- What `resolve_context` knows of a request before it reads the revision. -/
structure RequestScope where
  version : TemplateVersion
  spec : TemplateSpec
  profile : ProfileKind

/-- The selector a request runs with. -/
def RequestScope.selector (scope : RequestScope) (request : GenerationRequest) : NodeSelector :=
  request.nodeSelection.getD scope.spec.nodeSelector

/-- The parameters of the cache key of a request. -/
def RequestScope.keyParams (scope : RequestScope) (request : GenerationRequest)
    (revision : Nat) : CacheKeyParams where
  templateId := request.templateId
  templateVersion := scope.version.version
  profile := request.profile
  mode := request.mode
  selectionMode := (scope.selector request).mode.text
  selectionPayload := (scope.selector request).json.text
  poolRevision := revision

section Programs

variable (E : Engine)

/-- The version a request asks for. -/
def resolveVersion (request : GenerationRequest) :
    Application TemplateAppError (Option TemplateVersion) :=
  match request.templateVersionPin with
  | some n => port (.findByVersionNumber request.templateId n) (Except.mapError .template)
  | none => port (.findActiveVersion request.templateId) (Except.mapError .template)

/-- The checks of `resolve_context` that need no call. -/
def scopeOf (request : GenerationRequest) (version : Option TemplateVersion) :
    Except TemplateAppError RequestScope := do
  let version ← okOr version .versionNotFound
  let spec ← E.parseTemplateDocument version.specYaml
  let profile ← okOr (ProfileKind.fromKebab request.profile) (.unknownProfile request.profile)
  rejectWhen (!spec.targetProfiles.isEmpty && !spec.targetProfiles.contains request.profile)
    (.invalidInput ("profile '".toList ++ request.profile ++
      "' is not in template target_profiles ".toList ++ E.debugText spec.targetProfiles))
  return ⟨version, spec, profile⟩

/-- The context of a request at a revision. -/
def contextOf (request : GenerationRequest) (scope : RequestScope) (revision : Nat) :
    Except TemplateAppError GenerationContext := do
  let warnings ← E.clashWarnings scope.spec.clash
  let params := scope.keyParams request revision
  return ⟨scope.version, scope.profile, revision, params.computeKey E.sha256,
    params.selectionMode, params.selectionPayload, warnings⟩

/-- `resolve_context`. -/
def resolveContext (request : GenerationRequest) :
    Application TemplateAppError GenerationContext := do
  let found ← port (.templateExists request.templateId) (Except.mapError .template)
  result (rejectWhen (!found) .templateNotFound)
  let version ← resolveVersion request
  let scope ← result (scopeOf E request version)
  let revision ← port .getRevision (Except.mapError fun e => .storage e.text)
  result (contextOf E request scope revision)

/-! ## 3. The commands -/

/-- `cached_result`. -/
def cachedResult (cached : CacheEntry) (warnings : List Str) : GenerationResult where
  content := cached.content
  profile := cached.profile
  includedNodeIds := []
  excluded := []
  warnings := warnings ++
    ["served from cache".toList, "included/excluded report unavailable from cache".toList]

/-- The entry a result is stored under; `is_active: false`. -/
def newEntry (request : GenerationRequest) (ctx : GenerationContext) (id : CacheId)
    (content : Str) : CacheEntry where
  id := id
  templateId := request.templateId
  templateVersion := ctx.version.version
  profile := request.profile
  mode := request.mode.asStr
  selectionMode := ctx.selectionMode
  selectionPayload := ctx.selectionPayload
  poolRevision := ctx.poolRevision
  cacheKey := ctx.cacheKey
  content := content
  isActive := false

/-- `find_by_key`. -/
def lookup (ctx : GenerationContext) : Application TemplateAppError (Option CacheEntry) :=
  port (.findByKey ctx.cacheKey) (Except.mapError .template)

/-- `run_pipeline` for a request. -/
def runFor (request : GenerationRequest) (ctx : GenerationContext) :
    Application TemplateAppError GenerationResult :=
  ExceptT.mk (runPipeline E ctx.version ctx.profile request.mode request.nodeSelection).run

/-- `activate`. -/
def activateEntry (e : CacheEntry) : Application TemplateAppError Unit :=
  port (.activate e.templateId e.profile e.id) (Except.mapError .template)

/-- Returns a cached entry. -/
def serveCached (ctx : GenerationContext) (cached : CacheEntry) :
    Application TemplateAppError GenerationResult :=
  result (.ok (cachedResult cached ctx.normalizationWarnings))

/-- Publishes a cached entry, unless it is the active one, and returns it. -/
def publishCached (ctx : GenerationContext) (cached : CacheEntry) :
    Application TemplateAppError GenerationResult := do
  if cached.isActive then serveCached ctx cached
  else do
    activateEntry cached
    serveCached ctx cached

/-- The entry another writer stored under the key, after a refused store. -/
def afterRefusedStore (ctx : GenerationContext) (e : TemplateError)
    (serve : CacheEntry → Application TemplateAppError GenerationResult) :
    Application TemplateAppError GenerationResult := do
  match ← lookup ctx with
  | some cached => serve cached
  | none => result (.error (.template e))

/-- `store`, with the refusal as a value. -/
def tryStore (entry : CacheEntry) : Application TemplateAppError (Except TemplateError Unit) :=
  port (.store entry) .ok

/-- A fresh `GenerationCacheId`. -/
def newCacheId : Application TemplateAppError CacheId := port .drawId .ok

/-- The end of `generate`, after the pipeline. -/
def storeAndPublish (request : GenerationRequest) (ctx : GenerationContext)
    (generated : GenerationResult) : Application TemplateAppError GenerationResult := do
  let id ← newCacheId
  let entry := newEntry request ctx id generated.content
  match ← tryStore entry with
  | .error e => afterRefusedStore ctx e (publishCached ctx)
  | .ok () => do
    activateEntry entry
    return generated

/-- **`generate`.** -/
def generate (request : GenerationRequest) : Application TemplateAppError GenerationResult := do
  let ctx ← resolveContext E request
  match ← lookup ctx with
  | some cached => publishCached ctx cached
  | none => do
    let generated ← runFor E request ctx
    storeAndPublish request ctx generated

/-- The end of `generate_for_delivery`, after the pipeline. -/
def storeForDelivery (request : GenerationRequest) (ctx : GenerationContext)
    (generated : GenerationResult) : Application TemplateAppError GenerationResult := do
  let id ← newCacheId
  match ← tryStore (newEntry request ctx id generated.content) with
  | .error e => afterRefusedStore ctx e (serveCached ctx)
  | .ok () => return generated

/-- The shape `find_latest` is asked for. -/
def fallbackShape (request : GenerationRequest) (ctx : GenerationContext) :
    GenerationCache.Shape where
  templateId := request.templateId
  profile := request.profile
  selectionMode := ctx.selectionMode
  selectionPayload := ctx.selectionPayload
  versionPin := request.templateVersionPin
  mode := request.mode.asStr

/-- The notices of the version a stale entry came from. -/
def staleNotices (version : Except TemplateError (Option TemplateVersion)) : List Str :=
  let unavailable := ["template normalization warnings unavailable from cache".toList]
  match version with
  | .ok (some v) =>
    match E.parseTemplateDocument v.specYaml >>= fun spec => E.clashWarnings spec.clash with
    | .ok warnings => warnings
    | .error _ => unavailable
  | .ok none | .error _ => unavailable

/-- The last good entry, with the notice that it is one. -/
def serveLastGood (lastGood : CacheEntry) : Application TemplateAppError GenerationResult :=
  port (.findByVersionNumber lastGood.templateId lastGood.templateVersion) fun version =>
    let served := cachedResult lastGood (staleNotices E version)
    .ok { served with
      warnings := served.warnings ++ ["generation failed; served last successful version".toList] }

/-- What delivery does when the pipeline fails. -/
def serveStale (request : GenerationRequest) (ctx : GenerationContext)
    (pipelineError : TemplateAppError) : Application TemplateAppError GenerationResult := do
  let latest ← port (.findLatest (fallbackShape request ctx)) fun a => (.ok a : Except TemplateAppError _)
  match latest with
  | .ok (some lastGood) =>
    if lastGood.hasCurrentSemantics E.sha256 then serveLastGood E lastGood
    else result (.error pipelineError)
  | .ok none | .error _ => result (.error pipelineError)

/-- The pipeline, with its error as a value. -/
def tryRunFor (request : GenerationRequest) (ctx : GenerationContext) :
    Application TemplateAppError (Except TemplateAppError GenerationResult) :=
  ExceptT.mk (do
    let r ← (runFor E request ctx).run
    return .ok r)

/-- **`generate_for_delivery`.** -/
def generateForDelivery (request : GenerationRequest) :
    Application TemplateAppError GenerationResult := do
  let ctx ← resolveContext E request
  match ← lookup ctx with
  | some cached => serveCached ctx cached
  | none =>
    match ← tryRunFor E request ctx with
    | .ok generated => storeForDelivery request ctx generated
    | .error e => serveStale E request ctx e

/-- **`preview`.** -/
def preview (request : GenerationRequest) : Application TemplateAppError GenerationResult := do
  let ctx ← resolveContext E request
  match ← lookup ctx with
  | some cached => serveCached ctx cached
  | none => runFor E request ctx

/-- `get_active_generation`. -/
def getActiveGeneration (templateId : TemplateId) (profile : Str) :
    Application TemplateAppError (Option CacheEntry) :=
  port (.findActive templateId profile) fun a =>
    (a.mapError .template).map fun e => e.filter fun e => e.hasCurrentSemantics E.sha256

end Programs

end DeveSub
