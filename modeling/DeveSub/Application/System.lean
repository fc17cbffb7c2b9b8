/-
  File:      DeveSub/Application/System.lean
  Subject:   The clients of the generation cache at work together, and what each promises the
             others.

  Clients are generations, deliveries, previews and reads of the active entry, and any other
  program as long as it does not write the cache itself (refresh workers, sweeps, administrator
  edits). Whatever the others do in the meantime,

  * a generation stores only an entry that carries the revision it read, was made for its own
    request, and, if that revision still stands, is what the pipeline answers on the pool as it
    is (`StoreGuarantee`);
  * it publishes only an entry it stored or found under its own key (`ActivateGuarantee`);
  * `client_safe` -- every client keeps these promises;
  * `system_promises`, `system_cacheMade` -- and so does every run of the system.
-/
import DeveSub.Application.Generation
import DeveSub.Application.PoolEvolution
import DeveSub.Lib.JsonText

namespace DeveSub

open Program Application

/-! ## 1. Clients -/

/-- The calls that write the cache. -/
def Call.writesCache : Call → Bool
  | .store _ | .activate _ _ _ => true
  | _ => false

/-- A client of the system. -/
inductive Client where
  | generate (request : GenerationRequest)
  | generateForDelivery (request : GenerationRequest)
  | preview (request : GenerationRequest)
  | getActiveGeneration (templateId : TemplateId) (profile : Str)
  | other (program : Program Call.Reply Unit)
      (calls : program.Calls fun c => c.writesCache = false)

/-- What a client ends with. -/
inductive Outcome where
  | generation (r : Except TemplateAppError GenerationResult)
  | active (r : Except TemplateAppError (Option CacheEntry))
  | other

/-- The program of a client. -/
def Client.program (E : Engine) : Client → Program Call.Reply Outcome
  | .generate r => do return .generation (← (DeveSub.generate E r).run)
  | .generateForDelivery r => do return .generation (← (DeveSub.generateForDelivery E r).run)
  | .preview r => do return .generation (← (DeveSub.preview E r).run)
  | .getActiveGeneration t p => do return .active (← (DeveSub.getActiveGeneration E t p).run)
  | .other p _ => do
    p
    return .other

/-- The request of a client that generates. -/
def Client.request : Client → Option GenerationRequest
  | .generate r | .generateForDelivery r | .preview r => some r
  | .getActiveGeneration _ _ | .other _ _ => none

/-- The system at its start. -/
def system {ι : Type} (E : Engine) (db : Db) (clients : ι → Client) :
    Config Call.Reply Db ι Outcome :=
  ⟨db, fun i => (clients i).program E⟩

/-! ## 2. What an entry was made from -/

/-- A context that `resolve_context` answers for a request. -/
structure Context (E : Engine) (W : World) (request : GenerationRequest) (ctx : GenerationContext)
    (scope : RequestScope) : Prop where
  scope_eq : scopeOf E request (some scope.version) = .ok scope
  version_eq : W.versions request.templateId scope.version.version = some scope.version
  context_eq : contextOf E request scope ctx.poolRevision = .ok ctx

/-- What the pipeline answers for a request on a pool. -/
def pipelineOn (E : Engine) (request : GenerationRequest) (scope : RequestScope)
    (pool : List NodePoolEntry) : Except TemplateAppError GenerationResult :=
  (runPipeline E scope.version scope.profile request.mode request.nodeSelection).on pool

/-- **An entry made for a request**: its columns are the request's, its revision is not ahead of
    the pool, and while that revision stands its content is what the pipeline answers. -/
structure Generated (E : Engine) (W : World) (db : Db) (e : CacheEntry)
    (request : GenerationRequest) (scope : RequestScope) (ctx : GenerationContext) : Prop where
  context : Context E W request ctx scope
  entry : GenerationCache.inactive e = newEntry request ctx e.id e.content
  revision_le : e.poolRevision ≤ db.revision
  coherent : e.poolRevision = db.revision →
    ∃ result, pipelineOn E request scope (NodePool.entries db) = .ok result ∧
      result.content = e.content

variable {E : Engine} {W : World}

theorem scopeOf_eq_ok {request : GenerationRequest} {version : Option TemplateVersion}
    {scope : RequestScope} (h : scopeOf E request version = .ok scope) :
    version = some scope.version := by
  obtain ⟨v, hv, h⟩ := bind_eq_ok.1 h
  obtain ⟨spec, -, h⟩ := bind_eq_ok.1 h
  obtain ⟨profile, -, h⟩ := bind_eq_ok.1 h
  obtain ⟨-, -, h⟩ := bind_eq_ok.1 h
  rw [← Except.ok.inj h]
  exact okOr_eq_ok.1 hv

theorem contextOf_poolRevision {request : GenerationRequest} {scope : RequestScope} {revision : Nat}
    {ctx : GenerationContext} (h : contextOf E request scope revision = .ok ctx) :
    ctx.poolRevision = revision := by
  obtain ⟨w, -, h⟩ := bind_eq_ok.1 h
  rw [← Except.ok.inj h]

theorem Context.parts {request : GenerationRequest} {ctx : GenerationContext} {scope : RequestScope}
    (h : Context E W request ctx scope) :
    ctx.version = scope.version ∧ ctx.profile = scope.profile ∧
      ctx.cacheKey = (scope.keyParams request ctx.poolRevision).computeKey E.sha256 ∧
      ctx.selectionMode = (scope.selector request).mode.text ∧
      ctx.selectionPayload = (scope.selector request).json.text := by
  obtain ⟨w, -, hctx⟩ := bind_eq_ok.1 h.context_eq
  have hctx := Except.ok.inj hctx
  rw [← hctx]
  exact ⟨rfl, rfl, rfl, rfl, rfl⟩

/-- The moving pool does not spoil an entry. -/
theorem Generated.advance {db db' : Db} {e : CacheEntry} {request : GenerationRequest}
    {scope : RequestScope} {ctx : GenerationContext} (h : Generated E W db e request scope ctx)
    (hadv : Advance db db') : Generated E W db' e request scope ctx where
  context := h.context
  entry := h.entry
  revision_le := h.revision_le.trans hadv.revision_le
  coherent heq := by
    -- the entry's revision is not ahead, so the pool's has not moved
    have hrev : db'.revision = db.revision :=
      Nat.le_antisymm (heq ▸ h.revision_le) hadv.revision_le
    rw [hadv.entries_eq hrev]
    exact h.coherent (heq.trans hrev)

/-- Only `isActive` may change. -/
theorem Generated.of_inactive {db : Db} {e e' : CacheEntry} {request : GenerationRequest}
    {scope : RequestScope} {ctx : GenerationContext} (h : Generated E W db e request scope ctx)
    (heq : GenerationCache.inactive e' = GenerationCache.inactive e) :
    Generated E W db e' request scope ctx := by
  have hid : e'.id = e.id := show (GenerationCache.inactive e').id = _ by rw [heq]; rfl
  have hrev : e'.poolRevision = e.poolRevision :=
    show (GenerationCache.inactive e').poolRevision = _ by rw [heq]; rfl
  have hcontent : e'.content = e.content :=
    show (GenerationCache.inactive e').content = _ by rw [heq]; rfl
  exact ⟨h.context, by rw [heq, h.entry, hid, hcontent], hrev ▸ h.revision_le,
    fun h' => hcontent ▸ h.coherent (hrev ▸ h')⟩

/-! ## 3. What the clients promise -/

/-- The calls of a client, with their replies. -/
abbrev Calls := History Call.Reply

/-- A context of a request with the revision that was read, once. -/
structure Resolved (E : Engine) (W : World) (request : GenerationRequest) (h : Calls)
    (ctx : GenerationContext) (scope : RequestScope) : Prop where
  context : Context E W request ctx scope
  read : ⟨.getRevision, .ok ctx.poolRevision⟩ ∈ h
  once : ∀ r, ⟨.getRevision, .ok r⟩ ∈ h → r = ctx.poolRevision

/-- What is promised of a stored entry: its revision was read, and no other, its id was drawn
    after that, and it was made for the request. -/
structure StoreGuarantee (E : Engine) (W : World) (request : GenerationRequest) (h : Calls)
    (db : Db) (e : CacheEntry) : Prop where
  drawn : ∃ later earlier, h = later ++ ⟨.drawId, e.id⟩ :: earlier ∧
    ⟨.getRevision, .ok e.poolRevision⟩ ∈ earlier
  once : ∀ r, ⟨.getRevision, .ok r⟩ ∈ h → r = e.poolRevision
  inactive : e.isActive = false
  made : ∃ scope ctx, Generated E W db e request scope ctx

theorem StoreGuarantee.read {E : Engine} {W : World} {request : GenerationRequest} {h : Calls}
    {db : Db} {e : CacheEntry} (hs : StoreGuarantee E W request h db e) :
    ⟨.getRevision, .ok e.poolRevision⟩ ∈ h := by
  obtain ⟨later, earlier, rfl, hmem⟩ := hs.drawn
  exact List.mem_append_right _ (List.mem_cons_of_mem _ hmem)

/-- What is promised of a published entry: it was stored, or found under the key. -/
def ActivateGuarantee (E : Engine) (W : World) (request : GenerationRequest) (h : Calls)
    (t : TemplateId) (p : Str) (id : CacheId) : Prop :=
  ∃ (e : CacheEntry) (ctx : GenerationContext) (scope : RequestScope),
    Resolved E W request h ctx scope ∧ e.templateId = t ∧ e.profile = p ∧ e.id = id ∧
    (e.poolRevision = ctx.poolRevision ∧ ⟨.store e, .ok ()⟩ ∈ h ∨
      ⟨.findByKey ctx.cacheKey, .ok (some e)⟩ ∈ h)

/-- **What a client promises before a call**, given the request it works for. -/
def promises (E : Engine) (W : World) (request : Option GenerationRequest) (h : Calls) :
    Call → Db → Prop
  | .findByKey key, _ => ∀ r ∈ request, ∃ ctx scope, Resolved E W r h ctx scope ∧ key = ctx.cacheKey
  | .store e, db => ∃ r ∈ request, StoreGuarantee E W r h db e
  | .activate t p id, _ => ∃ r ∈ request, ActivateGuarantee E W r h t p id
  | _, _ => True

/-- Safety against the ports, while other clients move the pool. -/
abbrev SafeFor (E : Engine) (W : World) (request : GenerationRequest) {α : Type}
    (Q : Calls → α → Db → Prop) (p : Application TemplateAppError α) (h : Calls) (db : Db) : Prop :=
  p.run.Safe (ports W) Advance (promises E W (some request))
    (fun h r db => ∀ a, r = .ok a → Q h a db) h db

section Rules

variable {request : GenerationRequest} {α β : Type} {h : Calls} {db : Db}
  {Q : Calls → α → Db → Prop} {Q' : Calls → β → Db → Prop}

theorem SafeFor.bind {p : Application TemplateAppError α} {f : α → Application TemplateAppError β}
    (hp : SafeFor E W request Q p h db)
    (hf : ∀ h' a db', Q h' a db' → SafeFor E W request Q' (f a) h' db') :
    SafeFor E W request Q' (p >>= f) h db :=
  Safe.bindOk Advance.refl hp hf

theorem SafeFor.weaken {p : Application TemplateAppError α} {Q₂ : Calls → α → Db → Prop}
    (hp : SafeFor E W request Q p h db) (himp : ∀ h' a db', Q h' a db' → Q₂ h' a db') :
    SafeFor E W request Q₂ p h db :=
  Safe.weaken hp fun h' _ db' hr a ha => himp h' a db' (hr a ha)

/-- A step without a call. -/
theorem safeFor_result {x : Except TemplateAppError α}
    (hq : ∀ a db', x = .ok a → Advance db db' → Q h a db') :
    SafeFor E W request Q (result x) h db :=
  fun db' hadv a ha => hq a db' ha hadv

/-- A single call. -/
theorem safeFor_port {c : Call} {f : c.Reply → Except TemplateAppError α}
    (hg : ∀ db', Advance db db' → promises E W (some request) h c db')
    (hq : ∀ db₁ a db₂ db' x, Advance db db₁ → ports W c db₁ a db₂ → Advance db₂ db' →
      f a = .ok x → Q (⟨c, a⟩ :: h) x db') :
    SafeFor E W request Q (port c f) h db :=
  fun db₁ h₁ => ⟨hg db₁ h₁, fun a db₂ h₂ db' h' x hx => hq db₁ a db₂ db' x h₁ h₂ h' hx⟩

end Rules

/-! ## 4. A generation on its way -/

/-- Nothing was found in the cache so far. -/
def NoHit (h : Calls) : Prop := ∀ key e, ⟨.findByKey key, .ok (some e)⟩ ∉ h

/-- What was found in the cache has this content. -/
def ServedFrom (h : Calls) (content : Str) : Prop :=
  ∀ key e, ⟨.findByKey key, .ok (some e)⟩ ∈ h → content = e.content

theorem NoHit.servedFrom {h : Calls} (hh : NoHit h) (content : Str) : ServedFrom h content :=
  fun key e hmem => absurd hmem (hh key e)

/-- A call other than a lookup finds nothing. -/
theorem ServedFrom.cons {h : Calls} {content : Str} {c : Call} {a : c.Reply}
    (hh : ServedFrom h content) (hc : ∀ key, c ≠ .findByKey key) :
    ServedFrom (⟨c, a⟩ :: h) content := by
  intro key e hmem
  rcases List.mem_cons.1 hmem with heq | hmem
  · exact absurd (congrArg Sigma.fst heq).symm (hc key)
  · exact hh key e hmem

theorem NoHit.cons {h : Calls} {c : Call} {a : c.Reply} (hh : NoHit h)
    (hc : ∀ key, c ≠ .findByKey key) : NoHit (⟨c, a⟩ :: h) := by
  intro key e hmem
  rcases List.mem_cons.1 hmem with heq | hmem
  · exact hc key (congrArg Sigma.fst heq).symm
  · exact hh key e hmem

/-- A lookup that finds nothing. -/
theorem NoHit.miss {h : Calls} {key : Str} {a : Except TemplateError (Option CacheEntry)}
    (hh : NoHit h) (ha : ∀ e, a ≠ .ok (some e)) : NoHit (⟨.findByKey key, a⟩ :: h) := by
  intro key' e hmem
  rcases List.mem_cons.1 hmem with heq | hmem
  · cases heq
    exact ha e rfl
  · exact hh key' e hmem

/-- The first lookup that finds something. -/
theorem NoHit.hit {h : Calls} {key : Str} {e : CacheEntry} (hh : NoHit h) :
    ServedFrom (⟨.findByKey key, .ok (some e)⟩ :: h) e.content := by
  intro key' e' hmem
  rcases List.mem_cons.1 hmem with heq | hmem
  · cases heq
    rfl
  · exact absurd hmem (hh key' e')

section Pending

variable {request : GenerationRequest} {ctx : GenerationContext} {scope : RequestScope}
  {h : Calls} {db db' : Db}

/-- No revision was read so far. -/
def Unread (h : Calls) : Prop := ∀ r, ⟨.getRevision, .ok r⟩ ∉ h

theorem Unread.cons {c : Call} {a : c.Reply} (hh : Unread h) (hc : c ≠ .getRevision) :
    Unread (⟨c, a⟩ :: h) := by
  intro r hmem
  rcases List.mem_cons.1 hmem with heq | hmem
  · exact hc (congrArg Sigma.fst heq).symm
  · exact hh r hmem

theorem Resolved.cons {c : Call} {a : c.Reply} (hr : Resolved E W request h ctx scope)
    (hc : c ≠ .getRevision) : Resolved E W request (⟨c, a⟩ :: h) ctx scope where
  context := hr.context
  read := List.mem_cons_of_mem _ hr.read
  once r hmem := by
    rcases List.mem_cons.1 hmem with heq | hmem
    · exact absurd (congrArg Sigma.fst heq).symm hc
    · exact hr.once r hmem

/-- A generation that knows its context and has found nothing in the cache. -/
structure Pending (E : Engine) (W : World) (request : GenerationRequest) (ctx : GenerationContext)
    (scope : RequestScope) (h : Calls) (db : Db) : Prop where
  resolved : Resolved E W request h ctx scope
  revision_le : ctx.poolRevision ≤ db.revision
  noHit : NoHit h

theorem Pending.advance (hp : Pending E W request ctx scope h db) (hadv : Advance db db') :
    Pending E W request ctx scope h db' :=
  ⟨hp.resolved, hp.revision_le.trans hadv.revision_le, hp.noHit⟩

theorem Pending.cons {c : Call} {a : c.Reply} (hp : Pending E W request ctx scope h db)
    (hc : ∀ key, c ≠ .findByKey key) (hr : c ≠ .getRevision) :
    Pending E W request ctx scope (⟨c, a⟩ :: h) db :=
  ⟨hp.resolved.cons hr, hp.revision_le, hp.noHit.cons hc⟩

/-- **A reader under way.** If the revision that was read still stands when the reader is done,
    the pool has not moved under it: it answers what it answers on the pool as it is. -/
theorem PoolReader.run_safe {α : Type} (p : PoolReader (Except TemplateAppError α))
    (hp : Pending E W request ctx scope h db) :
    p.run.Safe (ports W) Advance (promises E W (some request))
      (fun h' r db' => Pending E W request ctx scope h' db' ∧ Advance db db' ∧
        ∀ a, r = .ok a → db'.revision = ctx.poolRevision → p.on (NodePool.entries db') = .ok a)
      h db := by
  induction p generalizing h db with
  | done r => exact fun db' hadv => ⟨hp.advance hadv, hadv, fun a ha _ => ha⟩
  | call q next ih =>
    rw [PoolReader.run]
    intro db₁ h₁
    refine ⟨trivial, fun a db₂ h₂ => ?_⟩
    obtain rfl := h₂.2
    have hp₂ := (hp.advance h₁).cons (c := .pool q) (a := a) (fun _ => nofun) nofun
    cases a with
    | error e =>
      exact fun db' hadv => ⟨hp₂.advance hadv, h₁.trans hadv, fun a ha => by cases ha⟩
    | ok entries =>
      obtain rfl := Reads.value h₂
      refine (ih _ hp₂).weaken fun h' r db' ⟨hp', hadv, heq⟩ => ⟨hp', h₁.trans hadv, ?_⟩
      intro a ha hrev
      -- the revision stood still since the query, so the query would answer the same again
      have hsame : NodePool.entries db' = NodePool.entries db₂ :=
        hadv.entries_eq (Nat.le_antisymm (hrev ▸ hp₂.revision_le) hadv.revision_le)
      rw [← heq a ha hrev, hsame]
      rfl

/-! ## 5. The steps of a generation -/

/-- A call whose promise is trivial and whose reply is not looked at. -/
theorem port_keeps {α : Type} {c : Call} {f : c.Reply → Except TemplateAppError α}
    {P : Calls → Prop} (hg : ∀ h db, promises E W (some request) h c db)
    (hP : ∀ a, P (⟨c, a⟩ :: h)) : SafeFor E W request (fun h' _ _ => P h') (port c f) h db :=
  safeFor_port (fun db' _ => hg h db') fun _ a _ _ _ _ _ _ _ => hP a

/-- The start of a generation: nothing read, nothing found. -/
def Early (h : Calls) : Prop := NoHit h ∧ Unread h

theorem Early.cons {c : Call} {a : c.Reply} (hh : Early h) (hc : ∀ key, c ≠ .findByKey key)
    (hr : c ≠ .getRevision) : Early (⟨c, a⟩ :: h) :=
  ⟨hh.1.cons hc, hh.2.cons hr⟩

theorem early_nil : Early [] := ⟨fun _ _ => List.not_mem_nil, fun _ => List.not_mem_nil⟩

theorem resolveVersion_safe (hh : Early h) :
    SafeFor E W request (fun h' v _ => Early h' ∧
      ∀ x, v = some x → W.versions request.templateId x.version = some x)
      (resolveVersion request) h db := by
  unfold resolveVersion
  split
  · refine safeFor_port (fun _ _ => trivial) fun db₁ a db₂ db' v _ hports _ hv => ?_
    exact ⟨hh.cons (fun _ => nofun) nofun, fun x hx => hports.1.1 x (hx ▸ mapError_eq_ok.1 hv)⟩
  · refine safeFor_port (fun _ _ => trivial) fun db₁ a db₂ db' v _ hports _ hv => ?_
    exact ⟨hh.cons (fun _ => nofun) nofun, fun x hx => hports.1 x (hx ▸ mapError_eq_ok.1 hv)⟩

/-- **`resolve_context` reads the revision before anything of the pool.** -/
theorem resolveContext_safe (hh : Early h) :
    SafeFor E W request (fun h' ctx db' => ∃ scope, Pending E W request ctx scope h' db')
      (resolveContext E request) h db := by
  unfold resolveContext
  refine SafeFor.bind (port_keeps (fun _ _ => trivial) fun a => hh.cons (fun _ => nofun) nofun)
    fun h₁ found db₁ hh₁ => ?_
  refine SafeFor.bind (Q := fun h' _ _ => Early h') (safeFor_result fun _ _ _ _ => hh₁)
    fun h₂ _ db₂ hh₂ => ?_
  refine SafeFor.bind (resolveVersion_safe hh₂) fun h₃ version db₃ ⟨hh₃, hversion⟩ => ?_
  refine SafeFor.bind (Q := fun h' scope _ => Early h' ∧
    W.versions request.templateId scope.version.version = some scope.version ∧
      scopeOf E request (some scope.version) = .ok scope)
    (safeFor_result fun scope _ hscope _ => ?_) fun h₄ scope db₄ ⟨hh₄, hv, hscope⟩ => ?_
  · have hsome := scopeOf_eq_ok hscope
    exact ⟨hh₃, hversion _ hsome, hsome ▸ hscope⟩
  refine SafeFor.bind (Q := fun h' r db' => NoHit h' ∧ r ≤ db'.revision ∧
    ⟨.getRevision, .ok r⟩ ∈ h' ∧ ∀ r', ⟨.getRevision, .ok r'⟩ ∈ h' → r' = r)
    (safeFor_port (fun _ _ => trivial) fun db₅ a db₆ db' r _ hports hadv hr => ?_)
    fun h₅ r db₅ ⟨hh₅, hle, hread, honce⟩ => ?_
  · obtain rfl := mapError_eq_ok.1 hr
    have hle : r ≤ db'.revision := by
      rw [Reads.value hports, ← hports.2]
      exact hadv.revision_le
    refine ⟨hh₄.1.cons fun _ => nofun, hle, List.mem_cons_self, fun r' hmem => ?_⟩
    rcases List.mem_cons.1 hmem with heq | hmem
    · cases heq
      rfl
    · exact absurd hmem (hh₄.2 r')
  refine safeFor_result fun ctx db' hctx hadv => ⟨scope, ?_⟩
  obtain rfl := contextOf_poolRevision hctx
  exact ⟨⟨⟨hscope, hv, hctx⟩, hread, honce⟩, hle.trans hadv.revision_le, hh₅⟩

/-- What `find_by_key` leaves behind: the generation goes on, or it holds what it found. -/
def LookedUp (E : Engine) (W : World) (request : GenerationRequest) (ctx : GenerationContext)
    (scope : RequestScope) (h : Calls) (found : Option CacheEntry) (db : Db) : Prop :=
  match found with
  | none => Pending E W request ctx scope h db
  | some e => Resolved E W request h ctx scope ∧ ⟨.findByKey ctx.cacheKey, .ok (some e)⟩ ∈ h ∧
      ServedFrom h e.content

theorem lookup_safe (hp : Pending E W request ctx scope h db) :
    SafeFor E W request (LookedUp E W request ctx scope) (lookup ctx) h db := by
  refine safeFor_port ?_ fun db₁ a db₂ db' found h₁ h₂ h₃ hfound => ?_
  · rintro db' - r ⟨⟩
    exact ⟨ctx, scope, hp.resolved, rfl⟩
  · obtain rfl := mapError_eq_ok.1 hfound
    cases found with
    | none =>
      have hadv : Advance db db' := h₁.trans ((ports_advance h₂).trans h₃)
      exact ⟨hp.resolved.cons nofun, hp.revision_le.trans hadv.revision_le,
        hp.noHit.miss fun e he => by cases he⟩
    | some e => exact ⟨hp.resolved.cons nofun, List.mem_cons_self, hp.noHit.hit⟩

/-- The content a client ends with is what it found. -/
abbrev Served (h : Calls) (r : GenerationResult) (_ : Db) : Prop := ServedFrom h r.content

theorem serveCached_safe {e : CacheEntry} (hs : ServedFrom h e.content) :
    SafeFor E W request Served (serveCached ctx e) h db :=
  safeFor_result fun r _ hr _ => by
    rw [← Except.ok.inj hr]
    exact hs

theorem publishCached_safe {e : CacheEntry} (hr : Resolved E W request h ctx scope)
    (hmem : ⟨.findByKey ctx.cacheKey, .ok (some e)⟩ ∈ h) (hs : ServedFrom h e.content) :
    SafeFor E W request Served (publishCached ctx e) h db := by
  unfold publishCached
  split
  · exact serveCached_safe hs
  · refine SafeFor.bind (Q := fun h' _ _ => ServedFrom h' e.content)
      (safeFor_port (fun _ _ => ⟨request, rfl, e, ctx, scope, hr, rfl, rfl, rfl, .inr hmem⟩) ?_)
      fun _ _ _ hs' => serveCached_safe hs'
    exact fun _ _ _ _ _ _ _ _ _ => hs.cons fun _ => nofun

theorem afterRefusedStore_safe {e : TemplateError}
    {serve : CacheEntry → Application TemplateAppError GenerationResult}
    (hp : Pending E W request ctx scope h db)
    (hserve : ∀ h' x db', LookedUp E W request ctx scope h' (some x) db' →
      SafeFor E W request Served (serve x) h' db') :
    SafeFor E W request Served (afterRefusedStore ctx e serve) h db := by
  refine SafeFor.bind (lookup_safe hp) fun h' found db' hfound => ?_
  cases found with
  | some x => exact hserve h' x db' hfound
  | none => exact safeFor_result fun _ _ herr => by cases herr

/-- What the pipeline left behind: a result that is current if the revision still stands. -/
def Produced (E : Engine) (W : World) (request : GenerationRequest) (ctx : GenerationContext)
    (scope : RequestScope) (h : Calls) (r : GenerationResult) (db : Db) : Prop :=
  Pending E W request ctx scope h db ∧
    (db.revision = ctx.poolRevision → pipelineOn E request scope (NodePool.entries db) = .ok r)

theorem Produced.advance {r : GenerationResult} (hp : Produced E W request ctx scope h r db)
    (hadv : Advance db db') : Produced E W request ctx scope h r db' := by
  refine ⟨hp.1.advance hadv, fun hrev => ?_⟩
  have hsame : db'.revision = db.revision :=
    Nat.le_antisymm (hrev ▸ hp.1.revision_le) hadv.revision_le
  rw [hadv.entries_eq hsame]
  exact hp.2 (hsame.symm.trans hrev)

theorem runFor_safe (hp : Pending E W request ctx scope h db) :
    (runFor E request ctx).run.Safe (ports W) Advance (promises E W (some request))
      (fun h' r db' => Pending E W request ctx scope h' db' ∧
        ∀ a, r = .ok a → Produced E W request ctx scope h' a db') h db := by
  obtain ⟨hversion, hprofile, -⟩ := hp.resolved.context.parts
  refine (PoolReader.run_safe _ hp).weaken fun h' r db' ⟨hp', _, heq⟩ => ⟨hp', fun a ha => ⟨hp', ?_⟩⟩
  intro hrev
  have hon := heq a ha hrev
  rw [hversion, hprofile] at hon
  exact hon

/-- **What a generation stores**: an entry of its request, current if the revision stands. -/
theorem store_promised {r : GenerationResult} {id : CacheId} (hadv : Advance db db')
    (hp : Produced E W request ctx scope h r db) :
    StoreGuarantee E W request (⟨.drawId, id⟩ :: h) db' (newEntry request ctx id r.content) where
  drawn := ⟨[], h, rfl, hp.1.resolved.read⟩
  once := (hp.1.resolved.cons (c := .drawId) (a := id) nofun).once
  inactive := rfl
  made := ⟨scope, ctx, Generated.advance
    ⟨hp.1.resolved.context, rfl, hp.1.revision_le, fun heq => ⟨r, hp.2 heq.symm, rfl⟩⟩ hadv⟩

/-- A fresh id and the attempt to store, as both ends of a generation make them. -/
theorem newCacheId_tryStore_safe {r : GenerationResult}
    {next : CacheId → Except TemplateError Unit → Application TemplateAppError GenerationResult}
    (hp : Produced E W request ctx scope h r db)
    (hnext : ∀ h' id outcome db', Pending E W request ctx scope h' db' →
      (outcome = .ok () → ⟨.store (newEntry request ctx id r.content), .ok ()⟩ ∈ h') →
      SafeFor E W request Served (next id outcome) h' db') :
    SafeFor E W request Served (do
      let id ← newCacheId
      let outcome ← tryStore (newEntry request ctx id r.content)
      next id outcome) h db := by
  refine SafeFor.bind (Q := fun h' id db' => Pending E W request ctx scope h' db' ∧
      ∀ db'', Advance db' db'' →
        StoreGuarantee E W request h' db'' (newEntry request ctx id r.content))
    (safeFor_port (fun _ _ => trivial) ?_) fun h₁ id db₁ ⟨hp₁, hg⟩ => ?_
  · intro db₁ id db₂ db' x h₁ h₂ h₃ hx
    obtain rfl := Except.ok.inj hx
    have hadv : Advance db db' := h₁.trans ((ports_advance h₂).trans h₃)
    exact ⟨(hp.1.advance hadv).cons (fun _ => nofun) nofun,
      fun db'' h'' => store_promised (hadv.trans h'') hp⟩
  refine SafeFor.bind (Q := fun h' outcome db' => Pending E W request ctx scope h' db' ∧
      (outcome = .ok () → ⟨.store (newEntry request ctx id r.content), .ok ()⟩ ∈ h'))
    (safeFor_port (fun db' hadv => ⟨request, rfl, hg db' hadv⟩) ?_)
    fun h₂ outcome db₂ ⟨hp₂, hstored⟩ => hnext h₂ id outcome db₂ hp₂ hstored
  intro db₁ outcome db₂ db' x h₁ h₂ h₃ hx
  obtain rfl := Except.ok.inj hx
  have hadv := h₁.trans ((ports_advance h₂).trans h₃)
  exact ⟨(hp₁.advance hadv).cons (fun _ => nofun) nofun, fun hok => hok ▸ List.mem_cons_self⟩

theorem storeAndPublish_safe {r : GenerationResult} (hp : Produced E W request ctx scope h r db) :
    SafeFor E W request Served (storeAndPublish request ctx r) h db := by
  refine newCacheId_tryStore_safe hp fun h' id outcome db' hp' hstored => ?_
  cases outcome with
  | error e =>
    refine afterRefusedStore_safe hp' fun h₁ x db₁ ⟨hr, hmem, hs⟩ => ?_
    exact publishCached_safe hr hmem hs
  | ok u =>
    refine SafeFor.bind (Q := fun h' _ _ => NoHit h') (safeFor_port (fun _ _ => ?_) ?_)
      fun h₁ _ db₁ hh => safeFor_result fun x _ hx _ => hh.servedFrom _
    · exact ⟨request, rfl, _, ctx, scope, hp'.resolved, rfl, rfl, rfl, .inl ⟨rfl, hstored rfl⟩⟩
    · exact fun _ _ _ _ _ _ _ _ _ => hp'.noHit.cons fun _ => nofun

theorem storeForDelivery_safe {r : GenerationResult} (hp : Produced E W request ctx scope h r db) :
    SafeFor E W request Served (storeForDelivery request ctx r) h db := by
  refine newCacheId_tryStore_safe hp fun h' id outcome db' hp' hstored => ?_
  cases outcome with
  | error e => exact afterRefusedStore_safe hp' fun h₁ x db₁ ⟨_, _, hs⟩ => serveCached_safe hs
  | ok u => exact safeFor_result fun x _ hx _ => hp'.noHit.servedFrom _

theorem serveStale_safe {e : TemplateAppError} (hh : NoHit h) :
    SafeFor E W request Served (serveStale E request ctx e) h db := by
  refine SafeFor.bind (port_keeps (fun _ _ => trivial) fun a => hh.cons fun _ => nofun)
    fun h₁ latest db₁ hh₁ => ?_
  have herror : SafeFor E W request Served (result (.error e)) h₁ db₁ :=
    safeFor_result fun _ _ herr => by cases herr
  split
  · split
    · exact SafeFor.weaken (port_keeps (fun _ _ => trivial) fun a => hh₁.cons fun _ => nofun)
        fun _ x _ hh' => hh'.servedFrom _
    · exact herror
  · exact herror
  · exact herror

/-! ## 6. The commands -/

theorem generate_safe : SafeFor E W request Served (generate E request) [] db := by
  refine SafeFor.bind (resolveContext_safe early_nil)
    fun h₁ ctx db₁ ⟨scope, hp₁⟩ => ?_
  refine SafeFor.bind (lookup_safe hp₁) fun h₂ found db₂ hfound => ?_
  cases found with
  | some e => exact publishCached_safe hfound.1 hfound.2.1 hfound.2.2
  | none =>
    refine SafeFor.bind (Q := Produced E W request ctx scope)
      ((runFor_safe hfound).weaken fun _ _ _ hr => hr.2) fun h₃ r db₃ hp₃ => ?_
    exact storeAndPublish_safe hp₃

theorem generateForDelivery_safe :
    SafeFor E W request Served (generateForDelivery E request) [] db := by
  refine SafeFor.bind (resolveContext_safe early_nil)
    fun h₁ ctx db₁ ⟨scope, hp₁⟩ => ?_
  refine SafeFor.bind (lookup_safe hp₁) fun h₂ found db₂ hfound => ?_
  cases found with
  | some e => exact serveCached_safe hfound.2.2
  | none =>
    refine SafeFor.bind (Q := fun h' r db' => Pending E W request ctx scope h' db' ∧
        ∀ a, r = .ok a → Produced E W request ctx scope h' a db')
      (Safe.bind Advance.refl (runFor_safe hfound) fun h' r db' hr => ?_) fun h₃ r db₃ ⟨hp₃, hr⟩ => ?_
    · rintro db'' hadv a ⟨⟩
      exact ⟨hr.1.advance hadv, fun x hx => (hr.2 x hx).advance hadv⟩
    · cases r with
      | ok r => exact storeForDelivery_safe (hr r rfl)
      | error e => exact serveStale_safe hp₃.noHit

theorem preview_safe : SafeFor E W request Served (preview E request) [] db := by
  refine SafeFor.bind (resolveContext_safe early_nil)
    fun h₁ ctx db₁ ⟨scope, hp₁⟩ => ?_
  refine SafeFor.bind (lookup_safe hp₁) fun h₂ found db₂ hfound => ?_
  cases found with
  | some e => exact serveCached_safe hfound.2.2
  | none => exact (runFor_safe hfound).weaken fun _ _ _ hr a ha => hr.1.noHit.servedFrom _

end Pending

/-- A client that generates ends with what it found, if it found something. -/
def ends (h : Calls) (o : Outcome) (_ : Db) : Prop :=
  ∀ r, o = .generation (.ok r) → ServedFrom h r.content

/-- The outcome of a command that is safe. -/
theorem SafeFor.outcome {request : GenerationRequest} {db : Db}
    {p : Application TemplateAppError GenerationResult} (hp : SafeFor E W request Served p [] db) :
    Safe (ports W) Advance (promises E W (some request)) ends
      (do return Outcome.generation (← p.run)) [] db := by
  refine Safe.bind Advance.refl hp fun h r db' hr db'' _ x hx => ?_
  exact hr x (Outcome.generation.inj hx)

/-- **Every client keeps its promises**, whatever the others do. -/
theorem client_safe (client : Client) (db : Db) :
    (client.program E).Safe (ports W) Advance (promises E W client.request) ends [] db := by
  cases client with
  | generate r => exact generate_safe.outcome
  | generateForDelivery r => exact generateForDelivery_safe.outcome
  | preview r => exact preview_safe.outcome
  | getActiveGeneration t p =>
    intro db₁ _
    refine ⟨trivial, fun a db₂ _ db₃ _ r hr => by cases hr⟩
  | other p hcalls =>
    refine Safe.bind Advance.refl (hcalls.safe ?_ [] db) fun h r db' _ db'' _ x hx => by cases hx
    intro h c db' hc
    cases c with
    | store e | activate t p id => cases hc
    | findByKey key => rintro r ⟨⟩
    | _ => trivial

/-! ## 7. Reading a trace -/

section Traces

variable {ι : Type}

/-- The entry a read of the cache returned. -/
def returned : CallEvent ι → Option CacheEntry
  | ⟨_, .findByKey _, .ok r, _, _⟩ | ⟨_, .findActive _ _, .ok r, _, _⟩
  | ⟨_, .findLatest _, .ok r, _, _⟩ => r
  | _ => none

/-- A write of the cache that was refused. -/
def refused : CallEvent ι → Bool
  | ⟨_, .store _, .error _, _, _⟩ | ⟨_, .activate _ _ _, .error _, _, _⟩ => true
  | _ => false

/-- The revision an event read. -/
def revisionRead : CallEvent ι → Option Nat
  | ⟨_, .getRevision, .ok r, _, _⟩ => some r
  | _ => none

/-- The source an event deleted. -/
def sourceDeleted : CallEvent ι → Option SourceId
  | ⟨_, .write (.deleteSource id), .ok _, _, _⟩ => some id
  | _ => none

end Traces

/-! ## 8. Runs of the system -/

theorem system_safe {ι : Type} (E : Engine) (W : World) (db : Db) (clients : ι → Client) (i : ι) :
    ((system E db clients).threads i).Safe (ports W) Advance (promises E W (clients i).request) ends
      [] (system E db clients).store :=
  client_safe (clients i) db

section Runs

variable {ι : Type} [DecidableEq ι] {db : Db} {clients : ι → Client}
  {es : Trace ι} {c : Config Call.Reply Db ι Outcome}

/-- **Each call of a run meets the promise of its client.** -/
theorem system_promises (h : Run (ports W) (system E db clients) es c)
    {pre post : Trace ι} {e : CallEvent ι}
    (hes : es = pre ++ e :: post) :
    promises E W (clients e.thread).request (own e.thread pre) e.call e.before :=
  h.guarantee Advance.refl (fun _ _ _ => Advance.trans) (fun _ _ _ _ => ports_advance)
    (system_safe E W db clients) hes

/-- What a finished client returns. -/
theorem system_ends (h : Run (ports W) (system E db clients) es c) {i : ι} {o : Outcome}
    (hdone : c.threads i = .done o) : ends (own i es) o c.store := by
  have hsafe := h.safe Advance.refl (fun _ _ _ => Advance.trans) (fun _ _ _ _ => ports_advance)
    (system_safe E W db clients) i
  rw [hdone] at hsafe
  exact hsafe c.store (.refl _)

/-- From one call of a run to a later one the pool has moved on. -/
theorem system_advance (h : Run (ports W) (system E db clients) es c) {d e : CallEvent ι}
    (hde : [d, e].Sublist es) : Advance d.after e.before :=
  h.between Advance.refl (fun _ _ _ => Advance.trans) (fun _ _ _ _ => ports_advance) hde

/-- Every entry of the cache was made for some request. -/
def CacheMade (E : Engine) (W : World) (db : Db) : Prop :=
  ∀ e ∈ db.cache, ∃ request scope ctx, Generated E W db e request scope ctx

theorem CacheMade.advance {db' : Db} (hmade : CacheMade E W db) (hadv : Advance db db')
    (hsub : ∀ e ∈ db'.cache, ∃ x ∈ db.cache,
      GenerationCache.inactive e = GenerationCache.inactive x) : CacheMade E W db' := by
  intro e he
  obtain ⟨x, hx, heq⟩ := hsub e he
  obtain ⟨request, scope, ctx, hgen⟩ := hmade x hx
  exact ⟨request, scope, ctx, (hgen.of_inactive heq).advance hadv⟩

/-- **One call keeps the cache made for requests**, if it meets its promise. -/
theorem cacheMade_step {request : Option GenerationRequest} {hist : Calls} {op : Call} {db' : Db}
    {a : op.Reply} (hmade : CacheMade E W db) (hg : promises E W request hist op db)
    (hs : ports W op db a db') : CacheMade E W db' := by
  have hadv := ports_advance hs
  cases ports_change hs with
  | none => exact hmade
  | store hstore =>
    obtain ⟨r, -, hnew⟩ := hg
    obtain ⟨scope, ctx, hgen⟩ := hnew.made
    obtain ⟨cache, -, -, hrows, rfl⟩ := GenerationCache.store_eq_ok hstore
    intro e he
    rcases hrows e he with he | rfl
    · obtain ⟨r', scope', ctx', hgen'⟩ := hmade e he
      exact ⟨r', scope', ctx', hgen'.advance hadv⟩
    · exact ⟨r, scope, ctx, hgen.advance hadv⟩
  | activate hact =>
    obtain ⟨cache, -, hrows, rfl⟩ := GenerationCache.activate_eq_ok hact
    refine hmade.advance hadv fun e he => ?_
    obtain ⟨x, hx, heq, -⟩ := hrows e he
    exact ⟨x, hx, heq⟩
  | write hw =>
    have hcache : db'.cache = db.cache := (Write.run_pool hw).elim (·.cache) (·.cache)
    exact hmade.advance hadv fun e he => ⟨e, hcache ▸ he, rfl⟩
  | setSubscriptions => exact hmade.advance hadv fun e he => ⟨e, he, rfl⟩
  | deleteTemplate => exact hmade.advance hadv fun e he => ⟨e, (Table.mem_delete.1 he).1, rfl⟩

/-- **The cache stays made for requests along every run.** -/
theorem system_cacheMade (h : Run (ports W) (system E db clients) es c) (h0 : CacheMade E W db)
    {e : CallEvent ι} (he : e ∈ es) : CacheMade E W e.before :=
  h.invariant_before Advance.refl (fun _ _ _ => Advance.trans) (fun _ _ _ _ => ports_advance)
    (system_safe E W db clients) (fun _ _ _ _ _ _ => cacheMade_step) h0 he

end Runs

/-! ## 9. A system that can be run -/

/-- An engine for templates that take the whole pool. -/
def Engine.plain : Engine where
  crates := ⟨Json.codec some, fun _ => .null, fun _ => .ok none, fun _ => .ok []⟩
  sha256 := id
  parseTemplateDocument _ := .ok
    { clash := none, targetProfiles := [], nodeSelector := ⟨.dynamic, [], [], 0⟩
      proxyGroups := [], rules := [], dns := .null, tun := .null }
  clashWarnings _ := .ok []
  clashGroupNames _ := .ok []
  materializeClash clash _ _ := pure (.ok (clash, []))
  inspectGeneratedSequence _ _ := .ok .nonEmpty
  debugText _ := []

/-- A request for the whole pool as a list of links. -/
def GenerationRequest.plain : GenerationRequest := ⟨0, "uri_list", .lenient, none, none⟩

/-- Runs the system along a schedule, with an answer of the outside for each turn. -/
def execute {ι : Type} [DecidableEq ι] (E : Engine) (db : Db) (clients : ι → Client)
    (schedule : List (ι × Outside W)) :
    Trace ι × Config Call.Reply Db ι Outcome :=
  (system E db clients).exec (schedule.map fun t => t.2.turn t.1)

/-- **What is executed is a run.** -/
theorem run_execute {ι : Type} [DecidableEq ι] (E : Engine) (db : Db) (clients : ι → Client)
    (schedule : List (ι × Outside W)) :
    Run (ports W) (system E db clients) (execute E db clients schedule).1
      (execute E db clients schedule).2 :=
  run_turns (system E db clients) schedule

end DeveSub
