/-
  File:      DeveSub/Properties/Recency.lean
  Subject:   In which order outputs are published and served again.

  A generation reads the pool revision first and publishes last, and `find_latest` goes by the
  id, which is drawn in between. So a slow generation that is overtaken puts an older output back
  (`overtaken_generation_moves_back`). What holds is

  * a generation that reads its revision after a publication publishes nothing older;
  * `find_latest` returns the candidate with the greatest id, and an older one than another only
    if its generation read its revision before the other's and drew its id after it.

  Both are `recency_follows_reads`, for identifiers that are drawn in increasing order.
-/
import DeveSub.Properties.CacheCoherence
import DeveSub.Properties.WithdrawalFloor

namespace DeveSub

variable {ι : Type}

/-! ## 1. Reading a trace -/

/-- The id an event drew. -/
def idDrawn : CallEvent ι → Option Ulid
  | ⟨_, .drawId, id, _, _⟩ => some id
  | _ => none

/-- The entry an event published, as it stood before. -/
def published : CallEvent ι → Option CacheEntry
  | ⟨_, .activate _ _ id, .ok _, before, _⟩ => before.cache.find id
  | _ => none

/-- What `find_latest` was asked for, and what it returned. -/
def latest : CallEvent ι → Option (GenerationCache.Shape × CacheEntry)
  | ⟨_, .findLatest shape, .ok (some x), _, _⟩ => some (shape, x)
  | _ => none

theorem idDrawn_of_eq {e : CallEvent ι} {id : Ulid}
    (h : (⟨e.call, e.reply⟩ : (c : Call) × c.Reply) = ⟨.drawId, id⟩) : idDrawn e = some id := by
  obtain ⟨i, c, a, before, after⟩ := e
  cases h
  rfl

theorem published_eq_some {e : CallEvent ι} {x : CacheEntry} (h : published e = some x) :
    x ∈ e.before.cache ∧ ∃ t p, e.call = .activate t p x.id := by
  unfold published at h
  split at h
  · obtain ⟨hmem, rfl⟩ := Table.find_eq_some.1 h
    exact ⟨hmem, _, _, rfl⟩
  · cases h

theorem latest_eq_some {W : World} {e : CallEvent ι} {shape : GenerationCache.Shape}
    {x : CacheEntry} (hs : ports W e.call e.before e.reply e.after)
    (h : latest e = some (shape, x)) : GenerationCache.findLatest e.before shape = some x := by
  unfold latest at h
  split at h
  · obtain ⟨rfl, rfl⟩ := Prod.mk.inj (Option.some.inj h)
    exact (Reads.value hs).symm
  · cases h

/-- Identifiers are drawn in increasing order. -/
def IdsIncrease (es : Trace ι) : Prop :=
  ∀ d d' i i', [d, d'].Sublist es → idDrawn d = some i → idDrawn d' = some i' → i < i'

theorem IdsIncrease.left {es es' : Trace ι} (h : IdsIncrease (es ++ es')) :
    IdsIncrease es :=
  fun d d' i i' hdd' => h d d' i i' (hdd'.trans (List.sublist_append_left es es'))

/-- An id is drawn once. -/
theorem IdsIncrease.unique {es pre pre' post post' : Trace ι}
    {d d' : CallEvent ι} {i : Ulid} (h : IdsIncrease es) (hes : es = pre ++ d :: post)
    (hes' : es = pre' ++ d' :: post') (hd : idDrawn d = some i) (hd' : idDrawn d' = some i) :
    pre = pre' ∧ d = d' := by
  have hnot : ∀ {a b : CallEvent ι}, idDrawn a = some i → idDrawn b = some i →
      ¬ [a, b].Sublist es := fun ha hb hab => lt_irrefl i (h _ _ i i hab ha hb)
  rcases List.append_eq_append_iff.1 (hes.symm.trans hes') with ⟨mid, hpre, hmid⟩ | ⟨mid, hpre, hmid⟩
  · cases mid with
    | nil => exact ⟨by simpa using hpre.symm, (List.cons.inj hmid).1⟩
    | cons x mid =>
      obtain ⟨rfl, -⟩ := List.cons.inj hmid
      exact absurd (hes' ▸ pair_sublist (by simp [hpre])) (hnot hd hd')
  · cases mid with
    | nil => exact ⟨by simpa using hpre, (List.cons.inj hmid).1.symm⟩
    | cons x mid =>
      obtain ⟨rfl, -⟩ := List.cons.inj hmid
      exact absurd (hes ▸ pair_sublist (by simp [hpre])) (hnot hd' hd)

/-- A greater id was drawn later. -/
theorem pair_of_id_lt {es : Trace ι} (hids : IdsIncrease es) {d d' : CallEvent ι} (hd : d ∈ es)
    (hd' : d' ∈ es) {i i' : Ulid} (hi : idDrawn d = some i) (hi' : idDrawn d' = some i')
    (hlt : i < i') : [d, d'].Sublist es := by
  have hne : d ≠ d' := by
    rintro rfl
    rw [hi] at hi'
    exact hlt.ne (Option.some.inj hi')
  rcases pair_or_pair hd hd' hne with hpair | hpair
  · exact hpair
  · exact absurd (hids d' d i' i hpair hi' hi) (not_lt_of_gt hlt)

/-! ## 2. Where an entry comes from -/

/-- **The origin of an entry**: its id was drawn at `d`, by a thread that had read its revision
    at `g`, and no other revision. -/
structure Origin (es : Trace ι) (x : CacheEntry) (g d : CallEvent ι) :
    Prop where
  thread : g.thread = d.thread
  read : revisionRead g = some x.poolRevision
  drawn : idDrawn d = some x.id
  order : ∃ pre post, es = pre ++ d :: post ∧ g ∈ pre ∧
    ∀ g' ∈ pre, g'.thread = d.thread → ∀ r, revisionRead g' = some r → r = x.poolRevision

theorem Origin.append {es : Trace ι} {x : CacheEntry}
    {g d : CallEvent ι} (h : Origin es x g d) (es' : Trace ι) :
    Origin (es ++ es') x g d := by
  obtain ⟨pre, post, rfl, hg, honce⟩ := h.order
  exact ⟨h.thread, h.read, h.drawn, pre, post ++ es', by simp, hg, honce⟩

theorem Origin.mem {es : Trace ι} {x : CacheEntry}
    {g d : CallEvent ι} (h : Origin es x g d) :
    g ∈ es ∧ d ∈ es := by
  obtain ⟨pre, post, rfl, hg, -⟩ := h.order
  exact ⟨List.mem_append_left _ hg, List.mem_append_cons_self⟩

/-- Entries with one id were computed from one revision. -/
theorem Origin.revision_eq {es : Trace ι} (hids : IdsIncrease es)
    {x y : CacheEntry} {g d g' d' : CallEvent ι} (hx : Origin es x g d)
    (hy : Origin es y g' d') (hid : x.id = y.id) : x.poolRevision = y.poolRevision := by
  obtain ⟨pre, post, hes, hg, -⟩ := hx.order
  obtain ⟨pre', post', hes', -, honce⟩ := hy.order
  obtain ⟨rfl, rfl⟩ := hids.unique hes hes' hx.drawn (hid ▸ hy.drawn)
  exact honce g hg hx.thread _ hx.read

/-- Only the id and the revision of an entry matter for where it comes from. -/
theorem Origin.of_inactive {es : Trace ι} {x y : CacheEntry}
    {g d : CallEvent ι} (h : Origin es x g d)
    (heq : GenerationCache.inactive y = GenerationCache.inactive x) : Origin es y g d := by
  have hid : y.id = x.id := show (GenerationCache.inactive y).id = _ by rw [heq]; rfl
  have hrev : y.poolRevision = x.poolRevision :=
    show (GenerationCache.inactive y).poolRevision = _ by rw [heq]; rfl
  exact ⟨h.thread, hrev ▸ h.read, hid ▸ h.drawn, hrev ▸ h.order⟩

/-- How the order of outputs follows that of the reads: an output is computed from a revision its
    publisher has read, and one that was published before that read is not newer; of the entries
    `find_latest` may return it takes the greatest id, and it passes over a newer one only if that
    was read later and drew its id earlier. -/
structure FollowsReads (es : Trace ι) : Prop where
  published : ∀ a₁ a₂ x₁ x₂, [a₁, a₂].Sublist es → published a₁ = some x₁ →
    published a₂ = some x₂ →
    ∃ g, [g, a₂].Sublist es ∧ g.thread = a₂.thread ∧ revisionRead g = some x₂.poolRevision ∧
      ([a₁, g].Sublist es → x₁.poolRevision ≤ x₂.poolRevision)
  latest : ∀ e ∈ es, ∀ shape x, latest e = some (shape, x) →
    ∀ y ∈ e.before.cache, shape.matches e.before.floor y = true →
      y.id ≤ x.id ∧
      (x.poolRevision < y.poolRevision → ∃ gx dx gy dy, Origin es x gx dx ∧ Origin es y gy dy ∧
        [gx, gy].Sublist es ∧ [dy, dx].Sublist es)

section Runs

variable [DecidableEq ι] {E : Engine} {W : World} {db : Db} {clients : ι → Client}
  {es : Trace ι} {c : Config Call.Reply Db ι Outcome}

theorem mem_own_of_revisionRead {g : CallEvent ι} {r : Nat} (hg : g ∈ es)
    (hr : revisionRead g = some r) : ⟨.getRevision, .ok r⟩ ∈ own g.thread es := by
  unfold revisionRead at hr
  split at hr
  · obtain rfl := Option.some.inj hr
    exact mem_own.2 ⟨_, hg, rfl, rfl⟩
  · cases hr

/-- What a client promises of a stored entry says where it comes from. -/
theorem StoreGuarantee.origin {request : GenerationRequest} {i : ι} {x : CacheEntry}
    (h : StoreGuarantee E W request (own i es) db x) : ∃ g d, Origin es x g d := by
  obtain ⟨later, earlier, hown, hread⟩ := h.drawn
  obtain ⟨pre, d, post, rfl, rfl, hd, hpre⟩ := own_eq_append_cons hown
  obtain ⟨g, hg, hthread, hrev⟩ := revisionRead_of_mem_own (hpre ▸ hread)
  refine ⟨g, d, hthread, hrev, idDrawn_of_eq hd, pre, post, rfl, hg, fun g' hg' ht r hr => ?_⟩
  -- what the thread read before the draw is part of its history at the store
  refine h.once r (hown ▸ List.mem_append_right _ (List.mem_cons_of_mem _ ?_))
  rw [← hpre, ← ht]
  exact mem_own_of_revisionRead hg' hr

/-- **Every entry of the cache has its origin in the run.** -/
theorem exists_origin (h : Run (ports W) (system E db clients) es c) (h0 : db.cache = .empty)
    {x : CacheEntry} (hx : x ∈ c.store.cache) : ∃ g d, Origin es x g d := by
  induction h generalizing x with
  | start =>
    rw [show (system E db clients).store.cache = .empty from h0] at hx
    exact absurd hx (Table.not_mem_empty x)
  | @step es' c' i op next a s' hrun hop hs ih =>
    have hold : ∀ y ∈ c'.store.cache, GenerationCache.inactive x = GenerationCache.inactive y →
        ∃ g d, Origin (es' ++ [⟨i, op, a, c'.store, s'⟩]) x g d := by
      intro y hy heq
      obtain ⟨g, d, horigin⟩ := ih hy
      exact ⟨g, d, (horigin.of_inactive heq).append _⟩
    have hpromise := system_promises (hrun.step i op next a s' hop hs) rfl
    cases ports_change hs with
    | none => exact hold x hx rfl
    | store hstore =>
      obtain ⟨cache, -, -, hrows, rfl⟩ := GenerationCache.store_eq_ok hstore
      rcases hrows x hx with hx | rfl
      · exact hold x hx rfl
      · obtain ⟨request, -, hguar⟩ := hpromise
        obtain ⟨g, d, horigin⟩ := hguar.origin
        exact ⟨g, d, horigin.append _⟩
    | activate hact =>
      obtain ⟨cache, -, hrows, rfl⟩ := GenerationCache.activate_eq_ok hact
      obtain ⟨y, hy, heq, -⟩ := hrows x hx
      exact hold y hy heq
    | write hw =>
      have hcache : s'.cache = c'.store.cache := (Write.run_pool hw).elim (·.cache) (·.cache)
      exact hold x (hcache ▸ hx) rfl
    | setSubscriptions => exact hold x hx rfl
    | deleteTemplate => exact hold x (Table.mem_delete.1 hx).1 rfl

theorem exists_origin_before (h : Run (ports W) (system E db clients) es c)
    (h0 : db.cache = .empty) {pre post : Trace ι} {e : CallEvent ι}
    (hes : es = pre ++ e :: post) {x : CacheEntry} (hx : x ∈ e.before.cache) :
    ∃ g d, Origin pre x g d := by
  obtain ⟨c', hrun, hstore⟩ := h.upTo hes
  exact exists_origin hrun h0 (hstore ▸ hx)

/-! ## 3. Publications -/

/-- What a client has in hand when it publishes: an entry with an origin, computed from the
    revision the client has read. -/
theorem ActivateGuarantee.origin (hsha : Function.Injective E.sha256) (h0 : db.cache = .empty)
    (h : Run (ports W) (system E db clients) es c) {i : ι} {request : GenerationRequest}
    {t : TemplateId} {p : Str} {id : CacheId}
    (hact : ActivateGuarantee E W request (own i es) t p id) :
    ∃ y g d, y.id = id ∧ Origin es y g d ∧ ⟨.getRevision, .ok y.poolRevision⟩ ∈ own i es := by
  obtain ⟨y, ctx, scope, hresolved, -, -, hid, hy⟩ := hact
  rcases hy with ⟨hrev, hstore⟩ | hfound
  · obtain ⟨later, earlier, hown⟩ := List.append_of_mem hstore
    obtain ⟨pre, e, post, hes, -, he, -⟩ := own_eq_append_cons hown
    have hpromise := system_promises h hes
    rw [show e.call = .store y from congrArg Sigma.fst he] at hpromise
    obtain ⟨r, -, hguar⟩ := hpromise
    obtain ⟨g, d, horigin⟩ := hguar.origin
    exact ⟨y, g, d, hid, hes ▸ horigin.append _, hrev ▸ hresolved.read⟩
  · obtain ⟨⟨j, op, a, before, after⟩, he, -, heq⟩ := mem_own.1 hfound
    cases heq
    obtain ⟨pre, post, hes⟩ := List.append_of_mem he
    obtain ⟨hmem, hkey⟩ := hit_mem (h.sem_of_mem he) rfl
    obtain ⟨g, d, horigin⟩ := exists_origin_before h h0 hes hmem
    -- found under the key of the client, so computed from the revision in that key
    have hmade := system_cacheMade h (fun r hr => by rw [h0] at hr; exact absurd hr (by simp)) he
    obtain ⟨request', scope', ctx', hgen, hyrev, hparams⟩ := found_params hsha hmade hmem hkey
      hresolved.context (lt_of_revision_read h hresolved.read)
    have hsame := (pipelineOn_congr hresolved.context hgen.context hparams []).1
    exact ⟨y, g, d, hid, hes ▸ horigin.append _, hyrev.trans hsame.symm ▸ hresolved.read⟩

/-- **What is published was computed from a revision that the publishing thread has read.** -/
theorem published_read (hsha : Function.Injective E.sha256) (h0 : db.cache = .empty)
    (h : Run (ports W) (system E db clients) es c) (hids : IdsIncrease es)
    {pre post : Trace ι} {e : CallEvent ι}
    (hes : es = pre ++ e :: post) {x : CacheEntry} (hx : published e = some x) :
    ∃ g ∈ pre, g.thread = e.thread ∧ revisionRead g = some x.poolRevision := by
  obtain ⟨hmem, t, p, hcall⟩ := published_eq_some hx
  have hpromise := system_promises h hes
  rw [hcall] at hpromise
  obtain ⟨request, -, hact⟩ := hpromise
  obtain ⟨c', hrun, -⟩ := h.upTo hes
  obtain ⟨y, g, d, hid, horigin, hread⟩ := hact.origin hsha h0 hrun
  obtain ⟨g', d', horigin'⟩ := exists_origin_before h h0 hes hmem
  -- the entry in the cache under this id is the one the client has in hand
  have hsame := horigin.revision_eq (hes ▸ hids).left horigin' hid
  exact revisionRead_of_mem_own (hsame ▸ hread)

theorem published_le_revision (h0 : db.cache = .empty)
    (h : Run (ports W) (system E db clients) es c) {e : CallEvent ι} (he : e ∈ es)
    {x : CacheEntry} (hx : published e = some x) : x.poolRevision ≤ e.before.revision := by
  have hmade := system_cacheMade h (fun r hr => by rw [h0] at hr; exact absurd hr (by simp)) he
  obtain ⟨request, scope, ctx, hgen⟩ := hmade x (published_eq_some hx).1
  exact hgen.revision_le

/-! ## 4. The order of outputs -/

/-- A later revision was read later. -/
theorem pair_of_revision_lt (h : Run (ports W) (system E db clients) es c)
    {g g' : CallEvent ι} (hg : g ∈ es) (hg' : g' ∈ es) {r r' : Nat}
    (hr : revisionRead g = some r) (hr' : revisionRead g' = some r') (hlt : r < r') :
    [g, g'].Sublist es := by
  have hne : g ≠ g' := by
    rintro rfl
    rw [hr] at hr'
    exact hlt.ne (Option.some.inj hr')
  rcases pair_or_pair hg hg' hne with hpair | hpair
  · exact hpair
  · have hadv := (system_advance h hpair).revision_le
    obtain ⟨hval, -⟩ := revisionRead_eq (h.sem_of_mem hg) hr
    obtain ⟨hval', hafter'⟩ := revisionRead_eq (h.sem_of_mem hg') hr'
    rw [hafter', ← hval, ← hval'] at hadv
    exact absurd hadv (Nat.not_le.2 hlt)

/-- **The order of outputs is that of the reads.** -/
theorem recency_follows_reads (hsha : Function.Injective E.sha256) (h0 : db.cache = .empty)
    (h : Run (ports W) (system E db clients) es c) (hids : IdsIncrease es) : FollowsReads es := by
  constructor
  · intro a₁ a₂ x₁ x₂ hpair h₁ h₂
    obtain ⟨pre, post, hes, -⟩ := exists_append_of_pair hpair
    obtain ⟨g, hg, hthread, hread⟩ := published_read hsha h0 h hids hes h₂
    refine ⟨g, hes ▸ pair_sublist hg, hthread, hread, fun hag => ?_⟩
    -- the revision of the first output was there when the second generation read its own
    have hold := published_le_revision h0 h (hag.subset List.mem_cons_self) h₁
    have hafter := (ports_advance (h.sem_of_mem (hag.subset List.mem_cons_self))).revision_le
    have hbetween := (system_advance h hag).revision_le
    have hgmem : g ∈ es := hag.subset (List.mem_cons_of_mem _ List.mem_cons_self)
    rw [(revisionRead_eq (h.sem_of_mem hgmem) hread).1]
    exact hold.trans (hafter.trans hbetween)
  · intro e he shape x hx y hy hmatch
    obtain ⟨hxmem, -, hgreatest⟩ :=
      GenerationCache.findLatest_eq_some (latest_eq_some (h.sem_of_mem he) hx)
    refine ⟨hgreatest y hy hmatch, fun hlt => ?_⟩
    obtain ⟨pre, post, hes⟩ := List.append_of_mem he
    obtain ⟨gx, dx, hox⟩ := exists_origin_before h h0 hes hxmem
    obtain ⟨gy, dy, hoy⟩ := exists_origin_before h h0 hes hy
    replace hox : Origin es x gx dx := hes ▸ hox.append (e :: post)
    replace hoy : Origin es y gy dy := hes ▸ hoy.append (e :: post)
    have hid : y.id < x.id := by
      refine lt_of_le_of_ne (hgreatest y hy hmatch) fun hid => ?_
      exact hlt.ne (hox.revision_eq hids hoy hid.symm)
    exact ⟨gx, dx, gy, dy, hox, hoy, pair_of_revision_lt h hox.mem.1 hoy.mem.1 hox.read hoy.read hlt,
      pair_of_id_lt hids hoy.mem.2 hox.mem.2 hoy.drawn hox.drawn hid⟩

end Runs

/-! ## 5. A generation that is overtaken -/

/-- What is published for a template version and profile never moves back. -/
def PublishedForward (es : Trace ι) : Prop :=
  ∀ a₁ a₂ x₁ x₂, [a₁, a₂].Sublist es → published a₁ = some x₁ → published a₂ = some x₂ →
    x₁.templateId = x₂.templateId → x₁.profile = x₂.profile →
    x₁.templateVersion = x₂.templateVersion → x₁.poolRevision ≤ x₂.poolRevision

/-- `find_latest` returns nothing older than another entry it could have returned. -/
def LatestForward (es : Trace ι) : Prop :=
  ∀ e ∈ es, ∀ shape x, latest e = some (shape, x) →
    ∀ y ∈ e.before.cache, shape.matches e.before.floor y = true → y.poolRevision ≤ x.poolRevision

theorem idsIncrease_of_pairwise {es : Trace ι}
    (h : (es.filterMap idDrawn).Pairwise (· < ·)) : IdsIncrease es := by
  intro d d' i i' hpair hd hd'
  have hsub := hpair.filterMap idDrawn
  simp only [List.filterMap_cons, hd, hd', List.filterMap_nil] at hsub
  simpa using h.sublist hsub

/-- The shape of the plain request, pinned to its version. -/
def plainShape : GenerationCache.Shape where
  templateId := 0
  profile := "uri_list"
  selectionMode := "dynamic"
  selectionPayload := (NodeSelector.mk .dynamic [] [] 0).json.text
  versionPin := some 1
  mode := "lenient"

/-- One client imports two nodes, two generate, and one asks for the latest output. -/
def overtakenClients : Fin 4 → Client
  | 0 => .other (do
      let _ ← Program.perform (.write (.importNodes [.plain 5]))
      let _ ← Program.perform (.write (.importNodes [.plain 6]))
      pure ()) ⟨rfl, fun _ => ⟨rfl, fun _ => trivial⟩⟩
  | 3 => .other (do
      let _ ← Program.perform (.findLatest plainShape)
      pure ()) ⟨rfl, fun _ => trivial⟩
  | _ => .generate .plain

/-- The first generation reads the pool of one node; the second comes and goes with two; then
    the first one finishes. -/
def overtakenTrace : Trace (Fin 4) :=
  (execute Engine.plain Db.empty overtakenClients
    (([0] ++ List.replicate 7 1 ++ [0] ++ List.replicate 10 2 ++ List.replicate 3 1 ++ [3] :
      List (Fin 4)).map fun i => (i, Outside.plain (if i = 1 then 20 else 10)))).1

/-- What is looked at in the trace: the id drawn; the template, profile, version and revision of
    a publication; the revision `find_latest` returned, and those it could have returned. -/
structure Overview where
  id : Option Ulid
  published : Option (TemplateId × Str × UInt64 × Nat)
  latest : Option (Nat × List Nat)
  deriving DecidableEq

def overview (e : CallEvent ι) : Overview where
  id := idDrawn e
  published := (published e).map fun x =>
    (x.templateId, x.profile, x.templateVersion, x.poolRevision)
  latest := (latest e).map fun p => (p.2.poolRevision,
    (e.before.cache.rows.filter (p.1.matches e.before.floor)).map CacheEntry.poolRevision)

def overtakenOverview : List Overview :=
  let quiet : Overview := ⟨none, none, none⟩
  let rest : List Overview :=
    [⟨some 10, none, none⟩, quiet, ⟨none, some (0, "uri_list", 1, 2), none⟩, ⟨some 20, none, none⟩,
      quiet, ⟨none, some (0, "uri_list", 1, 1), none⟩, ⟨none, none, some (1, [2, 1])⟩]
  List.replicate 16 quiet ++ rest

theorem overview_overtakenTrace : overtakenTrace.map overview = overtakenOverview := by
  decide +kernel

/-- The event of the trace with a given overview. -/
theorem overtakenTrace_getElem? {i : Nat} {v : Overview} (h : overtakenOverview[i]? = some v) :
    ∃ e, overtakenTrace[i]? = some e ∧ overview e = v := by
  rw [← overview_overtakenTrace, List.getElem?_map] at h
  exact Option.map_eq_some_iff.1 h

theorem not_publishedForward : ¬ PublishedForward overtakenTrace := by
  intro hforward
  obtain ⟨a₁, ha₁, hv₁⟩ := overtakenTrace_getElem? (i := 18) rfl
  obtain ⟨a₂, ha₂, hv₂⟩ := overtakenTrace_getElem? (i := 21) rfl
  simp only [overview, Overview.mk.injEq] at hv₁ hv₂
  obtain ⟨x₁, h₁, heq₁⟩ := Option.map_eq_some_iff.1 hv₁.2.1
  obtain ⟨x₂, h₂, heq₂⟩ := Option.map_eq_some_iff.1 hv₂.2.1
  simp only [Prod.mk.injEq] at heq₁ heq₂
  have hle := hforward a₁ a₂ x₁ x₂ (pair_of_getElem? (by decide) ha₁ ha₂) h₁ h₂
    (heq₁.1.trans heq₂.1.symm) (heq₁.2.1.trans heq₂.2.1.symm) (heq₁.2.2.1.trans heq₂.2.2.1.symm)
  omega

theorem not_latestForward : ¬ LatestForward overtakenTrace := by
  intro hforward
  obtain ⟨e, he, hv⟩ := overtakenTrace_getElem? (i := 22) rfl
  simp only [overview, Overview.mk.injEq] at hv
  obtain ⟨⟨shape, x⟩, hx, heq⟩ := Option.map_eq_some_iff.1 hv.2.2
  simp only [Prod.mk.injEq] at heq
  obtain ⟨hone, hcandidates⟩ := heq
  have htwo : 2 ∈ ((e.before.cache.rows.filter (shape.matches e.before.floor)).map
      CacheEntry.poolRevision) := hcandidates ▸ List.mem_cons_self
  obtain ⟨y, hy, hyrev⟩ := List.mem_map.1 htwo
  obtain ⟨hmem, hmatch⟩ := List.mem_filter.1 hy
  have hle := hforward e (List.mem_of_getElem? he) shape x hx y hmem hmatch
  omega

theorem idsIncrease_overtakenTrace : IdsIncrease overtakenTrace := by
  refine idsIncrease_of_pairwise ?_
  have hids : overtakenTrace.filterMap idDrawn =
      (overtakenTrace.map overview).filterMap Overview.id := by
    rw [List.filterMap_map]
    rfl
  rw [hids, overview_overtakenTrace]
  decide

/-- **An overtaken generation publishes an older output over a newer one**, and is then the
    latest. -/
theorem overtaken_generation_moves_back : ∃ es c,
    Run (ports World.plain) (system Engine.plain Db.empty overtakenClients) es c ∧
      IdsIncrease es ∧ ¬ PublishedForward es ∧ ¬ LatestForward es :=
  ⟨overtakenTrace, _, run_execute .., idsIncrease_overtakenTrace, not_publishedForward,
    not_latestForward⟩

theorem recency_follows_reads_overtaken : FollowsReads overtakenTrace :=
  recency_follows_reads Function.injective_id rfl
    (run_execute Engine.plain Db.empty overtakenClients _) idsIncrease_overtakenTrace

end DeveSub
