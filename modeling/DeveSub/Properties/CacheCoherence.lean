/-
  File:      DeveSub/Properties/CacheCoherence.lean
  Subject:   A cache hit at the current revision is what the pipeline would answer now.

  The key of an entry frames every field with its length, so with a digest without collisions
  two requests share a key only when they ask for the same template version, profile, selection
  and mode at the same revision (`computeKey_injective`, `pipelineOn_congr`). While the revision
  stands, an entry is what the pipeline answers (`Generated.coherent`). Together:
  `cache_hit_is_current`.
-/
import Mathlib.Data.Nat.Digits.Defs
import DeveSub.Application.System

namespace DeveSub

/-! ## 1. Framing -/

/-- The eight bytes give the length up to 2^64. -/
theorem leBytes64_injective {a b : Nat} (h : leBytes64 a = leBytes64 b) :
    a % 2 ^ 64 = b % 2 ^ 64 := by
  show a % 256 ^ 8 = b % 256 ^ 8
  refine Ulid.mod_pow_eq_of_digits 8 fun k hk => ?_
  have hbyte := List.map_eq_map_iff.1 h k (List.mem_range.2 hk)
  have hnat := congrArg UInt8.toNat hbyte
  rw [UInt8.toNat_ofNat', UInt8.toNat_ofNat'] at hnat
  exact hnat

theorem length_leBytes64 (n : Nat) : (leBytes64 n).length = 8 := by simp [leBytes64]

/-- **A frame is read off the front**, if the fields are short, or what follows is. -/
theorem frame_append_inj {f g r s : List UInt8} (h : frame f ++ r = frame g ++ s)
    (hlen : f.length < 2 ^ 64 ∧ g.length < 2 ^ 64 ∨ r.length < 2 ^ 64 ∧ s.length < 2 ^ 64) :
    f = g ∧ r = s := by
  rw [frame, frame, List.append_assoc, List.append_assoc] at h
  obtain ⟨hbytes, hrest⟩ := List.append_inj h (by rw [length_leBytes64, length_leBytes64])
  have hmod := leBytes64_injective hbytes
  have htotal := congrArg List.length hrest
  rw [List.length_append, List.length_append] at htotal
  refine List.append_inj hrest ?_
  -- equal modulo 2^64, and less than 2^64 apart
  omega

/-- **Frames one after the other are read off one by one**: no field imitates a boundary. -/
theorem frames_injective {fs gs : List (List UInt8)} (hfs : ∀ f ∈ fs, f.length < 2 ^ 64)
    (hgs : ∀ g ∈ gs, g.length < 2 ^ 64) (h : fs.flatMap frame = gs.flatMap frame) : fs = gs := by
  have hnonempty : ∀ (f : List UInt8) (rest : List UInt8), frame f ++ rest ≠ [] := by
    intro f rest heq
    have hlen := congrArg List.length heq
    rw [frame, List.length_append, List.length_append, length_leBytes64] at hlen
    simp only [List.length_nil] at hlen
    omega
  induction fs generalizing gs with
  | nil =>
    cases gs with
    | nil => rfl
    | cons g gs =>
      rw [List.flatMap_nil, List.flatMap_cons] at h
      exact absurd h.symm (hnonempty g _)
  | cons f fs ih =>
    cases gs with
    | nil =>
      rw [List.flatMap_nil, List.flatMap_cons] at h
      exact absurd h (hnonempty f _)
    | cons g gs =>
      rw [List.flatMap_cons, List.flatMap_cons] at h
      obtain ⟨rfl, hrest⟩ := frame_append_inj h
        (.inl ⟨hfs f List.mem_cons_self, hgs g List.mem_cons_self⟩)
      rw [ih (fun f hf => hfs f (List.mem_cons_of_mem _ hf))
        (fun g hg => hgs g (List.mem_cons_of_mem _ hg)) hrest]

theorem utf8Bytes_injective : Function.Injective utf8Bytes := by
  intro s t h
  rw [← utf8Lossy_utf8Bytes s, ← utf8Lossy_utf8Bytes t, h]

theorem natText_injective : Function.Injective natText := by
  intro m n h
  have hm := digits?_natText m
  rw [h, digits?_natText] at hm
  exact (Option.some.inj hm).symm

theorem length_utf8Bytes_le (s : Str) : (utf8Bytes s).length ≤ 4 * s.length := by
  induction s with
  | nil => simp
  | cons c s ih =>
    have hc := utf8Size_le_four c
    rw [utf8Bytes_cons, List.length_append, String.length_utf8EncodeChar, List.length_cons]
    omega

theorem length_natText_le {n : Nat} (h : n < 2 ^ 64) : (natText n).length ≤ 20 :=
  Nat.toDigits_length 10 n 20 (by decide) (h.trans (by decide))

/-! ## 2. Keys -/

theorem hexLower_injective {m n : Nat} (hm : m < 16) (hn : n < 16) (h : hexLower m = hexLower n) :
    m = n := by
  have hall : (List.range 16).all (fun i => (List.range 16).all fun j =>
      decide (hexLower i = hexLower j → i = j)) = true := by decide
  have hi := List.all_eq_true.1 hall m (List.mem_range.2 hm)
  exact of_decide_eq_true (List.all_eq_true.1 hi n (List.mem_range.2 hn)) h

/-- The hex text of a digest gives the digest. -/
theorem hexBytes_injective : Function.Injective fun bs : List UInt8 =>
    bs.flatMap fun b => [hexLower (b.toNat / 16), hexLower (b.toNat % 16)] := by
  intro bs
  induction bs with
  | nil =>
    intro cs h
    cases cs with
    | nil => rfl
    | cons c cs => cases h
  | cons b bs ih =>
    intro cs h
    cases cs with
    | nil => cases h
    | cons c cs =>
      simp only [List.flatMap_cons, List.cons_append, List.nil_append, List.cons.injEq] at h
      obtain ⟨hhigh, hlow, hrest⟩ := h
      have hb := b.toNat_lt
      have hc := c.toNat_lt
      have h1 := hexLower_injective (by omega) (by omega) hhigh
      have h2 := hexLower_injective (by omega) (by omega) hlow
      have hbc : b = c := UInt8.toNat_inj.1 (by omega)
      rw [hbc, ih hrest]

/-- Parameters whose fields, apart from the selection, are short. -/
structure CacheKeyParams.Short (p : CacheKeyParams) : Prop where
  profile : p.profile.length ≤ 20
  selectionMode : p.selectionMode.length ≤ 20
  poolRevision : p.poolRevision < 2 ^ 64

theorem utf8Bytes_short {s : Str} (h : s.length ≤ 26) : (utf8Bytes s).length < 2 ^ 64 := by
  have := length_utf8Bytes_le s
  omega

/-- **The message of a key gives its parameters.** -/
theorem CacheKeyParams.message_injective {p q : CacheKeyParams} (hp : p.Short) (hq : q.Short)
    (h : p.message = q.message) : p = q := by
  have hmode : ∀ m : GenerationMode, m.asStr.length ≤ 26 := fun m => by cases m <;> decide
  have hversion : ∀ v : UInt64, (natText v.toNat).length ≤ 26 := fun v =>
    (length_natText_le v.toNat_lt).trans (by decide)
  have hrevision : ∀ {n : Nat}, n < 2 ^ 64 → (natText n).length ≤ 26 := fun hn =>
    (length_natText_le hn).trans (by decide)
  have hlast : ∀ {n : Nat}, n < 2 ^ 64 → (frame (utf8Bytes (natText n)) ++ []).length < 2 ^ 64 := by
    intro n hn
    have h1 := length_utf8Bytes_le (natText n)
    have h2 := hrevision hn
    rw [List.append_nil, frame, List.length_append, length_leBytes64]
    omega
  simp only [message, fields, List.flatMap_cons, List.flatMap_nil] at h
  obtain ⟨-, h⟩ := List.append_inj h rfl
  obtain ⟨hid, h⟩ := frame_append_inj h
    (.inl ⟨utf8Bytes_short (Ulid.length_text _).le, utf8Bytes_short (Ulid.length_text _).le⟩)
  obtain ⟨hver, h⟩ := frame_append_inj h
    (.inl ⟨utf8Bytes_short (hversion _), utf8Bytes_short (hversion _)⟩)
  obtain ⟨hprofile, h⟩ := frame_append_inj h
    (.inl ⟨utf8Bytes_short (hp.profile.trans (by decide)),
      utf8Bytes_short (hq.profile.trans (by decide))⟩)
  obtain ⟨hm, h⟩ := frame_append_inj h
    (.inl ⟨utf8Bytes_short (hmode _), utf8Bytes_short (hmode _)⟩)
  obtain ⟨hsel, h⟩ := frame_append_inj h
    (.inl ⟨utf8Bytes_short (hp.selectionMode.trans (by decide)),
      utf8Bytes_short (hq.selectionMode.trans (by decide))⟩)
  -- the selection may be of any length: what follows it is short
  obtain ⟨hpayload, h⟩ := frame_append_inj h
    (.inr ⟨hlast hp.poolRevision, hlast hq.poolRevision⟩)
  obtain ⟨hrev, -⟩ := frame_append_inj h (.inr ⟨by decide, by decide⟩)
  have hmodes : p.mode = q.mode := by
    have := congrArg GenerationMode.fromStr (utf8Bytes_injective hm)
    rw [GenerationMode.fromStr_asStr, GenerationMode.fromStr_asStr] at this
    exact Option.some.inj this
  cases p
  cases q
  simp only [mk.injEq]
  exact ⟨Ulid.text_injective (utf8Bytes_injective hid),
    UInt64.toNat_inj.1 (natText_injective (utf8Bytes_injective hver)), utf8Bytes_injective hprofile,
    hmodes, utf8Bytes_injective hsel, utf8Bytes_injective hpayload,
    natText_injective (utf8Bytes_injective hrev)⟩

/-- **A key gives its parameters**, with a digest without collisions. -/
theorem computeKey_injective {sha256 : List UInt8 → List UInt8} (hsha : Function.Injective sha256)
    {p q : CacheKeyParams} (hp : p.Short) (hq : q.Short)
    (h : p.computeKey sha256 = q.computeKey sha256) : p = q :=
  CacheKeyParams.message_injective hp hq (hsha (hexBytes_injective h))

/-- Parameters as the types of their fields allow them: texts below 2^64 bytes, and a revision of
    64 bits. -/
structure CacheKeyParams.Sized (p : CacheKeyParams) : Prop where
  profile : (utf8Bytes p.profile).length < 2 ^ 64
  selectionMode : (utf8Bytes p.selectionMode).length < 2 ^ 64
  selectionPayload : (utf8Bytes p.selectionPayload).length < 2 ^ 64
  poolRevision : p.poolRevision < 2 ^ 64

theorem CacheKeyParams.Sized.fields {p : CacheKeyParams} (hp : p.Sized) :
    ∀ f ∈ p.fields.map utf8Bytes, f.length < 2 ^ 64 := by
  have hmode : p.mode.asStr.length ≤ 26 := by cases p.mode <;> decide
  have hversion : (natText p.templateVersion.toNat).length ≤ 26 :=
    (length_natText_le p.templateVersion.toNat_lt).trans (by decide)
  have hrevision : (natText p.poolRevision).length ≤ 26 :=
    (length_natText_le hp.poolRevision).trans (by decide)
  intro f hf
  obtain ⟨field, hfield, rfl⟩ := List.mem_map.1 hf
  simp only [CacheKeyParams.fields, List.mem_cons, List.not_mem_nil, or_false] at hfield
  rcases hfield with rfl | rfl | rfl | rfl | rfl | rfl | rfl | rfl
  · exact utf8Bytes_short (by decide)
  · exact utf8Bytes_short (Ulid.length_text _).le
  · exact utf8Bytes_short hversion
  · exact hp.profile
  · exact utf8Bytes_short hmode
  · exact hp.selectionMode
  · exact hp.selectionPayload
  · exact utf8Bytes_short hrevision

/-- **What the hash is fed determines every parameter**, whatever the texts are. -/
theorem key_bytes_determine {p q : CacheKeyParams} (hp : p.Sized) (hq : q.Sized)
    (h : p.message = q.message) :
    p.templateId = q.templateId ∧ p.templateVersion = q.templateVersion ∧ p.profile = q.profile ∧
      p.mode = q.mode ∧ p.selectionMode = q.selectionMode ∧
      p.selectionPayload = q.selectionPayload ∧ p.poolRevision = q.poolRevision := by
  have hbytes : p.fields.map utf8Bytes = q.fields.map utf8Bytes := by
    refine frames_injective hp.fields hq.fields ?_
    rw [List.flatMap_map, List.flatMap_map]
    exact h
  have hfields : p.fields = q.fields := List.map_injective_iff.2 utf8Bytes_injective hbytes
  simp only [CacheKeyParams.fields, List.cons.injEq, and_true, true_and] at hfields
  obtain ⟨hid, hversion, hprofile, hmode, hselection, hpayload, hrevision⟩ := hfields
  refine ⟨Ulid.text_injective hid, UInt64.toNat_inj.1 (natText_injective hversion), hprofile, ?_,
    hselection, hpayload, natText_injective hrevision⟩
  have hread := congrArg GenerationMode.fromStr hmode
  rw [GenerationMode.fromStr_asStr, GenerationMode.fromStr_asStr] at hread
  exact Option.some.inj hread

/-- Parameters that differ at most in the two texts of the selection. -/
def framedParams (selectionMode selectionPayload : Str) : CacheKeyParams :=
  ⟨1, 2, "mihomo", .strict, selectionMode, selectionPayload, 3⟩

theorem framedParams_sized {m s : Str} (hm : m.length ≤ 26) (hs : s.length ≤ 26) :
    (framedParams m s).Sized := by
  have hprofile : ("mihomo" : Str).length ≤ 26 := by decide
  have hrevision : 3 < 2 ^ 64 := by decide
  exact ⟨utf8Bytes_short hprofile, utf8Bytes_short hm, utf8Bytes_short hs, hrevision⟩

theorem key_bytes_determine_framed :
    (framedParams "" "fixed").message ≠ (framedParams "fixed" "").message ∧
      (framedParams "fixed" "").mode = .strict := by
  have hp : (framedParams "" "fixed").Sized := framedParams_sized (by decide) (by decide)
  have hq : (framedParams "fixed" "").Sized := framedParams_sized (by decide) (by decide)
  refine ⟨fun h => ?_, (key_bytes_determine hq hq rfl).2.2.2.1.trans rfl⟩
  exact absurd (key_bytes_determine hp hq h).2.2.2.2.1 (by decide)

/-! ## 3. Selections -/

theorem FilterField.text_injective : Function.Injective FilterField.text := by
  intro a b h
  cases a <;> cases b <;> first | rfl | exact absurd h (by decide)

theorem SelectionMode.text_injective : Function.Injective SelectionMode.text := by
  intro a b h
  cases a <;> cases b <;> first | rfl | exact absurd h (by decide)

theorem NodeSelector.canonical_json (s : NodeSelector) : Json.Canonical some s.json := by
  have hfilters : Json.CanonicalItems some (s.filters.map fun r =>
      .obj [("field", .str r.field.text), ("value", .str r.value)]) := by
    refine (Json.canonicalItems_iff some).2 fun x hx => ?_
    obtain ⟨r, -, rfl⟩ := List.mem_map.1 hx
    exact ⟨show ["field".toList, "value".toList].Nodup by decide, trivial, trivial, trivial⟩
  have hids : Json.CanonicalItems some (s.nodeIds.map fun id => .str id.text) := by
    refine (Json.canonicalItems_iff some).2 fun x hx => ?_
    obtain ⟨id, -, rfl⟩ := List.mem_map.1 hx
    trivial
  exact ⟨show ["mode".toList, "filters".toList, "nodeIds".toList, "nodeRevision".toList].Nodup by
    decide, trivial, hfilters, hids, trivial, trivial⟩

/-- **The text of a selector gives the selector.** -/
theorem NodeSelector.text_json_injective {s t : NodeSelector} (h : s.json.text = t.json.text) :
    s = t := by
  have hjson := Json.text_injective some s.canonical_json t.canonical_json h
  simp only [json, Json.obj.injEq, List.cons.injEq, Prod.mk.injEq, Json.str.injEq, Json.arr.injEq,
    Json.num.injEq, JsonNumber.posInt.injEq, true_and, and_true] at hjson
  obtain ⟨hmode, hfilters, hids, hrev⟩ := hjson
  have hrule : Function.Injective fun r : NodeFilterRule =>
      Json.obj [("field", .str r.field.text), ("value", .str r.value)] := by
    intro a b hab
    simp only [Json.obj.injEq, List.cons.injEq, Prod.mk.injEq, Json.str.injEq, true_and,
      and_true] at hab
    cases a
    cases b
    simp only [NodeFilterRule.mk.injEq]
    exact ⟨FilterField.text_injective hab.1, hab.2⟩
  have hid : Function.Injective fun id : NodeId => Json.str id.text := fun a b hab =>
    Ulid.text_injective (Json.str.inj hab)
  cases s
  cases t
  simp only [mk.injEq]
  exact ⟨SelectionMode.text_injective hmode, hrule.list_map hfilters, hid.list_map hids, hrev⟩

/-! ## 4. Requests with one key -/

section Requests

variable {E : Engine} {W : World}

/-- What a context pins down of a request. -/
theorem Context.scope_parts {request : GenerationRequest} {ctx : GenerationContext}
    {scope : RequestScope} (h : Context E W request ctx scope) :
    E.parseTemplateDocument scope.version.specYaml = .ok scope.spec ∧
      request.profile = scope.profile.asKebab := by
  obtain ⟨v, hv, hs⟩ := bind_eq_ok.1 h.scope_eq
  obtain rfl := Option.some.inj (okOr_eq_ok.1 hv)
  obtain ⟨spec, hspec, hs⟩ := bind_eq_ok.1 hs
  obtain ⟨profile, hprofile, hs⟩ := bind_eq_ok.1 hs
  obtain ⟨-, -, hs⟩ := bind_eq_ok.1 hs
  have hscope := Except.ok.inj hs
  rw [← hscope]
  exact ⟨hspec, ProfileKind.fromKebab_eq_some.1 (okOr_eq_ok.1 hprofile)⟩

theorem Context.short {request : GenerationRequest} {ctx : GenerationContext}
    {scope : RequestScope} (h : Context E W request ctx scope) {revision : Nat}
    (hrev : revision < 2 ^ 64) : (scope.keyParams request revision).Short where
  profile := by
    show request.profile.length ≤ 20
    rw [h.scope_parts.2]
    cases scope.profile <;> decide
  selectionMode := by
    show (scope.selector request).mode.text.length ≤ 20
    cases (scope.selector request).mode <;> decide
  poolRevision := hrev

/-- The pipeline reads the override of a request only where it replaces the template's own. -/
theorem runPipeline_selection {version : TemplateVersion} {spec : TemplateSpec}
    (hspec : E.parseTemplateDocument version.specYaml = .ok spec) (profile : ProfileKind)
    (mode : GenerationMode) (selection : Option NodeSelector) :
    runPipeline E version profile mode selection =
      runPipeline E version profile mode (some (selection.getD spec.nodeSelector)) := by
  unfold runPipeline
  rw [hspec]
  rfl

/-- **Requests with one key have one output.** -/
theorem pipelineOn_congr {r₁ r₂ : GenerationRequest} {c₁ c₂ : GenerationContext}
    {s₁ s₂ : RequestScope} {rev₁ rev₂ : Nat} (h₁ : Context E W r₁ c₁ s₁) (h₂ : Context E W r₂ c₂ s₂)
    (hkey : s₁.keyParams r₁ rev₁ = s₂.keyParams r₂ rev₂) (pool : List NodePoolEntry) :
    rev₁ = rev₂ ∧ pipelineOn E r₁ s₁ pool = pipelineOn E r₂ s₂ pool := by
  simp only [RequestScope.keyParams, CacheKeyParams.mk.injEq] at hkey
  obtain ⟨hid, hversion, hprofile, hmode, -, hpayload, hrev⟩ := hkey
  have hv : s₁.version = s₂.version := by
    have := h₁.version_eq
    rw [hid, hversion, h₂.version_eq] at this
    exact (Option.some.inj this).symm
  have hp : s₁.profile = s₂.profile := by
    have := ProfileKind.fromKebab_eq_some.2 h₁.scope_parts.2
    rw [hprofile, ProfileKind.fromKebab_eq_some.2 h₂.scope_parts.2] at this
    exact (Option.some.inj this).symm
  have hselector : s₁.selector r₁ = s₂.selector r₂ := NodeSelector.text_json_injective hpayload
  refine ⟨hrev, ?_⟩
  unfold pipelineOn
  rw [runPipeline_selection h₁.scope_parts.1, runPipeline_selection h₂.scope_parts.1 s₂.profile]
  show (runPipeline E s₁.version s₁.profile r₁.mode (some (s₁.selector r₁))).on pool =
    (runPipeline E s₂.version s₂.profile r₂.mode (some (s₂.selector r₂))).on pool
  rw [hv, hp, hmode, hselector]

end Requests

/-! ## 5. Runs -/

section Runs

variable {ι : Type}

/-- A hit: the key that was looked up, and the entry that was found. -/
def hit : CallEvent ι → Option (Str × CacheEntry)
  | ⟨_, .findByKey key, .ok (some x), _, _⟩ => some (key, x)
  | _ => none

theorem hit_eq_some {e : CallEvent ι} {key : Str} {x : CacheEntry}
    (h : hit e = some (key, x)) :
    (⟨e.call, e.reply⟩ : (c : Call) × c.Reply) = ⟨.findByKey key, .ok (some x)⟩ := by
  unfold hit at h
  split at h
  · obtain ⟨rfl, rfl⟩ := Prod.mk.inj (Option.some.inj h)
    rfl
  · cases h

/-- What a hit found was stored under its key. -/
theorem hit_mem {W : World} {e : CallEvent ι} {key : Str} {x : CacheEntry}
    (hs : ports W e.call e.before e.reply e.after) (h : hit e = some (key, x)) :
    x ∈ e.before.cache ∧ x.cacheKey = key := by
  obtain ⟨i, c, a, before, after⟩ := e
  cases hit_eq_some h
  obtain ⟨hmem, hkey, -⟩ := GenerationCache.findByKey_eq_some (Reads.value hs).symm
  exact ⟨hmem, hkey⟩

/-- A revision that a client has read is one of the pool's. -/
theorem lt_of_revision_read [DecidableEq ι] {E : Engine} {W : World} {db : Db}
    {clients : ι → Client} {es : Trace ι} {c : Config Call.Reply Db ι Outcome}
    (h : Run (ports W) (system E db clients) es c) {i : ι} {r : Nat}
    (hr : ⟨.getRevision, .ok r⟩ ∈ own i es) : r < 2 ^ 64 := by
  obtain ⟨⟨j, op, a, before, after⟩, hg, -, heq⟩ := mem_own.1 hr
  cases heq
  have hval : r = before.revision := Reads.value (h.sem_of_mem hg)
  rw [hval]
  exact before.poolMeta.fits.trans (by decide)

/-- **What is found under a key was made from its parameters.** -/
theorem found_params {E : Engine} {W : World} {db : Db} (hsha : Function.Injective E.sha256)
    (hmade : CacheMade E W db) {x : CacheEntry} (hx : x ∈ db.cache) {request : GenerationRequest}
    {ctx : GenerationContext} {scope : RequestScope} (hkey : x.cacheKey = ctx.cacheKey)
    (hctx : Context E W request ctx scope) (hrev : ctx.poolRevision < 2 ^ 64) :
    ∃ request' scope' ctx', Generated E W db x request' scope' ctx' ∧
      x.poolRevision = ctx'.poolRevision ∧
      scope.keyParams request ctx.poolRevision = scope'.keyParams request' ctx'.poolRevision := by
  obtain ⟨request', scope', ctx', hgen⟩ := hmade x hx
  have hxkey : x.cacheKey = ctx'.cacheKey := congrArg CacheEntry.cacheKey hgen.entry
  have hxrev : x.poolRevision = ctx'.poolRevision := congrArg CacheEntry.poolRevision hgen.entry
  have hrev' : ctx'.poolRevision < 2 ^ 64 := by
    rw [← hxrev]
    exact (hgen.revision_le.trans_lt db.poolMeta.fits).trans (by decide)
  refine ⟨request', scope', ctx', hgen, hxrev, ?_⟩
  refine computeKey_injective hsha (hctx.short hrev) (hgen.context.short hrev') ?_
  rw [← hctx.parts.2.2.1, ← hgen.context.parts.2.2.1, ← hxkey, hkey]

/-- **A cache hit is current.** A client that found an entry under its key returns the content
    of the entry; and if the revision in the key is that of the pool at the moment of the hit,
    that is what the pipeline answers for its request on the pool as it stands. -/
theorem cache_hit_is_current [DecidableEq ι] {E : Engine} {W : World} {db : Db}
    {clients : ι → Client} {es : Trace ι} {c : Config Call.Reply Db ι Outcome}
    (hsha : Function.Injective E.sha256) (h0 : CacheMade E W db)
    (h : Run (ports W) (system E db clients) es c) {e : CallEvent ι} (he : e ∈ es)
    {request : GenerationRequest} (hclient : (clients e.thread).request = some request)
    {key : Str} {x : CacheEntry} (hhit : hit e = some (key, x)) :
    ∃ (scope : RequestScope) (revision : Nat),
      W.versions request.templateId scope.version.version = some scope.version ∧
      scopeOf E request (some scope.version) = .ok scope ∧
      key = (scope.keyParams request revision).computeKey E.sha256 ∧
      (revision = e.before.revision →
        ∃ result, pipelineOn E request scope (NodePool.entries e.before) = .ok result ∧
          result.content = x.content) ∧
      ∀ r, c.threads e.thread = .done (.generation (.ok r)) → r.content = x.content := by
  obtain ⟨pre, post, hes⟩ := List.append_of_mem he
  obtain ⟨hmem, hxkey⟩ := hit_mem (h.sem_of_mem he) hhit
  -- the client's own context
  have hpromise := system_promises h hes
  rw [show e.call = .findByKey key from congrArg Sigma.fst (hit_eq_some hhit)] at hpromise
  obtain ⟨ctx, scope, hresolved, rfl⟩ := hpromise request hclient
  have hkey := hresolved.context.parts.2.2.1
  have hrev : ctx.poolRevision < 2 ^ 64 := by
    obtain ⟨c', hrun, -⟩ := h.upTo hes
    exact lt_of_revision_read hrun hresolved.read
  -- and the one the entry was made from
  obtain ⟨request', scope', ctx', hgen, hxrev, hparams⟩ :=
    found_params hsha (system_cacheMade h h0 he) hmem hxkey hresolved.context hrev
  obtain ⟨hsame, hpipe⟩ :=
    pipelineOn_congr hresolved.context hgen.context hparams (NodePool.entries e.before)
  refine ⟨scope, ctx.poolRevision, hresolved.context.version_eq, hresolved.context.scope_eq, hkey,
    fun hcur => ?_, fun r hdone => ?_⟩
  · rw [hpipe]
    exact hgen.coherent (hxrev.trans (hsame.symm.trans hcur))
  · exact system_ends h hdone r rfl ctx.cacheKey x (mem_own.2 ⟨e, he, rfl, hit_eq_some hhit⟩)

end Runs

/-- A client that imports a node. -/
def importOne : Client :=
  .other (do
    let _ ← Program.perform (.write (.importNodes [.plain 5]))
    pure ()) ⟨rfl, fun _ => trivial⟩

/-- A client imports a node, then two clients generate the same output. -/
def hitClients : Fin 3 → Client
  | 0 => importOne
  | _ => .generate .plain

/-- The trace of these clients, one after the other. -/
def hitTrace : Trace (Fin 3) :=
  (execute Engine.plain Db.empty hitClients
    (([0] ++ List.replicate 10 1 ++ List.replicate 4 2 : List (Fin 3)).map fun i =>
      (i, Outside.plain 3))).1

theorem cache_hit_is_current_trace : ∃ e ∈ hitTrace, ∃ key x scope revision,
    hit e = some (key, x) ∧
    key = (scope.keyParams .plain revision).computeKey Engine.plain.sha256 ∧
    (revision = e.before.revision → ∃ result,
      pipelineOn Engine.plain .plain scope (NodePool.entries e.before) = .ok result ∧
        result.content = x.content) := by
  have hany : hitTrace.any (fun e => (hit e).isSome && decide (e.thread = 2)) = true := by
    decide +kernel
  obtain ⟨e, he, hhit⟩ := List.any_eq_true.1 hany
  simp only [Bool.and_eq_true, decide_eq_true_eq] at hhit
  obtain ⟨⟨key, x⟩, hx⟩ := Option.isSome_iff_exists.1 hhit.1
  have hclient : (hitClients e.thread).request = some .plain := by rw [hhit.2]; rfl
  obtain ⟨scope, revision, -, -, hkey, hcur, -⟩ := cache_hit_is_current (W := World.plain)
    Function.injective_id (fun r hr => absurd hr (Table.not_mem_empty r)) (run_execute ..) he hclient hx
  exact ⟨e, he, key, x, scope, revision, hx, hkey, hcur⟩

end DeveSub
