/-
  File:      DeveSub/Properties/OneActive.lean
  Subject:   The published entry of a template and profile is one, and it is what a read finds.

  Nothing but the two updates of `activate` and the unique indexes that `store` runs into keeps
  it so. The programs that make the calls, and their order, do not matter:

  * `store_unique`, `activate_unique` -- one call;
  * **`one_active_entry`** -- a run.
-/
import DeveSub.Properties.CacheCoherence

namespace DeveSub

open GenerationCache

variable {W : World}

/-- The unique indexes of the cache. -/
structure CacheUnique (db : Db) : Prop where
  active : ∀ a ∈ db.cache, ∀ b ∈ db.cache, a.isActive = true → b.isActive = true →
    a.templateId = b.templateId → a.profile = b.profile → a = b
  keys : ∀ a ∈ db.cache, ∀ b ∈ db.cache, a.cacheKey = b.cacheKey → a = b

theorem store_unique {db db' : Db} {e : CacheEntry} (h : store e db = .ok ((), db'))
    (hu : CacheUnique db) : CacheUnique db' := by
  have hfree : ∀ r ∈ db.cache, r.cacheKey ≠ e.cacheKey ∧ (e.isActive = true → r.isActive = true →
      r.templateId = e.templateId → r.profile ≠ e.profile) := by
    intro r hr
    unfold store at h
    split at h
    · cases h
    split at h
    · cases h
    rename_i hviolates
    have hr := mt (fun hr' => List.any_eq_true.2 ⟨r, hr, hr'⟩) hviolates
    simpa [and_assoc] using hr
  obtain ⟨cache, -, -, hrows, rfl⟩ := store_eq_ok h
  have hactive := hu.active
  have hkeys := hu.keys
  constructor <;> grind

theorem activate_unique {db db' : Db} {t : TemplateId} {p : Str} {id : CacheId}
    (h : activate t p id db = .ok ((), db')) (hu : CacheUnique db) : CacheUnique db' := by
  obtain ⟨cache, -, hrows, rfl⟩ := activate_eq_ok h
  have hid : ∀ a ∈ cache, ∀ b ∈ cache, a.id = b.id → a = b := fun a ha b hb => Table.eq_of_key ha hb
  have hactive := hu.active
  have hkeys := hu.keys
  simp only [inactive, CacheEntry.mk.injEq] at hrows
  simp only [publishable, isActiveFor, Bool.and_eq_true, decide_eq_true_eq, Bool.and_eq_false_iff,
    decide_eq_false_iff_not] at hrows
  constructor
  · intro a ha b hb
    obtain ⟨x, hx, hax, hxa⟩ := hrows a ha
    obtain ⟨y, hy, hby, hyb⟩ := hrows b hb
    grind
  · intro a ha b hb
    obtain ⟨x, hx, hax, -⟩ := hrows a ha
    obtain ⟨y, hy, hby, -⟩ := hrows b hb
    grind

/-- **One active entry.** In every state of every run of any programs a template and profile
    have at most one active entry, keys are unique, and the active entry is the one a read
    returns unless a withdrawal has passed it. -/
theorem one_active_entry {ι ρ : Type} [DecidableEq ι] {start c : Config Call.Reply Db ι ρ}
    {es : Trace ι} (h : Run (ports W) start es c)
    (h0 : CacheUnique start.store) : CacheUnique c.store ∧ ∀ t p x, x ∈ c.store.cache →
      isActiveFor t p x = true → c.store.floor ≤ x.poolRevision →
      findActive c.store t p = some x := by
  have hu : CacheUnique c.store := by
    refine h.always (fun op db a db' hu hs => ?_) h0
    have hfewer : (∀ r ∈ db'.cache, r ∈ db.cache) → CacheUnique db' := fun hsub =>
      ⟨fun a ha b hb => hu.active a (hsub a ha) b (hsub b hb),
        fun a ha b hb => hu.keys a (hsub a ha) b (hsub b hb)⟩
    cases ports_change hs with
    | none => exact hu
    | store h => exact store_unique h hu
    | activate h => exact activate_unique h hu
    | write h =>
      have hsame := (Write.run_pool h).elim PoolKept.cache PoolBumped.cache
      exact hfewer fun r hr => hsame ▸ hr
    | setSubscriptions => exact hfewer fun r hr => hr
    | deleteTemplate => exact hfewer fun r hr => (Table.mem_delete.1 hr).1
  refine ⟨hu, fun t p x hx hact hfloor => ?_⟩
  cases hfind : findActive c.store t p with
  | none => exact absurd (List.find?_eq_none.1 hfind x hx) (by
      rw [not_not, Bool.and_eq_true, decide_eq_true_eq]; exact ⟨hact, hfloor⟩)
  | some y =>
    obtain ⟨hy, hact', -⟩ := findActive_eq_some hfind
    simp only [isActiveFor, Bool.and_eq_true, decide_eq_true_eq] at hact hact'
    rw [hu.active y hy x hx hact'.2 hact.2 (hact'.1.1.trans hact.1.1.symm)
      (hact'.1.2.trans hact.1.2.symm)]

theorem cacheUnique_empty : CacheUnique Db.empty :=
  ⟨fun a ha => absurd ha (Table.not_mem_empty a), fun a ha => absurd ha (Table.not_mem_empty a)⟩

theorem one_active_entry_hit : ∃ c, CacheUnique c.store ∧
    Run (ports World.plain) (system Engine.plain Db.empty hitClients) hitTrace c :=
  ⟨_, (one_active_entry (run_execute ..) cacheUnique_empty).1, run_execute ..⟩

end DeveSub
