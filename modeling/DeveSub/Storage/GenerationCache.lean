/-
  File:      DeveSub/Storage/GenerationCache.lean
  Subject:   The generation cache repository (`generation_cache_repository.rs`): three reads, a
             store with retention, and the atomic publication of an entry.

  Every read is filtered by the withdrawal floor, and both writes are refused below it:

  * `findByKey_eq_some`, `findActive_eq_some`, `findLatest_eq_some` -- what a read returns is at
    or above the floor;
  * `store_refused`, `activate_refused` -- a write of an older generation fails;
  * `store_eq_ok`, `activate_eq_ok` -- what the successful writes change.
-/
import Mathlib.Data.List.MinMax
import Mathlib.Data.List.Sort
import DeveSub.Storage.Schema

namespace DeveSub.GenerationCache

/-! ## 1. Reads -/

/-- `find_by_key`. -/
def findByKey (db : Db) (cacheKey : Str) : Option CacheEntry :=
  db.cache.rows.find? fun r => r.cacheKey = cacheKey && db.floor ≤ r.poolRevision

/-- `find_active`. -/
def findActive (db : Db) (templateId : TemplateId) (profile : Str) : Option CacheEntry :=
  db.cache.rows.find? fun r => r.templateId = templateId && r.profile = profile && r.isActive &&
    db.floor ≤ r.poolRevision

/-- What `find_latest` is asked for. -/
structure Shape where
  templateId : TemplateId
  profile : Str
  selectionMode : Str
  selectionPayload : Str
  versionPin : Option UInt64
  mode : Str

/-- The `WHERE` of `find_latest`: an absent pin matches every version. -/
def Shape.matches (shape : Shape) (floor : Nat) (r : CacheEntry) : Bool :=
  r.templateId = shape.templateId && r.profile = shape.profile &&
    r.selectionMode = shape.selectionMode && r.selectionPayload = shape.selectionPayload &&
    (shape.versionPin = none || shape.versionPin = some r.templateVersion) &&
    r.mode = shape.mode && floor ≤ r.poolRevision

/-- `find_latest`: `ORDER BY id DESC LIMIT 1`. -/
def findLatest (db : Db) (shape : Shape) : Option CacheEntry :=
  (db.cache.rows.filter (shape.matches db.floor)).argmax CacheEntry.id

/-! ## 2. Store -/

/-- `INACTIVE_RETAIN`. -/
def inactiveRetain : Nat := 8

/-- The entry a subscription's delivery would fall back on. -/
def lastGood (floor : Nat) (cache : Table CacheEntry) (s : SubscriptionRow) : Option CacheEntry :=
  (cache.rows.filter fun c => c.templateId = s.templateId && c.profile = s.profile &&
    c.selectionPayload = s.nodeSelection && c.mode = "lenient".toList &&
    (s.templateVersionPin = none || s.templateVersionPin = some c.templateVersion) &&
    floor ≤ c.poolRevision).argmax CacheEntry.id

/-- `protected(id)`: the last good entry of every subscription of the template and profile. -/
def protectedIds (floor : Nat) (subscriptions : Table SubscriptionRow) (cache : Table CacheEntry)
    (templateId : TemplateId) (profile : Str) : List CacheId :=
  (subscriptions.rows.filter fun s => s.templateId = templateId && s.profile = profile).filterMap
    fun s => (lastGood floor cache s).map CacheEntry.id

/-- The inactive entries past the newest eight that nothing protects. -/
def expiredIds (floor : Nat) (subscriptions : Table SubscriptionRow) (cache : Table CacheEntry)
    (templateId : TemplateId) (profile : Str) : List CacheId :=
  let kept := protectedIds floor subscriptions cache templateId profile
  (((cache.rows.filter fun r => r.templateId = templateId && r.profile = profile && !r.isActive &&
    !kept.contains r.id).insertionSort fun a b => b.id ≤ a.id).drop inactiveRetain).map CacheEntry.id

/-- The retention `DELETE` at the end of `store`. -/
def prune (floor : Nat) (subscriptions : Table SubscriptionRow) (cache : Table CacheEntry)
    (templateId : TemplateId) (profile : Str) : Table CacheEntry :=
  let expired := expiredIds floor subscriptions cache templateId profile
  cache.delete fun r => expired.contains r.id

/-- What a violated `UNIQUE` answers. -/
def uniqueViolation (column : Str) : TemplateError :=
  .storage ("UNIQUE constraint failed: generation_cache.".toList ++ column)

/-- The unique indexes of the table besides its primary key: the key of an entry, and one active
    entry for a template and profile. -/
def violates (cache : Table CacheEntry) (entry : CacheEntry) : Bool :=
  cache.rows.any fun r => r.cacheKey = entry.cacheKey ||
    (entry.isActive && r.isActive && r.templateId = entry.templateId && r.profile = entry.profile)

/-- `store`. -/
def store (entry : CacheEntry) : Tx Db TemplateError Unit := fun db =>
  -- The floor is checked by the INSERT itself, before any constraint.
  if entry.poolRevision < db.floor then .error .cacheInvalidated
  else if violates db.cache entry then .error (uniqueViolation "cache_key")
  else match db.cache.insert entry with
    | none => .error (uniqueViolation "id")
    | some cache =>
      .ok ((), { db with
        cache := prune db.floor db.subscriptions cache entry.templateId entry.profile })

/-! ## 3. Activation -/

/-- The active entry of a template and profile. -/
def isActiveFor (templateId : TemplateId) (profile : Str) (r : CacheEntry) : Bool :=
  r.templateId = templateId && r.profile = profile && r.isActive

/-- The entry `activate` may publish. -/
def publishable (floor : Nat) (templateId : TemplateId) (profile : Str) (newId : CacheId)
    (r : CacheEntry) : Bool :=
  r.id = newId && r.templateId = templateId && r.profile = profile && floor ≤ r.poolRevision

/-- The first `UPDATE` of `activate`. -/
def deactivate (cache : Table CacheEntry) (templateId : TemplateId) (profile : Str) :
    Table CacheEntry :=
  cache.update (isActiveFor templateId profile) (fun r => { r with isActive := false })
    fun _ => rfl

/-- The second `UPDATE` of `activate`. -/
def publish (cache : Table CacheEntry) (chosen : CacheEntry → Bool) : Table CacheEntry :=
  cache.update chosen (fun r => { r with isActive := true }) fun _ => rfl

/-- `activate`. -/
def activate (templateId : TemplateId) (profile : Str) (newId : CacheId) :
    Tx Db TemplateError Unit := fun db =>
  let cleared := deactivate db.cache templateId profile
  let chosen := publishable db.floor templateId profile newId
  if cleared.rows.any chosen then .ok ((), { db with cache := publish cleared chosen })
  else .error .cacheInvalidated

/-! ## 4. What a read returns -/

theorem findByKey_eq_some {db : Db} {key : Str} {r : CacheEntry} (h : findByKey db key = some r) :
    r ∈ db.cache ∧ r.cacheKey = key ∧ db.floor ≤ r.poolRevision := by
  have hp := List.find?_some h
  simp only [Bool.and_eq_true, decide_eq_true_eq] at hp
  exact ⟨List.mem_of_find?_eq_some h, hp.1, hp.2⟩

theorem findActive_eq_some {db : Db} {t : TemplateId} {p : Str} {r : CacheEntry}
    (h : findActive db t p = some r) :
    r ∈ db.cache ∧ isActiveFor t p r = true ∧ db.floor ≤ r.poolRevision := by
  have hp := List.find?_some h
  rw [Bool.and_eq_true, decide_eq_true_eq] at hp
  exact ⟨List.mem_of_find?_eq_some h, hp.1, hp.2⟩

theorem Shape.floor_le {shape : Shape} {floor : Nat} {r : CacheEntry}
    (h : shape.matches floor r = true) : floor ≤ r.poolRevision := by
  unfold Shape.matches at h
  rw [Bool.and_eq_true, decide_eq_true_eq] at h
  exact h.2

theorem findLatest_eq_some {db : Db} {shape : Shape} {r : CacheEntry}
    (h : findLatest db shape = some r) :
    r ∈ db.cache ∧ shape.matches db.floor r = true ∧
      ∀ x ∈ db.cache, shape.matches db.floor x = true → x.id ≤ r.id := by
  have hmem := List.mem_filter.1 (List.argmax_mem h)
  refine ⟨hmem.1, hmem.2, fun x hx hmatch => ?_⟩
  exact List.le_of_mem_argmax (List.mem_filter.2 ⟨hx, hmatch⟩) h

/-! ## 5. What the writes do -/

/-- **A generation from before the floor is not stored.** -/
theorem store_refused {db : Db} {e : CacheEntry} (h : e.poolRevision < db.floor) :
    store e db = .error .cacheInvalidated := by
  simp [store, h]

/-- **A stored generation is new, at or above the floor, and only expired entries go.** -/
theorem store_eq_ok {db db' : Db} {e : CacheEntry} (h : store e db = .ok ((), db')) :
    ∃ cache, db.floor ≤ e.poolRevision ∧
      (∀ r ∈ db.cache, r.cacheKey ≠ e.cacheKey ∧ r.id ≠ e.id) ∧
      (∀ r ∈ cache, r ∈ db.cache ∨ r = e) ∧ db' = { db with cache } := by
  unfold store at h
  split at h
  · cases h
  rename_i hfloor
  split at h
  · cases h
  rename_i hfree
  split at h
  · cases h
  rename_i cache hins
  obtain ⟨-, rfl⟩ := ok_pair_inj h
  have hkey : ∀ r ∈ db.cache, r.cacheKey ≠ e.cacheKey := by
    intro r hr hk
    exact hfree (List.any_eq_true.2 ⟨r, hr, by simp [hk]⟩)
  refine ⟨_, Nat.le_of_not_lt hfloor, fun r hr => ⟨hkey r hr, Table.key_ne_of_insert hins hr⟩,
    fun r hr => ?_, rfl⟩
  exact (Table.mem_insert hins).1 (Table.mem_delete.1 hr).1

/-- A row up to whether it is active. -/
def inactive (r : CacheEntry) : CacheEntry := { r with isActive := false }

/-- The two updates of `activate` write no other column. -/
theorem mem_publish {cache : Table CacheEntry} {t : TemplateId} {p : Str} {chosen : CacheEntry → Bool}
    {r : CacheEntry} (h : r ∈ publish (deactivate cache t p) chosen) :
    ∃ x ∈ cache, inactive r = inactive x ∧
      (r.isActive = true → chosen (inactive x) = true ∨ chosen x = true ∨
        x.isActive = true ∧ isActiveFor t p x = false) := by
  obtain ⟨y, hy, rfl⟩ := Table.mem_update.1 h
  obtain ⟨x, hx, rfl⟩ := Table.mem_update.1 hy
  refine ⟨x, hx, ?_⟩
  by_cases hact : isActiveFor t p x
  · by_cases hc : chosen { x with isActive := false } <;> simp [hact, hc, inactive]
  · rw [Bool.not_eq_true] at hact
    by_cases hc : chosen x
    · simp [hact, hc, inactive]
    · simp only [hact, Bool.false_eq_true, if_false, hc]
      exact ⟨trivial, fun hr => .inr (.inr ⟨hr, trivial⟩)⟩

/-- **A published generation is at or above the floor**, and the rows change only in whether
    they are active. -/
theorem activate_eq_ok {db db' : Db} {t : TemplateId} {p : Str} {newId : CacheId}
    (h : activate t p newId db = .ok ((), db')) :
    ∃ cache, (∃ x ∈ db.cache, publishable db.floor t p newId x = true) ∧
      (∀ r ∈ cache, ∃ x ∈ db.cache, inactive r = inactive x ∧
        (r.isActive = true → publishable db.floor t p newId x = true ∨
          x.isActive = true ∧ isActiveFor t p x = false)) ∧
      db' = { db with cache } := by
  have hsame : ∀ x, publishable db.floor t p newId (inactive x) =
      publishable db.floor t p newId x := fun _ => rfl
  unfold activate at h
  simp only at h
  split at h
  · rename_i hany
    obtain ⟨-, rfl⟩ := ok_pair_inj h
    refine ⟨_, ?_, fun r hr => ?_, rfl⟩
    · obtain ⟨y, hy, hpub⟩ := List.any_eq_true.1 hany
      obtain ⟨x, hx, rfl⟩ := Table.mem_update.1 (show y ∈ deactivate db.cache t p from hy)
      refine ⟨x, hx, ?_⟩
      split at hpub
      · exact hpub
      · exact hpub
    · obtain ⟨x, hx, hrow, hact⟩ := mem_publish hr
      refine ⟨x, hx, hrow, fun hr => ?_⟩
      rcases hact hr with h | h | h
      · exact .inl (hsame x ▸ h)
      · exact .inl h
      · exact .inr h
  · cases h

/-- **A generation from before the floor is not published**, whatever else the cache holds. -/
theorem activate_refused {db : Db} {t : TemplateId} {p : Str} {newId : CacheId}
    (h : ∀ r ∈ db.cache, r.id = newId → r.poolRevision < db.floor) :
    activate t p newId db = .error .cacheInvalidated := by
  have hnone : (deactivate db.cache t p).rows.any (publishable db.floor t p newId) = false := by
    rw [List.any_eq_false]
    intro r hr hpub
    obtain ⟨x, hx, rfl⟩ := Table.mem_update.1 (show r ∈ deactivate db.cache t p from hr)
    simp only [publishable, Bool.and_eq_true, decide_eq_true_eq] at hpub
    obtain ⟨⟨⟨hid, -⟩, -⟩, hfloor⟩ := hpub
    have hsame : (if isActiveFor t p x then { x with isActive := false } else x).id = x.id ∧
        (if isActiveFor t p x then { x with isActive := false } else x).poolRevision =
          x.poolRevision := by
      split <;> exact ⟨rfl, rfl⟩
    rw [hsame.2] at hfloor
    exact absurd (h x hx (hsame.1 ▸ hid)) (Nat.not_lt.2 hfloor)
  simp [activate, hnone]

end DeveSub.GenerationCache
