/-
  File:      DeveSub/Application/PoolEvolution.lean
  Subject:   How the calls move the pool: the revision and the floor only rise, and while the
             revision stands still every query of the pool is answered alike.

  * `Write.run_pool` -- a committed write bumps the revision once, or leaves the revision, the
    floor and every entry as they were; neither touches the generation cache;
  * `Advance`, `ports_advance` -- the preorder every call moves the database along.
-/
import DeveSub.Application.Ports

namespace DeveSub

/-! ## 1. What the entries depend on -/

namespace NodePool

/-- The entries are read from the nodes, their overrides, labels and tags. -/
theorem entries_congr {db db' : Db} (hnodes : db'.nodes = db.nodes)
    (hoverrides : db'.overrides = db.overrides)
    (hlabel : ∀ n, effectiveLabel db' n = effectiveLabel db n)
    (htags : ∀ id, tagsOf db' id = tagsOf db id) : entries db' = entries db := by
  unfold entries
  rw [hnodes]
  refine List.map_congr_left fun n _ => ?_
  simp only [toPoolEntry, isActive, effectiveRegion, hoverrides, hlabel, htags]

/-- The source that stands first when the rows are rewritten, keys kept. -/
theorem argmin_map {α β : Type} [LinearOrder β] (f : α → α) (k : α → β)
    (hk : ∀ a, k (f a) = k a) (l : List α) : (l.map f).argmin k = (l.argmin k).map f := by
  induction l using List.reverseRecOn with
  | nil => rfl
  | append_singleton l a ih =>
    rw [List.map_append, List.map_singleton, List.argmin_concat, List.argmin_concat, ih]
    cases l.argmin k with
    | none => rfl
    | some c =>
      show (if k (f a) < k (f c) then some (f a) else some (f c)) =
        Option.map f (if k a < k c then some a else some c)
      rw [hk, hk]
      split <;> rfl

/-- A change of the sources that keeps ids and names changes no label. -/
theorem effectiveLabel_update {db : Db} (p : Source → Bool) (f : Source → Source)
    (hid : ∀ s, (f s).id = s.id) (hname : ∀ s, (f s).name = s.name)
    (h : ∀ s ∈ db.sources, ∃ x ∈ db.sources.update p f hid, x.id = s.id) (n : NodeRow) :
    effectiveLabel (db.withSources (db.sources.update p f hid) h) n = effectiveLabel db n := by
  have hstep : ∀ s : Source, (if p s then f s else s).id = s.id := by
    intro s
    by_cases hp : p s <;> simp [hp, hid]
  have hrows : ((db.sources.update p f hid).rows.filter
      fun s => Sources.boundTo db.bindings n.id s.id) =
      (db.sources.rows.filter fun s => Sources.boundTo db.bindings n.id s.id).map
        fun s => if p s then f s else s := by
    rw [Table.update, List.filter_map]
    refine congrArg _ (List.filter_congr fun s _ => ?_)
    simp only [Function.comp, hstep]
  unfold effectiveLabel
  split
  · show ((((db.sources.update p f hid).rows.filter
      fun s => Sources.boundTo db.bindings n.id s.id).argmin Source.id).map Source.name).getD [] = _
    rw [hrows, argmin_map _ _ hstep, Option.map_map]
    congr 2
    funext s
    by_cases hp : p s <;> simp [hp, hname]
  · rfl

/-- A new source is bound to nothing. -/
theorem effectiveLabel_insert {db : Db} {s : Source} {sources : Table Source}
    (hins : db.sources.insert s = some sources)
    (h : ∀ s ∈ db.sources, ∃ x ∈ sources, x.id = s.id) (n : NodeRow) :
    effectiveLabel (db.withSources sources h) n = effectiveLabel db n := by
  have hfree : Sources.boundTo db.bindings n.id s.id = false := by
    refine List.any_eq_false.2 fun b hb hbound => ?_
    simp only [Bool.and_eq_true, decide_eq_true_eq] at hbound
    obtain ⟨x, hx, hxb⟩ := db.binding_source b hb
    exact Table.key_ne_of_insert hins hx (hxb.trans hbound.2)
  have hrows : sources.rows.filter (fun s => Sources.boundTo db.bindings n.id s.id) =
      db.sources.rows.filter fun s => Sources.boundTo db.bindings n.id s.id := by
    rw [Table.insert_rows hins, List.filter_append, List.filter_singleton, hfree]
    exact List.append_nil _
  show (if n.sourceLabel.isEmpty then
    (((sources.rows.filter fun s => Sources.boundTo db.bindings n.id s.id).argmin
      Source.id).map Source.name).getD [] else n.sourceLabel) = _
  rw [hrows]
  rfl

/-- A new tag is on no node. -/
theorem tagsOf_insert {db : Db} {t : Tag} {tags : Table Tag} (hins : db.tags.insert t = some tags)
    (h : ∀ t ∈ db.tags, ∃ x ∈ tags, x.id = t.id) (id : NodeId) :
    tagsOf (db.withTags tags h) id = tagsOf db id := by
  have hfree : (db.nodeTags.rows.any fun nt => nt.nodeId = id && nt.tagId = t.id) = false := by
    refine List.any_eq_false.2 fun nt hnt hon => ?_
    simp only [Bool.and_eq_true, decide_eq_true_eq] at hon
    obtain ⟨x, hx, hxt⟩ := db.nodeTag_tag nt hnt
    exact Table.key_ne_of_insert hins hx (hxt.trans hon.2)
  show tags.rows.filter (fun t => db.nodeTags.rows.any fun nt => nt.nodeId = id && nt.tagId = t.id) =
    _
  rw [Table.insert_rows hins, List.filter_append, List.filter_singleton, hfree]
  exact List.append_nil _

end NodePool

/-! ## 2. Every write -/

/-- The pool is as it was. -/
structure PoolKept (db db' : Db) : Prop where
  poolMeta : db'.poolMeta = db.poolMeta
  entries : NodePool.entries db' = NodePool.entries db
  cache : db'.cache = db.cache

/-- The pool moved on by one revision. -/
structure PoolBumped (db db' : Db) : Prop where
  revision : db'.revision = db.revision + 1
  floor_le : db.floor ≤ db'.floor
  cache : db'.cache = db.cache

theorem PoolKept.refl (db : Db) : PoolKept db db := ⟨rfl, rfl, rfl⟩

theorem NodeOverrides.Administrative.bumped {nodes : Table NodeRow} {db db' : Db}
    (h : Administrative nodes db db') :
    PoolBumped db db' :=
  ⟨h.revision, h.floor.ge, h.cache⟩

theorem Sources.edit_bumped {db db' : Db} {id : SourceId} {name : Str} {e : Edit} {s : Source}
    (h : edit id name e db = .ok (s, db')) : PoolBumped db db' := by
  obtain ⟨-, -, m, hrev, hfl, rfl⟩ := edit_eq_ok h
  exact ⟨hrev, hfl.ge, rfl⟩

theorem Sources.create_kept {db db' : Db} {source : Source} {r : Unit}
    (h : create source db = .ok (r, db')) : PoolKept db db' := by
  obtain ⟨sources, hs, hins, rfl⟩ := create_eq_ok h
  exact ⟨rfl, NodePool.entries_congr rfl rfl (NodePool.effectiveLabel_insert hins hs) fun _ => rfl,
    rfl⟩

theorem Sources.applyFailurePolicy_kept {db db' : Db} {id : SourceId} {jobId : JobId} {r : Unit}
    (h : applyFailurePolicy id jobId db = .ok (r, db')) : PoolKept db db' := by
  obtain ⟨-, rfl⟩ := ok_pair_inj h
  refine ⟨rfl, NodePool.entries_congr rfl rfl (fun n => ?_) fun _ => rfl, rfl⟩
  apply NodePool.effectiveLabel_update
  exact fun _ => rfl

theorem NodeOverrides.createTag_kept {db db' : Db} {id : TagId} {name : Str} {color : Option Str}
    {r : Tag} (h : createTag id name color db = .ok (r, db')) : PoolKept db db' := by
  obtain ⟨tags, htags, hins, rfl⟩ := createTag_eq_ok h
  exact ⟨rfl, NodePool.entries_congr rfl rfl (fun _ => rfl) (NodePool.tagsOf_insert hins htags), rfl⟩

/-- What a write does to the pool; where it raises the floor, the floor is past the revision. -/
structure PoolMoved (db db' : Db) : Prop where
  pool : PoolKept db db' ∨ PoolBumped db db'
  floor : db'.floor = db.floor ∨ db.revision < db'.floor

theorem PoolKept.moved {db db' : Db} (h : PoolKept db db') : PoolMoved db db' :=
  ⟨.inl h, .inl (congrArg PoolMeta.withdrawalRevision h.poolMeta)⟩

theorem PoolBumped.moved {db db' : Db} (h : PoolBumped db db') (hfloor : db'.floor = db.floor) :
    PoolMoved db db' :=
  ⟨.inr h, .inl hfloor⟩

theorem NodeOverrides.Administrative.moved {nodes : Table NodeRow} {db db' : Db}
    (h : Administrative nodes db db') : PoolMoved db db' :=
  h.bumped.moved h.floor

theorem Sources.edit_moved {db db' : Db} {id : SourceId} {name : Str} {e : Edit} {s : Source}
    (h : edit id name e db = .ok (s, db')) : PoolMoved db db' := by
  have hbumped := edit_bumped h
  obtain ⟨-, -, m, -, hfl, rfl⟩ := edit_eq_ok h
  exact hbumped.moved hfl

/-- **What a committed write does to the pool.** -/
theorem Write.run_moved {W : World} {w : Write} {db db' : Db} {r : w.Result}
    (h : w.run W db = .ok (r, db')) : PoolMoved db db' := by
  cases w with
  | createSource => exact (Sources.create_kept h).moved
  | updateSource =>
    obtain ⟨s, hedit⟩ := Sources.update_eq_ok h
    exact Sources.edit_moved hedit
  | updateSourceConfig => exact Sources.edit_moved h
  | disableAfterFailure => exact (Sources.applyFailurePolicy_kept h).moved
  | deleteSource =>
    obtain ⟨-, m, hrev, hfl, rfl⟩ := Sources.delete_eq_ok h
    refine ⟨.inr ⟨hrev, (Nat.le_succ_of_le db.poolMeta.floor_le).trans hfl.ge, rfl⟩, .inr ?_⟩
    exact (Nat.lt_succ_self _).trans_le hfl.ge
  | createJob | markRunning | updatePhase | markFailed | markCancelled | deleteJob
  | recoverCrashedJobs | recoverStaleJobs | pruneJobs =>
    have hjobs := Write.run_jobs rfl h
    exact PoolKept.moved ⟨hjobs.poolMeta, hjobs.entries, hjobs.cache⟩
  | touchFetchedAt =>
    obtain ⟨-, rfl⟩ := RefreshJobs.touchFetchedAt_eq_ok h
    exact PoolKept.moved ⟨rfl, rfl, rfl⟩
  | reconcile =>
    have hrec := NodePool.reconcileSource_eq_ok W.fingerprint h
    exact PoolBumped.moved ⟨hrec.revision, hrec.floor.ge, hrec.cache⟩ hrec.floor
  | importNodes =>
    obtain ⟨nodes, m, -, hrev, hfl, rfl⟩ := NodePool.importNodes_eq_ok W.fingerprint h
    exact PoolBumped.moved ⟨hrev, hfl.ge, rfl⟩ hfl
  | upsertOverride | deleteOverride | patchOverrideRegion | batchSetEnabled | applyTags | renameTag
  | deleteTag =>
    rcases Write.run_overlay rfl h with rfl | hadmin
    · exact (PoolKept.refl _).moved
    · exact hadmin.moved
  | createTag => exact (NodeOverrides.createTag_kept h).moved
  | setChain => exact (NodeOverrides.setChainChecked_eq_ok h).2.2.moved

/-- **A committed write moves the revision on, or leaves the pool as it was.** -/
theorem Write.run_pool {W : World} {w : Write} {db db' : Db} {r : w.Result}
    (h : w.run W db = .ok (r, db')) : PoolKept db db' ∨ PoolBumped db db' :=
  (Write.run_moved h).pool

/-! ## 3. The order of pools -/

/-- **The preorder every call moves the database along.** -/
structure Advance (db db' : Db) : Prop where
  revision_le : db.revision ≤ db'.revision
  floor_le : db.floor ≤ db'.floor
  entries_eq : db'.revision = db.revision → NodePool.entries db' = NodePool.entries db

theorem Advance.refl (db : Db) : Advance db db := ⟨Nat.le_refl _, Nat.le_refl _, fun _ => rfl⟩

theorem Advance.trans {a b c : Db} (hab : Advance a b) (hbc : Advance b c) : Advance a c where
  revision_le := hab.revision_le.trans hbc.revision_le
  floor_le := hab.floor_le.trans hbc.floor_le
  entries_eq h := by
    have hb : b.revision = a.revision :=
      Nat.le_antisymm (hbc.revision_le.trans h.le) hab.revision_le
    rw [hbc.entries_eq (h.trans hb.symm), hab.entries_eq hb]

theorem PoolKept.advance {db db' : Db} (h : PoolKept db db') : Advance db db' where
  revision_le := (congrArg PoolMeta.revision h.poolMeta).ge
  floor_le := (congrArg PoolMeta.withdrawalRevision h.poolMeta).ge
  entries_eq _ := h.entries

theorem PoolBumped.advance {db db' : Db} (h : PoolBumped db db') : Advance db db' where
  revision_le := (Nat.le_succ _).trans h.revision.ge
  floor_le := h.floor_le
  entries_eq heq := by
    rw [h.revision] at heq
    omega

/-- **Every call moves the pool forward, and leaves it alone when the revision stands still.** -/
theorem ports_advance {W : World} {op : Call} {db db' : Db} {a : op.Reply}
    (h : ports W op db a db') : Advance db db' := by
  cases ports_change h with
  | none => exact .refl db
  | store h =>
    obtain ⟨cache, -, -, -, rfl⟩ := GenerationCache.store_eq_ok h
    exact ⟨Nat.le_refl _, Nat.le_refl _, fun _ => rfl⟩
  | activate h =>
    obtain ⟨cache, -, -, rfl⟩ := GenerationCache.activate_eq_ok h
    exact ⟨Nat.le_refl _, Nat.le_refl _, fun _ => rfl⟩
  | write h => exact (Write.run_pool h).elim PoolKept.advance PoolBumped.advance
  | setSubscriptions | deleteTemplate => exact ⟨Nat.le_refl _, Nat.le_refl _, fun _ => rfl⟩

end DeveSub
