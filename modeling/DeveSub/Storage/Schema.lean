/-
  File:      DeveSub/Storage/Schema.lean
  Subject:   The database of the SQLite adapter: the tables the modelled repositories read and
             write, with the constraints of the migrations.

  Primary keys are a field of every table (`Table`). The `CHECK` of `pool_meta` is a field of its
  row, and so is that its counter is an `i64`. The foreign keys a query joins on are fields of the
  database: a binding names a source, a membership names a tag. Columns are kept decoded: `serde_json` texts and
  sealed envelopes stand for the values they hold. `source_items`, which no modelled function
  reads, is left out; `templates` and `template_versions` are not part of this model.
-/
import DeveSub.Domain.Template
import DeveSub.Lib.Database

namespace DeveSub

/-! ## 1. Rows -/

/-- `pool_meta`, its one row. -/
structure PoolMeta where
  revision : Nat
  withdrawalRevision : Nat
  floor_le : withdrawalRevision ≤ revision
  fits : revision < 2 ^ 63

/-- `nodes`. The host is kept as the text that is written. -/
structure NodeRow where
  id : NodeId
  node : Node
  host : Str
  region : Option Str
  chain : Option (List NodeId)
  revision : Nat
  statusActive : Bool
  missingFromSource : Bool
  sourceLabel : Str
  identityFingerprint : Str

/-- `node_source_bindings`, without its random key. -/
structure Binding where
  nodeId : NodeId
  sourceId : SourceId
  deriving DecidableEq

/-- `node_tags`. -/
structure NodeTag where
  nodeId : NodeId
  tagId : TagId
  deriving DecidableEq

/-- `subscriptions`, the columns the cache reads. -/
structure SubscriptionRow where
  id : Ulid
  templateId : TemplateId
  templateVersionPin : Option UInt64
  profile : Str
  nodeSelection : Str
  deriving DecidableEq

instance : Keyed NodeRow NodeId := ⟨NodeRow.id⟩
instance : Keyed NodeOverride NodeId := ⟨NodeOverride.nodeId⟩
instance : Keyed Tag TagId := ⟨Tag.id⟩
instance : Keyed NodeTag NodeTag := ⟨id⟩
instance : Keyed Source SourceId := ⟨Source.id⟩
instance : Keyed SourceSnapshot SnapshotId := ⟨SourceSnapshot.id⟩
instance : Keyed SourceRefreshJob JobId := ⟨SourceRefreshJob.id⟩
instance : Keyed CacheEntry CacheId := ⟨CacheEntry.id⟩
instance : Keyed SubscriptionRow Ulid := ⟨SubscriptionRow.id⟩

/-! ## 2. The database -/

/-- **The database**, with the foreign keys of `node_source_bindings` and `node_tags`. -/
structure Db where
  poolMeta : PoolMeta
  nodes : Table NodeRow
  overrides : Table NodeOverride
  tags : Table Tag
  nodeTags : Table NodeTag
  bindings : List Binding
  sources : Table Source
  snapshots : Table SourceSnapshot
  jobs : Table SourceRefreshJob
  cache : Table CacheEntry
  subscriptions : Table SubscriptionRow
  binding_source : ∀ b ∈ bindings, ∃ s ∈ sources, s.id = b.sourceId
  nodeTag_tag : ∀ nt ∈ nodeTags, ∃ t ∈ tags, t.id = nt.tagId

namespace Db

/-- A database after the migrations: no rows, revision 0. -/
def empty : Db where
  poolMeta := ⟨0, 0, Nat.le_refl 0, by decide⟩
  nodes := .empty
  overrides := .empty
  tags := .empty
  nodeTags := .empty
  bindings := []
  sources := .empty
  snapshots := .empty
  jobs := .empty
  cache := .empty
  subscriptions := .empty
  binding_source := by simp
  nodeTag_tag := fun nt h => absurd h (Table.not_mem_empty nt)

/-- Another table of sources, with the ids of the old one. -/
def withSources (db : Db) (sources : Table Source)
    (h : ∀ s ∈ db.sources, ∃ x ∈ sources, x.id = s.id) : Db :=
  { db with
    sources
    binding_source := fun b hb => by
      obtain ⟨s, hs, hid⟩ := db.binding_source b hb
      obtain ⟨x, hx, hxs⟩ := h s hs
      exact ⟨x, hx, hxs.trans hid⟩ }

/-- Another table of tags, with the ids of the old one. -/
def withTags (db : Db) (tags : Table Tag) (h : ∀ t ∈ db.tags, ∃ x ∈ tags, x.id = t.id) : Db :=
  { db with
    tags
    nodeTag_tag := fun nt hnt => by
      obtain ⟨t, ht, hid⟩ := db.nodeTag_tag nt hnt
      obtain ⟨x, hx, hxt⟩ := h t ht
      exact ⟨x, hx, hxt.trans hid⟩ }

/-- The pool revision. -/
abbrev revision (db : Db) : Nat := db.poolMeta.revision

/-- The withdrawal floor. -/
abbrev floor (db : Db) : Nat := db.poolMeta.withdrawalRevision

end Db

/-! ## 3. The pool revision -/

/-- What a counter past `i64` answers. -/
def revisionOverflow : SourceError := .storage "pool revision out of range"

/-- `bump_revision_tx`. A sum past `i64` becomes a float that cannot be read back; here the write
    fails. -/
def bumpRevisionTx (db : Db) : Except SourceError Db :=
  if h : db.revision + 1 < 2 ^ 63 then
    .ok { db with poolMeta := ⟨db.revision + 1, db.floor, Nat.le_succ_of_le db.poolMeta.floor_le, h⟩ }
  else .error revisionOverflow

/-- `UPDATE pool_meta SET revision = revision + 1, withdrawal_revision = revision + 1`: both
    sides read the old row. -/
def raiseFloorTx (db : Db) : Except SourceError Db :=
  if h : db.revision + 1 < 2 ^ 63 then
    .ok { db with poolMeta := ⟨db.revision + 1, db.revision + 1, Nat.le_refl _, h⟩ }
  else .error revisionOverflow

/-- A bump raises the revision by one and changes nothing else. -/
theorem bumpRevisionTx_eq_ok {db db' : Db} (h : bumpRevisionTx db = .ok db') :
    ∃ m : PoolMeta, m.revision = db.revision + 1 ∧ m.withdrawalRevision = db.floor ∧
      db' = { db with poolMeta := m } := by
  unfold bumpRevisionTx at h
  split at h
  · obtain rfl := Except.ok.inj h
    refine ⟨_, ?_, ?_, rfl⟩ <;> rfl
  · cases h

theorem bumpRevisionTx_succeeds {db : Db} (h : db.revision + 1 < 2 ^ 63) :
    Succeeds (bumpRevisionTx db) := by
  rw [bumpRevisionTx, dif_pos h]
  exact ⟨_, rfl⟩

theorem raiseFloorTx_eq_ok {db db' : Db} (h : raiseFloorTx db = .ok db') :
    ∃ m : PoolMeta, m.revision = db.revision + 1 ∧ m.withdrawalRevision = db.revision + 1 ∧
      db' = { db with poolMeta := m } := by
  unfold raiseFloorTx at h
  split at h
  · obtain rfl := Except.ok.inj h
    refine ⟨_, ?_, ?_, rfl⟩ <;> rfl
  · cases h

end DeveSub
