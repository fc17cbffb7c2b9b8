/-
  File:      DeveSub/Storage/NodeOverrides.lean
  Subject:   Administrator writes to the pool: overrides, tags and chains
             (`node_override_repository.rs`, `node_override_repository/tags.rs`,
             `node_pool_repository/chain.rs`).

  Each write that an entry of the pool can show bumps the revision in its own transaction;
  creating a tag does not, and changes no entry. The search for a cycle is an argument.
-/
import Mathlib.Data.List.Dedup
import DeveSub.Storage.NodePool

namespace DeveSub.NodeOverrides

/-- A missing referenced row. -/
def foreignKey : SourceError := .storage "FOREIGN KEY constraint failed"

/-- The write's tables, and the bump that belongs to them. -/
def bumped {α : Type} (a : α) (db : Db) : Except SourceError (α × Db) := do
  let db ← bumpRevisionTx db
  return (a, db)

/-! ## 1. Overrides -/

/-- An override that says nothing. -/
def blank (id : Ulid) (nodeId : NodeId) : NodeOverride :=
  ⟨id, nodeId, none, none, none, none, none, none, 0⟩

/-- `upsert_override`. -/
def upsertOverride (o : NodeOverride) : Tx Db SourceError Unit := fun db =>
  match db.nodes.find o.nodeId with
  | none => .error foreignKey
  | some _ =>
    bumped () { db with
      overrides := db.overrides.upsert o (fun old => { o with nodeId := old.nodeId }) fun _ => rfl }

/-- `delete_override`. -/
def deleteOverride (nodeId : NodeId) : Tx Db SourceError Unit := fun db =>
  bumped () { db with overrides := db.overrides.delete fun o => o.nodeId = nodeId }

/-- `patch_override_region`; `newId` is drawn for the insertion. -/
def patchOverrideRegion (newId : Ulid) (nodeId : NodeId) (region : Option Str) :
    Tx Db SourceError Unit := fun db =>
  match db.nodes.find nodeId with
  | none => .error foreignKey
  | some _ =>
    bumped () { db with
      overrides := db.overrides.upsert { blank newId nodeId with region }
        (fun old => { old with region }) fun _ => rfl }

/-- One turn of the loop of `batch_set_enabled`. -/
def setEnabled (db : Db) (enabled : Bool) (newId : Ulid) (nodeId : NodeId) :
    Except SourceError Db :=
  match db.nodes.find nodeId with
  | none => .error (.nodeNotFound nodeId.text)
  | some _ => .ok { db with
      overrides := db.overrides.upsert { blank newId nodeId with enabled := some enabled }
        (fun old => { old with enabled := some enabled }) fun _ => rfl }

/-- The loop of `batch_set_enabled`. -/
def setEnabledAll (enabled : Bool) (newId : NodeId → Ulid) :
    List NodeId → Db → Except SourceError Db
  | [], db => .ok db
  | id :: rest, db => do
    let db ← setEnabled db enabled (newId id) id
    setEnabledAll enabled newId rest db

/-- `BTreeSet`: sorted, without repetition. -/
def ordered (ids : List Ulid) : List Ulid := ids.dedup.insertionSort (· ≤ ·)

/-- `batch_set_enabled`: nothing to do bumps nothing. -/
def batchSetEnabled (nodeIds : List NodeId) (enabled : Bool) (newId : NodeId → Ulid) :
    Tx Db SourceError Nat := fun db =>
  if nodeIds.isEmpty then .ok (0, db)
  else do
    let db ← setEnabledAll enabled newId (ordered nodeIds) db
    bumped (ordered nodeIds).length db

/-! ## 2. Tags -/

/-- The reference checks of `apply_tags`. -/
def checkTags (db : Db) : List (NodeId × List TagId) → Except SourceError Unit
  | [] => .ok ()
  | (node, tags) :: rest => do
    match db.nodes.find node with
    | none => .error (.nodeNotFound node.text)
    | some _ =>
      rejectWhen (tags.any fun t => (db.tags.find t).isNone) .tagNotFound
      checkTags db rest

/-- One membership: a pair that is there already stays. -/
def tagNode (nodeTags : Table NodeTag) (mode : TagUpdateMode) (node : NodeId) (tag : TagId) :
    Table NodeTag :=
  match mode with
  | .remove => nodeTags.delete fun nt => nt.nodeId = node && nt.tagId = tag
  | .add | .replace => (nodeTags.insert ⟨node, tag⟩).getD nodeTags

/-- One assignment of `apply_tags`. -/
def assignTags (mode : TagUpdateMode) (nodeTags : Table NodeTag) (a : NodeId × List TagId) :
    Table NodeTag :=
  let start := if mode = .replace then nodeTags.delete fun nt => nt.nodeId = a.1 else nodeTags
  (ordered a.2).foldl (fun t tag => tagNode t mode a.1 tag) start

theorem mem_tagNode {nodeTags : Table NodeTag} {mode : TagUpdateMode} {node : NodeId} {tag : TagId}
    {x : NodeTag} (h : x ∈ tagNode nodeTags mode node tag) : x ∈ nodeTags ∨ x.tagId = tag := by
  have hins : ∀ t : Option (Table NodeTag), nodeTags.insert ⟨node, tag⟩ = t →
      x ∈ t.getD nodeTags → x ∈ nodeTags ∨ x.tagId = tag := by
    intro t ht hx
    cases t with
    | none => exact .inl hx
    | some t => exact ((Table.mem_insert ht).1 hx).imp_right fun e => by rw [e]
  cases mode with
  | remove => exact .inl (Table.mem_delete.1 h).1
  | add | replace => exact hins _ rfl h

theorem mem_assignTags {mode : TagUpdateMode} {nodeTags : Table NodeTag} {a : NodeId × List TagId}
    {x : NodeTag} (h : x ∈ assignTags mode nodeTags a) : x ∈ nodeTags ∨ x.tagId ∈ a.2 := by
  have hfold : ∀ (tags : List TagId) (t : Table NodeTag),
      x ∈ tags.foldl (fun t tag => tagNode t mode a.1 tag) t → x ∈ t ∨ x.tagId ∈ tags := by
    intro tags
    induction tags with
    | nil => exact fun t hx => .inl hx
    | cons tag rest ih =>
      intro t hx
      rcases ih _ hx with hx | hx
      · exact (mem_tagNode hx).imp_right fun e => by rw [e]; exact List.mem_cons_self
      · exact .inr (List.mem_cons_of_mem _ hx)
  rcases hfold _ _ h with hx | hx
  · refine .inl ?_
    split at hx
    · exact (Table.mem_delete.1 hx).1
    · exact hx
  · exact .inr (List.mem_dedup.1 ((List.perm_insertionSort _ _).mem_iff.1 hx))

theorem mem_assignAll {mode : TagUpdateMode} {assignments : List (NodeId × List TagId)}
    {nodeTags : Table NodeTag} {x : NodeTag} (h : x ∈ assignments.foldl (assignTags mode) nodeTags) :
    x ∈ nodeTags ∨ ∃ a ∈ assignments, x.tagId ∈ a.2 := by
  induction assignments generalizing nodeTags with
  | nil => exact .inl h
  | cons a rest ih =>
    rcases ih h with hx | ⟨b, hb, hx⟩
    · exact (mem_assignTags hx).imp_right fun ht => ⟨a, List.mem_cons_self, ht⟩
    · exact .inr ⟨b, List.mem_cons_of_mem _ hb, hx⟩

/-- The checks of `apply_tags` have found every tag. -/
theorem checkTags_eq_ok {db : Db} {assignments : List (NodeId × List TagId)}
    (h : checkTags db assignments = .ok ()) {a : NodeId × List TagId} (ha : a ∈ assignments)
    {tag : TagId} (htag : tag ∈ a.2) : ∃ t ∈ db.tags, t.id = tag := by
  induction assignments with
  | nil => cases ha
  | cons b rest ih =>
    unfold checkTags at h
    split at h
    · cases h
    obtain ⟨_, htags, h⟩ := bind_eq_ok.1 h
    rcases List.mem_cons.1 ha with rfl | ha
    · have hnone := List.any_eq_false.1 (rejectWhen_eq_ok.1 htags) tag htag
      rw [Option.isNone_iff_eq_none] at hnone
      obtain ⟨t, ht⟩ := Option.ne_none_iff_exists'.1 hnone
      exact ⟨t, Table.find_eq_some.1 ht⟩
    · exact ih h ha

/-- `apply_tags`: nothing to do bumps nothing. -/
def applyTags (assignments : List (NodeId × List TagId)) (mode : TagUpdateMode) :
    Tx Db SourceError Unit := fun db =>
  if assignments.isEmpty then .ok ((), db)
  else match h : checkTags db assignments with
    | .error e => .error e
    | .ok () =>
      bumped () { db with
        nodeTags := assignments.foldl (assignTags mode) db.nodeTags
        nodeTag_tag := fun nt hnt => by
          rcases mem_assignAll hnt with hnt | ⟨a, ha, htag⟩
          · exact db.nodeTag_tag nt hnt
          · exact checkTags_eq_ok h ha htag }

/-- `rename_tag`. -/
def renameTag (tagId : TagId) (name : Str) (color : Option Str) : Tx Db SourceError Tag := fun db =>
  match db.tags.find tagId with
  | none => .error .tagNotFound
  | some _ => do
    rejectWhen (db.tags.rows.any fun t => t.name = name && t.id ≠ tagId) .tagExists
    bumped ⟨tagId, name, color⟩ (db.withTags (db.tags.update (fun t => t.id = tagId)
      (fun t => { t with name, color }) fun _ => rfl) fun _ ht => Table.exists_mem_update _ _ ht)

/-- `create_tag`: no node carries the new tag. -/
def createTag (id : TagId) (name : Str) (color : Option Str) : Tx Db SourceError Tag := fun db =>
  if db.tags.rows.any fun t => t.name = name then .error .tagExists
  else match h : db.tags.insert ⟨id, name, color⟩ with
    | none => .error .tagExists
    | some tags => .ok (⟨id, name, color⟩, db.withTags tags fun t ht =>
        ⟨t, (Table.mem_insert h).2 (.inl ht), rfl⟩)

/-- `delete_tag`, with its memberships. -/
def deleteTag (tagId : TagId) : Tx Db SourceError Unit := fun db =>
  match db.tags.find tagId with
  | none => .error .tagNotFound
  | some _ =>
    bumped () { db with
      tags := db.tags.delete fun t => t.id = tagId
      nodeTags := db.nodeTags.delete fun nt => nt.tagId = tagId
      nodeTag_tag := fun nt hnt => by
        obtain ⟨hnt, hne⟩ := Table.mem_delete.1 hnt
        obtain ⟨t, ht, hid⟩ := db.nodeTag_tag nt hnt
        refine ⟨t, Table.mem_delete.2 ⟨ht, ?_⟩, hid⟩
        simpa [hid] using hne }

/-! ## 3. Chains -/

section Chains

-- `NodeChainGraph::validate_update`: the first cycle of the graph with the proposed chain.
variable (findCycle : List (NodeId × List NodeId) → NodeId → List NodeId → Option (List NodeId))

/-- The first id that stands twice. -/
def firstRepeat : (seen ids : List NodeId) → Option NodeId
  | _, [] => none
  | seen, id :: rest => if seen.contains id then some id else firstRepeat (id :: seen) rest

/-- `NodeChain::validate_structure`. -/
def validateStructure (self : NodeId) (ids : List NodeId) : Except NodeChainError Unit := do
  rejectWhen ids.isEmpty .empty
  rejectWhen (ids.contains self) .selfReference
  match firstRepeat [] ids with
  | none => .ok ()
  | some id => .error (.duplicate id)

/-- The checks of `set_chain_checked` on a chain. -/
def checkChain (db : Db) (nodeId : NodeId) (ids : List NodeId) : Except SourceError Unit := do
  (validateStructure nodeId ids).mapError .nodeChain
  match ids.find? fun id => (db.nodes.find id).isNone with
  | some id => .error (.nodeChain (.nodeNotFound [id]))
  | none =>
    let stored := db.nodes.rows.filterMap fun n => n.chain.map fun c => (n.id, c)
    match findCycle stored nodeId ids with
    | some path => .error (.nodeChain (.cycle path))
    | none => .ok ()

/-- `set_chain_checked`. -/
def setChainChecked (nodeId : NodeId) (chain : Option (List NodeId)) : Tx Db SourceError Unit :=
  fun db =>
    match db.nodes.find nodeId with
    | none => .error (.nodeNotFound nodeId.text)
    | some _ => do
      (chain.map (checkChain findCycle db nodeId)).getD (.ok ())
      bumped () { db with
        nodes := db.nodes.update (fun n => n.id = nodeId) (fun n => { n with chain })
          fun _ => rfl }

end Chains

/-! ## 4. What the writes leave alone -/

/-- The tables an administrator's write does not touch. -/
structure Aside (db db' : Db) : Prop where
  bindings : db'.bindings = db.bindings
  sources : db'.sources = db.sources
  snapshots : db'.snapshots = db.snapshots
  jobs : db'.jobs = db.jobs
  cache : db'.cache = db.cache

/-- **An administrator's write** that leads to these nodes; it bumps the revision once. -/
structure Administrative (nodes : Table NodeRow) (db db' : Db) : Prop extends Aside db db' where
  nodes_eq : db'.nodes = nodes
  revision : db'.revision = db.revision + 1
  floor : db'.floor = db.floor

theorem bumped_administrative {α : Type} {a r : α} {nodes : Table NodeRow} {db d db' : Db}
    (h : bumped a d = .ok (r, db')) (hd : Aside db d) (hnodes : d.nodes = nodes)
    (hmeta : d.poolMeta = db.poolMeta) : Administrative nodes db db' := by
  obtain ⟨b, hbump, h⟩ := bind_eq_ok.1 h
  obtain ⟨m, hrev, hfl, rfl⟩ := bumpRevisionTx_eq_ok hbump
  obtain ⟨-, rfl⟩ := ok_pair_inj h
  rw [Db.revision, hmeta] at hrev
  rw [Db.floor, hmeta] at hfl
  exact ⟨⟨hd.bindings, hd.sources, hd.snapshots, hd.jobs, hd.cache⟩, hnodes, hrev, hfl⟩

theorem upsertOverride_eq_ok {o : NodeOverride} {db db' : Db} {r : Unit}
    (h : upsertOverride o db = .ok (r, db')) : Administrative db.nodes db db' := by
  unfold upsertOverride at h
  split at h
  · cases h
  · exact bumped_administrative h ⟨rfl, rfl, rfl, rfl, rfl⟩ rfl rfl

theorem deleteOverride_eq_ok {nodeId : NodeId} {db db' : Db} {r : Unit}
    (h : deleteOverride nodeId db = .ok (r, db')) : Administrative db.nodes db db' :=
  bumped_administrative h ⟨rfl, rfl, rfl, rfl, rfl⟩ rfl rfl

theorem patchOverrideRegion_eq_ok {newId : Ulid} {nodeId : NodeId} {region : Option Str}
    {db db' : Db} {r : Unit} (h : patchOverrideRegion newId nodeId region db = .ok (r, db')) :
    Administrative db.nodes db db' := by
  unfold patchOverrideRegion at h
  split at h
  · cases h
  · exact bumped_administrative h ⟨rfl, rfl, rfl, rfl, rfl⟩ rfl rfl

theorem setEnabledAll_eq_ok {enabled : Bool} {newId : NodeId → Ulid} {ids : List NodeId}
    {db db' : Db} (h : setEnabledAll enabled newId ids db = .ok db') :
    ∃ overrides, db' = { db with overrides } := by
  induction ids generalizing db with
  | nil =>
    obtain rfl := Except.ok.inj h
    exact ⟨_, rfl⟩
  | cons id rest ih =>
    obtain ⟨d, hd, h⟩ := bind_eq_ok.1 h
    unfold setEnabled at hd
    split at hd
    · cases hd
    obtain rfl := Except.ok.inj hd
    obtain ⟨overrides, rfl⟩ := ih h
    exact ⟨overrides, rfl⟩

theorem batchSetEnabled_eq_ok {ids : List NodeId} {enabled : Bool} {newId : NodeId → Ulid}
    {db db' : Db} {r : Nat} (h : batchSetEnabled ids enabled newId db = .ok (r, db')) :
    db' = db ∨ Administrative db.nodes db db' := by
  unfold batchSetEnabled at h
  split at h
  · exact .inl (ok_pair_inj h).2.symm
  obtain ⟨d, hd, h⟩ := bind_eq_ok.1 h
  obtain ⟨overrides, rfl⟩ := setEnabledAll_eq_ok hd
  exact .inr (bumped_administrative h ⟨rfl, rfl, rfl, rfl, rfl⟩ rfl rfl)

theorem applyTags_eq_ok {assignments : List (NodeId × List TagId)} {mode : TagUpdateMode}
    {db db' : Db} {r : Unit} (h : applyTags assignments mode db = .ok (r, db')) :
    db' = db ∨ Administrative db.nodes db db' := by
  unfold applyTags at h
  split at h
  · exact .inl (ok_pair_inj h).2.symm
  split at h
  · cases h
  · exact .inr (bumped_administrative h ⟨rfl, rfl, rfl, rfl, rfl⟩ rfl rfl)

theorem renameTag_eq_ok {tagId : TagId} {name : Str} {color : Option Str} {db db' : Db} {r : Tag}
    (h : renameTag tagId name color db = .ok (r, db')) : Administrative db.nodes db db' := by
  unfold renameTag at h
  split at h
  · cases h
  obtain ⟨_, _, h⟩ := bind_eq_ok.1 h
  exact bumped_administrative h ⟨rfl, rfl, rfl, rfl, rfl⟩ rfl rfl

theorem deleteTag_eq_ok {tagId : TagId} {db db' : Db} {r : Unit}
    (h : deleteTag tagId db = .ok (r, db')) : Administrative db.nodes db db' := by
  unfold deleteTag at h
  split at h
  · cases h
  · exact bumped_administrative h ⟨rfl, rfl, rfl, rfl, rfl⟩ rfl rfl

/-- A new tag is one that no membership names. -/
theorem createTag_eq_ok {id : TagId} {name : Str} {color : Option Str} {db db' : Db} {r : Tag}
    (h : createTag id name color db = .ok (r, db')) :
    ∃ tags htags, db.tags.insert ⟨id, name, color⟩ = some tags ∧ db' = db.withTags tags htags := by
  unfold createTag at h
  split at h
  · cases h
  split at h
  · cases h
  rename_i tags hins
  obtain ⟨-, rfl⟩ := ok_pair_inj h
  exact ⟨tags, _, hins, rfl⟩

theorem setChainChecked_eq_ok
    {findCycle : List (NodeId × List NodeId) → NodeId → List NodeId → Option (List NodeId)}
    {nodeId : NodeId} {chain : Option (List NodeId)} {db db' : Db} {r : Unit}
    (h : setChainChecked findCycle nodeId chain db = .ok (r, db')) :
    (∃ n ∈ db.nodes, n.id = nodeId) ∧
      (∀ ids, chain = some ids → checkChain findCycle db nodeId ids = .ok ()) ∧
      Administrative (db.nodes.update (fun n => n.id = nodeId) (fun n => { n with chain })
        fun _ => rfl) db db' := by
  unfold setChainChecked at h
  split at h
  · cases h
  rename_i n hn
  obtain ⟨_, hcheck, h⟩ := bind_eq_ok.1 h
  refine ⟨⟨n, Table.find_eq_some.1 hn⟩, fun ids hids => ?_,
    bumped_administrative h ⟨rfl, rfl, rfl, rfl, rfl⟩ rfl rfl⟩
  subst hids
  exact hcheck

end DeveSub.NodeOverrides
