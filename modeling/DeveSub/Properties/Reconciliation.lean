/-
  File:      DeveSub/Properties/Reconciliation.lean
  Subject:   What a reconciliation of a source comes to, for every list of entries.

  * `Rebound.present_iff` -- the fingerprints that are there afterwards are those of the entries
    and those that something else contributes;
  * `reconcileSource_reordered` -- with the entries in another order it commits as well;
  * `reconcileSourceBy` -- the transaction with other sizes of its batches, which do not matter;
  * `reconcile_entries` -- counts, bindings, order, batches, and a second reconciliation.
-/
import DeveSub.Properties.PoolInvariant

namespace DeveSub

namespace NodePool

/-! ## 1. The entries and their fingerprints -/

section Entries

variable {fingerprint : PooledNode → Except SourceError Str}

/-- The nodes that entries carry. -/
def carried (entries : List ReconcileEntry) : List PooledNode := entries.filterMap id

/-- A fingerprint of the entries. -/
def HasFingerprint (fingerprint : PooledNode → Except SourceError Str)
    (entries : List ReconcileEntry) (fp : Str) : Prop :=
  ∃ n ∈ carried entries, fingerprint n = .ok fp

/-- A fingerprint of a node that is bound to the source. -/
def BoundFingerprint (db : Db) (sourceId : SourceId) (fp : Str) : Prop :=
  ∃ n ∈ db.nodes, Sources.boundTo db.bindings n.id sourceId = true ∧ n.identityFingerprint = fp

/-- A fingerprint of a node that is there. -/
def PresentFingerprint (db : Db) (fp : Str) : Prop := ∃ n ∈ db.nodes, present fp n = true

/-- The ids of the entries' nodes are distinct, and new to the pool. -/
structure FreshIds (nodes : Table NodeRow) (entries : List ReconcileEntry) : Prop where
  nodup : ((carried entries).map PooledNode.id).Nodup
  fresh : ∀ n ∈ nodes, n.id ∉ (carried entries).map PooledNode.id

theorem FreshIds.perm {nodes : Table NodeRow} {entries entries' : List ReconcileEntry}
    (h : FreshIds nodes entries) (hperm : entries'.Perm entries) : FreshIds nodes entries' := by
  have hids := (hperm.filterMap id).map PooledNode.id
  exact ⟨hids.nodup_iff.2 h.nodup, fun n hn hmem => h.fresh n hn (hids.mem_iff.1 hmem)⟩

/-- Each node that is carried stands beside its fingerprint. -/
theorem carried_forall₂ {entries : List ReconcileEntry} {es : List (Option (PooledNode × Str))}
    (h : entries.mapM (withFingerprint fingerprint) = .ok es) :
    List.Forall₂ (fun n x => x.1 = n ∧ fingerprint n = .ok x.2) (carried entries)
      (es.filterMap id) := by
  have hzip := mapM_eq_ok.1 h
  clear h
  induction hzip with
  | nil => exact .nil
  | @cons entry e entries es he _ ih =>
    cases entry with
    | none =>
      obtain rfl := Except.ok.inj he
      exact ih
    | some n =>
      obtain ⟨fp, hfp, he⟩ := bind_eq_ok.1 he
      obtain rfl := Except.ok.inj he
      exact .cons ⟨rfl, hfp⟩ ih

variable {entries : List ReconcileEntry} {es : List (Option (PooledNode × Str))}

theorem fingerprintsOf_eq (es : List (Option (PooledNode × Str))) :
    fingerprintsOf es = (es.filterMap id).map Prod.snd := by
  rw [fingerprintsOf, List.map_filterMap]
  rfl

theorem length_fingerprintsOf (h : entries.mapM (withFingerprint fingerprint) = .ok es) :
    (fingerprintsOf es).length = (carried entries).length := by
  rw [fingerprintsOf_eq, List.length_map, (carried_forall₂ h).length_eq]

theorem mem_fingerprintsOf (h : entries.mapM (withFingerprint fingerprint) = .ok es) {fp : Str} :
    fp ∈ fingerprintsOf es ↔ HasFingerprint fingerprint entries fp := by
  rw [fingerprintsOf_eq, List.mem_map]
  constructor
  · intro hmem
    obtain ⟨x, hx, rfl⟩ := hmem
    obtain ⟨n, hn, -, hfp⟩ := exists_of_mem_right (carried_forall₂ h) hx
    exact ⟨n, hn, hfp⟩
  · intro hmem
    obtain ⟨n, hn, hfp⟩ := hmem
    obtain ⟨x, hx, -, hxfp⟩ := exists_of_mem_left (carried_forall₂ h) hn
    exact ⟨x, hx, Except.ok.inj (hxfp.symm.trans hfp)⟩

theorem idsOf_eq (h : entries.mapM (withFingerprint fingerprint) = .ok es) :
    idsOf es = (carried entries).map PooledNode.id := by
  have hids : idsOf es = (es.filterMap id).map fun x => x.1.id := by
    rw [idsOf, List.map_filterMap]
    rfl
  have hall := carried_forall₂ h
  rw [hids]
  generalize carried entries = nodes at hall
  generalize es.filterMap id = pairs at hall
  induction hall with
  | nil => rfl
  | cons hx _ ih => rw [List.map_cons, List.map_cons, hx.1, ih]

theorem HasFingerprint.perm {entries' : List ReconcileEntry} (hperm : entries'.Perm entries)
    {fp : Str} : HasFingerprint fingerprint entries' fp ↔ HasFingerprint fingerprint entries fp := by
  simp only [HasFingerprint, carried, (hperm.filterMap id).mem_iff]

end Entries

/-! ## 2. What is there afterwards -/

section Present

variable {nodes nodes' : Table NodeRow} {bindings : List Binding} {sourceId : SourceId}
  {fps : List Str} {bound : List NodeId} {result : ReconcileResult}

/-- **The fingerprints that are there after a reconciliation**: those of its entries, and those
    of nodes with a label or with another source. -/
theorem Rebound.present_iff (hr : Rebound nodes bindings sourceId fps nodes' bound result)
    (hp : Provenance nodes bindings) (fp : Str) :
    (∃ n ∈ nodes', present fp n = true) ↔ fp ∈ fps ∨ ∃ n ∈ nodes, n.identityFingerprint = fp ∧
      (n.sourceLabel ≠ [] ∨ Sources.boundElsewhere bindings n.id sourceId = true) := by
  constructor
  · intro h
    obtain ⟨x, hx, hpx⟩ := h
    obtain ⟨hfp, hm⟩ := NodePool.present_iff.1 hpx
    by_cases hid : x.id ∈ bound
    · obtain ⟨k, hk, hholds⟩ := exists_of_mem_right hr.resolved hid
      rw [(NodePool.present_iff.1 (hholds.fingerprint hx rfl)).1] at hfp
      exact .inl (hfp ▸ hk)
    · obtain ⟨n, hn, rfl⟩ := hr.old x hx hid
      split at hm
      · cases hm
      · rename_i hw
        rw [if_neg hw] at hfp
        have hw := Bool.eq_false_of_not_eq_true hw
        exact .inr ⟨n, hn, hfp, (hp.present_without hn hw).1 hm⟩
  · intro h
    rcases h with hfp | ⟨n, hn, hfp, hor⟩
    · obtain ⟨id, -, m, hm, -, hpm⟩ := exists_of_mem_left hr.resolved hfp
      exact ⟨m, hm, hpm⟩
    · have hm : n.missingFromSource = false := by
        rw [hp.present_iff n hn, isBound_iff bindings sourceId]
        exact hor.imp_right .inr
      have hw : Sources.withdrawnBy bindings sourceId n = false := by
        refine Bool.eq_false_of_not_eq_true fun hw => ?_
        obtain ⟨hl, -, -, helse⟩ := Provenance.withdrawnBy_iff.1 hw
        rcases hor with hne | hb
        · exact hne hl
        · rw [helse] at hb
          cases hb
      exact ⟨n, hr.kept n hn hm (.inr hw), NodePool.present_iff.2 ⟨hfp, hm⟩⟩

/-- The source is bound to what the entries were resolved to. -/
theorem boundTo_reboundTo (bindings : List Binding) (sourceId : SourceId) (bound : List NodeId)
    (id : NodeId) :
    Sources.boundTo (reboundTo bindings sourceId bound) id sourceId = true ↔ id ∈ bound := by
  simp only [Sources.boundTo, reboundTo, List.any_append, Bool.or_eq_true, List.any_eq_true,
    List.mem_filter, List.mem_map, Bool.and_eq_true, decide_eq_true_eq]
  constructor
  · intro h
    rcases h with ⟨b, ⟨-, hne⟩, -, hs⟩ | ⟨b, ⟨i, hi, rfl⟩, rfl, -⟩
    · exact absurd hs hne
    · exact hi
  · intro h
    exact .inr ⟨_, ⟨id, h, rfl⟩, rfl, rfl⟩

/-- A node is bound to the source exactly when it stands for a fingerprint of the entries. -/
theorem Rebound.bound_iff (hr : Rebound nodes bindings sourceId fps nodes' bound result) (fp : Str) :
    (∃ n ∈ nodes', Sources.boundTo (reboundTo bindings sourceId bound) n.id sourceId = true ∧
      n.identityFingerprint = fp) ↔ fp ∈ fps := by
  constructor
  · intro h
    obtain ⟨n, hn, hb, rfl⟩ := h
    obtain ⟨k, hk, hholds⟩ := exists_of_mem_right hr.resolved ((boundTo_reboundTo _ _ _ _).1 hb)
    rw [(NodePool.present_iff.1 (hholds.fingerprint hn rfl)).1]
    exact hk
  · intro h
    obtain ⟨id, hid, n, hn, rfl, hpn⟩ := exists_of_mem_left hr.resolved h
    exact ⟨n, hn, (boundTo_reboundTo _ _ _ _).2 hid, (NodePool.present_iff.1 hpn).1⟩

end Present

/-! ## 3. The transaction -/

section Transaction

variable {fingerprint : PooledNode → Except SourceError Str}

/-- `reconcile_source` with other sizes of its batches. -/
def reconcileSourceBy (lookup batch held : Nat) (fingerprint : PooledNode → Except SourceError Str)
    (input : ReconcileInput) (now : Timestamp) : Tx Db SourceError ReconcileResult := fun db => do
  let db ← publishSnapshot db input.sourceId input.snapshot
  let entries ← input.entries.mapM (withFingerprint fingerprint)
  let (nodes, bound, result) ← rebindBy lookup batch held db.nodes db.bindings input.sourceId entries
  let db ← bumpRevisionTx (replaceBindings { db with nodes } input.sourceId bound)
  let db := { db with snapshots := pruneSnapshots db.snapshots input.sourceId }
  let db ← completeIf input.jobId input.sourceId result now db
  return (result, db)

/-- **The sizes of the batches do not matter.** -/
theorem reconcileSourceBy_eq {lookup batch held : Nat} (hl : 0 < lookup) (hb : 0 < batch)
    (hh : 0 < held) (input : ReconcileInput) (now : Timestamp) :
    reconcileSourceBy lookup batch held fingerprint input now =
      reconcileSource fingerprint input now := by
  funext db
  simp only [reconcileSourceBy, reconcileSource, rebindBy_eq hl hb hh]

/-- Whether the job can be completed does not depend on what was counted. -/
theorem completeIf_succeeds {input : ReconcileInput} {result result' : ReconcileResult}
    {now : Timestamp} {db db' d : Db}
    (h : completeIf input.jobId input.sourceId result now db = .ok db') (hjobs : d.jobs = db.jobs) :
    Succeeds (completeIf input.jobId input.sourceId result' now d) := by
  unfold completeIf at h ⊢
  split at h
  · exact ⟨_, rfl⟩
  · obtain ⟨hlease, -⟩ := RefreshJobs.complete_eq_ok h
    rw [RefreshJobs.complete, if_pos]
    · exact ⟨_, rfl⟩
    · rw [hjobs]
      exact List.any_eq_true.2 hlease

/-- **With the entries in another order the transaction commits as well.** -/
theorem reconcileSource_reordered {input : ReconcileInput} {entries : List ReconcileEntry}
    {now : Timestamp} {db db' : Db} {r : ReconcileResult} (hdistinct : Distinct db.nodes)
    (hfresh : FreshIds db.nodes input.entries) (hperm : entries.Perm input.entries)
    (h : reconcileSource fingerprint input now db = .ok (r, db')) :
    Succeeds (reconcileSource fingerprint { input with entries } now db) := by
  obtain ⟨d, hpub, h⟩ := bind_eq_ok.1 h
  obtain ⟨⟨s, hs⟩, -, snapshots, -, rfl⟩ := publishSnapshot_eq_ok hpub
  obtain ⟨es, hes, h⟩ := bind_eq_ok.1 h
  obtain ⟨⟨nodes, bound, r'⟩, -, h⟩ := bind_eq_ok.1 h
  obtain ⟨b, hbump, h⟩ := bind_eq_ok.1 h
  obtain ⟨hb, hreplace⟩ := replaceBindings_eq { db with snapshots, nodes } bound hs
  obtain ⟨m, hrev, -, rfl⟩ := bumpRevisionTx_eq_ok (hreplace ▸ hbump)
  obtain ⟨c, hcomplete, -⟩ := bind_eq_ok.1 h
  -- each entry has its fingerprint, whatever the order
  have hmap : Succeeds (entries.mapM (withFingerprint fingerprint)) := by
    refine succeeds_mapM fun e he => ?_
    obtain ⟨x, -, hx⟩ := exists_of_mem_left (mapM_eq_ok.1 hes) (hperm.mem_iff.1 he)
    exact ⟨x, hx⟩
  have hfits : db.revision + 1 < 2 ^ 63 := by
    have hm := m.fits
    rw [hrev] at hm
    exact hm
  unfold reconcileSource
  refine Succeeds.bind ⟨_, hpub⟩ fun d₂ hd₂ => ?_
  obtain rfl := Except.ok.inj (hpub.symm.trans hd₂)
  refine hmap.bind fun es' hes' => ?_
  have hids : idsOf es' = (carried entries).map PooledNode.id := idsOf_eq hes'
  have hfresh' := hfresh.perm hperm
  refine Succeeds.bind (rebind_fresh hdistinct (hids ▸ hfresh'.nodup)
    fun x hx => hids ▸ hfresh'.fresh x hx) fun out hout => ?_
  obtain ⟨nodes₂, bound₂, r₂⟩ := out
  obtain ⟨hb₂, hreplace₂⟩ := replaceBindings_eq { db with snapshots, nodes := nodes₂ } bound₂ hs
  dsimp only
  rw [hreplace₂]
  refine Succeeds.bind (bumpRevisionTx_succeeds ?_) fun d₃ hd₃ => ?_
  · exact hfits
  obtain ⟨m₃, -, -, rfl⟩ := bumpRevisionTx_eq_ok hd₃
  refine Succeeds.bind (completeIf_succeeds hcomplete rfl) fun d₄ _ => ⟨_, rfl⟩

/-- What a committed reconciliation made of the nodes, with the fingerprints of its entries. -/
theorem reconcileSource_rebound {input : ReconcileInput} {now : Timestamp} {db db' : Db}
    {r : ReconcileResult} (hdistinct : Distinct db.nodes)
    (h : reconcileSource fingerprint input now db = .ok (r, db')) :
    ∃ es bound, input.entries.mapM (withFingerprint fingerprint) = .ok es ∧
      Rebound db.nodes db.bindings input.sourceId (fingerprintsOf es) db'.nodes bound r ∧
      db'.bindings = reboundTo db.bindings input.sourceId bound := by
  obtain ⟨es, bound, hes, hrebind, hbind⟩ := (reconcileSource_eq_ok fingerprint h).rebound
  exact ⟨es, bound, hes, rebind_rebound hdistinct hrebind, hbind⟩

/-- Two reconciliations with the same fingerprints leave the same fingerprints, and withdraw as
    many nodes. -/
theorem Rebound.same {nodes nodes₁ nodes₂ : Table NodeRow} {bindings : List Binding}
    {sourceId : SourceId} {fps₁ fps₂ : List Str} {bound₁ bound₂ : List NodeId}
    {r₁ r₂ : ReconcileResult} (hp : Provenance nodes bindings)
    (h₁ : Rebound nodes bindings sourceId fps₁ nodes₁ bound₁ r₁)
    (h₂ : Rebound nodes bindings sourceId fps₂ nodes₂ bound₂ r₂)
    (hfps : ∀ fp, fp ∈ fps₁ ↔ fp ∈ fps₂) :
    (∀ fp, (∃ n ∈ nodes₁, present fp n = true) ↔ ∃ n ∈ nodes₂, present fp n = true) ∧
      r₁.missingNodes = r₂.missingNodes := by
  constructor
  · intro fp
    rw [h₁.present_iff hp, h₂.present_iff hp, hfps]
  · rw [h₁.missing, h₂.missing]
    refine List.countP_congr fun n _ => ?_
    simp [hfps]

end Transaction

end NodePool

/-! ## 4. A reconciliation -/

open NodePool

/-- **A reconciliation counts every entry that carries a node once, binds the source to exactly
    the fingerprints of its entries, each with one node that is there; neither the order of the
    entries nor the batches matter; and the same fingerprints again change nothing.** -/
theorem reconcile_entries {W : World} {db db' : Db} {input : ReconcileInput} {now : Timestamp}
    {r : ReconcileResult} (hreach : Reachable W db) (hfresh : FreshIds db.nodes input.entries)
    (h : reconcileSource W.fingerprint input now db = .ok (r, db')) :
    r.newNodes + r.duplicateNodes + r.reactivatedNodes = (carried input.entries).length ∧
    (∀ fp, BoundFingerprint db' input.sourceId fp ↔
      HasFingerprint W.fingerprint input.entries fp) ∧
    (∀ fp, HasFingerprint W.fingerprint input.entries fp →
      ∃! n, n ∈ db'.nodes ∧ present fp n = true) ∧
    (∀ (lookup batch held : Nat) (entries : List ReconcileEntry), 0 < lookup → 0 < batch →
      0 < held → entries.Perm input.entries →
      ∃ r₂ db₂, reconcileSourceBy lookup batch held W.fingerprint { input with entries } now db =
          .ok (r₂, db₂) ∧
        (∀ fp, PresentFingerprint db₂ fp ↔ PresentFingerprint db' fp) ∧
        r₂.missingNodes = r.missingNodes) ∧
    (∀ (again : ReconcileInput) (later : Timestamp) (r' : ReconcileResult) (db'' : Db),
      again.sourceId = input.sourceId →
      (∀ fp, HasFingerprint W.fingerprint again.entries fp ↔
        HasFingerprint W.fingerprint input.entries fp) →
      reconcileSource W.fingerprint again later db' = .ok (r', db'') →
      db''.nodes = db'.nodes ∧ r' = ⟨0, (carried again.entries).length, 0, 0⟩) := by
  have hp := hreach.provenance
  obtain ⟨es, bound, hes, hr, hbind⟩ := reconcileSource_rebound hp.distinct h
  have hholds : ∀ fp, HasFingerprint W.fingerprint input.entries fp → ∃ id, Holds db'.nodes fp id := by
    intro fp hfp
    obtain ⟨id, -, hid⟩ := exists_of_mem_left hr.resolved ((mem_fingerprintsOf hes).2 hfp)
    exact ⟨id, hid⟩
  refine ⟨hr.counted.trans (length_fingerprintsOf hes), fun fp => ?_, fun fp hfp => ?_, ?_, ?_⟩
  · rw [← mem_fingerprintsOf hes, ← hr.bound_iff, BoundFingerprint, hbind]
  · obtain ⟨id, n, hn, -, hpn⟩ := hholds fp hfp
    exact ⟨n, ⟨hn, hpn⟩, fun m hm => hr.distinct.eq_of_present hm.1 hn hm.2 hpn⟩
  · intro lookup batch held entries hl hb hh hperm
    obtain ⟨⟨r₂, db₂⟩, h₂⟩ := reconcileSource_reordered hp.distinct hfresh hperm h
    obtain ⟨es₂, bound₂, hes₂, hr₂, -⟩ := reconcileSource_rebound hp.distinct h₂
    have hsame := hr₂.same hp hr fun fp => by
      rw [mem_fingerprintsOf hes₂, mem_fingerprintsOf hes, HasFingerprint.perm hperm]
    exact ⟨r₂, db₂, by rw [reconcileSourceBy_eq hl hb hh, h₂], hsame.1, hsame.2⟩
  · intro again later r' db'' hsource hfps h'
    obtain ⟨es', bound', hes', hrebind, -⟩ := (reconcileSource_eq_ok W.fingerprint h').rebound
    have hmem : ∀ fp, fp ∈ fingerprintsOf es' ↔ fp ∈ fingerprintsOf es := by
      intro fp
      rw [mem_fingerprintsOf hes', mem_fingerprintsOf hes, hfps]
    -- every fingerprint has its node, and what the source holds is among them
    obtain ⟨b, heq⟩ := rebind_present db'.bindings again.sourceId hr.distinct
      (fun fp hfp => hholds fp ((hfps fp).1 ((mem_fingerprintsOf hes').1 hfp)))
      (fun n hn hb => by
        rw [hsource, hbind, boundTo_reboundTo] at hb
        obtain ⟨fp, hfp, hid⟩ := exists_of_mem_right hr.resolved hb
        obtain ⟨hnfp, hm⟩ := present_iff.1 (hid.fingerprint hn rfl)
        exact ⟨hm, (hmem _).2 (hnfp ▸ hfp)⟩)
    rw [heq] at hrebind
    obtain ⟨hnodes, hrest⟩ := ok_pair_inj hrebind
    refine ⟨hnodes.symm, ?_⟩
    rw [← (Prod.mk.inj hrest).2, length_fingerprintsOf hes']

/-- Two entries that carry one node under two ids, and one that carries none. -/
def twinEntries : ReconcileInput :=
  ⟨1, none, ⟨6, 1, 1, 0, none, 2, false⟩, [some (.plain 3), none, some (.plain 4)]⟩

theorem reconcile_entries_twins :
    let db := Db.afterWrites World.named [.createSource (.plain 1)]
    let db' := Db.afterWrites World.named [.createSource (.plain 1), .reconcile twinEntries 0]
    reconcileSource World.named.fingerprint twinEntries 0 db = .ok (⟨1, 1, 0, 0⟩, db') ∧
    (∀ fp, BoundFingerprint db' 1 fp ↔ HasFingerprint World.named.fingerprint twinEntries.entries fp) ∧
    (∀ (again : ReconcileInput) (later : Timestamp) (r' : ReconcileResult) (db'' : Db),
      again.sourceId = 1 → (∀ fp, HasFingerprint World.named.fingerprint again.entries fp ↔
        HasFingerprint World.named.fingerprint twinEntries.entries fp) →
      reconcileSource World.named.fingerprint again later db' = .ok (r', db'') →
      db''.nodes = db'.nodes ∧ r' = ⟨0, (carried again.entries).length, 0, 0⟩) := by
  intro db db'
  have hrun : reconcileSource World.named.fingerprint twinEntries 0 db = .ok (⟨1, 1, 0, 0⟩, db') := rfl
  have hfresh : FreshIds db.nodes twinEntries.entries :=
    ⟨by decide, fun n hn => absurd hn (Table.not_mem_empty n)⟩
  have hall := reconcile_entries (reachable_afterWrites World.named _) hfresh hrun
  exact ⟨hrun, hall.2.1, hall.2.2.2.2⟩

end DeveSub
