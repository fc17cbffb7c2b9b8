/-
  File:      DeveSub/Properties/PoolInvariant.lean
  Subject:   Where the nodes of the pool come from, in every reachable database.

  * `Provenance` -- a node is there exactly when it has a label of its own or a binding, and no two
    nodes that are there have one fingerprint;
  * `RowChange.provenance` -- every change of the rows keeps it;
  * `pool_provenance` -- so it holds whatever writes came before, and a write that fails changes
    neither nodes nor bindings nor the revision.
-/
import DeveSub.Application.PoolRows

namespace DeveSub

open NodePool

/-! ## 1. The invariant -/

/-- **Where nodes come from.** -/
structure Provenance (nodes : Table NodeRow) (bindings : List Binding) : Prop where
  present_iff : ∀ n ∈ nodes, n.missingFromSource = false ↔
    n.sourceLabel ≠ [] ∨ isBound bindings n.id = true
  distinct : Distinct nodes

theorem provenance_empty : Provenance Table.empty [] where
  present_iff n hn := absurd hn (Table.not_mem_empty n)
  distinct := distinct_empty

namespace Provenance

variable {nodes nodes' : Table NodeRow} {bindings : List Binding}

/-- A missing node has no binding. -/
theorem unbound (h : Provenance nodes bindings) {n : NodeRow} (hn : n ∈ nodes)
    (hm : n.missingFromSource = true) : isBound bindings n.id = false := by
  refine Bool.eq_false_of_not_eq_true fun hb => ?_
  have hpresent := (h.present_iff n hn).2 (.inr hb)
  rw [hm] at hpresent
  cases hpresent

theorem withdrawnBy_iff {id : SourceId} {n : NodeRow} :
    Sources.withdrawnBy bindings id n = true ↔
      n.sourceLabel = [] ∧ n.missingFromSource = false ∧ Sources.boundTo bindings n.id id = true ∧
        Sources.boundElsewhere bindings n.id id = false := by
  simp [Sources.withdrawnBy, and_assoc]

/-- A node that is not withdrawn with a source is there exactly when something else
    contributes it. -/
theorem present_without (h : Provenance nodes bindings) {id : SourceId} {n : NodeRow}
    (hn : n ∈ nodes) (hw : Sources.withdrawnBy bindings id n = false) :
    n.missingFromSource = false ↔
      n.sourceLabel ≠ [] ∨ Sources.boundElsewhere bindings n.id id = true := by
  rw [h.present_iff n hn, isBound_iff bindings id]
  constructor
  · intro hor
    rcases hor with hl | hto | helse
    · exact .inl hl
    · -- bound to the source alone and without a label, the node would be withdrawn
      by_contra hnot
      obtain ⟨hl, helse⟩ := not_or.1 hnot
      have hpresent := (h.present_iff n hn).2 (.inr ((isBound_iff bindings id _).2 (.inl hto)))
      have hwith := withdrawnBy_iff.2
        ⟨not_not.1 hl, hpresent, hto, Bool.eq_false_of_not_eq_true helse⟩
      rw [hw] at hwith
      cases hwith
    · exact .inr helse
  · intro hor
    exact hor.imp_right .inr

/-- **Deleting a source.** -/
theorem withdraw (h : Provenance nodes bindings) (id : SourceId) :
    Provenance
      (nodes.update (Sources.withdrawnBy bindings id) Sources.markMissing Sources.markMissing_key)
      (bindings.filter fun b => b.sourceId ≠ id) where
  distinct := h.distinct.marked
  present_iff x hx := by
    have hbound : ∀ i, isBound (bindings.filter fun b => b.sourceId ≠ id) i = true ↔
        Sources.boundElsewhere bindings i id = true := by
      intro i
      simpa [reboundTo] using isBound_reboundTo bindings id [] i
    obtain ⟨n, hn, rfl⟩ := Table.mem_update.1 hx
    by_cases hw : Sources.withdrawnBy bindings id n = true
    · obtain ⟨hl, -, -, helse⟩ := withdrawnBy_iff.1 hw
      rw [if_pos hw, hbound]
      simp [Sources.markMissing, hl, helse]
    · rw [if_neg hw, hbound]
      exact h.present_without hn (Bool.eq_false_of_not_eq_true hw)

/-- **Reconciling a source.** -/
theorem rebound (h : Provenance nodes bindings) {sourceId : SourceId} {fps : List Str}
    {bound : List NodeId} {result : ReconcileResult}
    (hr : Rebound nodes bindings sourceId fps nodes' bound result) :
    Provenance nodes' (reboundTo bindings sourceId bound) where
  distinct := hr.distinct
  present_iff x hx := by
    rw [isBound_reboundTo]
    by_cases hid : x.id ∈ bound
    · obtain ⟨fp, -, hholds⟩ := exists_of_mem_right hr.resolved hid
      exact ⟨fun _ => .inr (.inr hid), fun _ => (NodePool.present_iff.1 (hholds.fingerprint hx rfl)).2⟩
    · obtain ⟨n, hn, rfl⟩ := hr.old x hx hid
      by_cases hw : Sources.withdrawnBy bindings sourceId n = true
      · obtain ⟨hl, -, -, helse⟩ := withdrawnBy_iff.1 hw
        rw [if_pos hw] at hid ⊢
        have hid : n.id ∉ bound := hid
        simp [Sources.markMissing, hl, helse, hid]
      · rw [if_neg hw] at hid ⊢
        rw [h.present_without hn (Bool.eq_false_of_not_eq_true hw)]
        simp [hid]

/-- **Importing nodes.** -/
theorem kept (h : Provenance nodes bindings) (hk : Kept nodes nodes') :
    Provenance nodes' bindings where
  distinct := hk.distinct
  present_iff x hx := by
    rcases hk.labelled x hx with hx | ⟨hm, hl⟩
    · exact h.present_iff x hx
    · exact ⟨fun _ => .inl hl, fun _ => hm⟩

/-- **Setting a chain**: the columns of the invariant stay. -/
theorem chained (h : Provenance nodes bindings) (id : NodeId) (chain : Option (List NodeId)) :
    Provenance (nodes.update (fun n => n.id = id) (fun n => { n with chain }) fun _ => rfl)
      bindings := by
  have hold : ∀ x ∈ nodes.update (fun n => n.id = id) (fun n => { n with chain }) fun _ => rfl,
      ∃ n ∈ nodes, x.id = n.id ∧ x.missingFromSource = n.missingFromSource ∧
        x.sourceLabel = n.sourceLabel ∧ x.identityFingerprint = n.identityFingerprint := by
    intro x hx
    obtain ⟨n, hn, rfl⟩ := Table.mem_update.1 hx
    refine ⟨n, hn, ?_⟩
    split <;> exact ⟨rfl, rfl, rfl, rfl⟩
  constructor
  · intro x hx
    obtain ⟨n, hn, hid, hm, hl, -⟩ := hold x hx
    rw [hid, hm, hl]
    exact h.present_iff n hn
  · intro x hx y hy hxm hym hfp
    obtain ⟨n, hn, hxn, hnm, -, hnfp⟩ := hold x hx
    obtain ⟨m, hm, hym', hmm, -, hmfp⟩ := hold y hy
    have heq := h.distinct n hn m hm (hnm ▸ hxm) (hmm ▸ hym) (hnfp ▸ hmfp ▸ hfp)
    refine Table.eq_of_key hx hy (?_ : x.id = y.id)
    rw [hxn, hym', heq]

end Provenance

/-! ## 2. Every reachable database -/

/-- **Every change of the rows keeps the invariant.** -/
theorem RowChange.provenance {W : World} {db db' : Db} (h : RowChange W db db')
    (hp : Provenance db.nodes db.bindings) : Provenance db'.nodes db'.bindings := by
  cases h with
  | kept hnodes hbind =>
    rw [hnodes, hbind]
    exact hp
  | withdrawn id hnodes hbind =>
    rw [hnodes, hbind]
    exact hp.withdraw id
  | rebound sourceId entries bound result hnodes hbind =>
    rw [hbind]
    exact hp.rebound (rebind_rebound hp.distinct hnodes)
  | imported pairs r hnodes hbind =>
    rw [hnodes, hbind]
    exact hp.kept (importPairs_kept hp.distinct r pairs)
  | chained id chain hfound hchecked hnodes hbind =>
    rw [hnodes, hbind]
    exact hp.chained id chain

theorem Reachable.provenance {W : World} {db : Db} (h : Reachable W db) :
    Provenance db.nodes db.bindings :=
  h.invariant Provenance provenance_empty fun _ _ => RowChange.provenance

/-- **Whatever writes came before**, a node is there exactly when it has a label of its own or a
    binding, a missing node has no binding, one node at most is there for each fingerprint, and
    a write that fails leaves nodes, bindings and revision as they were. -/
theorem pool_provenance {W : World} {db : Db} (h : Reachable W db) :
    (∀ n ∈ db.nodes, n.missingFromSource = false ↔
      n.sourceLabel ≠ [] ∨ isBound db.bindings n.id = true) ∧
    (∀ n ∈ db.nodes, n.missingFromSource = true → isBound db.bindings n.id = false) ∧
    (∀ n ∈ db.nodes, ∀ m ∈ db.nodes, n.missingFromSource = false → m.missingFromSource = false →
      n.identityFingerprint = m.identityFingerprint → n = m) ∧
    ∀ (w : Write) (e : SourceError) (db' : Db), commit (w.run W) db = (.error e, db') →
      db'.nodes = db.nodes ∧ db'.bindings = db.bindings ∧ db'.revision = db.revision := by
  have hp := h.provenance
  refine ⟨hp.present_iff, fun n hn hm => hp.unbound hn hm, hp.distinct, fun w e db' hrun => ?_⟩
  rcases commit_eq hrun with ⟨a, ha, -⟩ | ⟨-, -, -, rfl⟩
  · cases ha
  · exact ⟨rfl, rfl, rfl⟩

/-- Two sources, a manual import, a reconciliation of each source, and the first one deleted. -/
def provenanceWrites : List Write :=
  [.createSource (.plain 1), .createSource { Source.plain 2 with name := "b" },
    .importNodes [.plain 3],
    .reconcile ⟨1, none, ⟨6, 1, 1, 0, none, 1, false⟩, [some (.plain 4), none]⟩ 0,
    .reconcile ⟨2, none, ⟨7, 2, 1, 0, none, 1, false⟩, [some (.plain 5)]⟩ 0,
    .deleteSource 1]

theorem pool_provenance_deleted :
    let db := Db.afterWrites World.plain provenanceWrites
    db.nodes.rows.map (fun n => (n.id, n.missingFromSource, n.sourceLabel)) =
      [(3, false, "manual".toList), (4, true, []), (5, false, [])] ∧
    (∀ n ∈ db.nodes, n.missingFromSource = false ↔
      n.sourceLabel ≠ [] ∨ isBound db.bindings n.id = true) := by
  refine ⟨by decide +kernel, ?_⟩
  exact (pool_provenance (reachable_afterWrites World.plain provenanceWrites)).1

end DeveSub
