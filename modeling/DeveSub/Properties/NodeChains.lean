/-
  File:      DeveSub/Properties/NodeChains.lean
  Subject:   The stored chains in every reachable database.

  * `Chains` -- every chain is non-empty, repeats no node, leaves out its owner and names nodes
    that exist, and the graph of all chains has no cycle;
  * `ChainsKept` -- what imports, reconciliations and deletions do to the chains: nothing;
  * `RowChange.chains` -- every change of the rows keeps the invariant;
  * `node_chains` -- so it holds whatever writes came before, a chain that would break it is refused,
    and a refused cycle is a closed walk of the graph with the proposed chain.
-/
import DeveSub.Application.PoolRows
import DeveSub.Domain.NodeChain

namespace DeveSub

open NodePool CycleSearch

/-! ## 1. The invariant -/

/-- An edge from the owner of a chain to a node in it. -/
def ChainEdge (nodes : Table NodeRow) (a b : NodeId) : Prop :=
  ∃ n ∈ nodes, n.id = a ∧ ∃ chain, n.chain = some chain ∧ b ∈ chain

/-- **The stored chains.** -/
structure Chains (nodes : Table NodeRow) : Prop where
  nonempty : ∀ n ∈ nodes, ∀ chain, n.chain = some chain → chain ≠ []
  nodup : ∀ n ∈ nodes, ∀ chain, n.chain = some chain → chain.Nodup
  owner : ∀ n ∈ nodes, ∀ chain, n.chain = some chain → n.id ∉ chain
  exist : ∀ n ∈ nodes, ∀ chain, n.chain = some chain → ∀ id ∈ chain, ∃ m ∈ nodes, m.id = id
  acyclic : ∀ v, ¬ Relation.TransGen (ChainEdge nodes) v v

theorem chains_empty : Chains Table.empty where
  nonempty n hn := absurd hn (Table.not_mem_empty n)
  nodup n hn := absurd hn (Table.not_mem_empty n)
  owner n hn := absurd hn (Table.not_mem_empty n)
  exist n hn := absurd hn (Table.not_mem_empty n)
  acyclic v hv := by
    obtain ⟨w, ⟨n, hn, -⟩, -⟩ := Relation.TransGen.head'_iff.1 hv
    exact Table.not_mem_empty n hn

/-! ## 2. Writes that set no chain -/

/-- Every chain is an old one of the same node, and no node is gone. -/
structure ChainsKept (nodes nodes' : Table NodeRow) : Prop where
  old : ∀ x ∈ nodes', x.chain = none ∨ ∃ n ∈ nodes, n.id = x.id ∧ n.chain = x.chain
  ids : ∀ n ∈ nodes, ∃ x ∈ nodes', x.id = n.id

namespace ChainsKept

variable {nodes nodes' : Table NodeRow}

theorem refl (nodes : Table NodeRow) : ChainsKept nodes nodes where
  old x hx := .inr ⟨x, hx, rfl, rfl⟩
  ids n hn := ⟨n, hn, rfl⟩

theorem trans {a b c : Table NodeRow} (hab : ChainsKept a b) (hbc : ChainsKept b c) :
    ChainsKept a c where
  old x hx := by
    rcases hbc.old x hx with hnone | ⟨y, hy, hid, hchain⟩
    · exact .inl hnone
    · rcases hab.old y hy with hnone | ⟨z, hz, hzid, hzchain⟩
      · exact .inl (hchain.symm.trans hnone)
      · exact .inr ⟨z, hz, hzid.trans hid, hzchain.trans hchain⟩
  ids n hn := by
    obtain ⟨y, hy, hid⟩ := hab.ids n hn
    obtain ⟨x, hx, hxid⟩ := hbc.ids y hy
    exact ⟨x, hx, hxid.trans hid⟩

/-- An update that leaves ids and chains alone. -/
theorem update {p : NodeRow → Bool} {f : NodeRow → NodeRow}
    {hf : ∀ n, Keyed.key (f n) = Keyed.key n} (hchain : ∀ n, (f n).chain = n.chain) :
    ChainsKept nodes (nodes.update p f hf) where
  old x hx := by
    obtain ⟨n, hn, rfl⟩ := Table.mem_update.1 hx
    refine .inr ⟨n, hn, ?_⟩
    split
    · exact ⟨(hf n).symm, (hchain n).symm⟩
    · exact ⟨rfl, rfl⟩
  ids n hn := Table.exists_mem_update p hf hn

/-- A new row without a chain. -/
theorem insert {row : NodeRow} (hins : nodes.insert row = some nodes') (hrow : row.chain = none) :
    ChainsKept nodes nodes' where
  old x hx := by
    rcases (Table.mem_insert hins).1 hx with hx | rfl
    · exact .inr ⟨x, hx, rfl, rfl⟩
    · exact .inl hrow
  ids n hn := ⟨n, (Table.mem_insert hins).2 (.inl hn), rfl⟩

theorem reconcileOne {p p' : Progress} {n : PooledNode} {fp : Str} {id : NodeId}
    (h : NodePool.reconcileOne p n fp = .ok (p', id)) : ChainsKept p.nodes p'.nodes := by
  rcases reconcileOne_cases h with ⟨-, rfl⟩ | ⟨-, rfl⟩ | ⟨-, -, nodes, hins, rfl⟩
  · dsimp only
    unfold reactivate
    exact update fun _ => rfl
  · exact refl _
  · exact insert (insertNode_eq_some hins) rfl

theorem reconcileBatch {entries : List (Option (PooledNode × Str))} {p p' : Progress}
    {bound bound' : List NodeId} (h : NodePool.reconcileBatch p bound entries = .ok (p', bound')) :
    ChainsKept p.nodes p'.nodes := by
  induction entries generalizing p bound with
  | nil =>
    obtain ⟨rfl, -⟩ := ok_pair_inj h
    exact refl _
  | cons entry rest ih =>
    cases entry with
    | none => exact ih h
    | some e =>
      obtain ⟨⟨q, id⟩, hone, h⟩ := bind_eq_ok.1 h
      exact (reconcileOne hone).trans (ih h)

theorem rebind {bindings : List Binding} {sourceId : SourceId}
    {entries : List (Option (PooledNode × Str))} {bound : List NodeId} {result : ReconcileResult}
    (h : NodePool.rebind nodes bindings sourceId entries = .ok (nodes', bound, result)) :
    ChainsKept nodes nodes' := by
  obtain ⟨⟨p, ids⟩, hloop, h⟩ := bind_eq_ok.1 h
  rw [reconcileBatches_eq] at hloop
  simp only [markMissingAll_eq, pure_eq_ok] at h
  have heq := Except.ok.inj h
  obtain ⟨rfl, -⟩ := Prod.mk.inj heq
  exact (reconcileBatch hloop).trans (update fun _ => rfl)

theorem retain (id : NodeId) (label : Str) :
    ChainsKept nodes (retainManualContribution nodes id label) := by
  unfold retainManualContribution
  exact update fun _ => rfl

theorem importOne (r : ImportResult) (n : PooledNode) (fp : Str) :
    ChainsKept nodes (NodePool.importOne nodes r n fp).1 := by
  rcases importOne_cases nodes r n fp with ⟨e, -, -, heq⟩ | ⟨-, ⟨e, -, -, heq⟩ |
    ⟨nodes', hins, heq⟩ | ⟨-, heq⟩⟩ <;> rw [heq]
  · exact retain _ _
  · exact retain _ _
  · exact insert hins rfl
  · exact refl _

theorem importPairs (r : ImportResult) (pairs : List (PooledNode × Str)) :
    ChainsKept nodes (NodePool.importPairs nodes r pairs).1 := by
  induction pairs generalizing nodes r with
  | nil => exact refl _
  | cons x rest ih => exact (importOne r x.1 x.2).trans (ih _)

/-- **Kept chains stay sound.** -/
theorem chains (hk : ChainsKept nodes nodes') (h : Chains nodes) : Chains nodes' := by
  have hold : ∀ x ∈ nodes', ∀ chain, x.chain = some chain →
      ∃ n ∈ nodes, n.id = x.id ∧ n.chain = some chain := by
    intro x hx chain hc
    rcases hk.old x hx with hnone | ⟨n, hn, hid, hchain⟩
    · rw [hnone] at hc
      cases hc
    · exact ⟨n, hn, hid, hchain.trans hc⟩
  constructor
  · intro x hx chain hc
    obtain ⟨n, hn, -, hchain⟩ := hold x hx chain hc
    exact h.nonempty n hn chain hchain
  · intro x hx chain hc
    obtain ⟨n, hn, -, hchain⟩ := hold x hx chain hc
    exact h.nodup n hn chain hchain
  · intro x hx chain hc
    obtain ⟨n, hn, hid, hchain⟩ := hold x hx chain hc
    exact hid ▸ h.owner n hn chain hchain
  · intro x hx chain hc id hmem
    obtain ⟨n, hn, -, hchain⟩ := hold x hx chain hc
    obtain ⟨m, hm, rfl⟩ := h.exist n hn chain hchain id hmem
    exact hk.ids m hm
  · intro v hv
    refine h.acyclic v (hv.lift id fun a b hab => ?_)
    obtain ⟨x, hx, rfl, chain, hc, hb⟩ := hab
    obtain ⟨n, hn, hid, hchain⟩ := hold x hx chain hc
    exact ⟨n, hn, hid, chain, hchain, hb⟩

end ChainsKept

/-! ## 3. Setting a chain -/

theorem chained_id (chain : Option (List NodeId)) (n : NodeRow) :
    Keyed.key { n with chain } = Keyed.key n :=
  rfl

/-- The nodes with the chain of one of them replaced. -/
def withChain (nodes : Table NodeRow) (id : NodeId) (chain : Option (List NodeId)) : Table NodeRow :=
  nodes.update (fun n => n.id = id) (fun n => { n with chain }) (chained_id chain)

theorem mem_withChain {nodes : Table NodeRow} {id : NodeId} {chain : Option (List NodeId)}
    {x : NodeRow} : x ∈ withChain nodes id chain ↔
      ∃ n ∈ nodes, (if n.id = id then { n with chain } else n) = x := by
  refine Table.mem_update.trans ?_
  simp only [decide_eq_true_eq]

namespace NodeOverrides

theorem firstRepeat_eq_none {seen ids : List NodeId} (h : firstRepeat seen ids = none) :
    ids.Nodup ∧ ∀ id ∈ ids, id ∉ seen := by
  induction ids generalizing seen with
  | nil => exact ⟨List.nodup_nil, fun id hid => by cases hid⟩
  | cons a rest ih =>
    rw [firstRepeat] at h
    split at h
    · cases h
    · rename_i hnot
      obtain ⟨hnodup, hfresh⟩ := ih h
      refine ⟨List.nodup_cons.2 ⟨fun ha => hfresh a ha List.mem_cons_self, hnodup⟩, ?_⟩
      intro id hid
      rcases List.mem_cons.1 hid with rfl | hid
      · exact fun hmem => hnot (List.contains_iff_mem.2 hmem)
      · exact fun hmem => hfresh id hid (List.mem_cons_of_mem _ hmem)

theorem validateStructure_eq_ok {self : NodeId} {ids : List NodeId}
    (h : validateStructure self ids = .ok ()) : ids ≠ [] ∧ self ∉ ids ∧ ids.Nodup := by
  obtain ⟨_, hempty, h⟩ := bind_eq_ok.1 h
  obtain ⟨_, hself, h⟩ := bind_eq_ok.1 h
  have hempty := rejectWhen_eq_ok.1 hempty
  have hself := rejectWhen_eq_ok.1 hself
  split at h
  · rename_i hrepeat
    refine ⟨?_, ?_, (firstRepeat_eq_none hrepeat).1⟩
    · rintro rfl
      cases hempty
    · intro hmem
      rw [List.contains_iff_mem.2 hmem] at hself
      cases hself
  · cases h

/-- The chains that the search reads. -/
def storedChains (nodes : Table NodeRow) : List (NodeId × List NodeId) :=
  nodes.rows.filterMap fun n => n.chain.map fun c => (n.id, c)

theorem mem_storedChains {nodes : Table NodeRow} {id : NodeId} {chain : List NodeId} :
    (id, chain) ∈ storedChains nodes ↔ ∃ n ∈ nodes, n.id = id ∧ n.chain = some chain := by
  simp only [storedChains, List.mem_filterMap, Option.map_eq_some_iff, Prod.mk.injEq]
  constructor
  · intro h
    obtain ⟨n, hn, c, hc, hid, rfl⟩ := h
    exact ⟨n, hn, hid, hc⟩
  · intro h
    obtain ⟨n, hn, hid, hc⟩ := h
    exact ⟨n, hn, chain, hc, hid, rfl⟩

theorem storedChains_nodup (nodes : Table NodeRow) : ((storedChains nodes).map Prod.fst).Nodup := by
  refine nodes.unique.sublist ?_
  unfold storedChains
  induction nodes.rows with
  | nil => exact .slnil
  | cons n rows ih =>
    cases hc : n.chain with
    | none =>
      rw [List.filterMap_cons, hc]
      exact ih.cons _
    | some c =>
      rw [List.filterMap_cons, hc]
      exact ih.cons_cons _

/-- The structural checks know of no cycle. -/
theorem validateStructure_ne_cycle (self : NodeId) (ids path : List NodeId) :
    validateStructure self ids ≠ .error (.cycle path) := by
  unfold validateStructure
  intro h
  cases hempty : ids.isEmpty with
  | true =>
    rw [hempty] at h
    cases h
  | false =>
    cases hself : ids.contains self with
    | true =>
      rw [hempty, hself] at h
      cases h
    | false =>
      rw [hempty, hself] at h
      simp only [rejectWhen_false, ok_bind] at h
      split at h <;> cases h

section Check

variable {db : Db} {nodeId : NodeId} {ids : List NodeId}

/-- **A chain that passes.** -/
theorem checkChain_eq_ok (h : checkChain NodeChainGraph.validateUpdate db nodeId ids = .ok ()) :
    ids ≠ [] ∧ nodeId ∉ ids ∧ ids.Nodup ∧ (∀ id ∈ ids, ∃ m ∈ db.nodes, m.id = id) ∧
      NodeChainGraph.validateUpdate (storedChains db.nodes) nodeId ids = none := by
  obtain ⟨_, hstructure, h⟩ := bind_eq_ok.1 h
  obtain ⟨hempty, hself, hnodup⟩ := validateStructure_eq_ok (mapError_eq_ok.1 hstructure)
  split at h
  · cases h
  rename_i hall
  dsimp only at h
  split at h
  · cases h
  rename_i hcycle
  refine ⟨hempty, hself, hnodup, fun id hid => ?_, hcycle⟩
  have hfound := List.find?_eq_none.1 hall id hid
  rw [Option.isNone_iff_eq_none] at hfound
  obtain ⟨m, hm⟩ := Option.ne_none_iff_exists'.1 hfound
  exact ⟨m, Table.find_eq_some.1 hm⟩

/-- **A chain that is refused for a cycle.** -/
theorem checkChain_eq_cycle {path : List NodeId}
    (h : checkChain NodeChainGraph.validateUpdate db nodeId ids =
      .error (.nodeChain (.cycle path))) :
    NodeChainGraph.validateUpdate (storedChains db.nodes) nodeId ids = some path := by
  unfold checkChain at h
  cases hstructure : validateStructure nodeId ids with
  | error e =>
    rw [hstructure] at h
    cases h
    exact absurd hstructure (validateStructure_ne_cycle nodeId ids path)
  | ok u =>
    rw [hstructure] at h
    simp only [Except.mapError, ok_bind] at h
    split at h
    · cases h
    · split at h
      · rename_i p hp
        cases h
        exact hp
      · cases h

end Check

end NodeOverrides

open NodeOverrides

/-- The edges with the chain of a node in place, as the search sees them. -/
theorem chainEdge_withChain {nodes : Table NodeRow} {nodeId : NodeId} {ids : List NodeId}
    (hfound : ∃ n ∈ nodes, n.id = nodeId) :
    ChainEdge (withChain nodes nodeId (some ids)) =
      NodeChainGraph.UpdatedEdge (storedChains nodes) nodeId ids := by
  funext a b
  refine propext ⟨fun h => ?_, fun h => ?_⟩
  · obtain ⟨x, hx, rfl, chain, hc, hb⟩ := h
    obtain ⟨n, hn, rfl⟩ := mem_withChain.1 hx
    by_cases hid : n.id = nodeId
    · rw [if_pos hid] at hc ⊢
      obtain rfl := Option.some.inj hc
      exact .inl ⟨hid, hb⟩
    · rw [if_neg hid] at hc ⊢
      exact .inr ⟨hid, chain, mem_storedChains.2 ⟨n, hn, rfl, hc⟩, hb⟩
  · rcases h with ⟨rfl, hb⟩ | ⟨hne, chain, hc, hb⟩
    · obtain ⟨n, hn, rfl⟩ := hfound
      exact ⟨_, mem_withChain.2 ⟨n, hn, rfl⟩, by rw [if_pos rfl], ids, by rw [if_pos rfl], hb⟩
    · obtain ⟨n, hn, rfl, hchain⟩ := mem_storedChains.1 hc
      exact ⟨n, mem_withChain.2 ⟨n, hn, if_neg hne⟩, rfl, chain, hchain, hb⟩

/-- **A chain that passes the checks keeps the invariant.** -/
theorem Chains.withChain {db : Db} (h : Chains db.nodes) {nodeId : NodeId} {ids : List NodeId}
    (hfound : ∃ n ∈ db.nodes, n.id = nodeId)
    (hcheck : checkChain NodeChainGraph.validateUpdate db nodeId ids = .ok ()) :
    Chains (withChain db.nodes nodeId (some ids)) := by
  obtain ⟨hempty, hself, hnodup, hexist, hcycle⟩ := checkChain_eq_ok hcheck
  have hchain : ∀ x ∈ DeveSub.withChain db.nodes nodeId (some ids), ∀ chain,
      x.chain = some chain → x.id = nodeId ∧ chain = ids ∨ x ∈ db.nodes := by
    intro x hx chain hc
    obtain ⟨n, hn, rfl⟩ := mem_withChain.1 hx
    by_cases hid : n.id = nodeId
    · rw [if_pos hid] at hc ⊢
      exact .inl ⟨hid, (Option.some.inj hc).symm⟩
    · rw [if_neg hid]
      exact .inr hn
  have hids : ∀ n ∈ db.nodes, ∃ m ∈ DeveSub.withChain db.nodes nodeId (some ids), m.id = n.id := by
    intro n hn
    refine ⟨_, mem_withChain.2 ⟨n, hn, rfl⟩, ?_⟩
    split <;> rfl
  constructor
  · intro x hx chain hc
    rcases hchain x hx chain hc with ⟨-, rfl⟩ | hx
    · exact hempty
    · exact h.nonempty x hx chain hc
  · intro x hx chain hc
    rcases hchain x hx chain hc with ⟨-, rfl⟩ | hx
    · exact hnodup
    · exact h.nodup x hx chain hc
  · intro x hx chain hc
    rcases hchain x hx chain hc with ⟨hid, rfl⟩ | hx
    · exact hid ▸ hself
    · exact h.owner x hx chain hc
  · intro x hx chain hc id hid
    have hm : ∃ m ∈ db.nodes, m.id = id := by
      rcases hchain x hx chain hc with ⟨-, rfl⟩ | hx
      · exact hexist id hid
      · exact h.exist x hx chain hc id hid
    obtain ⟨m, hm, rfl⟩ := hm
    exact hids m hm
  · rw [chainEdge_withChain hfound]
    exact (NodeChainGraph.validateUpdate_eq_none_iff (storedChains_nodup _)).1 hcycle

/-- A chain that is taken away keeps it too. -/
theorem Chains.withoutChain {nodes : Table NodeRow} (h : Chains nodes) (nodeId : NodeId) :
    Chains (DeveSub.withChain nodes nodeId none) := by
  refine ChainsKept.chains ⟨fun x hx => ?_, fun n hn => ?_⟩ h
  · obtain ⟨n, hn, rfl⟩ := mem_withChain.1 hx
    split
    · exact .inl rfl
    · exact .inr ⟨n, hn, rfl, rfl⟩
  · refine ⟨_, mem_withChain.2 ⟨n, hn, rfl⟩, ?_⟩
    split <;> rfl

/-! ## 4. Every reachable database -/

/-- A world whose search for a cycle is the one of the source. -/
def World.searching (W : World) : World := { W with findCycle := NodeChainGraph.validateUpdate }

/-- **Every change of the rows keeps the chains sound.** -/
theorem RowChange.chains {W : World} {db db' : Db} (h : RowChange W.searching db db')
    (hc : Chains db.nodes) : Chains db'.nodes := by
  cases h with
  | kept hnodes _ =>
    rw [hnodes]
    exact hc
  | withdrawn id hnodes _ =>
    rw [hnodes]
    exact ChainsKept.chains (ChainsKept.update fun _ => rfl) hc
  | rebound sourceId entries bound result hnodes _ => exact (ChainsKept.rebind hnodes).chains hc
  | imported pairs r hnodes _ =>
    rw [hnodes]
    exact (ChainsKept.importPairs r pairs).chains hc
  | chained nodeId chain hfound hchecked hnodes _ =>
    rw [hnodes]
    cases chain with
    | none => exact hc.withoutChain nodeId
    | some ids => exact hc.withChain hfound (hchecked ids rfl)

theorem Reachable.chains {W : World} {db : Db} (h : Reachable W.searching db) : Chains db.nodes :=
  h.invariant (fun nodes _ => Chains nodes) chains_empty fun _ _ => RowChange.chains

theorem setChainChecked_nodes
    {findCycle : List (NodeId × List NodeId) → NodeId → List NodeId → Option (List NodeId)}
    {nodeId : NodeId} {chain : Option (List NodeId)} {db db' : Db} {r : Unit}
    (h : setChainChecked findCycle nodeId chain db = .ok (r, db')) :
    db'.nodes = withChain db.nodes nodeId chain :=
  (setChainChecked_eq_ok h).2.2.nodes_eq

/-- A refused write for a cycle, and where it comes from. -/
theorem setChainChecked_cycle {nodeId : NodeId} {chain : Option (List NodeId)} {db : Db}
    {path : List NodeId}
    (h : setChainChecked NodeChainGraph.validateUpdate nodeId chain db =
      .error (.nodeChain (.cycle path))) :
    (∃ n ∈ db.nodes, n.id = nodeId) ∧ ∃ ids, chain = some ids ∧
      NodeChainGraph.validateUpdate (storedChains db.nodes) nodeId ids = some path := by
  have hbumped : ∀ d : Db, bumped () d ≠ .error (.nodeChain (.cycle path)) := by
    intro d hd
    unfold bumped bumpRevisionTx at hd
    split at hd <;> cases hd
  unfold setChainChecked at h
  split at h
  · cases h
  rename_i n hn
  refine ⟨⟨n, Table.find_eq_some.1 hn⟩, ?_⟩
  cases chain with
  | none => exact absurd h (hbumped _)
  | some ids =>
    refine ⟨ids, rfl, ?_⟩
    cases hcheck : checkChain NodeChainGraph.validateUpdate db nodeId ids with
    | error e =>
      simp only [Option.map_some, Option.getD_some, hcheck, error_bind] at h
      rw [Except.error.inj h] at hcheck
      exact checkChain_eq_cycle hcheck
    | ok u =>
      simp only [Option.map_some, Option.getD_some, hcheck, ok_bind] at h
      exact absurd h (hbumped _)

/-- **The chains of every reachable database** are sound; a chain that would break this is
    refused with nothing changed; and a refusal for a cycle names a closed walk of the graph with
    the proposed chain in place. -/
theorem node_chains {W : World} {db : Db} (h : Reachable W.searching db) :
    Chains db.nodes ∧
    (∀ (nodeId : NodeId) (chain : Option (List NodeId)),
      ¬ Chains (withChain db.nodes nodeId chain) →
      ∃ e, commit ((Write.setChain nodeId chain).run W.searching) db = (.error e, db)) ∧
    (∀ (nodeId : NodeId) (chain : Option (List NodeId)) (path : List NodeId) (db' : Db),
      commit ((Write.setChain nodeId chain).run W.searching) db =
        (.error (.nodeChain (.cycle path)), db') →
      db' = db ∧ ClosedWalk (ChainEdge (withChain db.nodes nodeId chain)) path) := by
  have hc := h.chains
  refine ⟨hc, fun nodeId chain hbreaks => ?_, fun nodeId chain path db' hrun => ?_⟩
  · obtain ⟨r, db', hrun⟩ : ∃ r db', commit ((Write.setChain nodeId chain).run W.searching) db =
        (r, db') := ⟨_, _, rfl⟩
    rcases commit_eq hrun with ⟨a, -, hok⟩ | ⟨e, rfl, -, rfl⟩
    · have hkept := RowChange.chains (Write.run_rows hok) hc
      rw [setChainChecked_nodes hok] at hkept
      exact absurd hkept hbreaks
    · exact ⟨e, hrun⟩
  · rcases commit_eq hrun with ⟨a, ha, -⟩ | ⟨e, he, hfail, rfl⟩
    · cases ha
    · obtain rfl := Except.error.inj he
      obtain ⟨hfound, ids, rfl, hpath⟩ := setChainChecked_cycle hfail
      refine ⟨rfl, ?_⟩
      rw [chainEdge_withChain hfound]
      exact NodeChainGraph.validateUpdate_eq_some (storedChains_nodup _) hpath

/-- Three nodes, the first chained through the second and the second through the third. -/
def chainedWrites : List Write :=
  [.importNodes [.plain 1, .plain 2, .plain 3], .setChain 1 (some [2]), .setChain 2 (some [3])]

theorem node_chains_refused :
    let db := Db.afterWrites World.plain.searching chainedWrites
    db.nodes.rows.map NodeRow.chain = [some [2], some [3], none] ∧
    commit ((Write.setChain 3 (some [1])).run World.plain.searching) db =
      (.error (.nodeChain (.cycle [1, 2, 3, 1])), db) ∧
    ClosedWalk (ChainEdge (withChain db.nodes 3 (some [1]))) [1, 2, 3, 1] := by
  intro db
  have hrun : commit ((Write.setChain 3 (some [1])).run World.plain.searching) db =
      (.error (.nodeChain (.cycle [1, 2, 3, 1])), db) := by
    have hreply : (commit ((Write.setChain 3 (some [1])).run World.plain.searching) db).1.map
        (fun _ => ()) = .error (.nodeChain (.cycle [1, 2, 3, 1])) := by
      decide +kernel
    rcases commit_eq (Prod.eta _).symm with ⟨a, ha, -⟩ | ⟨e, he, -, hdb⟩
    · rw [ha] at hreply
      cases hreply
    · rw [he] at hreply
      cases hreply
      exact Prod.ext he hdb
  refine ⟨by decide +kernel, hrun, ?_⟩
  exact ((node_chains (reachable_afterWrites World.plain.searching chainedWrites)).2.2 _ _ _ _
    hrun).2

end DeveSub
