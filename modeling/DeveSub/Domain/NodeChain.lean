/-
  File:      DeveSub/Domain/NodeChain.lean
  Subject:   The graph of node chains and its search for a cycle (`node_chain.rs`, `graph.rs`).

  * `NodeChainGraph.validateUpdate` -- the first cycle of the graph with a proposed chain;
  * `NodeChainGraph.validateUpdate_eq_some`, `NodeChainGraph.validateUpdate_eq_none_iff` -- it is a
    closed walk of that graph, and there is none exactly when the graph has no cycle.
-/
import DeveSub.Domain.Graph
import DeveSub.Domain.Source

namespace DeveSub

open CycleSearch

/-! ## 1. The graph -/

/-- `NodeChainGraph`: the map from each owner to the nodes of its chain. -/
structure NodeChainGraph where
  adjacency : List (NodeId × List NodeId)

namespace NodeChainGraph

/-- `from_chains`. -/
def fromChains (chains : List (NodeId × Option (List NodeId))) : NodeChainGraph :=
  ⟨chains.foldl (fun adjacency c => Graph.extendEntry adjacency c.1 (c.2.getD [])) []⟩

/-- `detect_cycle`: the nodes of a `NodeCyclePath`. -/
def detectCycle (g : NodeChainGraph) : Option (List NodeId) := Graph.firstCycle g.adjacency

/-- The chains with the one of a node replaced, or added. -/
def splice : List (NodeId × Option (List NodeId)) → NodeId → List NodeId →
    List (NodeId × Option (List NodeId))
  | [], id, chain => [(id, some chain)]
  | (key, old) :: rest, id, chain =>
    if key = id then (key, some chain) :: rest else (key, old) :: splice rest id chain

/-- `validate_update`. -/
def validateUpdate (existing : List (NodeId × List NodeId)) (nodeId : NodeId)
    (newChain : List NodeId) : Option (List NodeId) :=
  (fromChains (splice (existing.map fun e => (e.1, some e.2)) nodeId newChain)).detectCycle

/-! ## 2. Its edges -/

theorem mem_splice {chains : List (NodeId × Option (List NodeId))}
    (h : (chains.map Prod.fst).Nodup) (id : NodeId) (chain : List NodeId)
    {x : NodeId × Option (List NodeId)} :
    x ∈ splice chains id chain ↔ x = (id, some chain) ∨ x ∈ chains ∧ x.1 ≠ id := by
  induction chains with
  | nil => simp [splice]
  | cons e rest ih =>
    obtain ⟨key, old⟩ := e
    obtain ⟨hnew, hrest⟩ := List.nodup_cons.1 h
    by_cases hkey : key = id
    · subst hkey
      have hne : ∀ y ∈ rest, y.1 ≠ key := fun y hy heq => hnew (List.mem_map.2 ⟨y, hy, heq⟩)
      rw [splice, if_pos rfl, List.mem_cons, List.mem_cons]
      constructor
      · intro hx
        rcases hx with rfl | hx
        · exact .inl rfl
        · exact .inr ⟨.inr hx, hne x hx⟩
      · intro hx
        rcases hx with rfl | ⟨rfl | hx, hxk⟩
        · exact .inl rfl
        · exact absurd rfl hxk
        · exact .inr hx
    · rw [splice, if_neg hkey, List.mem_cons, ih hrest, List.mem_cons]
      constructor
      · intro hx
        rcases hx with rfl | hx | ⟨hx, hxk⟩
        · exact .inr ⟨.inl rfl, hkey⟩
        · exact .inl hx
        · exact .inr ⟨.inr hx, hxk⟩
      · intro hx
        rcases hx with hx | ⟨rfl | hx, hxk⟩
        · exact .inr (.inl hx)
        · exact .inl rfl
        · exact .inr (.inr ⟨hx, hxk⟩)

/-- An edge of the graph with the proposed chain. -/
def UpdatedEdge (existing : List (NodeId × List NodeId)) (nodeId : NodeId) (newChain : List NodeId)
    (a b : NodeId) : Prop :=
  a = nodeId ∧ b ∈ newChain ∨ a ≠ nodeId ∧ ∃ chain, (a, chain) ∈ existing ∧ b ∈ chain

/-- **The edges of the graph with the proposed chain.** -/
theorem edge_eq {existing : List (NodeId × List NodeId)} (h : (existing.map Prod.fst).Nodup)
    (nodeId : NodeId) (newChain : List NodeId) :
    Graph.Edge
        (fromChains (splice (existing.map fun e => (e.1, some e.2)) nodeId newChain)).adjacency =
      UpdatedEdge existing nodeId newChain := by
  have hkeys : ((existing.map fun e => (e.1, some e.2)).map Prod.fst).Nodup := by
    rw [List.map_map]
    exact h
  funext a b
  refine propext ((Graph.mem_successors_foldl Prod.fst (fun c => Option.getD c.2 []) _ [] a b).trans ?_)
  constructor
  · intro hab
    obtain ⟨c, hc, rfl, hb⟩ := hab.resolve_left List.not_mem_nil
    rcases (mem_splice hkeys nodeId newChain).1 hc with rfl | ⟨hc, hne⟩
    · exact .inl ⟨rfl, hb⟩
    · obtain ⟨e, he, rfl⟩ := List.mem_map.1 hc
      exact .inr ⟨hne, e.2, he, hb⟩
  · intro hab
    rcases hab with ⟨rfl, hb⟩ | ⟨hne, chain, hc, hb⟩
    · exact .inr ⟨_, (mem_splice hkeys a newChain).2 (.inl rfl), rfl, hb⟩
    · exact .inr ⟨(a, some chain), (mem_splice hkeys nodeId newChain).2
        (.inr ⟨List.mem_map.2 ⟨_, hc, rfl⟩, hne⟩), rfl, hb⟩

/-! ## 3. The search -/

/-- **A cycle that is answered** is a closed walk of the graph with the proposed chain. -/
theorem validateUpdate_eq_some {existing : List (NodeId × List NodeId)}
    (h : (existing.map Prod.fst).Nodup) {nodeId : NodeId} {newChain path : List NodeId}
    (hpath : validateUpdate existing nodeId newChain = some path) :
    ClosedWalk (UpdatedEdge existing nodeId newChain) path := by
  rw [← edge_eq h]
  obtain ⟨v, inner, rfl, -, hchain⟩ := Graph.firstCycle_simple _ hpath
  exact ⟨v, inner, rfl, hchain⟩

/-- **No cycle is answered** exactly when the graph with the proposed chain has none. -/
theorem validateUpdate_eq_none_iff {existing : List (NodeId × List NodeId)}
    (h : (existing.map Prod.fst).Nodup) {nodeId : NodeId} {newChain : List NodeId} :
    validateUpdate existing nodeId newChain = none ↔
      ∀ v, ¬ Relation.TransGen (UpdatedEdge existing nodeId newChain) v v := by
  rw [← edge_eq h]
  exact Graph.firstCycle_eq_none_iff _

end NodeChainGraph

end DeveSub
