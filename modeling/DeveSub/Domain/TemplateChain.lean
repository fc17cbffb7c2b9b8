/-
  File:      DeveSub/Domain/TemplateChain.lean
  Subject:   The graph of a template's proxy groups and its search for a cycle
             (`deve-sub-domain`: `template/chain.rs`).

  * `ChainGraph.fromGroups`, `ChainGraph.detectCycle` -- the graph and the search;
  * `mem_successors_fromGroups` -- its edges are those of the groups;
  * `detectCycle_eq_none_iff` -- no answer exactly without a cycle.
-/
import Mathlib.Data.Char
import Mathlib.Data.List.Lex
import Mathlib.Data.Sum.Order
import Mathlib.Order.Fin.Basic
import DeveSub.Domain.Graph
import DeveSub.Domain.Template

namespace DeveSub

/-! ## 1. The graph -/

/-- `ChainVertex`. -/
inductive ChainVertex where
  | group (name : Str)
  | node (id : NodeId)
  deriving DecidableEq

namespace ChainVertex

/-- The vertex as an element of the ordered sum: groups by name, then nodes by id. -/
def key : ChainVertex → Lex (Str ⊕ NodeId)
  | .group name => toLex (.inl name)
  | .node id => toLex (.inr id)

theorem key_injective : Function.Injective key := by
  intro a b h
  cases a with
  | group a => cases b with
    | group b => exact congrArg group (Sum.inl.inj (toLex.injective h))
    | node b => cases toLex.injective h
  | node a => cases b with
    | group b => cases toLex.injective h
    | node b => exact congrArg node (Sum.inr.inj (toLex.injective h))

/-- `compare_vertices`. -/
instance : LinearOrder ChainVertex := LinearOrder.lift' key key_injective

end ChainVertex

/-- `member_to_vertex`. -/
def memberToVertex : GroupMember → ChainVertex
  | .node id => .node id
  | .group name => .group name

/-- The groups a group refers to. -/
def groupReferences (g : ProxyGroup) : List Str :=
  g.members.filterMap fun
    | .node _ => none
    | .group name => some name

/-- The edges of one group, in the order in which they are added: to each group it refers to, and
    for a relay from each member to the next. -/
def groupEdges (g : ProxyGroup) : List (ChainVertex × ChainVertex) :=
  (groupReferences g).map (fun name => (.group g.name, .group name)) ++
    if g.groupType = .relay then
      (g.members.map memberToVertex).zip (g.members.map memberToVertex).tail
    else []

/-- `ChainGraph`: a map from each vertex to its successors. -/
structure ChainGraph where
  adjacency : List (ChainVertex × List ChainVertex)

namespace ChainGraph

/-- `adjacency.entry(from).or_default().push(to)`. -/
def push (adjacency : List (ChainVertex × List ChainVertex)) (edge : ChainVertex × ChainVertex) :
    List (ChainVertex × List ChainVertex) :=
  Graph.extendEntry adjacency edge.1 [edge.2]

/-- `from_groups`. -/
def fromGroups (groups : List ProxyGroup) : ChainGraph :=
  ⟨(groups.flatMap groupEdges).foldl push []⟩

/-- `detect_cycle`: the vertices of a `CyclePath`. -/
def detectCycle (g : ChainGraph) : Option (List ChainVertex) := Graph.firstCycle g.adjacency

/-! ## 2. Its edges -/

/-- **The edges of the graph are those of the groups.** -/
theorem mem_successors_fromGroups (groups : List ProxyGroup) (v w : ChainVertex) :
    w ∈ Graph.successors (fromGroups groups).adjacency v ↔ ∃ g ∈ groups, (v, w) ∈ groupEdges g := by
  have hedges := Graph.mem_successors_foldl Prod.fst (fun e => [e.2]) (groups.flatMap groupEdges)
    [] v w
  refine hedges.trans ?_
  simp [Graph.successors]

/-- **There is no answer exactly when the edges of the groups form no cycle.** -/
theorem detectCycle_eq_none_iff (groups : List ProxyGroup) :
    (fromGroups groups).detectCycle = none ↔
      ∀ v, ¬ Relation.TransGen (fun a b => ∃ g ∈ groups, (a, b) ∈ groupEdges g) v v := by
  have hedge : Graph.Edge (fromGroups groups).adjacency =
      fun a b => ∃ g ∈ groups, (a, b) ∈ groupEdges g := by
    funext a b
    exact propext (mem_successors_fromGroups groups a b)
  rw [detectCycle, Graph.firstCycle_eq_none_iff, hedge]

end ChainGraph

end DeveSub
