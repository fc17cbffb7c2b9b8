/-
  File:      DeveSub/Domain/Graph.lean
  Subject:   `first_cycle` on adjacency lists (`graph.rs`): the explicit search in the order of the
             vertices, and the recursive one it took the place of.

  The map is a list of its entries, in the order in which it is iterated. Sorting is by a total
  order, so an unstable sort is one, too.

  * `firstCycle`, `recursiveCycle` -- the two searches;
  * `firstCycle_eq_none_iff`, `firstCycle_simple` -- no answer exactly without a cycle, and an
    answer repeats only its first vertex;
  * `recursiveCycle_eq` -- the recursive search answers the same;
  * **`first_cycle_correct`**.
-/
import Mathlib.Data.List.Sort
import DeveSub.Lib.CycleRecursion

namespace DeveSub.Graph

variable {V : Type} [LinearOrder V]

/-! ## 1. The searches -/

/-- `adjacency.get(node)`, flattened. -/
def successors (entries : List (V × List V)) (v : V) : List V :=
  ((entries.find? fun e => e.1 = v).map Prod.snd).getD []

/-- The keys, sorted. -/
def roots (entries : List (V × List V)) : List V := (entries.map Prod.fst).insertionSort (· ≤ ·)

/-- The sorted neighbours of a frame. -/
def neighbors (entries : List (V × List V)) (v : V) : List V :=
  (successors entries v).insertionSort (· ≤ ·)

/-- **`first_cycle`.** -/
def firstCycle (entries : List (V × List V)) : Option (List V) :=
  CycleSearch.firstCycle (roots entries) (neighbors entries)

/-- The recursive search, `recursive_cycle` at each root; `none` when the fuel runs out. -/
def recursiveCycle (entries : List (V × List V)) (fuel : Nat) : Option (Option (List V)) :=
  CycleSearch.visitEach (neighbors entries) fuel (roots entries) fun _ => none

/-- An edge. -/
def Edge (entries : List (V × List V)) (a b : V) : Prop := b ∈ successors entries a

/-- A cycle: its first vertex comes again at the end, no other does. -/
def SimpleCycle (R : V → V → Prop) (cycle : List V) : Prop :=
  ∃ v inner, cycle = v :: (inner ++ [v]) ∧ (v :: inner).Nodup ∧ cycle.IsChain R

/-- `adjacency.entry(v).or_default().extend(targets)`. -/
def extendEntry : List (V × List V) → V → List V → List (V × List V)
  | [], v, targets => [(v, targets)]
  | (key, old) :: rest, v, targets =>
    if key = v then (key, old ++ targets) :: rest else (key, old) :: extendEntry rest v targets

theorem successors_extendEntry (entries : List (V × List V)) (a : V) (targets : List V) (v : V) :
    successors (extendEntry entries a targets) v =
      successors entries v ++ if a = v then targets else [] := by
  induction entries with
  | nil => by_cases hv : a = v <;> simp [extendEntry, successors, hv]
  | cons e rest ih =>
    obtain ⟨key, old⟩ := e
    by_cases hkey : key = a
    · subst hkey
      by_cases hv : key = v <;> simp [extendEntry, successors, hv]
    · by_cases hv : key = v
      · subst hv
        simp [extendEntry, successors, hkey, Ne.symm hkey]
      · have hcons : ∀ l, successors ((key, old) :: l) v = successors l v := by
          intro l
          simp [successors, hv]
        rw [extendEntry, if_neg hkey, hcons, ih, hcons]

/-- The edges of a map that is built entry by entry. -/
theorem mem_successors_foldl {α : Type} (key : α → V) (targets : α → List V) (l : List α)
    (entries : List (V × List V)) (v w : V) :
    w ∈ successors (l.foldl (fun entries x => extendEntry entries (key x) (targets x)) entries) v ↔
      w ∈ successors entries v ∨ ∃ x ∈ l, key x = v ∧ w ∈ targets x := by
  induction l generalizing entries with
  | nil => simp
  | cons x l ih =>
    rw [List.foldl_cons, ih, successors_extendEntry, List.mem_append, or_assoc]
    refine or_congr_right ?_
    by_cases hv : key x = v <;> simp [hv]

/-! ## 2. The answer -/

variable (entries : List (V × List V))

theorem edge_neighbors : CycleSearch.Edge (neighbors entries) = Edge entries := by
  funext a b
  exact propext (List.mem_insertionSort _)

/-- A vertex that is no key has no neighbours. -/
theorem neighbors_of_not_root (v : V) (h : v ∉ roots entries) : neighbors entries v = [] := by
  have hfind : entries.find? (fun e => e.1 = v) = none := by
    rw [List.find?_eq_none]
    intro e he heq
    refine h ((List.mem_insertionSort _).2 (List.mem_map.2 ⟨e, he, ?_⟩))
    simpa using heq
  unfold neighbors successors
  rw [hfind]
  rfl

/-- **There is no answer exactly when there is no cycle.** -/
theorem firstCycle_eq_none_iff :
    firstCycle entries = none ↔ ∀ v, ¬ Relation.TransGen (Edge entries) v v := by
  unfold firstCycle
  rw [CycleSearch.firstCycle_eq_none_iff (neighbors_of_not_root entries), edge_neighbors]

/-- **An answer is a cycle that repeats only its first vertex.** -/
theorem firstCycle_simple {cycle : List V} (h : firstCycle entries = some cycle) :
    SimpleCycle (Edge entries) cycle := by
  have hwalk := CycleSearch.firstCycle_eq_some (neighbors_of_not_root entries) h
  have hnodup : cycle.dropLast.Nodup := by
    refine CycleSearch.visitRoots_dropLast_nodup
      ((CycleSearch.visitRoots_eq_firstCycle (neighbors_of_not_root entries) (Nat.le_refl _)).trans ?_)
    exact congrArg some h
  rw [edge_neighbors] at hwalk
  obtain ⟨v, inner, rfl, hchain⟩ := hwalk
  refine ⟨v, inner, rfl, ?_, hchain⟩
  rwa [← List.cons_append, List.dropLast_concat] at hnodup

/-- The keys and all of their neighbours. -/
def vertexCount : Nat := (CycleSearch.vertices (roots entries) (neighbors entries)).length

/-- **The recursive search answers the same**, once it may go as deep as there are vertices. -/
theorem recursiveCycle_eq {fuel : Nat} (hfuel : vertexCount entries ≤ fuel) :
    recursiveCycle entries fuel = some (firstCycle entries) := by
  have hroots := neighbors_of_not_root entries
  obtain ⟨x, hx⟩ := CycleSearch.visitEach_ends (fun _ _ => CycleSearch.mem_vertices hroots) hfuel
    (roots entries) (fun v hv => List.mem_dedup.2 (List.mem_append_left _ hv)) fun _ => none
  have hsame := CycleSearch.visitEach_eq
    (CycleSearch.visitRoots_eq_firstCycle hroots (Nat.le_refl _)) hx
  exact hx.trans (congrArg some hsame)

/-! ## 3. The order of the map -/

/-- Two lists of the same vertices are sorted into one. -/
theorem insertionSort_eq_of_perm {l l' : List V} (h : l.Perm l') :
    l.insertionSort (· ≤ ·) = l'.insertionSort (· ≤ ·) := by
  refine List.Perm.eq_of_pairwise' (List.pairwise_insertionSort _ l) (List.pairwise_insertionSort _ l') ?_
  exact ((List.perm_insertionSort _ l).trans h).trans (List.perm_insertionSort _ l').symm

/-- **The order in which the map and the neighbour lists are iterated does not matter.** -/
theorem firstCycle_congr {entries entries' : List (V × List V)}
    (hkeys : (entries.map Prod.fst).Perm (entries'.map Prod.fst))
    (hlists : ∀ v, (successors entries v).Perm (successors entries' v)) :
    firstCycle entries = firstCycle entries' := by
  have hroots : roots entries = roots entries' := insertionSort_eq_of_perm hkeys
  have hneighbors : neighbors entries = neighbors entries' :=
    funext fun v => insertionSort_eq_of_perm (hlists v)
  unfold firstCycle
  rw [hroots, hneighbors]

/-! ## 4. The result -/

/-- A map from vertices to neighbour lists, as its entries in the order of iteration. -/
structure Adjacency (V : Type) where
  entries : List (V × List V)
  distinct : (entries.map Prod.fst).Nodup

/-- The same keys with the same neighbours, both in any order. -/
structure Adjacency.Same (g g' : Adjacency V) : Prop where
  keys : ∀ v, v ∈ g.entries.map Prod.fst ↔ v ∈ g'.entries.map Prod.fst
  lists : ∀ v, (successors g.entries v).Perm (successors g'.entries v)

/-- **`first_cycle` is right on every graph.** Its loop ends; it answers nothing exactly when there
    is no cycle; an answer follows edges back to its first vertex and repeats no other; the order
    of the map and of the lists does not matter; and the recursive search answers the same. -/
theorem first_cycle_correct (g : Adjacency V) :
    (∀ fuel, CycleSearch.enough (roots g.entries) (neighbors g.entries) ≤ fuel →
      CycleSearch.visitRoots (neighbors g.entries) fuel (roots g.entries) (fun _ => none) =
        some (firstCycle g.entries)) ∧
    (firstCycle g.entries = none ↔ ∀ v, ¬ Relation.TransGen (Edge g.entries) v v) ∧
    (∀ cycle, firstCycle g.entries = some cycle → SimpleCycle (Edge g.entries) cycle) ∧
    (∀ g' : Adjacency V, g.Same g' → firstCycle g'.entries = firstCycle g.entries) ∧
    (∀ fuel, vertexCount g.entries ≤ fuel →
      recursiveCycle g.entries fuel = some (firstCycle g.entries)) := by
  refine ⟨fun fuel hfuel => ?_, firstCycle_eq_none_iff g.entries,
    fun cycle => firstCycle_simple g.entries, fun g' hsame => ?_,
    fun fuel => recursiveCycle_eq g.entries⟩
  · exact CycleSearch.visitRoots_eq_firstCycle (neighbors_of_not_root g.entries) hfuel
  · have hkeys := (List.perm_ext_iff_of_nodup g.distinct g'.distinct).2 hsame.keys
    exact (firstCycle_congr hkeys hsame.lists).symm

example : firstCycle [(2, [0]), (0, [1, 2]), (1, [2])] = some [0, 1, 2, 0] := by decide

end DeveSub.Graph
