/-
  File:      DeveSub/Lib/Elimination.lean
  Subject:   Topological elimination in a finite directed multigraph: vertices without an incoming
             edge are taken out one by one, and their edges with them.

  The graph is given by the successors of each vertex, with repetitions. The stack of vertices that
  are ready starts in the order of `names`, which may be any.

  * `release`, `eliminate`, `run` -- the algorithm;
  * `Sound` -- what every turn keeps: a degree counts the edges that are left, and a vertex that was
    taken out lies on no infinite path backwards;
  * `Sound.eliminate` -- the loop ends;
  * `run_eq_length_iff` -- all vertices come out exactly when there is no cycle.
-/
import Mathlib.Data.Fintype.EquivFin
import Mathlib.Data.Fintype.Sets
import Mathlib.Data.Fintype.Card
import Mathlib.Data.List.Perm.Basic
import Mathlib.Order.WellFounded
import DeveSub.Lib.CycleSearch

namespace DeveSub.Elimination

variable {V : Type} [DecidableEq V]

/-! ## 1. The algorithm -/

/-- The edges that still come in, the vertices that are ready (the next one first), and how many
    were taken out. -/
structure State (V : Type) where
  degree : V → Nat
  ready : List V
  visited : Nat

/-- One edge to `v` less; `v` is ready when it was the last. -/
def release (s : State V) (v : V) : State V where
  degree := fun x => if x = v then s.degree v - 1 else s.degree x
  ready := if s.degree v - 1 = 0 then v :: s.ready else s.ready
  visited := s.visited

/-- The loop: how many vertices were taken out, `none` when the fuel runs out. -/
def eliminate (next : V → List V) : Nat → State V → Option Nat
  | 0, _ => none
  | fuel + 1, s =>
    match s.ready with
    | [] => some s.visited
    | v :: rest =>
      eliminate next fuel ((next v).foldl release ⟨s.degree, rest, s.visited + 1⟩)

/-- The edges into a vertex. -/
def inDegree (names : List V) (next : V → List V) (v : V) : Nat := (names.flatMap next).count v

/-- The state before the first turn. -/
def start (names : List V) (next : V → List V) : State V where
  degree := inDegree names next
  ready := (names.filter fun v => inDegree names next v = 0).reverse
  visited := 0

/-- How many vertices come out. -/
def run (names : List V) (next : V → List V) : Option Nat :=
  eliminate next (names.length + 1) (start names next)

/-! ## 2. What every turn keeps -/

/-- `u` is a predecessor of `v`. -/
def Edge (next : V → List V) (u v : V) : Prop := v ∈ next u

/-- `done` was taken out, `left` was not; of the last one taken out the edges to `pending` have not
    been counted off. -/
structure Sound (names : List V) (next : V → List V) (s : State V) (done left pending : List V) :
    Prop where
  parts : (done ++ left).Perm names
  degree : ∀ v, s.degree v = (pending ++ left.flatMap next).count v
  free : ∀ v ∈ names, s.degree v = 0 ↔ v ∈ done ∨ v ∈ s.ready
  ready_nodup : s.ready.Nodup
  ready_left : ∀ v ∈ s.ready, v ∈ left
  visited : s.visited = done.length
  acc : ∀ v ∈ done, Acc (Edge next) v

section

variable {names : List V} {next : V → List V}

theorem Sound.start (hnames : names.Nodup) : Sound names next (start names next) [] names [] where
  parts := List.Perm.refl _
  degree := fun _ => rfl
  free := by
    intro v hv
    simp [Elimination.start, hv]
  ready_nodup := List.nodup_reverse.2 (hnames.filter _)
  ready_left := by
    intro v hv
    exact List.mem_of_mem_filter (List.mem_reverse.1 hv)
  visited := rfl
  acc := by simp

/-- **Counting off one edge.** The degree is positive, so the subtraction is one. -/
theorem Sound.release {s : State V} {done left pending : List V} {v : V}
    (h : Sound names next s done left (v :: pending)) (hv : v ∈ names) :
    0 < s.degree v ∧ Sound names next (Elimination.release s v) done left pending := by
  have hdegree : s.degree v = (pending ++ left.flatMap next).count v + 1 := by
    rw [h.degree, List.cons_append, List.count_cons_self]
  have hfresh : ¬ (v ∈ done ∨ v ∈ s.ready) := by
    rw [← h.free v hv]
    omega
  refine ⟨by omega, ?_⟩
  constructor
  case parts => exact h.parts
  case visited => exact h.visited
  case acc => exact h.acc
  case degree =>
    intro x
    by_cases hx : x = v
    · subst hx
      simp [Elimination.release, hdegree]
    · have hcons := h.degree x
      rw [List.cons_append, List.count_cons_of_ne (Ne.symm hx)] at hcons
      simp [Elimination.release, hx, hcons]
  case free =>
    intro x hx
    have hfree := h.free x hx
    by_cases hxv : x = v
    · subst hxv
      by_cases hlast : s.degree x - 1 = 0
      · simp [Elimination.release, hlast]
      · simpa [Elimination.release, hlast] using hfresh
    · by_cases hlast : s.degree v - 1 = 0
      · simpa [Elimination.release, hlast, hxv] using hfree
      · simpa [Elimination.release, hlast, hxv] using hfree
  case ready_nodup =>
    by_cases hlast : s.degree v - 1 = 0
    · simpa [Elimination.release, hlast, h.ready_nodup] using fun hmem => hfresh (Or.inr hmem)
    · simpa [Elimination.release, hlast] using h.ready_nodup
  case ready_left =>
    intro x hx
    have hcases : x = v ∨ x ∈ s.ready := by
      by_cases hlast : s.degree v - 1 = 0
      · simpa [Elimination.release, hlast] using hx
      · exact Or.inr (by simpa [Elimination.release, hlast] using hx)
    rcases hcases with rfl | hx
    · rcases List.mem_append.1 (h.parts.mem_iff.2 hv) with hdone | hleft
      · exact absurd (Or.inl hdone) hfresh
      · exact hleft
    · exact h.ready_left x hx

/-- Counting off all edges of a vertex. -/
theorem Sound.release_all {pending : List V} (hpending : ∀ v ∈ pending, v ∈ names) {s : State V}
    {done left : List V} (h : Sound names next s done left pending) :
    Sound names next (pending.foldl Elimination.release s) done left [] := by
  induction pending generalizing s with
  | nil => exact h
  | cons v pending ih =>
    exact ih (fun w hw => hpending w (List.mem_cons_of_mem _ hw))
      (h.release (hpending v List.mem_cons_self)).2

/-- A vertex without incoming edges among those left has its predecessors among those taken out. -/
theorem Sound.acc_of_degree_eq_zero (hnext : ∀ v, v ∉ names → next v = []) {s : State V}
    {done left : List V} (h : Sound names next s done left []) {v : V} (hv : s.degree v = 0) :
    Acc (Edge next) v := by
  constructor
  intro u hu
  have hnames : u ∈ names := by
    by_contra hu'
    rw [Edge, hnext u hu'] at hu
    cases hu
  have hleft : u ∉ left := by
    intro hmem
    rw [h.degree, List.nil_append, List.count_eq_zero] at hv
    exact hv (List.mem_flatMap.2 ⟨u, hmem, hu⟩)
  rcases List.mem_append.1 (h.parts.mem_iff.2 hnames) with hdone | hmem
  · exact h.acc u hdone
  · exact absurd hmem hleft

/-- **Taking out a vertex.** -/
theorem Sound.take (hnext : ∀ v, v ∉ names → next v = []) {s : State V} {done left : List V}
    (h : Sound names next s done left []) {v : V} {rest : List V} (hready : s.ready = v :: rest) :
    Sound names next ⟨s.degree, rest, s.visited + 1⟩ (v :: done) (left.erase v) (next v) := by
  have hleft : v ∈ left := h.ready_left v (hready ▸ List.mem_cons_self)
  have hnames : v ∈ names := h.parts.mem_iff.1 (List.mem_append_right _ hleft)
  have hzero : s.degree v = 0 := (h.free v hnames).2 (Or.inr (hready ▸ List.mem_cons_self))
  have hperm : left.Perm (v :: left.erase v) := List.perm_cons_erase hleft
  have hnodup : (v :: rest).Nodup := hready ▸ h.ready_nodup
  constructor
  case parts =>
    refine List.Perm.trans ?_ h.parts
    exact List.perm_middle.symm.trans (hperm.symm.append_left done)
  case degree =>
    intro x
    have hflat : (left.flatMap next).Perm (next v ++ (left.erase v).flatMap next) := by
      simpa using hperm.flatMap_right next
    rw [h.degree, List.nil_append]
    exact hflat.count_eq x
  case free =>
    intro x hx
    rw [h.free x hx, hready, List.mem_cons, List.mem_cons]
    tauto
  case ready_nodup => exact (List.nodup_cons.1 hnodup).2
  case ready_left =>
    intro x hx
    have hne : x ≠ v := fun heq => (List.nodup_cons.1 hnodup).1 (heq ▸ hx)
    exact (List.mem_erase_of_ne hne).2
      (h.ready_left x (hready ▸ List.mem_cons_of_mem _ hx))
  case visited => simpa using h.visited
  case acc =>
    intro x hx
    rcases List.mem_cons.1 hx with rfl | hdone
    · exact h.acc_of_degree_eq_zero hnext hzero
    · exact h.acc x hdone

/-- **The loop ends**, with no vertex ready. -/
theorem Sound.eliminate (hnext : ∀ v, v ∉ names → next v = [])
    (htargets : ∀ u v, v ∈ next u → v ∈ names) {fuel : Nat} {s : State V} {done left : List V}
    (h : Sound names next s done left []) (hfuel : left.length < fuel) :
    ∃ s' done' left', Elimination.eliminate next fuel s = some done'.length ∧ s'.ready = [] ∧
      Sound names next s' done' left' [] := by
  -- every turn moves one vertex from `left` to `done`
  induction fuel generalizing s done left with
  | zero => omega
  | succ fuel ih =>
    rw [Elimination.eliminate]
    rcases hready : s.ready with _ | ⟨v, rest⟩
    · exact ⟨s, done, left, congrArg some h.visited, hready, h⟩
    · have hleft : v ∈ left := h.ready_left v (hready ▸ List.mem_cons_self)
      have hlength := List.length_erase_of_mem hleft
      have hpos := List.length_pos_of_mem hleft
      exact ih ((h.take hnext hready).release_all (htargets v)) (by omega)

/-! ## 3. Acyclic graphs -/

/-- Where all vertices are taken out, there is no cycle. -/
theorem Sound.acyclic (htargets : ∀ u v, v ∈ next u → v ∈ names) {s : State V} {done : List V}
    (h : Sound names next s done [] []) (v : V) : ¬ Relation.TransGen (Edge next) v v := by
  intro hcycle
  have hnames : v ∈ names := by
    obtain ⟨u, -, hedge⟩ := Relation.TransGen.tail'_iff.1 hcycle
    exact htargets u v hedge
  have hdone : v ∈ done := by simpa using h.parts.mem_iff.2 hnames
  exact CycleSearch.not_transGen_self (h.acc v hdone) hcycle

/-- Where no vertex is ready, each that is left has a predecessor that is. -/
theorem Sound.exists_predecessor (hnames : names.Nodup) {s : State V} {done left : List V}
    (h : Sound names next s done left []) (hready : s.ready = []) {v : V} (hv : v ∈ left) :
    ∃ u ∈ left, Edge next u v := by
  have hdone : v ∉ done := by
    intro hmem
    exact (List.nodup_append.1 (h.parts.nodup_iff.2 hnames)).2.2 v hmem v hv rfl
  have hdegree : ¬ s.degree v = 0 := by
    rw [h.free v (h.parts.mem_iff.1 (List.mem_append_right _ hv)), hready]
    simpa using hdone
  rw [h.degree, List.nil_append, List.count_eq_zero, not_not] at hdegree
  exact List.mem_flatMap.1 hdegree

/-- **Without a cycle, no vertex is left.** A vertex of `left` that no other one leads to would have
    a predecessor in `left`. -/
theorem Sound.left_eq_nil (hnames : names.Nodup) {s : State V} {done left : List V}
    (h : Sound names next s done left []) (hready : s.ready = [])
    (hacyclic : ∀ v, ¬ Relation.TransGen (Edge next) v v) : left = [] := by
  by_contra hne
  obtain ⟨v, hv⟩ := List.exists_mem_of_ne_nil left hne
  let R : {x // x ∈ left} → {x // x ∈ left} → Prop :=
    fun a b => Relation.TransGen (Edge next) a.1 b.1
  have : IsTrans _ R := ⟨fun _ _ _ => Relation.TransGen.trans⟩
  have : Std.Irrefl R := ⟨fun a => hacyclic a.1⟩
  have hwf : WellFounded R := Finite.wellFounded_of_trans_of_irrefl R
  obtain ⟨least, -, hleast⟩ := hwf.has_min Set.univ ⟨⟨v, hv⟩, trivial⟩
  obtain ⟨u, hu, hedge⟩ := h.exists_predecessor hnames hready least.2
  exact hleast ⟨u, hu⟩ trivial (Relation.TransGen.single hedge)

/-- **All vertices come out exactly when there is no cycle**; the loop ends in either case. -/
theorem run_eq_length_iff (hnames : names.Nodup) (hnext : ∀ v, v ∉ names → next v = [])
    (htargets : ∀ u v, v ∈ next u → v ∈ names) :
    ∃ visited, run names next = some visited ∧
      (visited = names.length ↔ ∀ v, ¬ Relation.TransGen (Edge next) v v) := by
  obtain ⟨s, done, left, hrun, hready, h⟩ := (Sound.start hnames).eliminate hnext htargets
    (Nat.lt_succ_self names.length)
  refine ⟨done.length, hrun, ?_⟩
  have hlength : done.length + left.length = names.length := by
    rw [← List.length_append]
    exact h.parts.length_eq
  constructor
  · intro hall
    have hnil : left = [] := List.eq_nil_of_length_eq_zero (by omega)
    subst hnil
    exact h.acyclic htargets
  · intro hacyclic
    have hnil := h.left_eq_nil hnames hready hacyclic
    subst hnil
    simpa using hlength

end

end DeveSub.Elimination
