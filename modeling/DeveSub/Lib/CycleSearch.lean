/-
  File:      DeveSub/Lib/CycleSearch.lean
  Subject:   Depth-first search for a cycle in a finite directed graph, with explicit frames and
             three colours.

  The graph is given by the successors of each vertex; vertices outside the roots have none.
  Gray vertices are on the stack, black ones are finished.

  * `turn`, `explore`, `visitRoots`, `firstCycle` -- the search;
  * `Sound` -- what every turn keeps: the stack is a path, and no path from a black vertex is
    infinite;
  * `weight`, `turn_weight` -- what every turn uses up, so the search ends;
  * `firstCycle_eq_some`, `firstCycle_eq_none_iff` -- an answer is a closed walk, and there is none
    exactly when the graph has no cycle.
-/
import Mathlib.Algebra.BigOperators.Group.List.Basic
import Mathlib.Algebra.GroupWithZero.Nat
import Mathlib.Data.List.Chain
import Mathlib.Data.List.Dedup
import Mathlib.Logic.Relation

namespace DeveSub.CycleSearch

variable {V : Type} [DecidableEq V]

/-! ## 1. The search -/

/-- The colour of a vertex that was seen. -/
inductive Color where
  | gray
  | black
  deriving DecidableEq

/-- The colours, and the frames with the successors still to visit; the top frame is first. -/
structure Search (V : Type) where
  color : V → Option Color
  stack : List (V × List V)

/-- The colours with one vertex painted. -/
def paint (color : V → Option Color) (v : V) (c : Color) : V → Option Color :=
  fun x => if x = v then some c else color x

/-- What one turn of the loop comes to. -/
inductive Turn (V : Type) where
  | done (color : V → Option Color)
  | found (cycle : List V)
  | more (s : Search V)

/-- One turn: a frame without successors is finished, a new successor is entered, a gray one
    closes a cycle. -/
def turn (next : V → List V) (s : Search V) : Turn V :=
  match s.stack with
  | [] => .done s.color
  | (node, []) :: rest => .more ⟨paint s.color node .black, rest⟩
  | (node, v :: vs) :: rest =>
    match s.color v with
    | none => .more ⟨paint s.color v .gray, (v, next v) :: (node, vs) :: rest⟩
    | some .gray => .found ((s.stack.reverse.map Prod.fst).dropWhile (· ≠ v) ++ [v])
    | some .black => .more ⟨s.color, (node, vs) :: rest⟩

/-- The loop; `none` when the fuel runs out. -/
def explore (next : V → List V) : Nat → Search V → Option (Except (List V) (V → Option Color))
  | 0, _ => none
  | fuel + 1, s =>
    match turn next s with
    | .done color => some (.ok color)
    | .found cycle => some (.error cycle)
    | .more s => explore next fuel s

/-- The loop over the roots. -/
def visitRoots (next : V → List V) (fuel : Nat) :
    List V → (V → Option Color) → Option (Option (List V))
  | [], _ => some none
  | root :: rest, color =>
    if (color root).isSome then visitRoots next fuel rest color
    else
      match explore next fuel ⟨paint color root .gray, [(root, next root)]⟩ with
      | none => none
      | some (.error cycle) => some (some cycle)
      | some (.ok color) => visitRoots next fuel rest color

/-- The vertices of the graph. -/
def vertices (roots : List V) (next : V → List V) : List V :=
  (roots ++ roots.flatMap next).dedup

/-- What entering a vertex costs. -/
def cost (next : V → List V) (v : V) : Nat := (next v).length + 1

/-- More turns than a search can take. -/
def enough (roots : List V) (next : V → List V) : Nat :=
  ((vertices roots next).map (cost next)).sum + 1

/-- **The first cycle**, in the order of the roots and of the successors. -/
def firstCycle (roots : List V) (next : V → List V) : Option (List V) :=
  (visitRoots next (enough roots next) roots fun _ => none).getD none

/-! ## 2. Walks -/

/-- An edge of the graph. -/
def Edge (next : V → List V) (a b : V) : Prop := b ∈ next a

/-- A closed walk, its first vertex repeated at the end. -/
def ClosedWalk (R : V → V → Prop) (walk : List V) : Prop :=
  ∃ v inner, walk = v :: (inner ++ [v]) ∧ walk.IsChain R

omit [DecidableEq V] in
/-- A closed walk goes from a vertex back to it. -/
theorem ClosedWalk.transGen {R : V → V → Prop} {walk : List V} (h : ClosedWalk R walk) :
    ∃ v, Relation.TransGen R v v := by
  obtain ⟨v, inner, rfl, hchain⟩ := h
  refine ⟨v, ?_⟩
  have hgen : ∀ (l : List V) (a : V), (a :: (l ++ [v])).IsChain R → Relation.TransGen R a v := by
    intro l
    induction l with
    | nil =>
      intro a ha
      exact .single (List.isChain_pair.1 ha)
    | cons b l ih =>
      intro a ha
      obtain ⟨hab, hb⟩ := List.isChain_cons_cons.1 ha
      exact (Relation.TransGen.single hab).trans (ih b hb)
  exact hgen inner v hchain

omit [DecidableEq V] in
/-- A vertex that lies on no infinite path backwards is on no cycle. -/
theorem not_transGen_self {R : V → V → Prop} {v : V} (h : Acc R v) : ¬ Relation.TransGen R v v := by
  have hacc : Acc (Relation.TransGen R) v := h.transGen
  clear h
  induction hacc with
  | intro x _ ih => exact fun hx => ih x hx hx

/-! ## 3. What a turn keeps -/

/-- The successors a frame has left behind are finished, or the frame above is theirs. -/
def Visited (next : V → List V) (color : V → Option Color) :
    Option V → List (V × List V) → Prop
  | _, [] => True
  | above, (node, vs) :: rest =>
    (∀ w ∈ next node, w ∈ vs ∨ color w = some .black ∨ above = some w) ∧
      Visited next color (some node) rest

/-- **What every turn keeps.** -/
structure Sound (next : V → List V) (s : Search V) : Prop where
  path : (s.stack.map Prod.fst).IsChain fun a b => Edge next b a
  within : ∀ f ∈ s.stack, ∀ w ∈ f.2, Edge next f.1 w
  gray : ∀ v, s.color v = some .gray → v ∈ s.stack.map Prod.fst
  black : ∀ v, s.color v = some .black → Acc (flip (Edge next)) v
  visited : Visited next s.color none s.stack

variable {next : V → List V}

omit [DecidableEq V] in
/-- More finished vertices, and another frame above. -/
theorem Visited.imp {color color' : V → Option Color} {above above' : Option V}
    {stack : List (V × List V)} (h : Visited next color above stack)
    (hblack : ∀ w, color w = some .black → color' w = some .black)
    (habove : ∀ w, above = some w → color' w = some .black ∨ above' = some w) :
    Visited next color' above' stack := by
  induction stack generalizing above above' with
  | nil => trivial
  | cons f rest ih =>
    refine ⟨fun w hw => ?_, ih h.2 fun w hw => .inr hw⟩
    rcases h.1 w hw with hmem | hb | ha
    · exact .inl hmem
    · exact .inr (.inl (hblack w hb))
    · exact .inr (habove w ha)

@[simp] theorem paint_self (color : V → Option Color) (v : V) (c : Color) :
    paint color v c v = some c := if_pos rfl

theorem paint_of_ne (color : V → Option Color) {v w : V} (h : w ≠ v) (c : Color) :
    paint color v c w = color w := if_neg h

/-- A frame without successors is finished. -/
theorem Sound.pop {color : V → Option Color} {node : V} {rest : List (V × List V)}
    (h : Sound next ⟨color, (node, []) :: rest⟩) :
    Sound next ⟨paint color node .black, rest⟩ := by
  have hsuccessors : ∀ w ∈ next node, color w = some .black := by
    intro w hw
    rcases h.visited.1 w hw with hmem | hb | ha
    · cases hmem
    · exact hb
    · cases ha
  have hblack : ∀ w, color w = some .black → paint color node .black w = some .black := by
    intro w hw
    by_cases hwn : w = node
    · rw [hwn, paint_self]
    · rw [paint_of_ne color hwn, hw]
  exact {
    path := h.path.tail
    within := fun f hf => h.within f (List.mem_cons_of_mem _ hf)
    gray := by
      intro v hv
      by_cases hvn : v = node
      · rw [hvn] at hv
        simp at hv
      · change paint color node .black v = some .gray at hv
        rw [paint_of_ne color hvn] at hv
        exact (List.mem_cons.1 (h.gray v hv)).resolve_left hvn
    black := by
      intro v hv
      by_cases hvn : v = node
      · rw [hvn]
        exact ⟨_, fun w hw => h.black w (hsuccessors w hw)⟩
      · change paint color node .black v = some .black at hv
        rw [paint_of_ne color hvn] at hv
        exact h.black v hv
    visited := h.visited.2.imp hblack fun w hw => by
      obtain rfl := Option.some.inj hw
      exact .inl (paint_self _ _ _) }

/-- A new successor is entered. -/
theorem Sound.push {color : V → Option Color} {node v : V} {vs : List V} {rest : List (V × List V)}
    (h : Sound next ⟨color, (node, v :: vs) :: rest⟩) (hv : color v = none) :
    Sound next ⟨paint color v .gray, (v, next v) :: (node, vs) :: rest⟩ := by
  have hne : ∀ w, color w = some .black → w ≠ v := by
    intro w hw hwv
    rw [hwv, hv] at hw
    cases hw
  have hblack : ∀ w, color w = some .black → paint color v .gray w = some .black := by
    intro w hw
    rw [paint_of_ne color (hne w hw), hw]
  exact {
    path := List.isChain_cons_cons.2 ⟨h.within _ List.mem_cons_self v List.mem_cons_self, h.path⟩
    within := by
      intro f hf w hw
      rcases List.mem_cons.1 hf with rfl | hf
      · exact hw
      · rcases List.mem_cons.1 hf with rfl | hf
        · exact h.within _ List.mem_cons_self w (List.mem_cons_of_mem _ hw)
        · exact h.within f (List.mem_cons_of_mem _ hf) w hw
    gray := by
      intro w hw
      by_cases hwv : w = v
      · rw [hwv]
        exact List.mem_cons_self
      · change paint color v .gray w = some .gray at hw
        rw [paint_of_ne color hwv] at hw
        exact List.mem_cons_of_mem _ (h.gray w hw)
    black := by
      intro w hw
      by_cases hwv : w = v
      · rw [hwv] at hw
        simp at hw
      · change paint color v .gray w = some .black at hw
        rw [paint_of_ne color hwv] at hw
        exact h.black w hw
    visited := by
      refine ⟨fun w hw => .inl hw, fun w hw => ?_, h.visited.2.imp hblack fun w hw => .inr hw⟩
      rcases h.visited.1 w hw with hmem | hb | ha
      · rcases List.mem_cons.1 hmem with rfl | hmem
        · exact .inr (.inr rfl)
        · exact .inl hmem
      · exact .inr (.inl (hblack w hb))
      · cases ha }

omit [DecidableEq V] in
/-- A finished successor is passed over. -/
theorem Sound.skip {color : V → Option Color} {node v : V} {vs : List V} {rest : List (V × List V)}
    (h : Sound next ⟨color, (node, v :: vs) :: rest⟩) (hv : color v = some .black) :
    Sound next ⟨color, (node, vs) :: rest⟩ where
  path := h.path
  within f hf w hw := by
    rcases List.mem_cons.1 hf with rfl | hf
    · exact h.within _ List.mem_cons_self w (List.mem_cons_of_mem _ hw)
    · exact h.within f (List.mem_cons_of_mem _ hf) w hw
  gray := h.gray
  black := h.black
  visited := by
    refine ⟨fun w hw => ?_, h.visited.2⟩
    rcases h.visited.1 w hw with hmem | hb | ha
    · rcases List.mem_cons.1 hmem with rfl | hmem
      · exact .inr (.inl hv)
      · exact .inl hmem
    · exact .inr (.inl hb)
    · cases ha

theorem dropWhile_ne {l : List V} {v : V} (h : v ∈ l) :
    ∃ before after, l = before ++ v :: after ∧ l.dropWhile (· ≠ v) = v :: after := by
  induction l with
  | nil => cases h
  | cons a l ih =>
    by_cases ha : a = v
    · subst ha
      exact ⟨[], l, rfl, by simp⟩
    · obtain ⟨before, after, heq, hdrop⟩ := ih ((List.mem_cons.1 h).resolve_left (Ne.symm ha))
      refine ⟨a :: before, after, by rw [heq, List.cons_append], ?_⟩
      rw [List.dropWhile_cons_of_pos (by simpa using ha), hdrop]

/-- **A gray successor closes a cycle**: the frames from it to the top, and back to it. -/
theorem Sound.closes {color : V → Option Color} {node v : V} {vs : List V}
    {rest : List (V × List V)} (h : Sound next ⟨color, (node, v :: vs) :: rest⟩)
    (hv : color v = some .gray) :
    ClosedWalk (Edge next)
      ((((node, v :: vs) :: rest).reverse.map Prod.fst).dropWhile (· ≠ v) ++ [v]) := by
  obtain ⟨nodes, hnodes⟩ : ∃ nodes, nodes = ((node, v :: vs) :: rest).reverse.map Prod.fst :=
    ⟨_, rfl⟩
  have hpath : nodes.IsChain (Edge next) := by
    rw [hnodes, List.map_reverse, List.isChain_reverse]
    exact h.path
  have hmem : v ∈ nodes := by
    rw [hnodes, List.map_reverse, List.mem_reverse]
    exact h.gray v hv
  have hlast : nodes.getLast? = some node := by simp [hnodes]
  obtain ⟨before, after, heq, hdrop⟩ := dropWhile_ne hmem
  rw [← hnodes, hdrop]
  refine ⟨v, after, rfl, List.isChain_append.2 ⟨hpath.suffix ⟨before, heq.symm⟩,
    List.isChain_singleton v, fun x hx y hy => ?_⟩⟩
  -- the last frame is the top one, which has `v` among its successors
  obtain rfl : x = node := by
    rw [heq, List.getLast?_append_of_ne_nil _ (List.cons_ne_nil v after)] at hlast
    exact Option.some.inj (hx.symm.trans hlast)
  obtain rfl := Option.some.inj hy
  exact h.within _ List.mem_cons_self _ List.mem_cons_self

/-- **A turn of a sound search** goes on with a sound one, answers a closed walk, or is done with
    an empty stack. -/
theorem turn_sound {s : Search V} (h : Sound next s) :
    match turn next s with
    | .done color => s.stack = [] ∧ color = s.color
    | .found cycle => ClosedWalk (Edge next) cycle
    | .more s' => Sound next s' := by
  obtain ⟨color, stack⟩ := s
  unfold turn
  match stack, h with
  | [], _ => exact ⟨rfl, rfl⟩
  | (node, []) :: rest, h => exact h.pop
  | (node, v :: vs) :: rest, h =>
    dsimp only
    cases hv : color v with
    | none => exact h.push hv
    | some c =>
      cases c with
      | gray => exact h.closes hv
      | black => exact h.skip hv

/-! ## 4. The search ends -/

/-- What the vertices of a list that were not seen will cost. -/
def unseen (next : V → List V) (l : List V) (color : V → Option Color) : Nat :=
  ((l.filter fun v => (color v).isNone).map (cost next)).sum

/-- What a search has still to do. -/
def weight (next : V → List V) (l : List V) (s : Search V) : Nat :=
  (s.stack.map fun f => f.2.length + 1).sum + unseen next l s.color

omit [DecidableEq V] in
theorem unseen_cons (next : V → List V) (a : V) (l : List V) (color : V → Option Color) :
    unseen next (a :: l) color = (if (color a).isNone then cost next a else 0) + unseen next l color := by
  unfold unseen
  by_cases ha : (color a).isNone <;> simp [ha]

theorem unseen_paint_of_not_mem (next : V → List V) {l : List V} {v : V} (hv : v ∉ l) (color : V → Option Color)
    (c : Color) : unseen next l (paint color v c) = unseen next l color := by
  induction l with
  | nil => rfl
  | cons a l ih =>
    obtain ⟨hav, hl⟩ := not_or.1 (mt List.mem_cons.2 hv)
    rw [unseen_cons, unseen_cons, ih hl, paint_of_ne color (Ne.symm hav)]

/-- A vertex that is seen does not cost any more. -/
theorem unseen_paint (next : V → List V) {l : List V} (hl : l.Nodup) {v : V} (hv : v ∈ l) {color : V → Option Color}
    (hc : color v = none) (c : Color) :
    unseen next l (paint color v c) + cost next v = unseen next l color := by
  induction l with
  | nil => cases hv
  | cons a l ih =>
    obtain ⟨ha, hl⟩ := List.nodup_cons.1 hl
    rw [unseen_cons, unseen_cons]
    by_cases hav : a = v
    · subst hav
      rw [unseen_paint_of_not_mem next ha, paint_self, hc]
      simp [Nat.add_comm]
    · have := ih hl ((List.mem_cons.1 hv).resolve_left (Ne.symm hav))
      rw [paint_of_ne color hav]
      omega

theorem unseen_paint_le (next : V → List V) (l : List V) (v : V) (color : V → Option Color) (c : Color) :
    unseen next l (paint color v c) ≤ unseen next l color := by
  induction l with
  | nil => exact Nat.le_refl _
  | cons a l ih =>
    rw [unseen_cons, unseen_cons]
    by_cases hav : a = v
    · rw [hav, paint_self]
      simp only [Option.isNone_some, Bool.false_eq_true, if_false]
      omega
    · rw [paint_of_ne color hav]
      omega

/-- **Every turn uses something up.** -/
theorem turn_weight {l : List V} (hl : l.Nodup) (hclosed : ∀ v w, Edge next v w → w ∈ l)
    {s s' : Search V} (h : Sound next s) (hturn : turn next s = .more s') :
    weight next l s' < weight next l s := by
  obtain ⟨color, stack⟩ := s
  unfold turn at hturn
  match stack, h, hturn with
  | [], _, hturn => cases hturn
  | (node, []) :: rest, h, hturn =>
    obtain rfl := Turn.more.inj hturn
    have hle := unseen_paint_le next l node color .black
    simp only [weight, List.map_cons, List.sum_cons, List.length_nil]
    omega
  | (node, v :: vs) :: rest, h, hturn =>
    have hmem := hclosed node v (h.within _ List.mem_cons_self v List.mem_cons_self)
    dsimp only at hturn
    split at hturn
    · rename_i hv
      obtain rfl := Turn.more.inj hturn
      have hpaint := unseen_paint next hl hmem hv .gray
      simp only [weight, List.map_cons, List.sum_cons, List.length_cons, cost] at hpaint ⊢
      omega
    · cases hturn
    · obtain rfl := Turn.more.inj hturn
      simp only [weight, List.map_cons, List.sum_cons, List.length_cons]
      omega

/-- A vertex that was seen stays seen. -/
theorem turn_seen {s s' : Search V} (hturn : turn next s = .more s') {v : V}
    (hv : s.color v ≠ none) : s'.color v ≠ none := by
  have hpaint : ∀ w c, paint s.color w c v ≠ none := by
    intro w c
    by_cases hvw : v = w
    · rw [hvw, paint_self]
      exact Option.some_ne_none c
    · rw [paint_of_ne s.color hvw]
      exact hv
  obtain ⟨color, stack⟩ := s
  unfold turn at hturn
  match stack, hturn with
  | [], hturn => cases hturn
  | (node, []) :: rest, hturn =>
    obtain rfl := Turn.more.inj hturn
    exact hpaint node .black
  | (node, w :: vs) :: rest, hturn =>
    dsimp only at hturn
    split at hturn
    · obtain rfl := Turn.more.inj hturn
      exact hpaint w .gray
    · cases hturn
    · obtain rfl := Turn.more.inj hturn
      exact hv

/-- Between two roots: no vertex is gray, and no path from a black one is infinite. -/
structure Finished (next : V → List V) (color : V → Option Color) : Prop where
  gray : ∀ v, color v ≠ some .gray
  black : ∀ v, color v = some .black → Acc (flip (Edge next)) v

/-- **The search from one root ends**, with a closed walk or with everything it saw finished. -/
theorem explore_ends {l : List V} (hl : l.Nodup) (hclosed : ∀ v w, Edge next v w → w ∈ l)
    {fuel : Nat} {s : Search V} (h : Sound next s) (hfuel : weight next l s < fuel) :
    (∃ cycle, explore next fuel s = some (.error cycle) ∧ ClosedWalk (Edge next) cycle) ∨
    (∃ color, explore next fuel s = some (.ok color) ∧ Finished next color ∧
      ∀ v, s.color v ≠ none → color v ≠ none) := by
  induction fuel generalizing s with
  | zero => omega
  | succ fuel ih =>
    have hsound := turn_sound h
    unfold explore
    cases hturn : turn next s with
    | done color =>
      rw [hturn] at hsound
      obtain ⟨hempty, rfl⟩ := hsound
      refine .inr ⟨s.color, rfl, ⟨fun v hv => ?_, h.black⟩, fun v hv => hv⟩
      have hmem := h.gray v hv
      rw [hempty] at hmem
      cases hmem
    | found cycle =>
      rw [hturn] at hsound
      exact .inl ⟨cycle, rfl, hsound⟩
    | more s' =>
      rw [hturn] at hsound
      have hless := turn_weight hl hclosed h hturn
      rcases ih hsound (by omega) with hfound | ⟨color, heq, hfin, hseen⟩
      · exact .inl hfound
      · exact .inr ⟨color, heq, hfin, fun v hv => hseen v (turn_seen hturn hv)⟩

/-- The search starts soundly at a root. -/
theorem Finished.start {color : V → Option Color} (h : Finished next color) (root : V) :
    Sound next ⟨paint color root .gray, [(root, next root)]⟩ where
  path := List.isChain_singleton root
  within f hf w hw := by
    obtain rfl := List.mem_singleton.1 hf
    exact hw
  gray v hv := by
    by_cases hvr : v = root
    · rw [hvr]
      exact List.mem_cons_self
    · change paint color root .gray v = some .gray at hv
      rw [paint_of_ne color hvr] at hv
      exact absurd hv (h.gray v)
  black v hv := by
    by_cases hvr : v = root
    · rw [hvr] at hv
      simp at hv
    · change paint color root .gray v = some .black at hv
      rw [paint_of_ne color hvr] at hv
      exact h.black v hv
  visited := ⟨fun w hw => .inl hw, trivial⟩

/-! ## 5. The answer -/

section Answer

variable {roots : List V}

omit [DecidableEq V] in
theorem unseen_le (next : V → List V) (l : List V) (color : V → Option Color) :
    unseen next l color ≤ (l.map (cost next)).sum := by
  induction l with
  | nil => exact Nat.le_refl _
  | cons a l ih =>
    rw [unseen_cons, List.map_cons, List.sum_cons]
    split <;> omega

/-- **The search over the roots ends**: with a closed walk, or no path from a root is infinite. -/
theorem visitRoots_ends (hclosed : ∀ v w, Edge next v w → w ∈ vertices roots next)
    {rest : List V} (hrest : ∀ v ∈ rest, v ∈ roots) {color : V → Option Color}
    (h : Finished next color) :
    (∃ cycle, visitRoots next (enough roots next) rest color = some (some cycle) ∧
      ClosedWalk (Edge next) cycle) ∨
    (visitRoots next (enough roots next) rest color = some none ∧
      ∀ v, v ∈ rest ∨ color v ≠ none → Acc (flip (Edge next)) v) := by
  have hacc : ∀ {color : V → Option Color}, Finished next color → ∀ v, color v ≠ none →
      Acc (flip (Edge next)) v := by
    intro color h v hv
    cases hc : color v with
    | none => exact absurd hc hv
    | some c =>
      cases c with
      | gray => exact absurd hc (h.gray v)
      | black => exact h.black v hc
  induction rest generalizing color with
  | nil =>
    refine .inr ⟨rfl, fun v hv => hacc h v (hv.resolve_left fun hmem => ?_)⟩
    cases hmem
  | cons root rest ih =>
    have hrest' : ∀ v ∈ rest, v ∈ roots := fun v hv => hrest v (List.mem_cons_of_mem _ hv)
    unfold visitRoots
    by_cases hseen : (color root).isSome = true
    · rw [if_pos hseen]
      have hne : color root ≠ none := fun hn => by simp [hn] at hseen
      rcases ih hrest' h with hfound | ⟨heq, hall⟩
      · exact .inl hfound
      · refine .inr ⟨heq, fun v hv => ?_⟩
        rcases hv with hv | hv
        · rcases List.mem_cons.1 hv with rfl | hv
          · exact hall v (.inr hne)
          · exact hall v (.inl hv)
        · exact hall v (.inr hv)
    · rw [if_neg hseen]
      have hnone : color root = none := by simpa using hseen
      have hnodup : (vertices roots next).Nodup := List.nodup_dedup _
      have hmem : root ∈ vertices roots next :=
        List.mem_dedup.2 (List.mem_append_left _ (hrest root List.mem_cons_self))
      have hweight : weight next (vertices roots next) ⟨paint color root .gray, [(root, next root)]⟩ <
          enough roots next := by
        have hpaint := unseen_paint next hnodup hmem hnone .gray
        have hle := unseen_le next (vertices roots next) color
        simp only [weight, enough, List.map_cons, List.map_nil, List.sum_cons, List.sum_nil, cost]
          at hpaint hle ⊢
        omega
      rcases explore_ends hnodup hclosed (h.start root) hweight with
        ⟨cycle, heq, hcycle⟩ | ⟨color', heq, hfin, hkept⟩
      · exact .inl ⟨cycle, by rw [heq], hcycle⟩
      · rw [heq]
        have hsome : ∀ v, v = root ∨ color v ≠ none → color' v ≠ none := by
          intro v hv
          refine hkept v ?_
          by_cases hvr : v = root
          · rw [hvr]
            simp
          · change paint color root .gray v ≠ none
            rw [paint_of_ne color hvr]
            exact hv.resolve_left hvr
        rcases ih hrest' hfin with hfound | ⟨hdone, hall⟩
        · exact .inl hfound
        · refine .inr ⟨hdone, fun v hv => ?_⟩
          rcases hv with hv | hv
          · rcases List.mem_cons.1 hv with rfl | hv
            · exact hall v (.inr (hsome v (.inl rfl)))
            · exact hall v (.inl hv)
          · exact hall v (.inr (hsome v (.inr hv)))

/-- Only roots have successors. -/
theorem mem_vertices (hroots : ∀ v, v ∉ roots → next v = []) {v w : V} (h : Edge next v w) :
    w ∈ vertices roots next := by
  refine List.mem_dedup.2 (List.mem_append_right _ (List.mem_flatMap.2 ⟨v, ?_, h⟩))
  by_contra hv
  rw [Edge, hroots v hv] at h
  cases h

theorem firstCycle_cases (hroots : ∀ v, v ∉ roots → next v = []) :
    (∃ cycle, firstCycle roots next = some cycle ∧ ClosedWalk (Edge next) cycle) ∨
    (firstCycle roots next = none ∧ ∀ v, ¬ Relation.TransGen (Edge next) v v) := by
  have hstart : Finished next fun _ => none := by
    constructor <;> intro v hv <;> cases hv
  rcases visitRoots_ends (fun _ _ => mem_vertices hroots) (fun _ hv => hv) hstart with
    ⟨cycle, heq, hcycle⟩ | ⟨heq, hall⟩
  · exact .inl ⟨cycle, by rw [firstCycle, heq]; rfl, hcycle⟩
  · refine .inr ⟨by rw [firstCycle, heq]; rfl, fun v hcycle => ?_⟩
    refine not_transGen_self (R := flip (Edge next)) ?_ (Relation.transGen_swap.2 hcycle)
    by_cases hv : v ∈ roots
    · exact hall v (.inl hv)
    · refine ⟨_, fun w hw => ?_⟩
      rw [flip, Edge, hroots v hv] at hw
      cases hw

/-- **An answer is a closed walk of the graph.** -/
theorem firstCycle_eq_some (hroots : ∀ v, v ∉ roots → next v = []) {cycle : List V}
    (h : firstCycle roots next = some cycle) : ClosedWalk (Edge next) cycle := by
  rcases firstCycle_cases hroots with ⟨c, heq, hc⟩ | ⟨heq, -⟩
  · rw [heq] at h
    exact Option.some.inj h ▸ hc
  · rw [heq] at h
    cases h

/-- **There is no answer exactly when the graph has no cycle.** -/
theorem firstCycle_eq_none_iff (hroots : ∀ v, v ∉ roots → next v = []) :
    firstCycle roots next = none ↔ ∀ v, ¬ Relation.TransGen (Edge next) v v := by
  rcases firstCycle_cases hroots with ⟨c, heq, hc⟩ | ⟨heq, hnone⟩
  · obtain ⟨v, hv⟩ := hc.transGen
    rw [heq]
    exact ⟨fun h => (Option.some_ne_none c h).elim, fun h => absurd hv (h v)⟩
  · exact ⟨fun _ => hnone, fun _ => heq⟩

end Answer

end DeveSub.CycleSearch
