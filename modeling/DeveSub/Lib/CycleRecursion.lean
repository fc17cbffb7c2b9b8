/-
  File:      DeveSub/Lib/CycleRecursion.lean
  Subject:   The recursive search for a cycle with three colours, and that the search with explicit
             frames answers the same.

  * `visit`, `scan`, `visitEach` -- the recursive search, `none` when the fuel runs out;
  * `Steps` -- turns of the search with frames; `scan_reaches` -- one level of the recursion is a
    run of turns that ends with the frame used up;
  * `visitEach_eq` -- both searches answer the same; `visitEach_ends` -- the recursion is no deeper
    than there are vertices;
  * `Distinct`, `explore_dropLast_nodup` -- the frames are distinct, and so are the vertices of an
    answer but for the last.
-/
import DeveSub.Lib.CycleSearch

namespace DeveSub.CycleSearch

variable {V : Type} [DecidableEq V] {next : V → List V}

/-! ## 1. The recursive search -/

/-- The colours after a search that found no cycle, or the cycle. -/
abbrev Outcome (V : Type) := Option (Except (List V) (V → Option Color))

/-- The successors of a vertex, one after the other; `path` leads to the vertex. -/
def scan (enter : V → (V → Option Color) → List V → Outcome V) :
    List V → (V → Option Color) → List V → Outcome V
  | [], color, _ => some (.ok color)
  | v :: vs, color, path =>
    match color v with
    | none =>
      match enter v color path with
      | none => none
      | some (.error cycle) => some (.error cycle)
      | some (.ok color) => scan enter vs color path
    | some .gray => some (.error (path.dropWhile (· ≠ v) ++ [v]))
    | some .black => scan enter vs color path

/-- One vertex: gray while its successors are visited, black after them. -/
def visit (next : V → List V) : Nat → V → (V → Option Color) → List V → Outcome V
  | 0, _, _, _ => none
  | fuel + 1, node, color, path =>
    match scan (visit next fuel) (next node) (paint color node .gray) (path ++ [node]) with
    | none => none
    | some (.error cycle) => some (.error cycle)
    | some (.ok color) => some (.ok (paint color node .black))

/-- The roots, one after the other. -/
def visitEach (next : V → List V) (fuel : Nat) :
    List V → (V → Option Color) → Option (Option (List V))
  | [], _ => some none
  | root :: rest, color =>
    if (color root).isSome then visitEach next fuel rest color
    else
      match visit next fuel root color [] with
      | none => none
      | some (.error cycle) => some (some cycle)
      | some (.ok color) => visitEach next fuel rest color

/-! ## 2. Both searches answer the same -/

/-- Turns of the search with frames. -/
inductive Steps (next : V → List V) : Search V → Search V → Prop where
  | refl (s : Search V) : Steps next s s
  | step {s s' s'' : Search V} (h : turn next s = .more s') (hs : Steps next s' s'') :
      Steps next s s''

theorem Steps.trans {s s' s'' : Search V} (h : Steps next s s') (h' : Steps next s' s'') :
    Steps next s s'' := by
  induction h with
  | refl => exact h'
  | step hturn _ ih => exact .step hturn (ih h')

/-- The search with frames answers the same further on. -/
theorem Steps.explore {s s' : Search V} (h : Steps next s s') {fuel : Nat}
    {r : Except (List V) (V → Option Color)} (hr : explore next fuel s = some r) :
    ∃ fuel', explore next fuel' s' = some r := by
  induction h generalizing fuel with
  | refl => exact ⟨fuel, hr⟩
  | step hturn _ ih =>
    cases fuel with
    | zero => cases hr
    | succ fuel =>
      rw [CycleSearch.explore, hturn] at hr
      exact ih hr

/-- The vertices of the frames, the root first. -/
def trail (stack : List (V × List V)) : List V := stack.reverse.map Prod.fst

omit [DecidableEq V] in
theorem trail_cons (f : V × List V) (stack : List (V × List V)) :
    trail (f :: stack) = trail stack ++ [f.1] := by
  simp [trail]

/-- **What a part of the recursion is in turns**: a run to these frames, or to the turn that finds
    the cycle. -/
inductive Reaches (next : V → List V) (s : Search V) (stack : List (V × List V)) :
    Except (List V) (V → Option Color) → Prop where
  | ok {color} (h : Steps next s ⟨color, stack⟩) : Reaches next s stack (.ok color)
  | error {s' cycle} (h : Steps next s s') (hturn : turn next s' = .found cycle) :
      Reaches next s stack (.error cycle)

theorem Reaches.after {s s' : Search V} {stack : List (V × List V)}
    {r : Except (List V) (V → Option Color)} (hs : Steps next s s') (h : Reaches next s' stack r) :
    Reaches next s stack r := by
  cases h with
  | ok h => exact .ok (hs.trans h)
  | error h hturn => exact .error (hs.trans h) hturn

/-- **The successors of a vertex**: the frame is used up, if entering a vertex is as it should. -/
theorem scan_reaches {enter : V → (V → Option Color) → List V → Outcome V}
    (henter : ∀ v color rest r, enter v color (trail rest) = some r →
      Reaches next ⟨paint color v .gray, (v, next v) :: rest⟩ rest r)
    {node : V} {rest : List (V × List V)} (vs : List V) (color : V → Option Color)
    {r : Except (List V) (V → Option Color)}
    (h : scan enter vs color (trail ((node, vs) :: rest)) = some r) :
    Reaches next ⟨color, (node, vs) :: rest⟩ ((node, []) :: rest) r := by
  induction vs generalizing color with
  | nil =>
    obtain rfl := Option.some.inj h
    exact .ok (.refl _)
  | cons v vs ih =>
    have htrail : trail ((node, v :: vs) :: rest) = trail ((node, vs) :: rest) := by
      rw [trail_cons, trail_cons]
    rw [htrail, scan] at h
    cases hv : color v with
    | none =>
      rw [hv] at h
      have hturn : turn next ⟨color, (node, v :: vs) :: rest⟩ =
          .more ⟨paint color v .gray, (v, next v) :: (node, vs) :: rest⟩ := by
        simp only [turn, hv]
      cases hentered : enter v color (trail ((node, vs) :: rest)) with
      | none =>
        rw [hentered] at h
        cases h
      | some entered =>
        rw [hentered] at h
        have hreach := (henter v color _ entered hentered).after (.step hturn (.refl _))
        cases entered with
        | error cycle =>
          obtain rfl := Option.some.inj h
          cases hreach with
          | error hs hfound => exact .error hs hfound
        | ok color' =>
          cases hreach with
          | ok hs => exact (ih color' h).after hs
    | some c =>
      rw [hv] at h
      cases c with
      | gray =>
        obtain rfl := Option.some.inj h
        refine .error (.refl _) ?_
        rw [← htrail]
        simp only [turn, hv, trail]
      | black =>
        have hturn : turn next ⟨color, (node, v :: vs) :: rest⟩ =
            .more ⟨color, (node, vs) :: rest⟩ := by simp only [turn, hv]
        exact (ih color h).after (.step hturn (.refl _))

/-- **One vertex**: it is entered, and its frame is popped. -/
theorem visit_reaches (fuel : Nat) (node : V) (color : V → Option Color) (rest : List (V × List V))
    (r : Except (List V) (V → Option Color)) (h : visit next fuel node color (trail rest) = some r) :
    Reaches next ⟨paint color node .gray, (node, next node) :: rest⟩ rest r := by
  induction fuel generalizing node color rest r with
  | zero => cases h
  | succ fuel ih =>
    have htrail : trail rest ++ [node] = trail ((node, next node) :: rest) :=
      (trail_cons (node, next node) rest).symm
    rw [visit, htrail] at h
    cases hscan : scan (visit next fuel) (next node) (paint color node .gray)
        (trail ((node, next node) :: rest)) with
    | none =>
      rw [hscan] at h
      cases h
    | some scanned =>
      rw [hscan] at h
      have hreach := scan_reaches ih (next node) (paint color node .gray) hscan
      cases scanned with
      | error cycle =>
        obtain rfl := Option.some.inj h
        cases hreach with
        | error hs hfound => exact .error hs hfound
      | ok color' =>
        obtain rfl := Option.some.inj h
        cases hreach with
        | ok hs => exact .ok (hs.trans (.step rfl (.refl _)))

/-- **Both searches answer the same.** -/
theorem visitEach_eq {fuel fuel' : Nat} {roots : List V} {color : V → Option Color}
    {x y : Option (List V)} (hx : visitRoots next fuel roots color = some x)
    (hy : visitEach next fuel' roots color = some y) : y = x := by
  induction roots generalizing color with
  | nil => exact Option.some.inj (hy.symm.trans hx)
  | cons root rest ih =>
    rw [visitRoots] at hx
    rw [visitEach] at hy
    by_cases hseen : (color root).isSome = true
    · rw [if_pos hseen] at hx hy
      exact ih hx hy
    · rw [if_neg hseen] at hx hy
      cases hvisit : visit next fuel' root color [] with
      | none =>
        rw [hvisit] at hy
        cases hy
      | some visited =>
        cases hexplore : explore next fuel ⟨paint color root .gray, [(root, next root)]⟩ with
        | none =>
          rw [hexplore] at hx
          cases hx
        | some explored =>
          rw [hvisit] at hy
          rw [hexplore] at hx
          have hsame : explored = visited := by
            cases visit_reaches fuel' root color [] visited hvisit with
            | ok hs =>
              obtain ⟨k, hk⟩ := hs.explore hexplore
              cases k with
              | zero => cases hk
              | succ k => exact (Option.some.inj hk).symm
            | error hs hfound =>
              obtain ⟨k, hk⟩ := hs.explore hexplore
              cases k with
              | zero => cases hk
              | succ k =>
                rw [explore, hfound] at hk
                exact (Option.some.inj hk).symm
          subst hsame
          cases explored with
          | error cycle => exact Option.some.inj (hy.symm.trans hx)
          | ok color' => exact ih hx hy

/-! ## 3. The searches end -/

theorem explore_mono {fuel fuel' : Nat} (hfuel : fuel ≤ fuel') {s : Search V}
    {r : Except (List V) (V → Option Color)} (h : explore next fuel s = some r) :
    explore next fuel' s = some r := by
  induction fuel generalizing fuel' s with
  | zero => cases h
  | succ fuel ih =>
    obtain ⟨n, rfl⟩ : ∃ n, fuel' = n + 1 := ⟨fuel' - 1, by omega⟩
    rw [explore] at h ⊢
    cases hturn : turn next s with
    | done color =>
      rw [hturn] at h
      exact h
    | found cycle =>
      rw [hturn] at h
      exact h
    | more s' =>
      rw [hturn] at h
      exact ih (by omega) h

theorem visitRoots_mono {fuel fuel' : Nat} (hfuel : fuel ≤ fuel') {roots : List V}
    {color : V → Option Color} {x : Option (List V)} (h : visitRoots next fuel roots color = some x) :
    visitRoots next fuel' roots color = some x := by
  induction roots generalizing color with
  | nil => exact h
  | cons root rest ih =>
    rw [visitRoots] at h ⊢
    by_cases hseen : (color root).isSome = true
    · rw [if_pos hseen] at h ⊢
      exact ih h
    · rw [if_neg hseen] at h ⊢
      cases hexplore : explore next fuel ⟨paint color root .gray, [(root, next root)]⟩ with
      | none =>
        rw [hexplore] at h
        cases h
      | some r =>
        rw [hexplore] at h
        rw [explore_mono hfuel hexplore]
        cases r with
        | error cycle => exact h
        | ok color' => exact ih h

/-- **The search with frames ends with its answer**, whatever fuel it has above its need. -/
theorem visitRoots_eq_firstCycle {roots : List V} (hroots : ∀ v, v ∉ roots → next v = [])
    {fuel : Nat} (hfuel : enough roots next ≤ fuel) :
    visitRoots next fuel roots (fun _ => none) = some (firstCycle roots next) := by
  have hstart : Finished next fun _ => none := by
    constructor <;> intro v hv <;> cases hv
  refine visitRoots_mono hfuel ?_
  unfold firstCycle
  rcases visitRoots_ends (fun _ _ => mem_vertices hroots) (fun _ hv => hv) hstart with
    ⟨cycle, heq, -⟩ | ⟨heq, -⟩
  · rw [heq]
    rfl
  · rw [heq]
    rfl

/-- How many vertices of a list were not seen. -/
def whites (l : List V) (color : V → Option Color) : Nat := (l.filter fun v => (color v).isNone).length

omit [DecidableEq V] in
theorem whites_cons (a : V) (l : List V) (color : V → Option Color) :
    whites (a :: l) color = (if (color a).isNone then 1 else 0) + whites l color := by
  unfold whites
  by_cases ha : (color a).isNone <;> simp [ha, Nat.add_comm]

/-- What was seen stays seen. -/
def Seen (color color' : V → Option Color) : Prop := ∀ v, color v ≠ none → color' v ≠ none

theorem seen_paint (color : V → Option Color) (v : V) (c : Color) : Seen color (paint color v c) := by
  intro w hw
  by_cases hwv : w = v
  · rw [hwv, paint_self]
    exact Option.some_ne_none c
  · rw [paint_of_ne color hwv]
    exact hw

omit [DecidableEq V] in
theorem whites_le {color color' : V → Option Color} (h : Seen color color') (l : List V) :
    whites l color' ≤ whites l color := by
  unfold whites
  refine (List.monotone_filter_right l fun v hv => ?_).length_le
  rw [Option.isNone_iff_eq_none] at hv ⊢
  by_contra hne
  exact h v hne hv

/-- A vertex that is entered is not white any more. -/
theorem whites_paint {l : List V} {v : V} (hv : v ∈ l) {color : V → Option Color}
    (hc : color v = none) (c : Color) : whites l (paint color v c) < whites l color := by
  induction l with
  | nil => cases hv
  | cons a l ih =>
    have hle := whites_le (seen_paint color v c) l
    rw [whites_cons, whites_cons]
    by_cases hav : a = v
    · subst hav
      rw [paint_self, hc]
      simp only [Option.isNone_some, Option.isNone_none, Bool.false_eq_true, if_false, if_true]
      omega
    · have hrest := ih ((List.mem_cons.1 hv).resolve_left (Ne.symm hav))
      rw [paint_of_ne color hav]
      omega

/-- A search that ends, with what it saw added to what was seen. -/
def Ends (color : V → Option Color) (o : Outcome V) : Prop :=
  ∃ r, o = some r ∧ ∀ color', r = .ok color' → Seen color color'

theorem scan_ends {enter : V → (V → Option Color) → List V → Outcome V} {l : List V} {n : Nat}
    (henter : ∀ v color path, v ∈ l → color v = none → whites l color ≤ n →
      Ends color (enter v color path)) (vs : List V) (hvs : ∀ v ∈ vs, v ∈ l)
    (color : V → Option Color) (path : List V) (hn : whites l color ≤ n) :
    Ends color (scan enter vs color path) := by
  induction vs generalizing color with
  | nil => exact ⟨_, rfl, fun color' h v hv => Except.ok.inj h ▸ hv⟩
  | cons v vs ih =>
    have hrest := fun w hw => hvs w (List.mem_cons_of_mem _ hw)
    unfold scan
    cases hv : color v with
    | none =>
      obtain ⟨r, hr, hseen⟩ := henter v color path (hvs v List.mem_cons_self) hv hn
      dsimp only
      rw [hr]
      cases r with
      | error cycle => exact ⟨_, rfl, fun color' h => by cases h⟩
      | ok color₁ =>
        have hseen₁ := hseen color₁ rfl
        obtain ⟨r', hr', hseen'⟩ := ih hrest color₁ (Nat.le_trans (whites_le hseen₁ l) hn)
        exact ⟨r', hr', fun color' h w hw => hseen' color' h w (hseen₁ w hw)⟩
    | some c =>
      cases c with
      | gray => exact ⟨_, rfl, fun color' h => by cases h⟩
      | black => exact ih hrest color hn

/-- **The recursion is no deeper than there are white vertices.** -/
theorem visit_ends {l : List V} (hclosed : ∀ v w, Edge next v w → w ∈ l) (fuel : Nat) (node : V)
    (color : V → Option Color) (path : List V) (hnode : node ∈ l) (hc : color node = none)
    (hfuel : whites l color ≤ fuel) : Ends color (visit next fuel node color path) := by
  induction fuel generalizing node color path with
  | zero =>
    have := whites_paint hnode hc .gray
    omega
  | succ fuel ih =>
    have hless := whites_paint hnode hc .gray
    obtain ⟨r, hr, hseen⟩ := scan_ends (n := fuel) (fun v color path hv hc hn => ih v color path hv hc hn)
      (next node) (fun w hw => hclosed node w hw) (paint color node .gray) (path ++ [node]) (by omega)
    unfold visit
    rw [hr]
    cases r with
    | error cycle => exact ⟨_, rfl, fun color' h => by cases h⟩
    | ok color₁ =>
      refine ⟨_, rfl, fun color' h w hw => ?_⟩
      rw [← Except.ok.inj h]
      exact seen_paint color₁ node .black w (hseen color₁ rfl w (seen_paint color node .gray w hw))

theorem visitEach_ends {l : List V} (hclosed : ∀ v w, Edge next v w → w ∈ l) {fuel : Nat}
    (hfuel : l.length ≤ fuel) (roots : List V) (hroots : ∀ v ∈ roots, v ∈ l)
    (color : V → Option Color) : ∃ x, visitEach next fuel roots color = some x := by
  induction roots generalizing color with
  | nil => exact ⟨none, rfl⟩
  | cons root rest ih =>
    have hrest := fun v hv => hroots v (List.mem_cons_of_mem _ hv)
    unfold visitEach
    by_cases hseen : (color root).isSome = true
    · rw [if_pos hseen]
      exact ih hrest color
    · rw [if_neg hseen]
      have hwhites : whites l color ≤ fuel :=
        Nat.le_trans (List.length_filter_le ..) hfuel
      obtain ⟨r, hr, -⟩ := visit_ends hclosed fuel root color [] (hroots root List.mem_cons_self)
        (by simpa using hseen) hwhites
      rw [hr]
      cases r with
      | error cycle => exact ⟨_, rfl⟩
      | ok color₁ => exact ih hrest color₁

/-! ## 4. The vertices of an answer -/

/-- The frames are of distinct vertices, all of them seen. -/
structure Distinct (s : Search V) : Prop where
  nodup : (s.stack.map Prod.fst).Nodup
  seen : ∀ v ∈ s.stack.map Prod.fst, s.color v ≠ none

theorem turn_distinct {s s' : Search V} (h : Distinct s) (hturn : turn next s = .more s') :
    Distinct s' := by
  obtain ⟨color, stack⟩ := s
  unfold turn at hturn
  match stack, h, hturn with
  | [], _, hturn => cases hturn
  | (node, []) :: rest, h, hturn =>
    obtain rfl := Turn.more.inj hturn
    refine ⟨(List.nodup_cons.1 h.nodup).2, fun v hv => ?_⟩
    exact seen_paint color node .black v (h.seen v (List.mem_cons_of_mem _ hv))
  | (node, w :: vs) :: rest, h, hturn =>
    dsimp only at hturn
    split at hturn
    · rename_i hw
      obtain rfl := Turn.more.inj hturn
      refine ⟨List.nodup_cons.2 ⟨fun hmem => h.seen w hmem hw, h.nodup⟩, fun v hv => ?_⟩
      rcases List.mem_cons.1 hv with rfl | hv
      · change paint color _ .gray _ ≠ none
        rw [paint_self]
        exact Option.some_ne_none _
      · exact seen_paint color w .gray v (h.seen v hv)
    · cases hturn
    · obtain rfl := Turn.more.inj hturn
      exact ⟨h.nodup, h.seen⟩

/-- **A cycle that is found repeats only its first vertex, at the end.** -/
theorem explore_dropLast_nodup {fuel : Nat} {s : Search V} {cycle : List V} (h : Distinct s)
    (hfound : explore next fuel s = some (.error cycle)) : cycle.dropLast.Nodup := by
  induction fuel generalizing s with
  | zero => cases hfound
  | succ fuel ih =>
    rw [explore] at hfound
    cases hturn : turn next s with
    | done color =>
      rw [hturn] at hfound
      cases hfound
    | more s' =>
      rw [hturn] at hfound
      exact ih (turn_distinct h hturn) hfound
    | found c =>
      rw [hturn] at hfound
      obtain rfl : c = cycle := Except.error.inj (Option.some.inj hfound)
      obtain ⟨color, stack⟩ := s
      unfold turn at hturn
      match stack, h, hturn with
      | [], _, hturn => cases hturn
      | (node, []) :: rest, h, hturn => cases hturn
      | (node, w :: vs) :: rest, h, hturn =>
        dsimp only at hturn
        split at hturn
        · cases hturn
        · obtain rfl := Turn.found.inj hturn
          rw [List.dropLast_concat]
          have hnodup : (((node, w :: vs) :: rest).reverse.map Prod.fst).Nodup := by
            rw [List.map_reverse, List.nodup_reverse]
            exact h.nodup
          exact hnodup.sublist (List.dropWhile_sublist _)
        · cases hturn

theorem visitRoots_dropLast_nodup {fuel : Nat} {roots : List V} {color : V → Option Color}
    {cycle : List V} (h : visitRoots next fuel roots color = some (some cycle)) :
    cycle.dropLast.Nodup := by
  induction roots generalizing color with
  | nil => cases h
  | cons root rest ih =>
    rw [visitRoots] at h
    split at h
    · exact ih h
    · split at h
      · cases h
      · rename_i found hexplore
        obtain rfl := Option.some.inj (Option.some.inj h)
        refine explore_dropLast_nodup ?_ hexplore
        refine ⟨List.nodup_singleton root, fun v hv => ?_⟩
        obtain rfl := List.mem_singleton.1 hv
        change paint color _ .gray _ ≠ none
        rw [paint_self]
        exact Option.some_ne_none _
      · exact ih h

end DeveSub.CycleSearch
