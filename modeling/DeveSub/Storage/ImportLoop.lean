/-
  File:      DeveSub/Storage/ImportLoop.lean
  Subject:   The loop of a manual import, for every list of nodes.

  * `importOne_cases` -- one input: the node is there, comes back, is added, or its id is taken;
  * `Contributed` -- a node that is there with a label of its own: no later input changes it;
  * `importOne_kept`, `importPairs_kept` -- one input, and all of them;
  * `importPairs_contributed` -- inputs that are all contributed already change nothing.
-/
import DeveSub.Storage.Identities

namespace DeveSub.NodePool

/-! ## 1. One input -/

/-- A row without the columns an import may change: label, missing flag and row revision. -/
def core (n : NodeRow) : NodeRow :=
  { n with sourceLabel := [], missingFromSource := false, revision := 0 }

/-- A node with the fingerprint is there under the id, with a label of its own. -/
def Contributed (nodes : Table NodeRow) (fp : Str) (id : NodeId) : Prop :=
  ∃ n ∈ nodes, n.id = id ∧ present fp n = true ∧ n.sourceLabel ≠ []

theorem Contributed.holds {nodes : Table NodeRow} {fp : Str} {id : NodeId}
    (h : Contributed nodes fp id) : Holds nodes fp id := by
  obtain ⟨n, hn, hid, hp, -⟩ := h
  exact ⟨n, hn, hid, hp⟩

/-- A node that an outcome names. -/
def outcomeId : ImportOutcome → NodeId
  | .inserted id | .duplicate id => id

/-- An outcome that is counted as new. -/
def isNew : ImportOutcome → Bool
  | .inserted _ => true
  | .duplicate _ => false

@[simp] theorem isNew_inserted (id : NodeId) : isNew (.inserted id) = true := rfl

@[simp] theorem isNew_duplicate (id : NodeId) : isNew (.duplicate id) = false := rfl

/-- The result with one more outcome. -/
def countOutcome (r : ImportResult) : ImportOutcome → ImportResult
  | .inserted id => countNew r id
  | .duplicate id => countDuplicate r id

theorem independentLabel_ne_nil (n : PooledNode) : independentLabel n ≠ [] := by
  unfold independentLabel
  split
  · decide
  · rename_i h
    intro he
    exact h (List.isEmpty_iff.2 he)

theorem mem_retain {nodes : Table NodeRow} {id : NodeId} {label : Str} {x : NodeRow} :
    x ∈ retainManualContribution nodes id label ↔ ∃ y ∈ nodes,
      (if y.id = id ∧ (y.sourceLabel = [] ∨ y.missingFromSource = true) then retained label y
        else y) = x := by
  refine Table.mem_update.trans ?_
  simp only [Bool.and_eq_true, Bool.or_eq_true, decide_eq_true_eq, List.isEmpty_iff]

/-- **One input, by what the table has of its fingerprint.** -/
theorem importOne_cases (nodes : Table NodeRow) (r : ImportResult) (n : PooledNode) (fp : Str) :
    (∃ e ∈ nodes, present fp e = true ∧ importOne nodes r n fp =
      (retainManualContribution nodes e.id (independentLabel n), countDuplicate r e.id)) ∨
    (∀ m ∈ nodes, present fp m = false) ∧
      ((∃ e ∈ nodes, absent fp e = true ∧ importOne nodes r n fp =
        (retainManualContribution nodes e.id (independentLabel n), countNew r e.id)) ∨
      (∃ nodes', nodes.insert (newRow n fp (independentLabel n)) = some nodes' ∧
        importOne nodes r n fp = (nodes', countNew r n.id)) ∨
      ((∃ m ∈ nodes, m.id = n.id) ∧ importOne nodes r n fp = (nodes, r))) := by
  unfold importOne
  dsimp only
  cases hhere : nodes.rows.find? (present fp) with
  | some e =>
    exact .inl ⟨e, List.mem_of_find?_eq_some hhere, List.find?_some hhere, rfl⟩
  | none =>
    have hnone : ∀ m ∈ nodes, present fp m = false := by
      intro m hm
      exact Bool.eq_false_of_not_eq_true (List.find?_eq_none.1 hhere m hm)
    refine .inr ⟨hnone, ?_⟩
    cases hback : nodes.rows.find? (absent fp) with
    | some e => exact .inl ⟨e, List.mem_of_find?_eq_some hback, List.find?_some hback, rfl⟩
    | none =>
      refine .inr ?_
      have hany : nodes.rows.any (present fp) = false :=
        List.any_eq_false.2 fun m hm => by rw [hnone m hm]; exact Bool.false_ne_true
      simp only [insertNode, hany, Bool.and_false, Bool.false_eq_true, if_false]
      cases hins : nodes.insert (newRow n fp (independentLabel n)) with
      | some nodes' => exact .inl ⟨nodes', rfl, rfl⟩
      | none =>
        obtain ⟨x, hx⟩ := Table.insert_eq_none hins
        exact .inr ⟨⟨x, Table.find_eq_some.1 hx⟩, rfl⟩

/-- What one input leaves of the rows, whatever its id. -/
structure Kept (nodes nodes' : Table NodeRow) : Prop where
  distinct : Distinct nodes'
  kept : ∀ m ∈ nodes, m.missingFromSource = false → m.sourceLabel ≠ [] → m ∈ nodes'
  touched : ∀ m ∈ nodes, ∃ m' ∈ nodes', core m' = core m
  labelled : ∀ m' ∈ nodes', m' ∈ nodes ∨ m'.missingFromSource = false ∧ m'.sourceLabel ≠ []
  old : ∀ m' ∈ nodes', (∃ m ∈ nodes, core m' = core m) ∨ m'.chain = none

theorem Kept.refl {nodes : Table NodeRow} (h : Distinct nodes) : Kept nodes nodes where
  distinct := h
  kept _ hm _ _ := hm
  touched m hm := ⟨m, hm, rfl⟩
  labelled _ hm := .inl hm
  old m hm := .inl ⟨m, hm, rfl⟩

theorem Kept.trans {a b c : Table NodeRow} (hab : Kept a b) (hbc : Kept b c) : Kept a c where
  distinct := hbc.distinct
  kept m hm hmiss hl := hbc.kept m (hab.kept m hm hmiss hl) hmiss hl
  touched m hm := by
    obtain ⟨x, hx, hxm⟩ := hab.touched m hm
    obtain ⟨y, hy, hyx⟩ := hbc.touched x hx
    exact ⟨y, hy, hyx.trans hxm⟩
  labelled m hm := (hbc.labelled m hm).elim (hab.labelled m) .inr
  old m hm := by
    rcases hbc.old m hm with ⟨x, hx, hmx⟩ | hnone
    · rcases hab.old x hx with ⟨y, hy, hxy⟩ | hnone
      · exact .inl ⟨y, hy, hmx.trans hxy⟩
      · exact .inr ((congrArg NodeRow.chain hmx).trans hnone)
    · exact .inr hnone

theorem Kept.contributed {nodes nodes' : Table NodeRow} (h : Kept nodes nodes') {fp : Str}
    {id : NodeId} (hc : Contributed nodes fp id) : Contributed nodes' fp id := by
  obtain ⟨n, hn, hid, hp, hl⟩ := hc
  exact ⟨n, h.kept n hn (present_iff.1 hp).2 hl, hid, hp, hl⟩

section Retain

variable {nodes : Table NodeRow} {e : NodeRow} {fp label : Str}

theorem retained_label_ne_nil (hlabel : label ≠ []) (n : NodeRow) :
    (retained label n).sourceLabel ≠ [] := by
  unfold retained
  dsimp only
  split
  · exact hlabel
  · rename_i h
    intro he
    exact h (List.isEmpty_iff.2 he)

/-- **The contribution is kept on a row**: the one that is there, or a missing one when none
    is. -/
theorem retain_kept (h : Distinct nodes) (he : e ∈ nodes) (hfp : e.identityFingerprint = fp)
    (hother : ∀ m ∈ nodes, present fp m = true → m.id = e.id) (hlabel : label ≠ []) :
    Kept nodes (retainManualContribution nodes e.id label) where
  distinct := by
    refine h.update (retained_comesBack label) (fun n hn hp => ?_) hother
    simp only [Bool.and_eq_true, decide_eq_true_eq] at hp
    rw [Table.eq_of_key hn he hp.1]
    exact ⟨rfl, hfp⟩
  kept m hm hmiss hl := mem_retain.2 ⟨m, hm, if_neg fun hor => by simp [hmiss, hl] at hor⟩
  touched m hm := by
    refine ⟨_, mem_retain.2 ⟨m, hm, rfl⟩, ?_⟩
    split
    · rfl
    · rfl
  labelled x hx := by
    obtain ⟨m, hm, rfl⟩ := mem_retain.1 hx
    split
    · exact .inr ⟨rfl, retained_label_ne_nil hlabel m⟩
    · exact .inl hm
  old x hx := by
    obtain ⟨m, hm, rfl⟩ := mem_retain.1 hx
    refine .inl ⟨m, hm, ?_⟩
    split
    · rfl
    · rfl

/-- It is there with a label of its own. -/
theorem contributed_retain (he : e ∈ nodes) (hfp : e.identityFingerprint = fp)
    (hlabel : label ≠ []) : Contributed (retainManualContribution nodes e.id label) fp e.id := by
  by_cases hor : e.sourceLabel = [] ∨ e.missingFromSource = true
  · refine ⟨retained label e, mem_retain.2 ⟨e, he, if_pos ⟨rfl, hor⟩⟩, rfl,
      present_iff.2 ⟨hfp, rfl⟩, retained_label_ne_nil hlabel e⟩
  · have hboth := not_or.1 hor
    refine ⟨e, mem_retain.2 ⟨e, he, if_neg fun hh => hor hh.2⟩, rfl,
      present_iff.2 ⟨hfp, Bool.eq_false_of_not_eq_true hboth.2⟩, hboth.1⟩

end Retain

/-- The contribution is kept on a new row. -/
theorem insert_kept {nodes nodes' : Table NodeRow} {n : PooledNode} {fp label : Str}
    (h : Distinct nodes) (hnone : ∀ m ∈ nodes, present fp m = false)
    (hins : nodes.insert (newRow n fp label) = some nodes') (hlabel : label ≠ []) :
    Kept nodes nodes' where
  distinct := h.insert hins hnone
  kept _ hm _ _ := (Table.mem_insert hins).2 (.inl hm)
  touched m hm := ⟨m, (Table.mem_insert hins).2 (.inl hm), rfl⟩
  labelled x hx := by
    rcases (Table.mem_insert hins).1 hx with hx | rfl
    · exact .inl hx
    · exact .inr ⟨rfl, hlabel⟩
  old x hx := by
    rcases (Table.mem_insert hins).1 hx with hx | rfl
    · exact .inl ⟨x, hx, rfl⟩
    · exact .inr rfl

/-- **One input, whatever its id.** -/
theorem importOne_kept {nodes : Table NodeRow} (h : Distinct nodes) (r : ImportResult)
    (n : PooledNode) (fp : Str) : Kept nodes (importOne nodes r n fp).1 := by
  have hlabel := independentLabel_ne_nil n
  rcases importOne_cases nodes r n fp with ⟨e, he, hp, heq⟩ | ⟨hnone, ⟨e, he, habs, heq⟩ |
    ⟨nodes', hins, heq⟩ | ⟨-, heq⟩⟩ <;> rw [heq]
  · exact retain_kept h he (present_iff.1 hp).1
      (fun m hm hpm => congrArg NodeRow.id (h.eq_of_present hm he hpm hp)) hlabel
  · refine retain_kept h he (absent_iff.1 habs).1 (fun m hm hpm => ?_) hlabel
    rw [hnone m hm] at hpm
    cases hpm
  · exact insert_kept h hnone hins hlabel
  · exact .refl h

/-- **One input with a fresh id**: one outcome, which names the node its fingerprint now has. -/
theorem importOne_outcome (nodes : Table NodeRow) (r : ImportResult) (n : PooledNode)
    (hfresh : ∀ m ∈ nodes, m.id ≠ n.id) (fp : Str) :
    ∃ o, (importOne nodes r n fp).2 = countOutcome r o ∧
      Contributed (importOne nodes r n fp).1 fp (outcomeId o) ∧
      (isNew o = true → ∀ m ∈ nodes, present fp m = false) := by
  have hlabel := independentLabel_ne_nil n
  rcases importOne_cases nodes r n fp with ⟨e, he, hp, heq⟩ | ⟨hnone, ⟨e, he, habs, heq⟩ |
    ⟨nodes', hins, heq⟩ | ⟨⟨m, hm, hid⟩, -⟩⟩
  · exact ⟨.duplicate e.id, by rw [heq]; rfl,
      by rw [heq]; exact contributed_retain he (present_iff.1 hp).1 hlabel, fun hnew => by cases hnew⟩
  · exact ⟨.inserted e.id, by rw [heq]; rfl,
      by rw [heq]; exact contributed_retain he (absent_iff.1 habs).1 hlabel, fun _ => hnone⟩
  · refine ⟨.inserted n.id, by rw [heq]; rfl, ?_, fun _ => hnone⟩
    rw [heq]
    exact ⟨_, (Table.mem_insert hins).2 (.inr rfl), rfl, present_iff.2 ⟨rfl, rfl⟩, hlabel⟩
  · exact absurd hid (hfresh m hm)

/-- The ids an input leaves: the old ones, and its own. -/
theorem importOne_ids {nodes : Table NodeRow} (r : ImportResult) (n : PooledNode) (fp : Str)
    {x : NodeRow} (hx : x ∈ (importOne nodes r n fp).1) :
    (∃ y ∈ nodes, y.id = x.id) ∨ x.id = n.id := by
  have hretain : ∀ id label, x ∈ retainManualContribution nodes id label →
      ∃ y ∈ nodes, y.id = x.id := by
    intro id label hx
    obtain ⟨y, hy, rfl⟩ := mem_retain.1 hx
    refine ⟨y, hy, ?_⟩
    split <;> rfl
  rcases importOne_cases nodes r n fp with ⟨e, -, -, heq⟩ | ⟨-, ⟨e, -, -, heq⟩ |
    ⟨nodes', hins, heq⟩ | ⟨-, heq⟩⟩ <;> rw [heq] at hx
  · exact .inl (hretain _ _ hx)
  · exact .inl (hretain _ _ hx)
  · rcases (Table.mem_insert hins).1 hx with hx | rfl
    · exact .inl ⟨x, hx, rfl⟩
    · exact .inr rfl
  · exact .inl ⟨x, hx, rfl⟩

/-- **An input that is contributed already** is a duplicate and changes nothing. -/
theorem importOne_contributed {nodes : Table NodeRow} (h : Distinct nodes) (r : ImportResult)
    (n : PooledNode) {fp : Str} {id : NodeId} (hc : Contributed nodes fp id) :
    importOne nodes r n fp = (nodes, countDuplicate r id) := by
  obtain ⟨m, hm, rfl, hp, hl⟩ := hc
  have hmiss := (present_iff.1 hp).2
  rcases importOne_cases nodes r n fp with ⟨e, he, hpe, heq⟩ | ⟨hnone, -⟩
  · obtain rfl := h.eq_of_present he hm hpe hp
    rw [heq]
    refine Prod.ext (Table.ext ?_) rfl
    -- the only row with the id is the node, and the update does not select it
    refine (List.map_congr_left fun x hx => ?_).trans (List.map_id _)
    refine if_neg fun hsel => ?_
    simp only [Bool.and_eq_true, Bool.or_eq_true, decide_eq_true_eq, List.isEmpty_iff] at hsel
    rw [Table.eq_of_key hx he hsel.1] at hsel
    simp [hmiss, hl] at hsel
  · rw [hnone m hm] at hp
    cases hp

/-! ## 2. All inputs -/

/-- The inputs with their fingerprints, one after the other. -/
def importPairs (nodes : Table NodeRow) (r : ImportResult) (pairs : List (PooledNode × Str)) :
    Table NodeRow × ImportResult :=
  pairs.foldl (fun acc x => importOne acc.1 acc.2 x.1 x.2) (nodes, r)

theorem importPairs_cons (nodes : Table NodeRow) (r : ImportResult) (x : PooledNode × Str)
    (rest : List (PooledNode × Str)) : importPairs nodes r (x :: rest) =
      importPairs (importOne nodes r x.1 x.2).1 (importOne nodes r x.1 x.2).2 rest := rfl

/-- **The loop draws a fingerprint for each input and takes the inputs in turn.** -/
theorem importAll_eq_ok {fingerprint : PooledNode → Except SourceError Str} {nodes : Table NodeRow}
    {r : ImportResult} {input : List PooledNode} {out : Table NodeRow × ImportResult} :
    importAll fingerprint nodes r input = .ok out ↔
      ∃ fps, List.Forall₂ (fun n fp => fingerprint n = .ok fp) input fps ∧
        importPairs nodes r (input.zip fps) = out := by
  induction input generalizing nodes r with
  | nil =>
    constructor
    · intro h
      exact ⟨[], .nil, Except.ok.inj h⟩
    · intro h
      obtain ⟨fps, hfps, rfl⟩ := h
      rfl
  | cons n rest ih =>
    rw [importAll, bind_eq_ok]
    constructor
    · intro h
      obtain ⟨fp, hfp, h⟩ := h
      obtain ⟨fps, hfps, heq⟩ := ih.1 h
      exact ⟨fp :: fps, .cons hfp hfps, heq⟩
    · intro h
      obtain ⟨fps, hfps, heq⟩ := h
      cases hfps with
      | cons hfp hfps => exact ⟨_, hfp, ih.2 ⟨_, hfps, heq⟩⟩

theorem importPairs_kept {nodes : Table NodeRow} (h : Distinct nodes) (r : ImportResult)
    (pairs : List (PooledNode × Str)) : Kept nodes (importPairs nodes r pairs).1 := by
  induction pairs generalizing nodes r with
  | nil => exact .refl h
  | cons x rest ih =>
    have hone := importOne_kept h r x.1 x.2
    exact hone.trans (ih hone.distinct _)

/-- What inputs with fresh ids, one outcome for each, leave behind. -/
structure Outcomes (nodes nodes' : Table NodeRow) (pairs : List (PooledNode × Str))
    (outcomes : List ImportOutcome) : Prop where
  resolved : List.Forall₂ (fun x o => Contributed nodes' x.2 (outcomeId o)) pairs outcomes
  later : ∀ y ∈ pairs.zip outcomes, ∀ id, Contributed nodes y.1.2 id → isNew y.2 = false
  first : (pairs.zip outcomes).Pairwise fun x y => x.1.2 = y.1.2 → isNew y.2 = false

/-- **All inputs with fresh ids.** -/
theorem importPairs_outcomes {nodes : Table NodeRow} (h : Distinct nodes) (r : ImportResult)
    {pairs : List (PooledNode × Str)} (hids : (pairs.map fun x => x.1.id).Nodup)
    (hfresh : ∀ m ∈ nodes, m.id ∉ pairs.map fun x => x.1.id) :
    ∃ outcomes, (importPairs nodes r pairs).2 = outcomes.foldl countOutcome r ∧
      Outcomes nodes (importPairs nodes r pairs).1 pairs outcomes := by
  induction pairs generalizing nodes r with
  | nil =>
    refine ⟨[], rfl, .nil, fun y hy => ?_, .nil⟩
    cases hy
  | cons x rest ih =>
    obtain ⟨hnew, hids⟩ := List.nodup_cons.1 hids
    have hkept := importOne_kept h r x.1 x.2
    obtain ⟨o, hcount, hcontributed, hfirst⟩ := importOne_outcome nodes r x.1
      (fun m hm hmx => hfresh m hm (hmx ▸ List.mem_cons_self)) x.2
    obtain ⟨os, hos, hrest⟩ := ih hkept.distinct (importOne nodes r x.1 x.2).2 hids
      (fun m hm hmem => by
        rcases importOne_ids r x.1 x.2 hm with ⟨y, hy, hym⟩ | hmx
        · exact hfresh y hy (hym ▸ List.mem_cons_of_mem _ hmem)
        · rw [hmx] at hmem
          exact hnew hmem)
    have hall := importPairs_kept hkept.distinct (importOne nodes r x.1 x.2).2 rest
    refine ⟨o :: os, ?_, ?_⟩
    · rw [importPairs_cons, hos, hcount, List.foldl_cons]
    · rw [importPairs_cons]
      exact {
        resolved := .cons (hall.contributed hcontributed) hrest.resolved
        later := by
          intro y hy id hc
          rcases List.mem_cons.1 hy with rfl | hy
          · -- a new outcome would have found no node that is there
            refine Bool.eq_false_of_not_eq_true fun hn => ?_
            obtain ⟨m, hm, -, hp, -⟩ := hc
            rw [hfirst hn m hm] at hp
            cases hp
          · exact hrest.later y hy id (hkept.contributed hc)
        first := by
          refine List.pairwise_cons.2 ⟨fun y hy heq => ?_, hrest.first⟩
          refine hrest.later y hy (outcomeId o) ?_
          rw [← heq]
          exact hcontributed }

/-- **Inputs that are all contributed already** are duplicates and change nothing. -/
theorem importPairs_contributed {nodes : Table NodeRow} (h : Distinct nodes)
    {pairs : List (PooledNode × Str)} {ids : List NodeId}
    (hc : List.Forall₂ (fun x id => Contributed nodes x.2 id) pairs ids) (r : ImportResult) :
    importPairs nodes r pairs = (nodes, ids.foldl countDuplicate r) := by
  induction hc generalizing r with
  | nil => rfl
  | @cons x id rest ids hx _ ih =>
    rw [importPairs_cons, importOne_contributed h r x.1 hx]
    exact ih (countDuplicate r id)

theorem foldl_countOutcome (outcomes : List ImportOutcome) (r : ImportResult) :
    outcomes.foldl countOutcome r =
      ⟨r.newNodes + outcomes.countP isNew, r.duplicateNodes + outcomes.countP (fun o => !isNew o),
        r.outcomes ++ outcomes⟩ := by
  induction outcomes generalizing r with
  | nil => simp
  | cons o rest ih =>
    rw [List.foldl_cons, ih]
    cases o with
    | inserted id =>
      simp only [countOutcome, countNew, List.countP_cons, isNew_inserted, Bool.not_true,
        Bool.false_eq_true, if_true, if_false, List.append_assoc, List.singleton_append]
      congr 1
      omega
    | duplicate id =>
      simp only [countOutcome, countDuplicate, List.countP_cons, isNew_duplicate, Bool.not_false,
        Bool.false_eq_true, if_true, if_false, List.append_assoc, List.singleton_append]
      congr 1
      omega

end DeveSub.NodePool
