/-
  File:      DeveSub/Properties/Imports.lean
  Subject:   What a manual import answers, input by input.

  * `Outcomes.later_of_eq` -- of inputs with one fingerprint all but the first are duplicates;
  * `importAll_again` -- a list that was imported is all duplicates the next time;
  * `import_outcomes` -- one outcome for each input, naming the one node that is there.
-/
import DeveSub.Properties.PoolInvariant

namespace DeveSub

open NodePool

/-! ## 1. The outcomes of a list -/

namespace NodePool

section Outcomes

variable {nodes nodes' : Table NodeRow} {input : List PooledNode} {fps : List Str}
  {outcomes : List ImportOutcome}

/-- **Inputs with one fingerprint** are one node, new at most for the first of them. -/
theorem Outcomes.later_of_eq (hdistinct : Distinct nodes')
    (h : Outcomes nodes nodes' (input.zip fps) outcomes) {i j : Nat} (hij : i < j)
    {x y : PooledNode × Str} {o p : ImportOutcome} (hx : (input.zip fps)[i]? = some x)
    (hy : (input.zip fps)[j]? = some y) (ho : outcomes[i]? = some o) (hp : outcomes[j]? = some p)
    (hfp : x.2 = y.2) : outcomeId p = outcomeId o ∧ isNew p = false := by
  have hi : ((input.zip fps).zip outcomes)[i]? = some (x, o) :=
    List.getElem?_zip_eq_some.2 ⟨hx, ho⟩
  have hj : ((input.zip fps).zip outcomes)[j]? = some (y, p) :=
    List.getElem?_zip_eq_some.2 ⟨hy, hp⟩
  have hox := (List.forall₂_zip h.resolved (List.mem_of_getElem? hi)).holds
  have hpy := (List.forall₂_zip h.resolved (List.mem_of_getElem? hj)).holds
  refine ⟨hdistinct.holds_unique hpy (hfp ▸ hox), ?_⟩
  obtain ⟨hil, hi⟩ := List.getElem?_eq_some_iff.1 hi
  obtain ⟨hjl, hj⟩ := List.getElem?_eq_some_iff.1 hj
  have hfirst := List.pairwise_iff_getElem.1 h.first i j hil hjl hij
  rw [hi, hj] at hfirst
  exact hfirst hfp

/-- **A list that was imported** is all duplicates the next time, and no row changes. -/
theorem importAll_again {fingerprint : PooledNode → Except SourceError Str}
    (hdistinct : Distinct nodes')
    (hfps : List.Forall₂ (fun n fp => fingerprint n = .ok fp) input fps)
    (h : Outcomes nodes nodes' (input.zip fps) outcomes) :
    importAll fingerprint nodes' ⟨0, 0, []⟩ input =
      .ok (nodes', ⟨0, outcomes.length, outcomes.map fun o => .duplicate (outcomeId o)⟩) := by
  refine importAll_eq_ok.2 ⟨fps, hfps, ?_⟩
  rw [importPairs_contributed hdistinct (List.forall₂_map_right_iff.2 h.resolved)]
  have hfold : (outcomes.map outcomeId).foldl countDuplicate ⟨0, 0, []⟩ =
      (outcomes.map fun o => ImportOutcome.duplicate (outcomeId o)).foldl countOutcome ⟨0, 0, []⟩ := by
    rw [List.foldl_map, List.foldl_map]
    rfl
  rw [hfold, foldl_countOutcome]
  simp [Function.comp_def]

end Outcomes

end NodePool

/-! ## 2. An import -/

/-- **An import answers one outcome for each input, in order**, and each names the one node that
    is there with the input's fingerprint; of equal inputs at most the first is new; a node
    that was there keeps all but label, missing flag and revision; and the same list again is
    all duplicates and changes nothing. -/
theorem import_outcomes {W : World} {db db' : Db} {input : List PooledNode} {r : ImportResult}
    (hreach : Reachable W db) (hids : (input.map PooledNode.id).Nodup)
    (hfresh : ∀ n ∈ db.nodes, n.id ∉ input.map PooledNode.id)
    (h : importNodes W.fingerprint input db = .ok (r, db')) :
    r.outcomes.length = input.length ∧ r.newNodes + r.duplicateNodes = input.length ∧
    r.newNodes = r.outcomes.countP isNew ∧
    List.Forall₂ (fun n o => ∃ fp, W.fingerprint n = .ok fp ∧
      (∃ m ∈ db'.nodes, m.id = outcomeId o ∧ present fp m = true) ∧
      ∀ m ∈ db'.nodes, present fp m = true → m.id = outcomeId o) input r.outcomes ∧
    (∀ (i j : Nat) (n m : PooledNode) (o p : ImportOutcome), i < j → input[i]? = some n →
      input[j]? = some m → r.outcomes[i]? = some o → r.outcomes[j]? = some p →
      W.fingerprint n = W.fingerprint m → outcomeId p = outcomeId o ∧ isNew p = false) ∧
    (∀ n ∈ db.nodes, ∃ n' ∈ db'.nodes, core n' = core n) ∧
    (db'.revision + 1 < 2 ^ 63 → ∃ db'', importNodes W.fingerprint input db' =
      .ok (⟨0, input.length, r.outcomes.map fun o => .duplicate (outcomeId o)⟩, db'') ∧
      db''.nodes = db'.nodes) := by
  have hp := hreach.provenance
  obtain ⟨nodes, m, hall, -, -, rfl⟩ := importNodes_eq_ok W.fingerprint h
  obtain ⟨fps, hfps, hpairs⟩ := importAll_eq_ok.1 hall
  have hmap : (input.zip fps).map (fun x => x.1.id) = input.map PooledNode.id := by
    have hfst : (input.zip fps).map Prod.fst = input := List.map_fst_zip hfps.length_eq.le
    conv_rhs => rw [← hfst, List.map_map]
    rfl
  have hkept := importPairs_kept hp.distinct ⟨0, 0, []⟩ (input.zip fps)
  obtain ⟨outcomes, hcount, hout⟩ := importPairs_outcomes hp.distinct ⟨0, 0, []⟩
    (hmap ▸ hids) (fun n hn => hmap ▸ hfresh n hn)
  rw [hpairs] at hkept hcount hout
  obtain rfl : r = ⟨outcomes.countP isNew, outcomes.countP fun o => !isNew o, outcomes⟩ := by
    rw [show r = outcomes.foldl countOutcome ⟨0, 0, []⟩ from hcount, foldl_countOutcome]
    simp
  have hlen : outcomes.length = input.length := by
    rw [← hout.resolved.length_eq, List.length_zip, ← hfps.length_eq, Nat.min_self]
  have hpair : ∀ {i : Nat} {n : PooledNode}, input[i]? = some n →
      ∃ fp, W.fingerprint n = .ok fp ∧ (input.zip fps)[i]? = some (n, fp) := by
    intro i n hn
    obtain ⟨fp, hfp, hn'⟩ := exists_of_getElem? hfps hn
    exact ⟨fp, hn', List.getElem?_zip_eq_some.2 ⟨hn, hfp⟩⟩
  refine ⟨hlen, ?_, rfl, ?_, ?_, hkept.touched, fun hfits => ?_⟩
  · rw [← hlen, List.length_eq_countP_add_countP isNew]
    simp
  · refine (forall₂_of_zip hfps hout.resolved).imp fun n o hno => ?_
    obtain ⟨fp, hfp, hc⟩ := hno
    exact ⟨fp, hfp, hc.holds, fun x hx hpx =>
      hkept.distinct.holds_unique ⟨x, hx, rfl, hpx⟩ hc.holds⟩
  · intro i j n n' o p hij hn hn' ho hpj heq
    obtain ⟨fp, hfp, hzip⟩ := hpair hn
    obtain ⟨fp', hfp', hzip'⟩ := hpair hn'
    exact hout.later_of_eq hkept.distinct hij hzip hzip' ho hpj
      (Except.ok.inj (hfp.symm.trans (heq.trans hfp')))
  · have hagain := importAll_again hkept.distinct hfps hout
    obtain ⟨d, hd⟩ := bumpRevisionTx_succeeds hfits
    obtain ⟨m', -, -, heq⟩ := bumpRevisionTx_eq_ok hd
    refine ⟨d, ?_, by rw [heq]⟩
    rw [hlen] at hagain
    exact bind_eq_ok.2 ⟨_, hagain, bind_eq_ok.2 ⟨d, hd, rfl⟩⟩

theorem import_outcomes_twins :
    let db := Db.afterWrites World.named []
    let db' := Db.afterWrites World.named [.importNodes [.plain 3, .plain 4]]
    importNodes World.named.fingerprint [.plain 3, .plain 4] db =
      .ok (⟨1, 1, [.inserted 3, .duplicate 3]⟩, db') ∧
    ∃ db'', importNodes World.named.fingerprint [.plain 3, .plain 4] db' =
      .ok (⟨0, 2, [.duplicate 3, .duplicate 3]⟩, db'') ∧ db''.nodes = db'.nodes := by
  intro db db'
  have hrun : importNodes World.named.fingerprint [.plain 3, .plain 4] db =
      .ok (⟨1, 1, [.inserted 3, .duplicate 3]⟩, db') := rfl
  have hall := import_outcomes (reachable_afterWrites World.named []) (by decide)
    (fun n hn => absurd hn (Table.not_mem_empty n)) hrun
  exact ⟨hrun, hall.2.2.2.2.2.2 (by decide)⟩

end DeveSub
