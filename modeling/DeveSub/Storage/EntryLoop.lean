/-
  File:      DeveSub/Storage/EntryLoop.lean
  Subject:   The loop of a reconciliation over its entries, for every list of entries and every
             size of the batches.

  * `Mirrors` -- the operation-local map knows of each key what the table does;
  * `reconcileOne_done`, `reconcileBatch_done` -- one entry, and all of them: each fingerprint
    ends with a node that is there, and every row with another id is an old one;
  * `reconcileBatch_present` -- when every fingerprint has a node already, no row changes;
  * `reconcileBatch_fresh` -- with fresh ids the loop does not fail;
  * `reconcileBatches_eq`, `lookupIdentitiesBy_eq`, `stillBoundBy_eq` -- the size is idle.
-/
import DeveSub.Storage.Identities

namespace DeveSub.NodePool

/-! ## 1. One entry -/

/-- The local map knows of each key what the table does. -/
def Mirrors (keys : List Str) (p : Progress) : Prop :=
  ∀ fp ∈ keys, p.identities fp = identityOf p.nodes fp

/-- The entries a result has counted. -/
def counted (r : ReconcileResult) : Nat := r.newNodes + r.duplicateNodes + r.reactivatedNodes

/-- The change of `reactivate`. -/
def reactivated (n : NodeRow) : NodeRow :=
  { n with missingFromSource := false, revision := n.revision + 1 }

theorem reactivated_comesBack : ComesBack reactivated :=
  ⟨fun _ => rfl, fun _ => rfl, fun _ => rfl⟩

theorem mem_reactivate {nodes : Table NodeRow} {id : NodeId} {x : NodeRow} :
    x ∈ reactivate nodes id ↔ ∃ y ∈ nodes, (if y.id = id then reactivated y else y) = x := by
  simp [reactivate, reactivated]

/-- **What one entry does**, by what the map knows of its fingerprint. -/
theorem reconcileOne_cases {p p' : Progress} {n : PooledNode} {fp : Str} {id : NodeId}
    (h : reconcileOne p n fp = .ok (p', id)) :
    (p.identities fp = some (id, true) ∧
      p' = ⟨reactivate p.nodes id, p.identities.insert fp (id, false),
        { p.result with reactivatedNodes := p.result.reactivatedNodes + 1 }, id :: p.seen⟩) ∨
    (p.identities fp = some (id, false) ∧
      p' = ⟨p.nodes, p.identities,
        { p.result with duplicateNodes := p.result.duplicateNodes + 1 }, id :: p.seen⟩) ∨
    (p.identities fp = none ∧ id = n.id ∧ ∃ nodes, insertNode p.nodes n fp [] = some nodes ∧
      p' = ⟨nodes, p.identities.insert fp (id, false),
        { p.result with newNodes := p.result.newNodes + 1 }, id :: p.seen⟩) := by
  unfold reconcileOne at h
  split at h
  · rename_i i hi
    obtain ⟨rfl, rfl⟩ := ok_pair_inj h
    exact .inl ⟨hi, rfl⟩
  · rename_i i hi
    obtain ⟨rfl, rfl⟩ := ok_pair_inj h
    exact .inr (.inl ⟨hi, rfl⟩)
  · rename_i hi
    split at h
    · cases h
    · rename_i nodes hins
      obtain ⟨rfl, rfl⟩ := ok_pair_inj h
      exact .inr (.inr ⟨hi, rfl, nodes, hins, rfl⟩)

/-- What entries with the given fingerprints, resolved to the given ids, leave behind. -/
structure Done (keys : List Str) (p p' : Progress) (fps : List Str) (ids : List NodeId) : Prop where
  mirrors : Mirrors keys p'
  distinct : Distinct p'.nodes
  resolved : List.Forall₂ (Holds p'.nodes) fps ids
  kept : ∀ n ∈ p.nodes, n.missingFromSource = false → n ∈ p'.nodes
  old : ∀ n ∈ p'.nodes, n.id ∉ ids → n ∈ p.nodes
  seen : ∀ id, id ∈ p'.seen ↔ id ∈ ids ∨ id ∈ p.seen
  counted : counted p'.result = counted p.result + fps.length
  missing : p'.result.missingNodes = p.result.missingNodes

/-- The map after an entry, when the table moved along. -/
theorem Mirrors.insert {keys : List Str} {p p' : Progress} {fp : Str} {id : NodeId}
    (h : Mirrors keys p) (hmap : p'.identities = p.identities.insert fp (id, false))
    (hdistinct : Distinct p'.nodes) (hhere : Holds p'.nodes fp id)
    (hother : ∀ other, other ≠ fp → identityOf p'.nodes other = identityOf p.nodes other) :
    Mirrors keys p' := by
  intro key hkey
  rw [hmap, Identities.insert]
  by_cases heq : key = fp
  · rw [if_pos heq, heq, identityOf_of_holds hdistinct hhere]
  · rw [if_neg heq, h key hkey, hother key heq]

section Entry

variable {keys : List Str} {p : Progress} {fp : Str} {id : NodeId}

/-- A missing node comes back. -/
theorem done_back (hmirrors : Mirrors keys p) (hdistinct : Distinct p.nodes)
    (hid : identityOf p.nodes fp = some (id, true)) :
    Done keys p ⟨reactivate p.nodes id, p.identities.insert fp (id, false),
      { p.result with reactivatedNodes := p.result.reactivatedNodes + 1 }, id :: p.seen⟩
      [fp] [id] := by
  obtain ⟨⟨m, hm, rfl, habs⟩, hnone⟩ := absent_of_identityOf hid
  obtain ⟨hfp, hmiss⟩ := absent_iff.1 habs
  have hsel : ∀ x ∈ p.nodes, decide (x.id = m.id) = true →
      x.id = m.id ∧ x.identityFingerprint = fp := by
    intro x hx hxid
    rw [Table.eq_of_key hx hm (of_decide_eq_true hxid)]
    exact ⟨rfl, hfp⟩
  have hdist : Distinct (reactivate p.nodes m.id) :=
    hdistinct.update reactivated_comesBack hsel fun x hx hp => by
      rw [hnone x hx] at hp
      cases hp
  have hhere : Holds (reactivate p.nodes m.id) fp m.id :=
    holds_update reactivated_comesBack hm (decide_eq_true rfl) hfp
  have hother : ∀ other, other ≠ fp →
      identityOf (reactivate p.nodes m.id) other = identityOf p.nodes other := by
    intro other hne
    unfold reactivate
    exact identityOf_update reactivated_comesBack (fun x hx hp => (hsel x hx hp).2) hne
  exact {
    mirrors := hmirrors.insert rfl hdist hhere hother
    distinct := hdist
    resolved := .cons hhere .nil
    kept := by
      intro x hx hxm
      refine mem_reactivate.2 ⟨x, hx, if_neg fun hxid => ?_⟩
      rw [Table.eq_of_key hx hm hxid, hmiss] at hxm
      cases hxm
    old := by
      intro x hx hxid
      obtain ⟨y, hy, rfl⟩ := mem_reactivate.1 hx
      by_cases hyid : y.id = m.id
      · rw [if_pos hyid] at hxid
        exact absurd (List.mem_singleton.2 hyid) hxid
      · rw [if_neg hyid]
        exact hy
    seen := by simp
    counted := by
      simp only [NodePool.counted, List.length_singleton]
      omega
    missing := rfl }

/-- The node is there. -/
theorem done_duplicate (hmirrors : Mirrors keys p) (hdistinct : Distinct p.nodes)
    (hid : identityOf p.nodes fp = some (id, false)) :
    Done keys p ⟨p.nodes, p.identities,
      { p.result with duplicateNodes := p.result.duplicateNodes + 1 }, id :: p.seen⟩ [fp] [id] where
  mirrors := hmirrors
  distinct := hdistinct
  resolved := .cons (holds_of_identityOf hid) .nil
  kept x hx _ := hx
  old x hx _ := hx
  seen := by simp
  counted := by
    simp only [NodePool.counted, List.length_singleton]
    omega
  missing := rfl

/-- A node is added. -/
theorem done_new {n : PooledNode} {nodes : Table NodeRow} (hmirrors : Mirrors keys p)
    (hdistinct : Distinct p.nodes) (hid : identityOf p.nodes fp = none)
    (hins : insertNode p.nodes n fp [] = some nodes) :
    Done keys p ⟨nodes, p.identities.insert fp (n.id, false),
      { p.result with newNodes := p.result.newNodes + 1 }, n.id :: p.seen⟩ [fp] [n.id] := by
  have hins := insertNode_eq_some hins
  have hdist : Distinct nodes := by
    refine hdistinct.insert hins fun x hx => Bool.eq_false_of_not_eq_true fun hp => ?_
    exact ne_of_identityOf hid x hx (present_iff.1 hp).1
  have hhere : Holds nodes fp n.id :=
    ⟨newRow n fp [], (Table.mem_insert hins).2 (.inr rfl), rfl, present_iff.2 ⟨rfl, rfl⟩⟩
  exact {
    mirrors := hmirrors.insert rfl hdist hhere fun other hne => identityOf_insert hins hne
    distinct := hdist
    resolved := .cons hhere .nil
    kept := fun x hx _ => (Table.mem_insert hins).2 (.inl hx)
    old := by
      intro x hx hxid
      rcases (Table.mem_insert hins).1 hx with hx | rfl
      · exact hx
      · exact absurd (List.mem_singleton.2 rfl) hxid
    seen := by simp
    counted := by
      simp only [NodePool.counted, List.length_singleton]
      omega
    missing := rfl }

/-- **One entry**: its fingerprint has a node that is there, whatever was known of it before. -/
theorem reconcileOne_done {p' : Progress} {n : PooledNode} (hkey : fp ∈ keys)
    (hmirrors : Mirrors keys p) (hdistinct : Distinct p.nodes)
    (h : reconcileOne p n fp = .ok (p', id)) : Done keys p p' [fp] [id] := by
  rcases reconcileOne_cases h with ⟨hid, rfl⟩ | ⟨hid, rfl⟩ | ⟨hid, rfl, nodes, hins, rfl⟩
  · exact done_back hmirrors hdistinct (hmirrors fp hkey ▸ hid)
  · exact done_duplicate hmirrors hdistinct (hmirrors fp hkey ▸ hid)
  · exact done_new hmirrors hdistinct (hmirrors fp hkey ▸ hid) hins

end Entry

/-! ## 2. All entries -/

/-- The fingerprints of the entries that carry a node. -/
def fingerprintsOf (entries : List (Option (PooledNode × Str))) : List Str :=
  entries.filterMap fun e => e.map Prod.snd

theorem Done.refl {keys : List Str} {p : Progress} (hmirrors : Mirrors keys p)
    (hdistinct : Distinct p.nodes) : Done keys p p [] [] where
  mirrors := hmirrors
  distinct := hdistinct
  resolved := .nil
  kept n hn _ := hn
  old n hn _ := hn
  seen := by simp
  counted := rfl
  missing := rfl

/-- A node that is there stays there. -/
theorem Done.holds {keys : List Str} {p p' : Progress} {fps : List Str} {ids : List NodeId}
    (h : Done keys p p' fps ids) {fp : Str} {id : NodeId} (hid : Holds p.nodes fp id) :
    Holds p'.nodes fp id := by
  obtain ⟨n, hn, hnid, hp⟩ := hid
  exact ⟨n, h.kept n hn (present_iff.1 hp).2, hnid, hp⟩

theorem Done.trans {keys : List Str} {p q r : Progress} {fps fps' : List Str} {ids ids' : List NodeId}
    (h : Done keys p q fps ids) (h' : Done keys q r fps' ids') :
    Done keys p r (fps ++ fps') (ids ++ ids') where
  mirrors := h'.mirrors
  distinct := h'.distinct
  resolved := List.rel_append (h.resolved.imp fun _ _ hid => h'.holds hid) h'.resolved
  kept n hn hm := h'.kept n (h.kept n hn hm) hm
  old n hn hid := by
    rw [List.mem_append, not_or] at hid
    exact h.old n (h'.old n hn hid.2) hid.1
  seen id := by
    rw [h'.seen, h.seen, List.mem_append]
    tauto
  counted := by
    rw [h'.counted, h.counted, List.length_append]
    omega
  missing := h'.missing.trans h.missing

/-- **All entries of a batch.** -/
theorem reconcileBatch_done {keys : List Str} {entries : List (Option (PooledNode × Str))}
    {p p' : Progress} {bound bound' : List NodeId} (hmirrors : Mirrors keys p)
    (hdistinct : Distinct p.nodes) (hkeys : ∀ fp ∈ fingerprintsOf entries, fp ∈ keys)
    (h : reconcileBatch p bound entries = .ok (p', bound')) :
    ∃ ids, bound' = bound ++ ids ∧ Done keys p p' (fingerprintsOf entries) ids := by
  induction entries generalizing p bound with
  | nil =>
    obtain ⟨rfl, rfl⟩ := ok_pair_inj h
    exact ⟨[], (List.append_nil _).symm, .refl hmirrors hdistinct⟩
  | cons entry rest ih =>
    cases entry with
    | none => exact ih hmirrors hdistinct hkeys h
    | some e =>
      obtain ⟨n, fp⟩ := e
      obtain ⟨⟨q, id⟩, hone, h⟩ := bind_eq_ok.1 h
      have hstep := reconcileOne_done (hkeys fp List.mem_cons_self) hmirrors hdistinct hone
      obtain ⟨ids, rfl, hrest⟩ := ih hstep.mirrors hstep.distinct
        (fun k hk => hkeys k (List.mem_cons_of_mem _ hk)) h
      exact ⟨id :: ids, List.append_assoc _ _ _, hstep.trans hrest⟩

/-- **When every fingerprint has a node already**, the entries are duplicates and no row
    changes. -/
theorem reconcileBatch_present (p : Progress) (entries : List (Option (PooledNode × Str)))
    (h : ∀ fp ∈ fingerprintsOf entries, ∃ id, p.identities fp = some (id, false))
    (bound : List NodeId) :
    ∃ ids, List.Forall₂ (fun fp id => p.identities fp = some (id, false)) (fingerprintsOf entries) ids ∧
      reconcileBatch p bound entries = .ok (⟨p.nodes, p.identities,
        { p.result with duplicateNodes :=
            p.result.duplicateNodes + (fingerprintsOf entries).length },
        ids.reverse ++ p.seen⟩, bound ++ ids) := by
  induction entries generalizing p bound with
  | nil => exact ⟨[], .nil, by simp [reconcileBatch, fingerprintsOf]⟩
  | cons entry rest ih =>
    cases entry with
    | none => exact ih p h bound
    | some e =>
      obtain ⟨n, fp⟩ := e
      obtain ⟨id, hid⟩ := h fp List.mem_cons_self
      obtain ⟨q, hq⟩ : ∃ q : Progress, q = ⟨p.nodes, p.identities,
        { p.result with duplicateNodes := p.result.duplicateNodes + 1 }, id :: p.seen⟩ := ⟨_, rfl⟩
      have hrun : reconcileBatch p bound (some (n, fp) :: rest) =
          reconcileBatch q (bound ++ [id]) rest := by
        rw [reconcileBatch, reconcileOne, hid, hq]
        rfl
      obtain ⟨ids, hids, hrest⟩ := ih q
        (fun k hk => by rw [hq]; exact h k (List.mem_cons_of_mem _ hk)) (bound ++ [id])
      subst hq
      refine ⟨id :: ids, .cons hid hids, ?_⟩
      rw [hrun, hrest]
      simp [fingerprintsOf, Nat.add_assoc, Nat.add_comm]

/-- The ids of the nodes that the entries carry. -/
def idsOf (entries : List (Option (PooledNode × Str))) : List NodeId :=
  entries.filterMap fun e => e.map fun x => x.1.id

/-- The ids an entry leaves: the old ones, and its own. -/
theorem reconcileOne_ids {p p' : Progress} {n : PooledNode} {fp : Str} {id : NodeId}
    (h : reconcileOne p n fp = .ok (p', id)) {x : NodeRow} (hx : x ∈ p'.nodes) :
    (∃ y ∈ p.nodes, y.id = x.id) ∨ x.id = n.id := by
  rcases reconcileOne_cases h with ⟨-, rfl⟩ | ⟨-, rfl⟩ | ⟨-, -, nodes, hins, rfl⟩
  · obtain ⟨y, hy, rfl⟩ := mem_reactivate.1 hx
    refine .inl ⟨y, hy, ?_⟩
    split <;> rfl
  · exact .inl ⟨x, hx, rfl⟩
  · rcases (Table.mem_insert (insertNode_eq_some hins)).1 hx with hx | rfl
    · exact .inl ⟨x, hx, rfl⟩
    · exact .inr rfl

/-- An entry with a fresh id does not fail. -/
theorem reconcileOne_fresh {keys : List Str} {p : Progress} {n : PooledNode} {fp : Str}
    (hkey : fp ∈ keys) (hmirrors : Mirrors keys p) (hfresh : ∀ x ∈ p.nodes, x.id ≠ n.id) :
    Succeeds (reconcileOne p n fp) := by
  unfold reconcileOne
  split
  · exact ⟨_, rfl⟩
  · exact ⟨_, rfl⟩
  · rename_i hid
    have hnone := ne_of_identityOf (hmirrors fp hkey ▸ hid)
    have hany : p.nodes.rows.any (present fp) = false := by
      refine List.any_eq_false.2 fun x hx hp => hnone x hx (present_iff.1 hp).1
    cases hins : insertNode p.nodes n fp [] with
    | some nodes => exact ⟨_, rfl⟩
    | none =>
      simp only [insertNode, hany, Bool.and_false, Bool.false_eq_true, if_false] at hins
      obtain ⟨x, hx⟩ := Table.insert_eq_none hins
      obtain ⟨hx, hkey⟩ := Table.find_eq_some.1 hx
      exact absurd hkey (hfresh x hx)

/-- **With fresh ids the loop does not fail.** -/
theorem reconcileBatch_fresh {keys : List Str} {entries : List (Option (PooledNode × Str))}
    {p : Progress} (hmirrors : Mirrors keys p) (hdistinct : Distinct p.nodes)
    (hkeys : ∀ fp ∈ fingerprintsOf entries, fp ∈ keys) (hids : (idsOf entries).Nodup)
    (hfresh : ∀ x ∈ p.nodes, x.id ∉ idsOf entries) (bound : List NodeId) :
    Succeeds (reconcileBatch p bound entries) := by
  induction entries generalizing p bound with
  | nil => exact ⟨_, rfl⟩
  | cons entry rest ih =>
    cases entry with
    | none => exact ih hmirrors hdistinct hkeys hids hfresh bound
    | some e =>
      obtain ⟨n, fp⟩ := e
      have hkey := hkeys fp List.mem_cons_self
      obtain ⟨hnew, hids⟩ := List.nodup_cons.1 hids
      obtain ⟨⟨q, id⟩, hone⟩ := reconcileOne_fresh hkey hmirrors fun x hx hxn =>
        hfresh x hx (hxn ▸ List.mem_cons_self)
      have hstep := reconcileOne_done hkey hmirrors hdistinct hone
      rw [reconcileBatch, hone, ok_bind]
      refine ih hstep.mirrors hstep.distinct (fun k hk => hkeys k (List.mem_cons_of_mem _ hk)) hids
        (fun x hx hmem => ?_) _
      rcases reconcileOne_ids hone hx with ⟨y, hy, hyx⟩ | hxn
      · exact hfresh y hy (hyx ▸ List.mem_cons_of_mem _ hmem)
      · rw [hxn] at hmem
        exact hnew hmem

/-! ## 3. The batches -/

theorem reconcileBatch_bound (p : Progress) (bound : List NodeId)
    (entries : List (Option (PooledNode × Str))) :
    reconcileBatch p bound entries =
      (reconcileBatch p [] entries).map fun x => (x.1, bound ++ x.2) := by
  -- what was collected before the loop stands before what the loop collects
  suffices hgen : ∀ b c, reconcileBatch p (b ++ c) entries =
      (reconcileBatch p c entries).map fun x => (x.1, b ++ x.2) by
    simpa using hgen bound []
  intro b c
  induction entries generalizing p c with
  | nil => rfl
  | cons entry rest ih =>
    cases entry with
    | none => exact ih p c
    | some e =>
      simp only [reconcileBatch]
      cases reconcileOne p e.1 e.2 with
      | error err => rfl
      | ok r =>
        simp only [ok_bind, List.append_assoc]
        exact ih r.1 (c ++ [r.2])

theorem reconcileBatch_append (p : Progress) (bound : List NodeId)
    (first second : List (Option (PooledNode × Str))) :
    reconcileBatch p bound (first ++ second) =
      (reconcileBatch p bound first).bind fun x => reconcileBatch x.1 x.2 second := by
  induction first generalizing p bound with
  | nil => rfl
  | cons entry rest ih =>
    cases entry with
    | none => exact ih p bound
    | some e =>
      simp only [List.cons_append, reconcileBatch]
      cases reconcileOne p e.1 e.2 with
      | error err => rfl
      | ok r => exact ih r.1 (bound ++ [r.2])

/-- **The batches of a run are one run.** -/
theorem reconcileBatches_eq (p : Progress) (bound : List NodeId)
    (batches : List (List (Option (PooledNode × Str)))) :
    reconcileBatches p bound batches = reconcileBatch p bound batches.flatten := by
  induction batches generalizing p bound with
  | nil => rfl
  | cons batch rest ih =>
    rw [List.flatten_cons, reconcileBatch_append, reconcileBatch_bound p bound batch,
      reconcileBatches]
    cases reconcileBatch p [] batch with
    | error err => rfl
    | ok x => exact ih x.1 (bound ++ x.2)

/-- The lookup in batches of the given size. -/
def lookupIdentitiesBy (size : Nat) (nodes : Table NodeRow) (keys : List Str) : Identities :=
  (chunks size keys).foldl (fun m chunk => chunk.foldl (Identities.orInsert nodes) m) fun _ => none

theorem lookupIdentitiesBy_eq {size : Nat} (h : 0 < size) (nodes : Table NodeRow)
    (keys : List Str) (fp : Str) :
    lookupIdentitiesBy size nodes keys fp = if fp ∈ keys then identityOf nodes fp else none := by
  rw [lookupIdentitiesBy, ← List.foldl_flatten, flatten_chunks h, foldl_orInsert, Option.none_or]

/-- The map of the lookup knows what the table does. -/
theorem mirrors_lookup (nodes : Table NodeRow) (keys : List Str) :
    Mirrors keys ⟨nodes, lookupIdentitiesBy 500 nodes keys, .zero, []⟩ := by
  intro fp hfp
  exact (lookupIdentitiesBy_eq (by decide) nodes keys fp).trans (if_pos hfp)

/-- The remaining bindings in batches of the given size. -/
def stillBoundBy (size : Nat) (bindings : List Binding) (candidates : List NodeId) : List NodeId :=
  (chunks size candidates).flatMap fun chunk => chunk.filter (isBound bindings)

theorem stillBoundBy_eq {size : Nat} (h : 0 < size) (bindings : List Binding)
    (candidates : List NodeId) :
    stillBoundBy size bindings candidates = candidates.filter (isBound bindings) := by
  conv_rhs => rw [← flatten_chunks h candidates]
  rw [stillBoundBy, List.filter_flatten, List.flatMap_def]

/-- Steps 3 to 6 with other sizes of the three kinds of batches. -/
def rebindBy (lookup batch held : Nat) (nodes : Table NodeRow) (bindings : List Binding)
    (sourceId : SourceId) (entries : List (Option (PooledNode × Str))) :
    Except SourceError (Table NodeRow × List NodeId × ReconcileResult) := do
  let oldBound := (nodes.rows.filter fun n => Sources.boundTo bindings n.id sourceId).map
    NodeRow.id
  let keys := entries.filterMap fun e => e.map Prod.snd
  let start : Progress := ⟨nodes, lookupIdentitiesBy lookup nodes keys, .zero, []⟩
  let (p, bound) ← reconcileBatches start [] (chunks batch entries)
  let candidates := oldBound.filter fun id => !p.seen.contains id
  let (nodes, missing) := markMissingAll
    (stillBoundBy held (reboundTo bindings sourceId bound) candidates) candidates (p.nodes, 0)
  return (nodes, bound, { p.result with missingNodes := missing })

/-- The sizes of the source. -/
theorem rebind_eq_rebindBy (nodes : Table NodeRow) (bindings : List Binding) (sourceId : SourceId)
    (entries : List (Option (PooledNode × Str))) :
    rebind nodes bindings sourceId entries = rebindBy 500 250 500 nodes bindings sourceId entries :=
  rfl

/-- **The sizes of the batches do not matter.** -/
theorem rebindBy_eq {lookup batch held : Nat} (hl : 0 < lookup) (hb : 0 < batch) (hh : 0 < held)
    (nodes : Table NodeRow) (bindings : List Binding) (sourceId : SourceId)
    (entries : List (Option (PooledNode × Str))) :
    rebindBy lookup batch held nodes bindings sourceId entries =
      rebind nodes bindings sourceId entries := by
  have hlookup : ∀ keys, lookupIdentitiesBy lookup nodes keys = lookupIdentitiesBy 500 nodes keys := by
    intro keys
    funext fp
    rw [lookupIdentitiesBy_eq hl, lookupIdentitiesBy_eq (by decide)]
  simp only [rebind_eq_rebindBy, rebindBy, reconcileBatches_eq, flatten_chunks hb,
    flatten_chunks (show 0 < 250 by decide), hlookup, stillBoundBy_eq hh,
    stillBoundBy_eq (show 0 < 500 by decide)]

/-! ## 4. The whole of steps 3 to 6 -/

section Rebound

variable {nodes nodes' : Table NodeRow} {bindings : List Binding} {sourceId : SourceId}

theorem isBound_iff (bindings : List Binding) (sourceId : SourceId) (id : NodeId) : isBound bindings id = true ↔
    Sources.boundTo bindings id sourceId = true ∨
      Sources.boundElsewhere bindings id sourceId = true := by
  simp only [isBound, Sources.boundTo, Sources.boundElsewhere, List.any_eq_true, Bool.and_eq_true,
    decide_eq_true_eq, ne_eq]
  constructor
  · intro h
    obtain ⟨b, hb, hid⟩ := h
    by_cases hs : b.sourceId = sourceId
    · exact .inl ⟨b, hb, hid, hs⟩
    · exact .inr ⟨b, hb, hid, hs⟩
  · intro h
    rcases h with ⟨b, hb, hid, -⟩ | ⟨b, hb, hid, -⟩
    · exact ⟨b, hb, hid⟩
    · exact ⟨b, hb, hid⟩

/-- Whom the bindings hold after the source is bound anew. -/
theorem isBound_reboundTo (bindings : List Binding) (sourceId : SourceId) (bound : List NodeId)
    (id : NodeId) :
    isBound (reboundTo bindings sourceId bound) id = true ↔
      Sources.boundElsewhere bindings id sourceId = true ∨ id ∈ bound := by
  simp only [isBound, reboundTo, Sources.boundElsewhere, List.any_append, Bool.or_eq_true,
    List.any_eq_true, List.mem_filter, List.mem_map, Bool.and_eq_true, decide_eq_true_eq]
  constructor
  · intro h
    rcases h with ⟨b, ⟨hb, hs⟩, hid⟩ | ⟨b, ⟨i, hi, rfl⟩, rfl⟩
    · exact .inl ⟨b, hb, hid, hs⟩
    · exact .inr hi
  · intro h
    rcases h with ⟨b, hb, hid, hs⟩ | hid
    · exact .inl ⟨b, ⟨hb, hs⟩, hid⟩
    · exact .inr ⟨_, ⟨id, hid, rfl⟩, rfl⟩

/-- The candidates of a run are the nodes the source held and does not hold any more. -/
theorem marked_candidates {bound seen : List NodeId} (hseen : ∀ id, id ∈ seen ↔ id ∈ bound)
    {n : NodeRow} (hold : n.id ∉ bound → n ∈ nodes) :
    let candidates := ((nodes.rows.filter fun n => Sources.boundTo bindings n.id sourceId).map
      NodeRow.id).filter fun id => !seen.contains id
    marked (candidates.filter (isBound (reboundTo bindings sourceId bound))) candidates n = true ↔
      n.id ∉ bound ∧ Sources.withdrawnBy bindings sourceId n = true := by
  intro candidates
  have hcand : n.id ∈ candidates ↔
      n.id ∉ bound ∧ Sources.boundTo bindings n.id sourceId = true := by
    simp only [candidates, List.mem_filter, List.mem_map, Bool.not_eq_true',
      List.contains_eq_mem, decide_eq_false_iff_not, hseen]
    constructor
    · intro h
      obtain ⟨⟨m, ⟨hm, hb⟩, hid⟩, hnot⟩ := h
      exact ⟨hnot, hid ▸ hb⟩
    · intro h
      exact ⟨⟨n, ⟨hold h.1, h.2⟩, rfl⟩, h.1⟩
  have hheld := isBound_reboundTo bindings sourceId bound n.id
  simp only [marked, Sources.withdrawnBy, Bool.and_eq_true, Bool.not_eq_true', List.contains_eq_mem,
    decide_eq_true_eq, decide_eq_false_iff_not, List.mem_filter, hcand]
  rw [← Bool.not_eq_true (Sources.boundElsewhere _ _ _)]
  tauto

/-- **What a reconciliation leaves in the nodes**: each fingerprint of its entries has the node it
    is bound to; a node it is not bound to is an old one, withdrawn if no one else contributes
    it. -/
structure Rebound (nodes : Table NodeRow) (bindings : List Binding) (sourceId : SourceId)
    (fps : List Str) (nodes' : Table NodeRow) (bound : List NodeId) (result : ReconcileResult) :
    Prop where
  distinct : Distinct nodes'
  resolved : List.Forall₂ (Holds nodes') fps bound
  old : ∀ n' ∈ nodes', n'.id ∉ bound → ∃ n ∈ nodes,
    n' = if Sources.withdrawnBy bindings sourceId n then Sources.markMissing n else n
  kept : ∀ n ∈ nodes, n.missingFromSource = false →
    n.id ∈ bound ∨ Sources.withdrawnBy bindings sourceId n = false → n ∈ nodes'
  counted : counted result = fps.length
  missing : result.missingNodes = nodes.rows.countP fun n =>
    Sources.withdrawnBy bindings sourceId n && !fps.contains n.identityFingerprint

/-- A mark takes nodes away and adds none. -/
theorem Distinct.marked {p : NodeRow → Bool} (h : Distinct nodes) :
    Distinct (nodes.update p Sources.markMissing Sources.markMissing_key) := by
  have hthere : ∀ x ∈ nodes.update p Sources.markMissing Sources.markMissing_key,
      x.missingFromSource = false → x ∈ nodes := by
    intro x hx hxm
    obtain ⟨y, hy, rfl⟩ := Table.mem_update.1 hx
    split at hxm
    · cases hxm
    · rename_i hp
      rw [if_neg hp]
      exact hy
  intro x hx y hy hxm hym
  exact h x (hthere x hx hxm) y (hthere y hy hym) hxm hym

theorem withdrawnBy_present {n : NodeRow} (h : Sources.withdrawnBy bindings sourceId n = true) :
    n.missingFromSource = false := by
  simp only [Sources.withdrawnBy, Bool.and_eq_true, Bool.not_eq_true'] at h
  exact h.1.1.2

/-- What the marks leave of a finished loop. -/
theorem Done.rebound {keys fps : List Str} {identities : Identities} {r : ReconcileResult}
    {p : Progress} {bound : List NodeId}
    (hdone : Done keys ⟨nodes, identities, r, []⟩ p fps bound) (hr : NodePool.counted r = 0) :
    let candidates := ((nodes.rows.filter fun n => Sources.boundTo bindings n.id sourceId).map
      NodeRow.id).filter fun id => !p.seen.contains id
    let held := candidates.filter (isBound (reboundTo bindings sourceId bound))
    Rebound nodes bindings sourceId fps
      (p.nodes.update (marked held candidates) Sources.markMissing Sources.markMissing_key) bound
      { p.result with missingNodes := p.nodes.rows.countP (marked held candidates) } := by
  intro candidates held
  have hseen : ∀ id, id ∈ p.seen ↔ id ∈ bound := fun id => by simp [hdone.seen]
  have hmarked : ∀ n ∈ p.nodes, marked held candidates n = true ↔
      n.id ∉ bound ∧ Sources.withdrawnBy bindings sourceId n = true := fun n hn =>
    marked_candidates hseen (hdone.old n hn)
  have hkept : ∀ n ∈ p.nodes, n.id ∈ bound ∨ Sources.withdrawnBy bindings sourceId n = false →
      n ∈ p.nodes.update (marked held candidates) Sources.markMissing Sources.markMissing_key := by
    intro n hn hor
    refine Table.mem_update_of_not hn (Bool.eq_false_of_not_eq_true fun hmk => ?_)
    obtain ⟨hnot, hw⟩ := (hmarked n hn).1 hmk
    rcases hor with hin | hw'
    · exact hnot hin
    · rw [hw'] at hw
      cases hw
  have hbound : ∀ n ∈ p.nodes, n.missingFromSource = false →
      (n.id ∈ bound ↔ n.identityFingerprint ∈ fps) := by
    intro n hn hm
    constructor
    · intro hid
      obtain ⟨fp, hfp, hholds⟩ := exists_of_mem_right hdone.resolved hid
      rw [(present_iff.1 (hholds.fingerprint hn rfl)).1]
      exact hfp
    · intro hfp
      obtain ⟨id, hid, hholds⟩ := exists_of_mem_left hdone.resolved hfp
      rw [hdone.distinct.holds_unique ⟨n, hn, rfl, present_iff.2 ⟨rfl, hm⟩⟩ hholds]
      exact hid
  exact {
    distinct := hdone.distinct.marked
    resolved := by
      refine (List.forall₂_iff_zip.2 ⟨hdone.resolved.length_eq, fun {fp id} hzip => ?_⟩)
      obtain ⟨n, hn, hid, hp⟩ := List.forall₂_zip hdone.resolved hzip
      exact ⟨n, hkept n hn (.inl (hid ▸ (List.of_mem_zip hzip).2)), hid, hp⟩
    old := by
      intro x hx hxid
      obtain ⟨n, hn, rfl⟩ := Table.mem_update.1 hx
      have hnid : n.id ∉ bound := by
        intro hin
        have hfree : marked held candidates n = false :=
          Bool.eq_false_of_not_eq_true fun hmk => ((hmarked n hn).1 hmk).1 hin
        rw [hfree, if_neg Bool.false_ne_true] at hxid
        exact hxid hin
      refine ⟨n, hdone.old n hn hnid, ?_⟩
      by_cases hw : Sources.withdrawnBy bindings sourceId n = true
      · rw [if_pos hw, if_pos ((hmarked n hn).2 ⟨hnid, hw⟩)]
      · rw [if_neg hw, if_neg fun hmk => hw ((hmarked n hn).1 hmk).2]
    kept := fun n hn hm hor => hkept n (hdone.kept n hn hm) hor
    counted := by
      have hcount := hdone.counted
      simp only [NodePool.counted] at hcount hr ⊢
      omega
    missing := by
      -- both sides count the same rows
      show p.nodes.rows.countP _ = _
      rw [List.countP_eq_length_filter, List.countP_eq_length_filter]
      refine ((List.perm_ext_iff_of_nodup (p.nodes.unique.of_map.filter _)
        (nodes.unique.of_map.filter _)).2 fun n => ?_).length_eq
      simp only [List.mem_filter, Bool.and_eq_true, Bool.not_eq_true', List.contains_eq_mem,
        decide_eq_false_iff_not]
      constructor
      · intro h
        obtain ⟨hn, hmk⟩ := h
        obtain ⟨hnid, hw⟩ := (hmarked n hn).1 hmk
        exact ⟨hdone.old n hn hnid, hw, fun hfp =>
          hnid ((hbound n hn (withdrawnBy_present hw)).2 hfp)⟩
      · intro h
        obtain ⟨hn, hw, hfp⟩ := h
        have hn := hdone.kept n hn (withdrawnBy_present hw)
        exact ⟨hn, (hmarked n hn).2 ⟨fun hid => hfp ((hbound n hn (withdrawnBy_present hw)).1 hid),
          hw⟩⟩ }

/-- **A reconciliation of the nodes**, for every list of entries. -/
theorem rebind_rebound {entries : List (Option (PooledNode × Str))} {bound : List NodeId}
    {result : ReconcileResult} (hdistinct : Distinct nodes)
    (h : rebind nodes bindings sourceId entries = .ok (nodes', bound, result)) :
    Rebound nodes bindings sourceId (fingerprintsOf entries) nodes' bound result := by
  rw [rebind_eq_rebindBy] at h
  obtain ⟨⟨p, ids⟩, hloop, h⟩ := bind_eq_ok.1 h
  rw [reconcileBatches_eq, flatten_chunks (by decide)] at hloop
  obtain ⟨ids, rfl, hdone⟩ := reconcileBatch_done (mirrors_lookup _ _) hdistinct (fun _ hfp => hfp)
    hloop
  simp only [markMissingAll_eq, stillBoundBy_eq (show 0 < 500 by decide), Nat.zero_add,
    pure_eq_ok] at h
  have heq := Except.ok.inj h
  obtain ⟨rfl, hrest⟩ := Prod.mk.inj heq
  obtain ⟨rfl, rfl⟩ := Prod.mk.inj hrest
  exact hdone.rebound rfl

/-- **A reconciliation that brings nothing new** changes no row. -/
theorem rebind_present (bindings : List Binding) (sourceId : SourceId)
    {entries : List (Option (PooledNode × Str))} (hdistinct : Distinct nodes)
    (hhere : ∀ fp ∈ fingerprintsOf entries, ∃ id, Holds nodes fp id)
    (hbound : ∀ n ∈ nodes, Sources.boundTo bindings n.id sourceId = true →
      n.missingFromSource = false ∧ n.identityFingerprint ∈ fingerprintsOf entries) :
    ∃ bound, rebind nodes bindings sourceId entries =
      .ok (nodes, bound, ⟨0, (fingerprintsOf entries).length, 0, 0⟩) := by
  have hlookup : ∀ fp ∈ fingerprintsOf entries, ∀ id, Holds nodes fp id →
      lookupIdentitiesBy 500 nodes (fingerprintsOf entries) fp = some (id, false) := by
    intro fp hfp id hid
    rw [lookupIdentitiesBy_eq (by decide), if_pos hfp, identityOf_of_holds hdistinct hid]
  obtain ⟨ids, hids, hloop⟩ := reconcileBatch_present ⟨nodes,
    lookupIdentitiesBy 500 nodes (fingerprintsOf entries), .zero, []⟩ entries
    (fun fp hfp => (hhere fp hfp).imp fun id hid => hlookup fp hfp id hid) []
  have hcandidates : ((nodes.rows.filter fun n => Sources.boundTo bindings n.id sourceId).map
      NodeRow.id).filter (fun id => !(ids.reverse ++ []).contains id) = [] := by
    refine List.filter_eq_nil_iff.2 fun id hid => ?_
    obtain ⟨n, hn, rfl⟩ := List.mem_map.1 hid
    obtain ⟨hn, hb⟩ := List.mem_filter.1 hn
    obtain ⟨hm, hfp⟩ := hbound n hn hb
    obtain ⟨id, hid, heq⟩ := exists_of_mem_left hids hfp
    have hself := hlookup _ hfp n.id ⟨n, hn, rfl, present_iff.2 ⟨rfl, hm⟩⟩
    obtain rfl : id = n.id := (Prod.mk.inj (Option.some.inj (heq.symm.trans hself))).1
    simpa using hid
  refine ⟨ids, ?_⟩
  rw [rebind_eq_rebindBy, rebindBy]
  simp only [reconcileBatches_eq, flatten_chunks (show 0 < 250 by decide)]
  rw [show (entries.filterMap fun e => e.map Prod.snd) = fingerprintsOf entries from rfl, hloop]
  simp only [ok_bind, hcandidates, markMissingAll, pure_eq_ok, ReconcileResult.zero, Nat.zero_add,
    List.nil_append]

/-- **With fresh ids a reconciliation of the nodes does not fail.** -/
theorem rebind_fresh {entries : List (Option (PooledNode × Str))} (hdistinct : Distinct nodes)
    (hids : (idsOf entries).Nodup) (hfresh : ∀ x ∈ nodes, x.id ∉ idsOf entries) :
    Succeeds (rebind nodes bindings sourceId entries) := by
  obtain ⟨⟨p, bound⟩, hloop⟩ :=
    reconcileBatch_fresh (mirrors_lookup _ _) hdistinct (fun _ hfp => hfp) hids hfresh []
  rw [rebind_eq_rebindBy, rebindBy]
  simp only [reconcileBatches_eq, flatten_chunks (show 0 < 250 by decide)]
  rw [show (entries.filterMap fun e => e.map Prod.snd) = fingerprintsOf entries from rfl, hloop]
  exact ⟨_, rfl⟩

end Rebound

end DeveSub.NodePool
