/-
  File:      DeveSub/Storage/Identities.lean
  Subject:   Which node a fingerprint stands for, and how the statements of the pool repository
             move it.

  Imports and reconciliations change `nodes` in three ways only: a row comes back, a row is
  added, a row becomes missing.

  * `Distinct` -- no two nodes that are there have one fingerprint;
  * `identityOf_eq` -- the node a fingerprint stands for, in each of the three cases;
  * `Distinct.update`, `Distinct.insert` -- the statements keep it;
  * `markMissingAll_eq` -- the marks of a reconciliation are one update, and what it counts.
-/
import DeveSub.Storage.Reconcile

namespace DeveSub.NodePool

/-! ## 1. The nodes that are there -/

/-- No two nodes that are there have one fingerprint. -/
def Distinct (nodes : Table NodeRow) : Prop :=
  ∀ n ∈ nodes, ∀ m ∈ nodes, n.missingFromSource = false → m.missingFromSource = false →
    n.identityFingerprint = m.identityFingerprint → n = m

/-- A node that is there carries the fingerprint under the id. -/
def Holds (nodes : Table NodeRow) (fp : Str) (id : NodeId) : Prop :=
  ∃ n ∈ nodes, n.id = id ∧ present fp n = true

theorem present_iff {fp : Str} {n : NodeRow} :
    present fp n = true ↔ n.identityFingerprint = fp ∧ n.missingFromSource = false := by
  simp [present]

theorem absent_iff {fp : Str} {n : NodeRow} :
    absent fp n = true ↔ n.identityFingerprint = fp ∧ n.missingFromSource = true := by
  simp [absent]

theorem Distinct.eq_of_present {nodes : Table NodeRow} (h : Distinct nodes) {n m : NodeRow}
    {fp : Str} (hn : n ∈ nodes) (hm : m ∈ nodes) (hpn : present fp n = true)
    (hpm : present fp m = true) : n = m := by
  obtain ⟨hfn, hmn⟩ := present_iff.1 hpn
  obtain ⟨hfm, hmm⟩ := present_iff.1 hpm
  exact h n hn m hm hmn hmm (hfn.trans hfm.symm)

theorem Distinct.holds_unique {nodes : Table NodeRow} (h : Distinct nodes) {fp : Str} {i j : NodeId}
    (hi : Holds nodes fp i) (hj : Holds nodes fp j) : i = j := by
  obtain ⟨n, hn, rfl, hpn⟩ := hi
  obtain ⟨m, hm, rfl, hpm⟩ := hj
  rw [h.eq_of_present hn hm hpn hpm]

/-- An id stands for one fingerprint. -/
theorem Holds.fingerprint {nodes : Table NodeRow} {fp : Str} {id : NodeId} (h : Holds nodes fp id)
    {n : NodeRow} (hn : n ∈ nodes) (hid : n.id = id) : present fp n = true := by
  obtain ⟨m, hm, hmid, hp⟩ := h
  rw [Table.eq_of_key hn hm (hid.trans hmid.symm)]
  exact hp

theorem distinct_empty : Distinct Table.empty := fun n hn => absurd hn (Table.not_mem_empty n)

/-! ## 2. What the grouped query answers -/

/-- **The node of a fingerprint**: one that is there, or else a missing one, or none. -/
theorem identityOf_eq (nodes : Table NodeRow) (fp : Str) :
    (∃ id, identityOf nodes fp = some (id, false) ∧ Holds nodes fp id) ∨
    (∃ n ∈ nodes, identityOf nodes fp = some (n.id, true) ∧ absent fp n = true ∧
      ∀ m ∈ nodes, present fp m = false) ∨
    (identityOf nodes fp = none ∧ ∀ n ∈ nodes, n.identityFingerprint ≠ fp) := by
  unfold identityOf
  dsimp only
  cases hhere : ((nodes.rows.filter fun n => n.identityFingerprint = fp).filter
      fun n => !n.missingFromSource).argmin NodeRow.id with
  | some n =>
    have hmem := List.argmin_mem hhere
    simp only [List.mem_filter, decide_eq_true_eq, Bool.not_eq_true'] at hmem
    exact .inl ⟨n.id, rfl, n, hmem.1.1, rfl, present_iff.2 ⟨hmem.1.2, hmem.2⟩⟩
  | none =>
    have hnone := List.argmin_eq_none.1 hhere
    have habsent : ∀ m ∈ nodes, present fp m = false := by
      intro m hm
      refine Bool.eq_false_of_not_eq_true fun hp => ?_
      obtain ⟨hfp, hmiss⟩ := present_iff.1 hp
      have hin : m ∈ (nodes.rows.filter fun n => n.identityFingerprint = fp).filter
          fun n => !n.missingFromSource := by
        simp only [List.mem_filter, decide_eq_true_eq, Bool.not_eq_true']
        exact ⟨⟨hm, hfp⟩, hmiss⟩
      rw [hnone] at hin
      cases hin
    refine .inr ?_
    cases hany : (nodes.rows.filter fun n => n.identityFingerprint = fp).argmin NodeRow.id with
    | some n =>
      have hmem := List.argmin_mem hany
      simp only [List.mem_filter, decide_eq_true_eq] at hmem
      refine .inl ⟨n, hmem.1, rfl, absent_iff.2 ⟨hmem.2, ?_⟩, habsent⟩
      have hn := habsent n hmem.1
      simpa [present, hmem.2] using hn
    | none =>
      refine .inr ⟨rfl, fun n hn hfp => ?_⟩
      have hin : n ∈ nodes.rows.filter fun n => n.identityFingerprint = fp := by
        simp only [List.mem_filter, decide_eq_true_eq]
        exact ⟨hn, hfp⟩
      rw [List.argmin_eq_none.1 hany] at hin
      cases hin

theorem holds_of_identityOf {nodes : Table NodeRow} {fp : Str} {id : NodeId}
    (h : identityOf nodes fp = some (id, false)) : Holds nodes fp id := by
  rcases identityOf_eq nodes fp with ⟨i, heq, hi⟩ | ⟨n, -, heq, -⟩ | ⟨heq, -⟩
  · rw [heq] at h
    cases h
    exact hi
  · rw [heq] at h
    cases h
  · rw [heq] at h
    cases h

theorem absent_of_identityOf {nodes : Table NodeRow} {fp : Str} {id : NodeId}
    (h : identityOf nodes fp = some (id, true)) :
    (∃ n ∈ nodes, n.id = id ∧ absent fp n = true) ∧ ∀ m ∈ nodes, present fp m = false := by
  rcases identityOf_eq nodes fp with ⟨i, heq, -⟩ | ⟨n, hn, heq, habs, hnone⟩ | ⟨heq, -⟩
  · rw [heq] at h
    cases h
  · rw [heq] at h
    cases h
    exact ⟨⟨n, hn, rfl, habs⟩, hnone⟩
  · rw [heq] at h
    cases h

theorem ne_of_identityOf {nodes : Table NodeRow} {fp : Str} (h : identityOf nodes fp = none) :
    ∀ n ∈ nodes, n.identityFingerprint ≠ fp := by
  rcases identityOf_eq nodes fp with ⟨i, heq, -⟩ | ⟨n, -, heq, -⟩ | ⟨-, hnone⟩
  · rw [heq] at h
    cases h
  · rw [heq] at h
    cases h
  · exact hnone

/-- A node that is there is the one its fingerprint stands for. -/
theorem identityOf_of_holds {nodes : Table NodeRow} (h : Distinct nodes) {fp : Str} {id : NodeId}
    (hid : Holds nodes fp id) : identityOf nodes fp = some (id, false) := by
  rcases identityOf_eq nodes fp with ⟨i, heq, hi⟩ | ⟨-, -, -, -, hnone⟩ | ⟨-, hnone⟩
  · rw [heq, h.holds_unique hi hid]
  · obtain ⟨n, hn, -, hp⟩ := hid
    rw [hnone n hn] at hp
    cases hp
  · obtain ⟨n, hn, -, hp⟩ := hid
    exact absurd (present_iff.1 hp).1 (hnone n hn)

/-- Only the rows of a fingerprint count. -/
theorem identityOf_congr {nodes nodes' : Table NodeRow} {fp : Str}
    (h : (nodes'.rows.filter fun n => n.identityFingerprint = fp) =
      nodes.rows.filter fun n => n.identityFingerprint = fp) :
    identityOf nodes' fp = identityOf nodes fp := by
  unfold identityOf
  rw [h]

/-- The lookup, whatever the size of its batches. -/
theorem foldl_orInsert (nodes : Table NodeRow) (keys : List Str) (m : Identities) (fp : Str) :
    keys.foldl (Identities.orInsert nodes) m fp =
      (m fp).or (if fp ∈ keys then identityOf nodes fp else none) := by
  induction keys generalizing m with
  | nil => simp
  | cons key rest ih =>
    have hhead : Identities.orInsert nodes m key fp =
        (m fp).or (if fp = key then identityOf nodes fp else none) := by
      unfold Identities.orInsert
      by_cases hkey : fp = key
      · subst hkey
        cases hm : m fp with
        | none => cases hi : identityOf nodes fp <;> simp [Identities.insert, hm]
        | some v => simp [hm]
      · cases m key with
        | none => cases identityOf nodes key <;> simp [Identities.insert, hkey]
        | some v => simp [hkey]
    rw [List.foldl_cons, ih, hhead]
    by_cases hkey : fp = key
    · subst hkey
      cases m fp <;> cases identityOf nodes fp <;> simp
    · simp [hkey]

/-! ## 3. Rows that come back and rows that are new -/

/-- A change after which a row is there, under its old id and fingerprint. -/
structure ComesBack (f : NodeRow → NodeRow) : Prop where
  id : ∀ n, (f n).id = n.id
  fingerprint : ∀ n, (f n).identityFingerprint = n.identityFingerprint
  present : ∀ n, (f n).missingFromSource = false

theorem retained_comesBack (label : Str) : ComesBack (retained label) :=
  ⟨fun _ => rfl, fun _ => rfl, fun _ => rfl⟩

section Update

variable {nodes : Table NodeRow} {p : NodeRow → Bool} {f : NodeRow → NodeRow}
  {hf : ∀ n, Keyed.key (f n) = Keyed.key n} {id : NodeId} {fp : Str}

/-- **A row comes back** when no other one with its fingerprint is there. -/
theorem Distinct.update (h : Distinct nodes) (hback : ComesBack f)
    (hid : ∀ n ∈ nodes, p n = true → n.id = id ∧ n.identityFingerprint = fp)
    (hother : ∀ m ∈ nodes, present fp m = true → m.id = id) : Distinct (nodes.update p f hf) := by
  -- a selected row and one that stays have different fingerprints
  have hmixed : ∀ n ∈ nodes, p n = true → ∀ m ∈ nodes, p m = false → m.missingFromSource = false →
      (f n).identityFingerprint ≠ m.identityFingerprint := by
    intro n hn hpn m hm hpm hmiss heq
    obtain ⟨hnid, hnfp⟩ := hid n hn hpn
    rw [hback.fingerprint, hnfp] at heq
    have hmid := hother m hm (present_iff.2 ⟨heq.symm, hmiss⟩)
    rw [Table.eq_of_key hm hn (hmid.trans hnid.symm)] at hpm
    rw [hpm] at hpn
    cases hpn
  intro x hx y hy hxm hym hfp
  obtain ⟨n, hn, rfl⟩ := Table.mem_update.1 hx
  obtain ⟨m, hm, rfl⟩ := Table.mem_update.1 hy
  cases hpn : p n <;> cases hpm : p m <;>
    simp only [hpn, hpm, if_true, Bool.false_eq_true, if_false] at hxm hym hfp ⊢
  · exact h n hn m hm hxm hym hfp
  · exact absurd hfp.symm (hmixed m hm hpm n hn hpn hxm)
  · exact absurd hfp (hmixed n hn hpn m hm hpm hym)
  · rw [Table.eq_of_key hn hm ((hid n hn hpn).1.trans (hid m hm hpm).1.symm)]

/-- The other fingerprints stand for what they stood for. -/
theorem identityOf_update (hback : ComesBack f)
    (hsel : ∀ n ∈ nodes, p n = true → n.identityFingerprint = fp) {other : Str} (hne : other ≠ fp) :
    identityOf (nodes.update p f hf) other = identityOf nodes other := by
  have hkeep : ∀ n ∈ nodes.rows, (if p n then f n else n).identityFingerprint =
      n.identityFingerprint := by
    intro n _
    by_cases hp : p n <;> simp [hp, hback.fingerprint]
  refine identityOf_congr ?_
  rw [Table.update, List.filter_map]
  have hfilter : nodes.rows.filter ((fun n => decide (n.identityFingerprint = other)) ∘
      fun n => if p n then f n else n) =
      nodes.rows.filter fun n => n.identityFingerprint = other := by
    refine List.filter_congr fun n hn => ?_
    simp only [Function.comp, hkeep n hn]
  rw [hfilter]
  conv_rhs => rw [← List.map_id (nodes.rows.filter fun n => n.identityFingerprint = other)]
  refine List.map_congr_left fun n hn => ?_
  obtain ⟨hn, hfp⟩ := List.mem_filter.1 hn
  have hp : p n = false := by
    refine Bool.eq_false_of_not_eq_true fun hp => hne ?_
    rw [← of_decide_eq_true hfp, hsel n hn hp]
  simp [hp]

/-- A row that comes back is the one its fingerprint stands for. -/
theorem holds_update (hback : ComesBack f) {n : NodeRow} (hn : n ∈ nodes) (hp : p n = true)
    (hfp : n.identityFingerprint = fp) : Holds (nodes.update p f hf) fp n.id := by
  refine ⟨f n, Table.mem_update.2 ⟨n, hn, by rw [if_pos hp]⟩, hback.id n, ?_⟩
  exact present_iff.2 ⟨(hback.fingerprint n).trans hfp, hback.present n⟩

end Update

section Insert

variable {nodes nodes' : Table NodeRow} {row : NodeRow}

/-- **A new row** is the only one with its fingerprint that is there. -/
theorem Distinct.insert (h : Distinct nodes) (hins : nodes.insert row = some nodes')
    (hnone : ∀ m ∈ nodes, present row.identityFingerprint m = false) : Distinct nodes' := by
  have hnew : ∀ m ∈ nodes, m.missingFromSource = false →
      m.identityFingerprint ≠ row.identityFingerprint := by
    intro m hm hmiss hfp
    have hp := hnone m hm
    rw [present_iff.2 ⟨hfp, hmiss⟩] at hp
    cases hp
  intro x hx y hy hxm hym hfp
  rcases (Table.mem_insert hins).1 hx with hx | rfl
  · rcases (Table.mem_insert hins).1 hy with hy | rfl
    · exact h x hx y hy hxm hym hfp
    · exact absurd hfp (hnew x hx hxm)
  · rcases (Table.mem_insert hins).1 hy with hy | rfl
    · exact absurd hfp.symm (hnew y hy hym)
    · rfl

theorem identityOf_insert (hins : nodes.insert row = some nodes') {other : Str}
    (hne : other ≠ row.identityFingerprint) : identityOf nodes' other = identityOf nodes other := by
  refine identityOf_congr ?_
  rw [Table.insert_rows hins, List.filter_append, List.filter_singleton]
  simp [Ne.symm hne]

theorem insertNode_eq_some {n : PooledNode} {fp label : Str}
    (h : insertNode nodes n fp label = some nodes') :
    nodes.insert (newRow n fp label) = some nodes' := by
  unfold insertNode at h
  split at h
  · cases h
  · exact h

end Insert

/-! ## 4. The marks of a reconciliation -/

/-- The rows that become missing. -/
def marked (held candidates : List NodeId) (n : NodeRow) : Bool :=
  candidates.contains n.id && !held.contains n.id &&
    (n.sourceLabel.isEmpty && !n.missingFromSource)

/-- The rows one candidate reaches. -/
def markedOne (id : NodeId) (n : NodeRow) : Bool :=
  n.id = id && n.sourceLabel.isEmpty && !n.missingFromSource

theorem marked_cons {held : List NodeId} {id : NodeId} (h : id ∉ held) (rest : List NodeId)
    (n : NodeRow) : marked held (id :: rest) n = (markedOne id n || marked held rest n) := by
  by_cases hid : n.id = id
  · cases n.sourceLabel.isEmpty <;> cases n.missingFromSource <;>
      simp_all [marked, markedOne]
  · simp [marked, markedOne, hid]

/-- A row that is marked is not marked again. -/
theorem marked_markMissing (held rest : List NodeId) (n : NodeRow) :
    marked held rest (Sources.markMissing n) = false := by
  simp [marked, Sources.markMissing]

theorem marked_nil (held : List NodeId) (n : NodeRow) : marked held [] n = false := by
  simp [marked]

/-- **The marks are one update**, and the count is the number of rows it changes. -/
theorem markMissingAll_eq (held candidates : List NodeId) (nodes : Table NodeRow) (count : Nat) :
    markMissingAll held candidates (nodes, count) =
      (nodes.update (marked held candidates) Sources.markMissing Sources.markMissing_key,
        count + nodes.rows.countP (marked held candidates)) := by
  induction candidates generalizing nodes count with
  | nil =>
    refine Prod.ext (Table.ext ?_) ?_
    · simp [markMissingAll, Table.update, marked_nil]
    · simp [markMissingAll, marked_nil]
  | cons id rest ih =>
    rw [markMissingAll]
    by_cases hheld : held.contains id = true
    · have heq : marked held (id :: rest) = marked held rest := by
        funext n
        by_cases hid : n.id = id
        · simp [marked, hid, List.contains_iff_mem.1 hheld]
        · simp [marked, hid]
      rw [if_pos hheld, ih, heq]
    · have hnot : id ∉ held := fun hmem => hheld (List.contains_iff_mem.2 hmem)
      rw [if_neg hheld, ih]
      have hrow : ∀ n, marked held rest (if markedOne id n then Sources.markMissing n else n) =
          (!markedOne id n && marked held rest n) := by
        intro n
        by_cases hone : markedOne id n = true <;> simp [hone, marked_markMissing]
      refine Prod.ext (Table.ext ?_) ?_
      · simp only [markMissingRow, Table.update, List.map_map]
        refine List.map_congr_left fun n _ => ?_
        rw [marked_cons hnot]
        show (if marked held rest (if markedOne id n then Sources.markMissing n else n) then
          Sources.markMissing (if markedOne id n then Sources.markMissing n else n)
          else (if markedOne id n then Sources.markMissing n else n)) = _
        rw [hrow]
        by_cases hone : markedOne id n = true <;> simp [hone]
      · show count + (nodes.rows.filter (markedOne id)).length +
          ((nodes.rows.map fun n => if markedOne id n then Sources.markMissing n else n).countP
            (marked held rest)) = count + _
        rw [← List.countP_eq_length_filter, List.countP_map, Nat.add_assoc]
        refine congrArg (count + ·) ?_
        -- each row is counted once: by its candidate, or by a later one
        induction nodes.rows with
        | nil => rfl
        | cons n rows ihRows =>
          simp only [List.countP_cons, Function.comp, hrow, marked_cons hnot] at ihRows ⊢
          cases markedOne id n <;> cases marked held rest n <;> simp <;> omega

end DeveSub.NodePool
