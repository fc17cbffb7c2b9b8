/-
  File:      DeveSub/Properties/NodeNames.lean
  Subject:   The names `prepare_nodes` gives to the nodes of an output.

  A contested name is replaced by the name with the id of its node, and by that with a counter if
  it is taken. Names made for two nodes are never the same, since the last bracket holds the id.

  * `suffixLoop`, `suffixLoop_eq` -- the loop of the source, and that it ends with `freshName`;
  * `id_of_label` -- a name made for a node tells its id;
  * `uniqueNames_eq_map` -- each node is renamed without regard to the others' new names;
  * **`prepare_nodes_names`**.
-/
import Mathlib.Data.List.GetD
import DeveSub.Application.ClashMembership

namespace DeveSub

open Labels

/-! ## 1. The loop -/

/-- The `while` of `prepare_nodes`; `none` when the fuel runs out. -/
def suffixLoop (used : List Str) (base : Str) :
    (fuel : Nat) → (candidate : Str) → (suffix : Nat) → Option Str
  | 0, _, _ => none
  | fuel + 1, candidate, suffix =>
    if used.contains candidate then
      suffixLoop used base fuel (base ++ ' ' :: natText suffix) (suffix + 1)
    else some candidate

/-- The loop is the search among the base with its counters. -/
theorem suffixLoop_eq_search (used : List Str) (base : Str) (fuel k : Nat) :
    suffixLoop used base fuel (suffixed base k) (k + 2) = search (suffixed base) used fuel k := by
  induction fuel generalizing k with
  | zero => rfl
  | succ fuel ih =>
    rw [suffixLoop, search, List.contains_eq_mem]
    by_cases hmem : suffixed base k ∈ used
    · rw [if_pos (decide_eq_true hmem), if_pos hmem]
      exact ih (k + 1)
    · rw [if_neg (by simpa using hmem), if_neg hmem]

/-- `freshName` is the least free candidate. -/
theorem freshName_eq {used : List Str} {base : Str} {k : Nat} (hk : k ≤ used.length)
    (h : Least (suffixed base) used k) : freshName used base = suffixed base k := by
  have hlist : base :: (List.range used.length).map (fun i => base ++ ' ' :: natText (i + 2)) =
      (List.range (used.length + 1)).map (suffixed base) := by
    rw [List.range_succ_eq_map, List.map_cons, List.map_map, suffixed_zero]
    rfl
  have hfind : ((List.range (used.length + 1)).find?
      fun i => !used.contains (suffixed base i)) = some k := by
    rw [List.find?_range_eq_some]
    refine ⟨by simpa using h.free, List.mem_range.2 (by omega), ?_⟩
    intro j hj
    simpa using h.taken j hj
  rw [freshName, hlist, List.find?_map]
  change ((((List.range (used.length + 1)).find?
    fun i => !used.contains (suffixed base i)).map (suffixed base)).getD base) = _
  rw [hfind]
  rfl

/-- What `freshName` comes to. -/
theorem exists_freshName (used : List Str) (base : Str) :
    ∃ k ≤ used.length, Least (suffixed base) used k ∧ freshName used base = suffixed base k := by
  obtain ⟨k, hk, h⟩ := exists_least (suffixed_injective base) used
  exact ⟨k, hk, h, freshName_eq hk h⟩

/-- Names that are no candidates do not matter. -/
theorem freshName_congr {used used' : List Str} {base : Str}
    (h : ∀ j, suffixed base j ∈ used ↔ suffixed base j ∈ used') :
    freshName used base = freshName used' base := by
  obtain ⟨k, -, hk, heq⟩ := exists_freshName used base
  obtain ⟨k', -, hk', heq'⟩ := exists_freshName used' base
  rw [heq, heq', (hk.congr h).unique hk']

/-- **The loop ends**, after no more turns than there are names taken. -/
theorem suffixLoop_eq {used : List Str} {base : Str} {fuel : Nat} (hfuel : used.length < fuel) :
    suffixLoop used base fuel base 2 = some (freshName used base) := by
  obtain ⟨k, hk, h, heq⟩ := exists_freshName used base
  have hsearch := suffixLoop_eq_search used base fuel 0
  rw [suffixed_zero] at hsearch
  rw [hsearch, heq]
  exact search_eq h (Nat.zero_le k) (by omega)

/-! ## 2. Names made for a node -/

/-- The name `prepare_nodes` starts from for a contested node. -/
def label (name : Str) (id : NodeId) : Str := trim name ++ " [".toList ++ id.text ++ [']']

theorem mem_alphabet_of_mem_text {id : NodeId} {c : Char} (hc : c ∈ id.text) :
    c ∈ Ulid.alphabet := by
  obtain ⟨k, -, rfl⟩ := List.mem_map.1 hc
  have hlt : id.val / 32 ^ k % 32 < Ulid.alphabet.length := Nat.mod_lt _ (by decide)
  rw [Ulid.digit, List.getD_eq_getElem _ _ hlt]
  exact List.getElem_mem hlt

/-- No bracket and no blank is a digit of an id. -/
theorem not_mem_text {id : NodeId} {c : Char} (hc : c ∉ Ulid.alphabet) : c ∉ id.text :=
  fun hmem => hc (mem_alphabet_of_mem_text hmem)

theorem not_mem_counter {k : Nat} {c : Char} (hblank : c ≠ ' ') (hdigit : c.isDigit = false) :
    c ∉ counter k := by
  intro hmem
  rcases of_mem_counter hmem with h | h
  · exact hblank h
  · exact absurd h (by rw [hdigit]; decide)

/-- **A name made for a node is cut at its last bracket**: before it the trimmed name, behind it
    the id and the counter. -/
theorem rsplitText_label (name : Str) (id : NodeId) (k : Nat) :
    rsplitText [' ', '['] (suffixed (label name id) k) =
      some (trim name, id.text ++ ']' :: counter k) := by
  have hshape : suffixed (label name id) k =
      trim name ++ ' ' :: '[' :: (id.text ++ ']' :: counter k) := by
    simp [suffixed, label]
  have hfree : '[' ∉ id.text ++ ']' :: counter k := by
    intro hmem
    rcases List.mem_append.1 hmem with hmem | hmem
    · exact not_mem_text (by decide) hmem
    · rcases List.mem_cons.1 hmem with h | hmem
      · exact absurd h (by decide)
      · exact not_mem_counter (by decide) (by decide) hmem
  rw [hshape, rsplitText_append (by decide) _ hfree]

theorem splitOnce_label (id : NodeId) (k : Nat) :
    splitOnce ']' (id.text ++ ']' :: counter k) = some (id.text, counter k) :=
  splitOnce_append _ (not_mem_text (by decide))

/-- **A name made for a node tells its id.** -/
theorem id_of_label {name name' : Str} {id id' : NodeId} {j k : Nat}
    (h : suffixed (label name id) j = suffixed (label name' id') k) : id = id' := by
  have hcut := congrArg (rsplitText [' ', '[']) h
  rw [rsplitText_label, rsplitText_label, Option.some.injEq, Prod.mk.injEq] at hcut
  have hid := congrArg (splitOnce ']') hcut.2
  rw [splitOnce_label, splitOnce_label, Option.some.injEq, Prod.mk.injEq] at hid
  exact Ulid.text_injective hid.1

/-- A text with a character that is no white space is not blank. -/
theorem trim_ne_nil {s : Str} {c : Char} (hc : c ∈ s) (hspace : isWhitespace c = false) :
    trim s ≠ [] := by
  have hdrop : ∀ {t : Str}, c ∈ t → c ∈ t.dropWhile isWhitespace := by
    intro t ht
    rcases mem_dropWhile_or ht with h | h
    · exact h
    · exact absurd h (by rw [hspace]; decide)
  have hmem : c ∈ trim s := List.mem_reverse.2 (hdrop (List.mem_reverse.2 (hdrop hc)))
  exact List.ne_nil_of_mem hmem

theorem trim_label_ne_nil (name : Str) (id : NodeId) (k : Nat) :
    trim (suffixed (label name id) k) ≠ [] := by
  have hmem : '[' ∈ suffixed (label name id) k := by simp [suffixed, label]
  exact trim_ne_nil hmem (by decide)

/-! ## 3. Each node by itself -/

/-- Whether a node is renamed. -/
def contestedIn (reserved : List Str) (nodes : List PooledNode) (n : PooledNode) : Bool :=
  (trim n.node.displayName).isEmpty || reserved.contains n.node.displayName ||
    (nodes.map fun n => n.node.displayName).count n.node.displayName > 1

/-- The names that are taken before a node is renamed. -/
def takenIn (reserved : List Str) (nodes : List PooledNode) : List Str :=
  reserved ++ (nodes.filter fun n => !contestedIn reserved nodes n).map fun n => n.node.displayName

/-- A node under another name. -/
def withName (n : PooledNode) (name : Str) : PooledNode :=
  { n with node := { n.node with displayName := name } }

/-- The node under the name it gets. -/
def renamed (contested : PooledNode → Bool) (taken : List Str) (n : PooledNode) : PooledNode :=
  if contested n then withName n (freshName taken (label n.node.displayName n.id)) else n

@[simp] theorem renamed_id (contested : PooledNode → Bool) (taken : List Str) (n : PooledNode) :
    (renamed contested taken n).id = n.id := by
  rw [renamed]
  split <;> rfl

/-- The names made for other nodes are no candidates. -/
theorem freshName_append {made taken : List Str} {n : PooledNode}
    (h : ∀ x ∈ made, ∃ name id k, id ≠ n.id ∧ x = suffixed (label name id) k) :
    freshName (made ++ taken) (label n.node.displayName n.id) =
      freshName taken (label n.node.displayName n.id) := by
  refine freshName_congr fun j => ?_
  rw [List.mem_append]
  refine ⟨fun hmem => hmem.resolve_left fun hmade => ?_, Or.inr⟩
  obtain ⟨name, id, k, hne, heq⟩ := h _ hmade
  exact hne (id_of_label heq).symm

/-- The renaming loop, with the names it has made so far. -/
theorem renameNodes_eq_map {contested : PooledNode → Bool} {taken : List Str}
    {nodes : List PooledNode} (hids : (nodes.map PooledNode.id).Nodup) {made : List Str}
    (hmade : ∀ x ∈ made, ∃ name id k, id ∉ nodes.map PooledNode.id ∧
      x = suffixed (label name id) k) :
    renameNodes contested (made ++ taken) nodes = nodes.map (renamed contested taken) := by
  induction nodes generalizing made with
  | nil => rfl
  | cons n rest ih =>
    rw [List.map_cons, List.nodup_cons] at hids
    have hrest : ∀ x ∈ made, ∃ name id k, id ∉ rest.map PooledNode.id ∧
        x = suffixed (label name id) k := by
      intro x hx
      obtain ⟨name, id, k, hid, heq⟩ := hmade x hx
      exact ⟨name, id, k, fun hmem => hid (List.mem_cons_of_mem _ hmem), heq⟩
    rw [renameNodes, List.map_cons, renamed]
    by_cases hn : contested n
    · have hfresh : freshName (made ++ taken) (label n.node.displayName n.id) =
          freshName taken (label n.node.displayName n.id) := by
        refine freshName_append fun x hx => ?_
        obtain ⟨name, id, k, hid, heq⟩ := hmade x hx
        exact ⟨name, id, k, fun h => hid (h ▸ List.mem_cons_self), heq⟩
      obtain ⟨k, -, -, hk⟩ := exists_freshName taken (label n.node.displayName n.id)
      rw [if_pos hn, if_pos hn]
      change withName n (freshName (made ++ taken) (label n.node.displayName n.id)) ::
        renameNodes contested (freshName (made ++ taken) (label n.node.displayName n.id) ::
          (made ++ taken)) rest = _
      rw [hfresh, ← List.cons_append, ih hids.2]
      intro x hx
      rcases List.mem_cons.1 hx with rfl | hx
      · exact ⟨n.node.displayName, n.id, k, hids.1, hk⟩
      · exact hrest x hx
    · rw [if_neg hn, if_neg hn, ih hids.2 hrest]

/-- **Each node is renamed without regard to the new names of the others.** -/
theorem uniqueNames_eq_map (reserved : List Str) {nodes : List PooledNode}
    (hids : (nodes.map PooledNode.id).Nodup) :
    uniqueNames reserved nodes =
      nodes.map (renamed (contestedIn reserved nodes) (takenIn reserved nodes)) := by
  have hmade : ∀ x ∈ ([] : List Str), ∃ name id k, id ∉ nodes.map PooledNode.id ∧
      x = suffixed (label name id) k := by simp
  exact renameNodes_eq_map hids hmade

/-! ## 4. The result -/

section Names

variable {reserved : List Str} {nodes : List PooledNode}

/-- Two nodes of which one alone bears its name are one. -/
theorem eq_of_count_le_one {α β : Type} [BEq β] [LawfulBEq β] {f : α → β} {l : List α} {a b : α}
    (hcount : (l.map f).count (f a) ≤ 1) (ha : a ∈ l) (hb : b ∈ l) (heq : f b = f a) : a = b := by
  induction l with
  | nil => cases ha
  | cons x l ih =>
    rw [List.map_cons, List.count_cons] at hcount
    by_cases hx : f x = f a
    · -- the head has the name, so nothing behind it has
      have hnone : ∀ y ∈ l, f y ≠ f a := by
        intro y hy hfy
        have hpos : 0 < (l.map f).count (f a) :=
          List.count_pos_iff.2 (hfy ▸ List.mem_map_of_mem hy)
        rw [if_pos (beq_iff_eq.2 hx)] at hcount
        omega
      rcases List.mem_cons.1 ha with rfl | ha
      · rcases List.mem_cons.1 hb with rfl | hb
        · rfl
        · exact absurd heq (hnone b hb)
      · exact absurd rfl (hnone a ha)
    · have ha' : a ∈ l := (List.mem_cons.1 ha).resolve_left fun h => hx (congrArg f h).symm
      have hb' : b ∈ l := (List.mem_cons.1 hb).resolve_left fun h => hx ((congrArg f h).symm.trans heq)
      exact ih (by omega) ha' hb'

theorem not_contestedIn {n : PooledNode} (h : contestedIn reserved nodes n = false) :
    trim n.node.displayName ≠ [] ∧ n.node.displayName ∉ reserved ∧
      (nodes.map fun n => n.node.displayName).count n.node.displayName ≤ 1 := by
  simpa [contestedIn, and_assoc] using h

theorem contestedIn_eq_false {n : PooledNode} (hblank : trim n.node.displayName ≠ [])
    (hreserved : n.node.displayName ∉ reserved)
    (hcount : (nodes.map fun n => n.node.displayName).count n.node.displayName ≤ 1) :
    contestedIn reserved nodes n = false := by
  simpa [contestedIn, and_assoc] using ⟨hblank, hreserved, hcount⟩

/-- What the new name of a node is. -/
theorem renamed_cases (n : PooledNode) :
    (contestedIn reserved nodes n = false ∧
      renamed (contestedIn reserved nodes) (takenIn reserved nodes) n = n) ∨
    ∃ k, (renamed (contestedIn reserved nodes) (takenIn reserved nodes) n).node.displayName =
        suffixed (label n.node.displayName n.id) k ∧
      suffixed (label n.node.displayName n.id) k ∉ takenIn reserved nodes := by
  rw [renamed]
  cases hn : contestedIn reserved nodes n with
  | false => exact Or.inl ⟨rfl, rfl⟩
  | true =>
    obtain ⟨k, -, hleast, heq⟩ :=
      exists_freshName (takenIn reserved nodes) (label n.node.displayName n.id)
    exact Or.inr ⟨k, heq, hleast.free⟩

theorem mem_takenIn_of_kept {n : PooledNode} (hn : n ∈ nodes)
    (h : contestedIn reserved nodes n = false) : n.node.displayName ∈ takenIn reserved nodes :=
  List.mem_append_right _
    (List.mem_map.2 ⟨n, List.mem_filter.2 ⟨hn, by rw [h]; rfl⟩, rfl⟩)

/-- **Two nodes with one new name are one.** -/
theorem renamed_injOn {n m : PooledNode} (hn : n ∈ nodes) (hm : m ∈ nodes)
    (hids : (nodes.map PooledNode.id).Nodup)
    (heq : (renamed (contestedIn reserved nodes) (takenIn reserved nodes) n).node.displayName =
      (renamed (contestedIn reserved nodes) (takenIn reserved nodes) m).node.displayName) :
    n = m := by
  rcases renamed_cases n with ⟨hkeptn, hn'⟩ | ⟨j, hn', hfreen⟩
  · rcases renamed_cases m with ⟨hkeptm, hm'⟩ | ⟨k, hm', hfreem⟩
    · rw [hn', hm'] at heq
      exact eq_of_count_le_one (f := fun n : PooledNode => n.node.displayName)
        (not_contestedIn hkeptn).2.2 hn hm heq.symm
    · rw [hn', hm'] at heq
      exact absurd (heq ▸ mem_takenIn_of_kept hn hkeptn) hfreem
  · rcases renamed_cases m with ⟨hkeptm, hm'⟩ | ⟨k, hm', hfreem⟩
    · rw [hn', hm'] at heq
      exact absurd (heq.symm ▸ mem_takenIn_of_kept hm hkeptm) hfreen
    · rw [hn', hm'] at heq
      exact List.inj_on_of_nodup_map hids hn hm (id_of_label heq)

end Names

/-- What holds of the names after the renaming: each node keeps its place and its id; no name is
    blank, taken twice or reserved; and a name that was free, alone and not blank stays. -/
structure NamesFixed (reserved : List Str) (nodes after : List PooledNode) : Prop where
  ids : after.map PooledNode.id = nodes.map PooledNode.id
  nonblank : ∀ n ∈ after, trim n.node.displayName ≠ []
  distinct : (after.map fun n => n.node.displayName).Nodup
  unreserved : ∀ n ∈ after, n.node.displayName ∉ reserved
  kept : ∀ n ∈ nodes, trim n.node.displayName ≠ [] → n.node.displayName ∉ reserved →
    (nodes.map fun n => n.node.displayName).count n.node.displayName = 1 → n ∈ after

/-- **The renaming fixes the names.** -/
theorem namesFixed_uniqueNames (reserved : List Str) {nodes : List PooledNode}
    (hids : (nodes.map PooledNode.id).Nodup) :
    NamesFixed reserved nodes (uniqueNames reserved nodes) := by
  rw [uniqueNames_eq_map reserved hids]
  constructor
  case ids =>
    rw [List.map_map]
    exact List.map_congr_left fun n _ => renamed_id _ _ n
  case nonblank =>
    intro n' hn'
    obtain ⟨n, -, rfl⟩ := List.mem_map.1 hn'
    rcases renamed_cases n with ⟨hkept, heq⟩ | ⟨k, heq, -⟩
    · rw [heq]
      exact (not_contestedIn hkept).1
    · rw [heq]
      exact trim_label_ne_nil _ _ k
  case distinct =>
    rw [List.map_map, List.nodup_map_iff_inj_on (List.Nodup.of_map _ hids)]
    intro n hn m hm heq
    exact renamed_injOn hn hm hids heq
  case unreserved =>
    intro n' hn'
    obtain ⟨n, -, rfl⟩ := List.mem_map.1 hn'
    rcases renamed_cases n with ⟨hkept, heq⟩ | ⟨k, heq, hfree⟩
    · rw [heq]
      exact (not_contestedIn hkept).2.1
    · rw [heq]
      exact fun hmem => hfree (List.mem_append_left _ hmem)
  case kept =>
    intro n hn hblank hreserved hcount
    have hkept := contestedIn_eq_false hblank hreserved (Nat.le_of_eq hcount)
    refine List.mem_map.2 ⟨n, hn, ?_⟩
    rw [renamed, hkept]
    rfl

/-- **The order of the nodes does not matter**: each id gets the same name. -/
theorem uniqueNames_perm (reserved : List Str) {nodes nodes' : List PooledNode}
    (hids : (nodes.map PooledNode.id).Nodup) (hperm : nodes'.Perm nodes) :
    (uniqueNames reserved nodes').Perm (uniqueNames reserved nodes) := by
  have hcontested : contestedIn reserved nodes' = contestedIn reserved nodes := by
    funext n
    rw [contestedIn, contestedIn, (hperm.map _).count_eq]
  have htaken : ∀ x, x ∈ takenIn reserved nodes' ↔ x ∈ takenIn reserved nodes := by
    intro x
    rw [takenIn, takenIn, hcontested, List.mem_append, List.mem_append,
      ((hperm.filter _).map _).mem_iff]
  have hrenamed : renamed (contestedIn reserved nodes') (takenIn reserved nodes') =
      renamed (contestedIn reserved nodes) (takenIn reserved nodes) := by
    funext n
    rw [renamed, renamed, hcontested, freshName_congr fun j => htaken _]
  rw [uniqueNames_eq_map reserved hids,
    uniqueNames_eq_map reserved ((hperm.map PooledNode.id).nodup_iff.2 hids), hrenamed]
  exact hperm.map _

/-- The names `prepare_nodes` starts from: the built-in policies and the groups of the template,
    for a native one also the placeholders and the groups of the document. -/
def reservedNames (E : Engine) (spec : TemplateSpec) : Except TemplateAppError (List Str) :=
  let names := clashPolicies ++ spec.proxyGroups.map ProxyGroup.name
  match spec.clash with
  | none => .ok names
  | some clash => (E.clashGroupNames clash).map fun groups => names ++ clashTokens ++ groups

/-- The nodes that come out are the renamed ones. -/
theorem prepareNodes_renamed {E : Engine} {nodes after : List PooledNode} {spec : TemplateSpec}
    {document : Option Str} {warnings : List Str} {h : History QueryReply}
    (hrun : (prepareNodes E nodes spec).run.Ran [] h (.ok (after, document, warnings))) :
    ∃ reserved, reservedNames E spec = .ok reserved ∧ after = uniqueNames reserved nodes := by
  unfold prepareNodes at hrun
  unfold reservedNames
  cases hclash : spec.clash with
  | none =>
    rw [hclash] at hrun
    obtain ⟨-, heq⟩ := hrun
    exact ⟨_, rfl, (ok_pair_inj heq).1⟩
  | some clash =>
    rw [hclash] at hrun
    obtain ⟨h₁, groups, hgroups, hrun⟩ := Program.Ran.bindOk hrun
    obtain ⟨h₂, result, -, hrun⟩ := Program.Ran.bindOk hrun
    obtain ⟨-, hok⟩ := hgroups
    obtain ⟨-, heq⟩ := hrun
    refine ⟨_, map_eq_ok.2 ⟨groups, hok.symm, rfl⟩, ?_⟩
    exact (ok_pair_inj heq).1

/-- **The names of an output.** Whenever `prepare_nodes` succeeds on nodes with distinct ids, no
    name is blank, double or reserved, free names stay, and no id's name depends on the order of
    the nodes; and the search for a free suffix ends for any names that are taken. -/
theorem prepare_nodes_names (nodes : List PooledNode) (hids : (nodes.map PooledNode.id).Nodup) :
    (∀ (E : Engine) (spec : TemplateSpec) (after : List PooledNode) (document : Option Str)
        (warnings : List Str) (h : History QueryReply),
      (prepareNodes E nodes spec).run.Ran [] h (.ok (after, document, warnings)) →
      ∃ reserved, reservedNames E spec = .ok reserved ∧ NamesFixed reserved nodes after ∧
        ∀ (nodes' after' : List PooledNode) (document' : Option Str) (warnings' : List Str)
            (h' : History QueryReply), nodes'.Perm nodes →
          (prepareNodes E nodes' spec).run.Ran [] h' (.ok (after', document', warnings')) →
          after'.Perm after) ∧
    ∀ (used : List Str) (base : Str) (fuel : Nat), used.length < fuel →
      suffixLoop used base fuel base 2 = some (freshName used base) := by
  refine ⟨fun E spec after document warnings h hrun => ?_,
    fun used base fuel hfuel => suffixLoop_eq hfuel⟩
  obtain ⟨reserved, hreserved, rfl⟩ := prepareNodes_renamed hrun
  refine ⟨reserved, hreserved, namesFixed_uniqueNames reserved hids, ?_⟩
  intro nodes' after' document' warnings' h' hperm hrun'
  obtain ⟨reserved', hreserved', rfl⟩ := prepareNodes_renamed hrun'
  obtain rfl : reserved' = reserved := Except.ok.inj (hreserved'.symm.trans hreserved)
  exact uniqueNames_perm reserved' hids hperm

/-- A node of which only the name and the id matter. -/
def namedNode (id : NodeId) (name : Str) : PooledNode where
  id := id
  node := { displayName := name, protocol := .trojan, config := .trojan ⟨none⟩
            endpoint := ⟨.domain "example.com", 443⟩, authentication := .password "p"
            transport := none, tls := none, udp := ⟨none, none⟩, multiplex := none
            obfuscation := none, congestion := none, extras := [] }
  region := none
  sourceLabel := []
  chain := none

/-- A template without groups. -/
def plainSpec : TemplateSpec := ⟨none, [], ⟨.dynamic, [], [], 0⟩, [], [], .null, .null⟩

/-- Two nodes with one name, and one with the name of a policy. -/
def alikeNodes : List PooledNode := [namedNode 1 "A", namedNode 2 "A", namedNode 3 "DIRECT"]

theorem alike_nodes_names : (alikeNodes.map PooledNode.id).Nodup ∧ ∀ E : Engine, ∃ after,
    (prepareNodes E alikeNodes plainSpec).run.Ran [] [] (.ok (after, none, [])) ∧
      NamesFixed clashPolicies alikeNodes after := by
  refine ⟨by decide, fun E => ?_⟩
  have hrun : (prepareNodes E alikeNodes plainSpec).run.Ran [] []
      (.ok (uniqueNames clashPolicies alikeNodes, none, [])) := ⟨rfl, rfl⟩
  obtain ⟨reserved, hreserved, hfixed, -⟩ :=
    (prepare_nodes_names alikeNodes (by decide)).1 E plainSpec _ _ _ _ hrun
  obtain rfl : clashPolicies = reserved := Except.ok.inj hreserved
  exact ⟨_, hrun, hfixed⟩

end DeveSub
