/-
  File:      DeveSub/Properties/QualifiedNames.lean
  Subject:   References to nodes under a name a former generation made for them.

  * `qualifiedName_label` -- `qualified_name` reads back what the renaming wrote;
  * `identityOf_eq`, `of_identityOf` -- an id finds the node that has it;
  * **`qualified_reference_follows`**.
-/
import DeveSub.Properties.GroupMembers
import DeveSub.Properties.NodeNames

namespace DeveSub.ClashMembership

open Labels

/-! ## 1. Reading a name back -/

/-- **`qualified_name` reads back what the renaming wrote**, for every base name: brackets, blanks
    and counters in it come before the last bracket. -/
theorem qualifiedName_label (name : Str) (id : NodeId) {k : Nat} (hk : k + 1 < 2 ^ 31) :
    qualifiedName (suffixed (label name id) k) = some (trim name, id.text) := by
  unfold qualifiedName
  rw [rsplitText_label]
  change (splitOnce ']' (id.text ++ ']' :: counter k)).bind _ = _
  rw [splitOnce_label, Option.bind_some]
  cases k with
  | zero => rfl
  | succ k =>
    have hparse : parseUnsigned (2 ^ 64) (natText (k + 2)) = some (k + 2) :=
      parseUnsigned_natText (by omega)
    change (if (counter (k + 1)).isEmpty then _ else
      (stripPrefix [' '] (' ' :: natText (k + 2))).bind _) = _
    rw [if_neg (by simp [counter]), show stripPrefix [' '] (' ' :: natText (k + 2)) =
      some (natText (k + 2)) from stripPrefix_append [' '] _, Option.bind_some, hparse]
    exact if_neg (by simp)

/-! ## 2. Nodes by their id -/

section Identities

variable {reserved : List Str} {nodes : List PooledNode}

/-- The names before the renaming. -/
def namesBefore (nodes : List PooledNode) : List Str := nodes.map fun n => n.node.displayName

/-- The renamed nodes beside their former names. -/
theorem zip_uniqueNames (hids : (nodes.map PooledNode.id).Nodup) :
    (uniqueNames reserved nodes).zip (namesBefore nodes) = nodes.map fun n =>
      (renamed (contestedIn reserved nodes) (takenIn reserved nodes) n, n.node.displayName) := by
  rw [uniqueNames_eq_map reserved hids, namesBefore, List.zip_map']

/-- What an id answers belongs to the node that has it. -/
theorem of_identityOf (hids : (nodes.map PooledNode.id).Nodup) {id : NodeId} {original current : Str}
    (h : identityOf (uniqueNames reserved nodes) (namesBefore nodes) id.text =
      some (original, current)) :
    ∃ m ∈ uniqueNames reserved nodes, m.id = id ∧ m.node.displayName = current := by
  rw [identityOf, zip_uniqueNames hids, Option.map_eq_some_iff] at h
  obtain ⟨p, hfind, heq⟩ := h
  obtain ⟨n, hn, rfl⟩ := List.mem_map.1 (List.mem_reverse.1 (List.mem_of_find?_eq_some hfind))
  have hid := List.find?_some hfind
  refine ⟨renamed (contestedIn reserved nodes) (takenIn reserved nodes) n, ?_,
    Ulid.text_injective (by simpa using hid), (Prod.mk.inj heq).2⟩
  rw [uniqueNames_eq_map reserved hids]
  exact List.mem_map_of_mem hn

/-- An id that is there answers its node. -/
theorem identityOf_eq (hids : (nodes.map PooledNode.id).Nodup) {n : PooledNode} (hn : n ∈ nodes) :
    ∃ m ∈ uniqueNames reserved nodes, m.id = n.id ∧
      identityOf (uniqueNames reserved nodes) (namesBefore nodes) n.id.text =
        some (trim n.node.displayName, m.node.displayName) := by
  have hfind : ((nodes.map fun n => (renamed (contestedIn reserved nodes) (takenIn reserved nodes) n,
      n.node.displayName)).reverse.find? fun p => p.1.id.text = n.id.text) =
      some (renamed (contestedIn reserved nodes) (takenIn reserved nodes) n,
        n.node.displayName) := by
    rw [← List.map_reverse, List.find?_map, Option.map_eq_some_iff]
    have hsome : (nodes.reverse.find? fun x => decide ((renamed (contestedIn reserved nodes)
        (takenIn reserved nodes) x).id.text = n.id.text)).isSome := by
      rw [List.find?_isSome]
      exact ⟨n, List.mem_reverse.2 hn, by simp⟩
    obtain ⟨x, hx⟩ := Option.isSome_iff_exists.1 hsome
    have hid := List.find?_some hx
    have hmem := List.mem_reverse.1 (List.mem_of_find?_eq_some hx)
    have heq : x = n := by
      refine List.inj_on_of_nodup_map hids hmem hn (Ulid.text_injective ?_)
      simpa using hid
    subst heq
    exact ⟨x, hx, rfl⟩
  refine ⟨renamed (contestedIn reserved nodes) (takenIn reserved nodes) n, ?_, renamed_id _ _ n, ?_⟩
  · rw [uniqueNames_eq_map reserved hids]
    exact List.mem_map_of_mem hn
  · rw [identityOf, zip_uniqueNames hids, hfind]
    rfl

end Identities

/-! ## 3. The result -/

/-- A name that a generation over `nodes` made for the node `n`; its counter, if there is one, is an
    `i32` like that of the loop. -/
structure MadeFor (reserved : List Str) (nodes : List PooledNode) (n : PooledNode) (name : Str) :
    Prop where
  node : n ∈ nodes
  contested : contestedIn reserved nodes n = true
  shown : ∃ m ∈ uniqueNames reserved nodes, m.id = n.id ∧ m.node.displayName = name
  counter : ∀ k, name = suffixed (label n.node.displayName n.id) k → k + 1 < 2 ^ 31

/-- A name that was made for a node reads back. -/
theorem MadeFor.qualifiedName_eq {reserved : List Str} {nodes : List PooledNode} {n : PooledNode}
    {name : Str} (hids : (nodes.map PooledNode.id).Nodup) (h : MadeFor reserved nodes n name) :
    qualifiedName name = some (trim n.node.displayName, n.id.text) := by
  obtain ⟨m, hm, hid, hname⟩ := h.shown
  rw [uniqueNames_eq_map reserved hids] at hm
  obtain ⟨n', hn', rfl⟩ := List.mem_map.1 hm
  obtain rfl : n' = n := List.inj_on_of_nodup_map hids hn' h.node ((renamed_id _ _ n').symm.trans hid)
  rcases @renamed_cases reserved nodes n' with ⟨hkept, -⟩ | ⟨k, hk, -⟩
  · rw [h.contested] at hkept
    cases hkept
  · have heq : name = suffixed (label n'.node.displayName n'.id) k := hname.symm.trans hk
    rw [heq]
    exact qualifiedName_label _ _ (h.counter k heq)

section Generation

variable {S : Surroundings} {reserved : List Str} {nodes : List PooledNode} {groups : List Json}
  {L : Lookup} {b : Budget} {h : History QueryReply} {name : Str}

theorem mem_wantedNames {types : List (Str × Str)} {g : Json} (hg : g ∈ groups)
    (hlisted : name ∈ listedMembers g) (hfree : known types name = false)
    (htoken : name ∉ clashTokens) : name ∈ wantedNames types groups := by
  rw [wantedNames, List.mem_dedup, List.mem_filter]
  refine ⟨List.mem_flatMap.2 ⟨g, hg, hlisted⟩, ?_⟩
  rw [hfree, List.contains_eq_mem, decide_eq_false htoken]
  rfl

theorem known_of_mem {types : List (Str × Str)} {x : Str} :
    known types x = true ↔ x ∈ types.map Prod.fst := by
  simp [known]

theorem known_node {m : PooledNode} (hm : m ∈ nodes) :
    known (typesOf nodes groups) m.node.displayName = true := by
  rw [known_of_mem, typesOf, List.map_append, List.map_append]
  refine List.mem_append_left _ (List.mem_append_left _ ?_)
  exact List.mem_map.2 ⟨_, List.mem_map_of_mem hm, rfl⟩

theorem resolve_of_alias {current : Str} (halias : L.aliasFor name = some current)
    (hknown : known L.types current = true) (group : Str) :
    ∃ notices, L.resolve group name = .ok (some current, notices) := by
  rw [Lookup.resolve, halias]
  exact ⟨_, if_pos hknown⟩

/-- A name that nothing bears resolves through its alias only. -/
theorem alias_of_resolve {group r : Str} {notices : List Str} (hfree : known L.types name = false)
    (hresolve : L.resolve group name = .ok (some r, notices)) : L.aliasFor name = some r := by
  rw [Lookup.resolve] at hresolve
  cases halias : L.aliasFor name with
  | none =>
    rw [halias] at hresolve
    simp only [hfree, Bool.false_eq_true, if_false] at hresolve
    split at hresolve
    · cases hresolve
    · cases hresolve
  | some current =>
    rw [halias] at hresolve
    simp only at hresolve
    split at hresolve
    · exact congrArg some (Option.some.inj (ok_pair_inj hresolve).1)
    · split at hresolve
      · cases hresolve
      · cases hresolve

/-- **A reference follows its node.** A name that one generation made for a node is listed in a
    group of a later one, in which no node, group, policy or placeholder bears it. If the node is
    still selected under the same trimmed name, the reference resolves to it under the name it has
    now, and that name is a member of the group, before the filters; and in any case it resolves
    to no node with another id. -/
theorem qualified_reference_follows (reserved₁ reserved₂ : List Str)
    (nodes₁ nodes₂ : List PooledNode) (hids₁ : (nodes₁.map PooledNode.id).Nodup)
    (hids₂ : (nodes₂.map PooledNode.id).Nodup) (n : PooledNode) (name : Str)
    (hmade : MadeFor reserved₁ nodes₁ n name) (S : Surroundings) (groups : List Json) (L : Lookup)
    (b : Budget) (h : History QueryReply)
    (hrun : (buildLookup S groups (uniqueNames reserved₂ nodes₂) (namesBefore nodes₂)).run.Ran [] h
      (.ok (L, b)))
    (hfree : known (typesOf (uniqueNames reserved₂ nodes₂) groups) name = false)
    (htoken : name ∉ clashTokens) (g : Json) (hg : g ∈ groups) (hlisted : name ∈ listedMembers g) :
    (∀ n' ∈ nodes₂, n'.id = n.id → trim n'.node.displayName = trim n.node.displayName →
      ∃ m ∈ uniqueNames reserved₂ nodes₂, m.id = n.id ∧
        (∀ group, ∃ notices, L.resolve group name = .ok (some m.node.displayName, notices)) ∧
        ∀ group included r, Yields (expandMembers S L group included (listedMembers g) [] []) r →
          m.node.displayName ∈ r.1) ∧
    ∀ group r notices, L.resolve group name = .ok (some r, notices) →
      ∃ m ∈ uniqueNames reserved₂ nodes₂, m.id = n.id ∧ m.node.displayName = r := by
  obtain ⟨htypes, -, haliases⟩ := buildLookup_ran hrun
  have hread := hmade.qualifiedName_eq hids₁
  have halias : L.aliasFor name =
      aliasOf (uniqueNames reserved₂ nodes₂) (namesBefore nodes₂) name := by
    rw [haliases, if_pos (mem_wantedNames hg hlisted hfree htoken)]
  constructor
  · intro n' hn' hid htrim
    obtain ⟨m, hm, hmid, hidentity⟩ := @identityOf_eq reserved₂ nodes₂ hids₂ n' hn'
    have hcurrent : L.aliasFor name = some m.node.displayName := by
      rw [halias, aliasOf, hread]
      change (identityOf _ _ n.id.text).bind _ = _
      rw [← hid, hidentity, Option.bind_some]
      exact if_pos htrim.symm
    have hresolve := resolve_of_alias hcurrent (by rw [htypes]; exact known_node hm)
    refine ⟨m, hm, hmid.trans hid, hresolve, fun group included r hr => ?_⟩
    obtain ⟨resolved, more, heq, hmem⟩ := resolve_mem_of_yields hr hlisted htoken
    obtain ⟨notices, heq'⟩ := hresolve group
    exact hmem _ (Prod.mk.inj (Except.ok.inj (heq.symm.trans heq'))).1
  · intro group r notices hresolve
    have hcurrent := alias_of_resolve (by rw [htypes]; exact hfree) hresolve
    rw [halias, aliasOf, hread] at hcurrent
    change (identityOf _ _ n.id.text).bind _ = _ at hcurrent
    obtain ⟨⟨original, current⟩, hidentity, hif⟩ := Option.bind_eq_some_iff.1 hcurrent
    obtain ⟨m, hm, hmid, hmname⟩ := of_identityOf hids₂ hidentity
    refine ⟨m, hm, hmid, hmname.trans ?_⟩
    simp only at hif
    split at hif
    · exact Option.some.inj hif
    · cases hif

end Generation

/-- No regular expression compiles, and it is never late. -/
def idle : Surroundings := ⟨⟨Empty, fun _ => none, fun p => p.elim⟩, fun _ => false⟩

/-- A node alone. -/
def alone : List PooledNode := [namedNode 1 "A"]

/-- Two nodes of one name. -/
def twins : List PooledNode := [namedNode 1 "A", namedNode 2 "A"]

/-- The name the first of them gets. -/
def twinName : Str := "A [00000000000000000000000001]"

/-- A group that lists the node under that name. -/
def twinGroup : Json :=
  .obj [("name", .str "G"), ("type", .str "select"), ("proxies", .arr [.str twinName])]

theorem twinName_eq : twinName = suffixed (label "A" 1) 0 := by decide

theorem madeFor_twin : MadeFor [] twins (namedNode 1 "A") twinName where
  node := List.mem_cons_self
  contested := by decide
  shown := ⟨_, List.mem_cons_self, rfl, by decide⟩
  counter := by
    intro k hk
    rw [twinName_eq] at hk
    rw [← suffixed_injective _ hk]
    decide

/-- What the group has to look names up. -/
def twinLookup : Lookup :=
  ⟨typesOf alone [twinGroup], [(twinName, "A")], [], ["A"]⟩

theorem twin_reference_follows : ∃ notices,
    twinLookup.resolve "G" twinName = .ok (some "A".toList, notices) := by
  have hrun : (buildLookup idle [twinGroup] (uniqueNames [] alone) (namesBefore alone)).run.Ran [] []
      (.ok (twinLookup, ⟨999999, 67108834, 256, 1⟩)) := ⟨rfl, rfl⟩
  obtain ⟨m, hm, hid, hresolve, -⟩ := (qualified_reference_follows [] [] twins alone (by decide)
    (by decide) (namedNode 1 "A") twinName madeFor_twin idle [twinGroup] twinLookup _ [] hrun
    (by decide) (by decide) twinGroup List.mem_cons_self (by decide)).1 (namedNode 1 "A")
      List.mem_cons_self rfl rfl
  obtain rfl : m = namedNode 1 "A" := List.mem_singleton.1 hm
  exact hresolve "G"

end DeveSub.ClashMembership
