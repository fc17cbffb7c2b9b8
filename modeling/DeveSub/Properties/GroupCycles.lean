/-
  File:      DeveSub/Properties/GroupCycles.lean
  Subject:   The cycle checks of the two template languages: the topological elimination of native
             Clash groups and the depth-first search in the graph of V3 groups.

  * `SameGroups` -- V3 groups with the names and the group references of native ones;
  * `edge_iff` -- the two graphs have the same edges between groups;
  * **`group_checks_agree`**.
-/
import DeveSub.Application.Clash
import DeveSub.Domain.TemplateChain

namespace DeveSub.Clash

/-! ## 1. The native graph -/

section Native

variable {names : List Str} {groups : List (Str × List Str)}

theorem membersOf_eq_nil {edges : List (Str × List Str)} {name : Str}
    (h : name ∉ edges.map Prod.fst) : membersOf edges name = [] := by
  have hfind : edges.find? (fun e => e.1 = name) = none := by
    rw [List.find?_eq_none]
    intro e he heq
    exact h (List.mem_map.2 ⟨e, he, by simpa using heq⟩)
  rw [membersOf, hfind]
  rfl

/-- With distinct names, what stands under a name is its group. -/
theorem mem_membersOf {edges : List (Str × List Str)} (hnodup : (edges.map Prod.fst).Nodup)
    {name member : Str} :
    member ∈ membersOf edges name ↔ ∃ e ∈ edges, e.1 = name ∧ member ∈ e.2 := by
  induction edges with
  | nil => simp [membersOf]
  | cons e edges ih =>
    rw [List.map_cons, List.nodup_cons] at hnodup
    by_cases he : e.1 = name
    · have hother : ¬ ∃ e' ∈ edges, e'.1 = name ∧ member ∈ e'.2 := by
        intro h
        obtain ⟨e', he', heq, -⟩ := h
        exact hnodup.1 (List.mem_map.2 ⟨e', he', heq.trans he.symm⟩)
      simp [membersOf, he, hother]
    · have htail : membersOf (e :: edges) name = membersOf edges name := by
        simp [membersOf, he]
      rw [htail, ih hnodup.2]
      simp [he]

theorem map_fst_edgesOf : (edgesOf names groups).map Prod.fst = groups.map Prod.fst := by
  rw [edgesOf, List.map_map]
  rfl

theorem mem_membersOf_edgesOf (hnodup : (groups.map Prod.fst).Nodup) {name member : Str} :
    member ∈ membersOf (edgesOf names groups) name ↔
      ∃ g ∈ groups, g.1 = name ∧ member ∈ g.2 ∧ member ∈ names := by
  rw [mem_membersOf (by rwa [map_fst_edgesOf])]
  simp [edgesOf]

/-- **The elimination of native groups ends, and takes all of them out exactly when they form no
    cycle**, whatever the order of the set of names. -/
theorem eliminates_iff (hnodup : (groups.map Prod.fst).Nodup)
    (hnames : names.Perm (groups.map Prod.fst)) :
    (Elimination.run names (membersOf (edgesOf names groups))).isSome ∧
      (eliminates names (edgesOf names groups) = true ↔
        ∀ v, ¬ Relation.TransGen (Elimination.Edge (membersOf (edgesOf names groups))) v v) := by
  have hsource : ∀ name, name ∉ names → membersOf (edgesOf names groups) name = [] := by
    intro name hname
    refine membersOf_eq_nil ?_
    rw [map_fst_edgesOf]
    exact fun hmem => hname (hnames.mem_iff.2 hmem)
  have htarget : ∀ name member, member ∈ membersOf (edgesOf names groups) name →
      member ∈ names := by
    intro name member hmem
    obtain ⟨g, -, -, -, hin⟩ := (mem_membersOf_edgesOf hnodup).1 hmem
    exact hin
  obtain ⟨visited, hrun, hiff⟩ :=
    Elimination.run_eq_length_iff (hnames.nodup_iff.2 hnodup) hsource htarget
  refine ⟨by rw [hrun]; rfl, ?_⟩
  rw [eliminates, hrun, decide_eq_true_iff, Option.some.injEq]
  exact hiff

end Native

/-! ## 2. The two graphs -/

/-- A V3 group of a type other than relay, with the name of a native one and its references to
    groups. -/
structure SameGroup (names : List Str) (native : Str × List Str) (group : ProxyGroup) : Prop where
  name : group.name = native.1
  kind : group.groupType ≠ .relay
  references : groupReferences group = native.2.filter names.contains

/-- V3 groups with the names and the group references of native ones, one for one. -/
def SameGroups (natives : List (Str × List Str)) (groups : List ProxyGroup) : Prop :=
  List.Forall₂ (SameGroup (natives.map Prod.fst)) natives groups

theorem groupEdges_eq {names : List Str} {native : Str × List Str} {group : ProxyGroup}
    (h : SameGroup names native group) :
    groupEdges group = (native.2.filter names.contains).map
      fun member => (ChainVertex.group native.1, ChainVertex.group member) := by
  rw [groupEdges, if_neg h.kind, List.append_nil, h.references, h.name]

/-- The edges of the V3 graph. -/
theorem exists_groupEdges_iff {names : List Str} {natives : List (Str × List Str)}
    {groups : List ProxyGroup} (h : List.Forall₂ (SameGroup names) natives groups)
    (a b : ChainVertex) :
    (∃ g ∈ groups, (a, b) ∈ groupEdges g) ↔ ∃ n ∈ natives, ∃ member ∈ n.2, member ∈ names ∧
      a = .group n.1 ∧ b = .group member := by
  induction h with
  | nil => simp
  | cons hsame _ ih =>
    rw [List.exists_mem_cons_iff, List.exists_mem_cons_iff, ih, groupEdges_eq hsame]
    refine or_congr_left ?_
    simp only [List.mem_map, List.mem_filter, List.contains_eq_mem, decide_eq_true_eq,
      Prod.mk.injEq]
    constructor
    · intro hedge
      obtain ⟨member, ⟨hmem, hname⟩, ha, hb⟩ := hedge
      exact ⟨member, hmem, hname, ha.symm, hb.symm⟩
    · intro hedge
      obtain ⟨member, hmem, hname, ha, hb⟩ := hedge
      exact ⟨member, ⟨hmem, hname⟩, ha.symm, hb.symm⟩

/-- **An edge of the V3 graph joins two groups that the native graph joins.** -/
theorem edge_iff {names : List Str} {natives : List (Str × List Str)} {groups : List ProxyGroup}
    (hnodup : (natives.map Prod.fst).Nodup) (h : List.Forall₂ (SameGroup names) natives groups)
    (a b : ChainVertex) :
    (∃ g ∈ groups, (a, b) ∈ groupEdges g) ↔ ∃ name member, a = .group name ∧ b = .group member ∧
      Elimination.Edge (membersOf (edgesOf names natives)) name member := by
  rw [exists_groupEdges_iff h]
  constructor
  · intro hedge
    obtain ⟨n, hn, member, hmem, hname, ha, hb⟩ := hedge
    exact ⟨n.1, member, ha, hb, (mem_membersOf_edgesOf hnodup).2 ⟨n, hn, rfl, hmem, hname⟩⟩
  · intro hedge
    obtain ⟨name, member, ha, hb, hmem⟩ := hedge
    obtain ⟨n, hn, heq, hin, hname⟩ := (mem_membersOf_edgesOf hnodup).1 hmem
    exact ⟨n, hn, member, hin, hname, heq ▸ ha, hb⟩

/-- Two relations of which one is the other on the groups have cycles together. -/
theorem acyclic_iff {R : Str → Str → Prop} {S : ChainVertex → ChainVertex → Prop}
    (hS : ∀ a b, S a b ↔ ∃ name member, a = .group name ∧ b = .group member ∧ R name member) :
    (∀ v, ¬ Relation.TransGen S v v) ↔ ∀ v, ¬ Relation.TransGen R v v := by
  have hdown : ∀ {a b}, Relation.TransGen S a b →
      ∃ name member, a = .group name ∧ b = .group member ∧ Relation.TransGen R name member := by
    intro a b hpath
    induction hpath with
    | single hedge =>
      obtain ⟨name, member, ha, hb, hR⟩ := (hS _ _).1 hedge
      exact ⟨name, member, ha, hb, .single hR⟩
    | tail _ hedge ih =>
      obtain ⟨name, middle, ha, hb, hR⟩ := ih
      obtain ⟨middle', member, hb', hc, hR'⟩ := (hS _ _).1 hedge
      obtain rfl : middle = middle' := ChainVertex.group.inj (hb.symm.trans hb')
      exact ⟨name, member, ha, hc, hR.tail hR'⟩
  constructor
  · intro hacyclic name hcycle
    exact hacyclic (.group name)
      (hcycle.lift ChainVertex.group fun a b hR => (hS _ _).2 ⟨a, b, rfl, rfl, hR⟩)
  · intro hacyclic v hcycle
    obtain ⟨name, member, hv, hv', hR⟩ := hdown hcycle
    obtain rfl : name = member := ChainVertex.group.inj (hv.symm.trans hv')
    exact hacyclic name hR

/-! ## 3. The result -/

/-- **The two cycle checks agree.** For native groups with distinct names and any members, and V3
    groups that are no relays with the same names and group references, the elimination ends,
    and takes out every group exactly when `detect_cycle` finds nothing; the order in which the
    set of names is iterated does not matter. -/
theorem group_checks_agree (natives : List (Str × List Str)) (groups : List ProxyGroup)
    (names : List Str) (hnodup : (natives.map Prod.fst).Nodup)
    (hnames : names.Perm (natives.map Prod.fst)) (hsame : SameGroups natives groups) :
    (Elimination.run names (membersOf (edgesOf names natives))).isSome ∧
      (eliminates names (edgesOf names natives) = true ↔
        (ChainGraph.fromGroups groups).detectCycle = none) := by
  have hedges : edgesOf names natives = edgesOf (natives.map Prod.fst) natives := by
    refine List.map_congr_left fun n _ => congrArg (Prod.mk n.1) (List.filter_congr ?_)
    intro member _
    rw [Bool.eq_iff_iff, List.contains_iff_mem, List.contains_iff_mem, hnames.mem_iff]
  obtain ⟨hends, hiff⟩ := eliminates_iff hnodup hnames
  refine ⟨hends, ?_⟩
  rw [hiff, hedges, ChainGraph.detectCycle_eq_none_iff]
  exact (acyclic_iff (edge_iff hnodup hsame)).symm

/-- Two groups that refer to each other, the first to itself and twice to the second. -/
def loopNatives : List (Str × List Str) :=
  [("A", ["B", "DIRECT", "A", "B"]), ("B", ["A", "node"])]

/-- The same as V3 groups. -/
def loopGroups : List ProxyGroup :=
  [⟨"A", .select, [.group "B", .group "A", .node 7, .group "B"], none, none⟩,
    ⟨"B", .urlTest, [.group "A"], none, none⟩]

theorem loop_checks_agree :
    (eliminates ["B", "A"] (edgesOf ["B", "A"] loopNatives) = true ↔
      (ChainGraph.fromGroups loopGroups).detectCycle = none) := by
  refine (group_checks_agree loopNatives loopGroups ["B", "A"] (by decide) (by decide) ?_).2
  exact .cons ⟨rfl, by decide, by decide⟩ (.cons ⟨rfl, by decide, by decide⟩ .nil)

end DeveSub.Clash
