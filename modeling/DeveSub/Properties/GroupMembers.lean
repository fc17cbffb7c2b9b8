/-
  File:      DeveSub/Properties/GroupMembers.lean
  Subject:   What the parts of `materialize` come to when they succeed, whatever the budget and the
             clock.

  * `Yields` -- a computation on the budget may succeed with a result;
  * `resolveWanted_yields`, `find?_aliases` -- the aliases of a run;
  * `buildLookup_ran` -- what the groups of a run share;
  * `resolve_mem_of_yields` -- a listed name that resolves is a member, before the filters.
-/
import DeveSub.Application.ClashMembership

namespace DeveSub.ClashMembership

/-! ## 1. Success -/

section Yields

variable {α β : Type}

/-- The computation succeeds with this result, on some budget. -/
def Yields (w : Work α) (a : α) : Prop := ∃ b b', w.outcome b = (.ok a, b')

theorem yields_pure {a c : α} (h : Yields (pure a) c) : c = a := by
  obtain ⟨b, b', h⟩ := h
  exact (Except.ok.inj (Prod.mk.inj h).1).symm

theorem yields_lift {x : Except TemplateAppError α} {c : α} (h : Yields (Stateful.lift x) c) :
    x = .ok c := by
  obtain ⟨b, b', h⟩ := h
  exact (Prod.mk.inj h).1

/-- **A chain succeeds only when each link does.** -/
theorem yields_bind {w : Work α} {f : α → Work β} {c : β} (h : Yields (w >>= f) c) :
    ∃ a, Yields w a ∧ Yields (f a) c := by
  obtain ⟨b, b', h⟩ := h
  rw [Stateful.outcome_bind] at h
  cases hw : w.outcome b with
  | mk r b₁ =>
    rw [hw] at h
    cases r with
    | ok a => exact ⟨a, ⟨b, b₁, hw⟩, b₁, b', h⟩
    | error e => cases h

/-- A step whose result does not matter. -/
theorem yields_then {w : Work Unit} {v : Work α} {c : α} (h : Yields (w >>= fun _ => v) c) :
    Yields v c := by
  obtain ⟨_, -, h⟩ := yields_bind h
  exact h

theorem spend_ran {w : Work α} {b b' : Budget} {a : α} {h h' : History QueryReply}
    (hran : (spend w b).run.Ran h h' (.ok (a, b'))) : Yields w a := by
  unfold spend at hran
  cases hw : w.outcome b with
  | mk r b₁ =>
    rw [hw] at hran
    cases r with
    | ok a' =>
      obtain ⟨-, heq⟩ := hran
      obtain ⟨rfl, -⟩ := ok_pair_inj heq
      exact ⟨b, b₁, hw⟩
    | error e =>
      obtain ⟨-, heq⟩ := hran
      cases heq

end Yields

variable {S : Surroundings}

/-! ## 2. Aliases -/

section Aliases

variable {nodes : List PooledNode} {originalNames : List Str}

/-- The names that have an alias, with it, and the others. -/
theorem resolveWanted_yields {wanted : List Str} {r : List (Str × Str) × List Str}
    (h : Yields (resolveWanted S nodes originalNames wanted) r) :
    r = (wanted.filterMap fun name => (aliasOf nodes originalNames name).map fun c => (name, c),
      wanted.filter fun name => (aliasOf nodes originalNames name).isNone) := by
  induction wanted generalizing r with
  | nil => exact yields_pure h
  | cons name rest ih =>
    rw [resolveWanted] at h
    obtain ⟨r', hr', h⟩ := yields_bind (yields_then h)
    have hrest := ih hr'
    have hr := yields_pure h
    rw [hr, hrest]
    cases halias : aliasOf nodes originalNames name with
    | none => simp [halias]
    | some current => simp [halias]

/-- What stands under a name in the aliases of a list. -/
theorem find?_aliases (wanted : List Str) (name : Str) :
    ((wanted.filterMap fun n => (aliasOf nodes originalNames n).map fun c => (n, c)).find?
      fun a => a.1 = name).map Prod.snd =
      if name ∈ wanted then aliasOf nodes originalNames name else none := by
  induction wanted with
  | nil => rfl
  | cons n rest ih =>
    by_cases hn : n = name
    · subst hn
      cases halias : aliasOf nodes originalNames n with
      | none =>
        rw [List.filterMap_cons, halias, Option.map_none]
        rw [ih, halias]
        simp
      | some current => simp [halias]
    · have hmem : name ∈ n :: rest ↔ name ∈ rest := by simp [Ne.symm hn]
      simp only [hmem]
      rw [← ih]
      cases halias : aliasOf nodes originalNames n with
      | none => simp [halias]
      | some current => simp [halias, hn]

/-- What the groups of a run share: only the unavailable names depend on the pool. -/
theorem buildLookup_ran {groups : List Json} {L : Lookup} {b : Budget} {h h' : History QueryReply}
    (hran : (buildLookup S groups nodes originalNames).run.Ran h h' (.ok (L, b))) :
    L.types = typesOf nodes groups ∧ L.automatic = automaticNames nodes ∧
      ∀ name, L.aliasFor name =
        if name ∈ wantedNames (typesOf nodes groups) groups then aliasOf nodes originalNames name
        else none := by
  unfold buildLookup at hran
  obtain ⟨h₁, ⟨⟨aliases, unresolved⟩, b₁⟩, hwanted, hran⟩ := Program.Ran.bindOk hran
  obtain ⟨h₂, ⟨unavailable, b₂⟩, -, hran⟩ := Program.Ran.bindOk hran
  obtain ⟨-, heq⟩ := hran
  obtain ⟨rfl, -⟩ := ok_pair_inj heq
  refine ⟨rfl, rfl, fun name => ?_⟩
  have halias := (Prod.mk.inj (resolveWanted_yields (spend_ran hwanted))).1
  rw [Lookup.aliasFor, halias]
  exact find?_aliases _ name

end Aliases

/-! ## 3. Members -/

theorem mem_addName {names : List Str} {name x : Str} :
    x ∈ addName names name ↔ x ∈ names ∨ x = name := by
  rw [addName]
  by_cases hmem : name ∈ names
  · rw [if_pos (by simpa using hmem)]
    refine ⟨Or.inl, fun h => ?_⟩
    rcases h with h | rfl
    · exact h
    · exact hmem
  · rw [if_neg (by simpa using hmem)]
    simp

/-- Members stay while automatic ones are added. -/
theorem appendNodes_mono {included : Option (Matcher S)} {names members r : List Str}
    (h : Yields (appendNodes S included names members) r) : ∀ x ∈ members, x ∈ r := by
  induction names generalizing members with
  | nil =>
    intro x hx
    rw [yields_pure h]
    exact hx
  | cons name rest ih =>
    rw [appendNodes] at h
    obtain ⟨hit, -, h⟩ := yields_bind (yields_then h)
    intro x hx
    refine ih h x ?_
    cases hit with
    | true => exact mem_addName.2 (Or.inl hx)
    | false => exact hx

/-- What one listed name does to the members: a placeholder adds none of its own, any other name
    resolves. -/
theorem expandMembers_cons {L : Lookup} {group : Str} {included : Option (Matcher S)}
    {member : Str} {rest members notices : List Str} {r : List Str × List Str}
    (h : Yields (expandMembers S L group included (member :: rest) members notices) r) :
    ∃ members' notices', Yields (expandMembers S L group included rest members' notices') r ∧
      (∀ x ∈ members, x ∈ members') ∧
      (member ∉ clashTokens → ∃ resolved more, L.resolve group member = .ok (resolved, more) ∧
        ∀ name, resolved = some name → name ∈ members') := by
  rw [expandMembers] at h
  have h := yields_then h
  by_cases hproviders : member = "__PROXY_PROVIDERS__".toList
  · rw [if_pos hproviders] at h
    refine ⟨members, notices, h, fun _ hx => hx, fun hno => absurd ?_ hno⟩
    rw [hproviders]
    decide
  · rw [if_neg hproviders] at h
    by_cases hnodes : member = "__PROXY_NODES__".toList
    · rw [if_pos hnodes] at h
      obtain ⟨members', happend, h⟩ := yields_bind h
      refine ⟨members', notices, h, appendNodes_mono happend, fun hno => absurd ?_ hno⟩
      rw [hnodes]
      decide
    · rw [if_neg hnodes] at h
      obtain ⟨⟨resolved, more⟩, hlift, h⟩ := yields_bind h
      refine ⟨_, _, h, ?_, fun _ => ⟨resolved, more, yields_lift hlift, ?_⟩⟩
      · intro x hx
        cases resolved with
        | none => exact hx
        | some name => exact mem_addName.2 (Or.inl hx)
      · intro name hname
        subst hname
        exact mem_addName.2 (Or.inr rfl)

theorem expandMembers_mono {L : Lookup} {group : Str} {included : Option (Matcher S)}
    {listed members notices : List Str} {r : List Str × List Str}
    (h : Yields (expandMembers S L group included listed members notices) r) :
    ∀ x ∈ members, x ∈ r.1 := by
  induction listed generalizing members notices with
  | nil =>
    intro x hx
    rw [yields_pure h]
    exact hx
  | cons member rest ih =>
    obtain ⟨members', notices', hrest, hmono, -⟩ := expandMembers_cons h
    exact fun x hx => ih hrest x (hmono x hx)

/-- **A listed name that is no placeholder resolves, and what it resolves to is a member.** -/
theorem resolve_mem_of_yields {L : Lookup} {group : Str} {included : Option (Matcher S)}
    {listed members notices : List Str} {r : List Str × List Str}
    (h : Yields (expandMembers S L group included listed members notices) r) {member : Str}
    (hmem : member ∈ listed) (htoken : member ∉ clashTokens) :
    ∃ resolved more, L.resolve group member = .ok (resolved, more) ∧
      ∀ name, resolved = some name → name ∈ r.1 := by
  induction listed generalizing members notices with
  | nil => cases hmem
  | cons head rest ih =>
    obtain ⟨members', notices', hrest, -, hresolve⟩ := expandMembers_cons h
    rcases List.mem_cons.1 hmem with rfl | hmem
    · obtain ⟨resolved, more, heq, hin⟩ := hresolve htoken
      exact ⟨resolved, more, heq, fun name hname => expandMembers_mono hrest name (hin name hname)⟩
    · exact ih hrest hmem

end DeveSub.ClashMembership
