/-
  File:      DeveSub/Lib/Fallible.lean
  Subject:   Fallible code: Rust's `Result` combinators on `Except`, and what it means that a
             chain of them succeeded.
-/
import Mathlib.Data.List.Basic

namespace DeveSub

variable {ε α β : Type}

/-! ## 1. `Result` combinators -/

/-- **A chain succeeds exactly when each link does.** -/
theorem bind_eq_ok {x : Except ε α} {f : α → Except ε β} {b : β} :
    (x >>= f) = .ok b ↔ ∃ a, x = .ok a ∧ f a = .ok b := by
  cases x <;> simp [bind, Except.bind]

@[simp] theorem ok_bind (a : α) (f : α → Except ε β) : (Except.ok a >>= f) = f a := rfl

@[simp] theorem error_bind (e : ε) (f : α → Except ε β) : (Except.error e >>= f) = .error e := rfl

@[simp] theorem pure_eq_ok (a : α) : (pure a : Except ε α) = .ok a := rfl

theorem mapError_eq_ok {ε' : Type} {f : ε → ε'} {x : Except ε α} {a : α} :
    x.mapError f = .ok a ↔ x = .ok a := by
  cases x <;> simp [Except.mapError]

theorem map_eq_ok {f : α → β} {x : Except ε α} {b : β} :
    x.map f = .ok b ↔ ∃ a, x = .ok a ∧ f a = b := by
  cases x <;> simp [Except.map]

/-- What holds of every result of a computation that succeeds holds of its result. -/
theorem forall_ok_iff {x : Except ε α} {a : α} {P : α → Prop} (h : x = .ok a) :
    (∀ b, x = .ok b → P b) ↔ P a := by
  subst h
  exact ⟨fun hall => hall a rfl, fun ha b hb => Except.ok.inj hb ▸ ha⟩

theorem ok_pair_inj {a a' : α} {b b' : β} (h : (.ok (a, b) : Except ε (α × β)) = .ok (a', b')) :
    a = a' ∧ b = b' :=
  Prod.mk.inj (Except.ok.inj h)

/-- `Option::ok_or`. -/
def okOr (o : Option α) (e : ε) : Except ε α :=
  match o with
  | some a => .ok a
  | none => .error e

@[simp] theorem okOr_some (a : α) (e : ε) : okOr (some a) e = .ok a := rfl

@[simp] theorem okOr_none (e : ε) : okOr (none : Option α) e = .error e := rfl

theorem okOr_eq_ok {o : Option α} {e : ε} {a : α} : okOr o e = .ok a ↔ o = some a := by
  cases o <;> simp [okOr]

/-- `Option::transpose`: an absent value succeeds. -/
def transpose : Option (Except ε α) → Except ε (Option α)
  | none => .ok none
  | some (.ok a) => .ok (some a)
  | some (.error e) => .error e

@[simp] theorem transpose_none : transpose (none : Option (Except ε α)) = .ok none := rfl

@[simp] theorem transpose_ok (a : α) : transpose (some (.ok a : Except ε α)) = .ok (some a) := rfl

theorem transpose_map_eq_ok {γ : Type} {f : γ → Except ε α} {x : Option γ} {y : Option α}
    (h : transpose (x.map f) = .ok y) :
    y = none ∧ x = none ∨ ∃ c a, x = some c ∧ f c = .ok a ∧ y = some a := by
  cases x with
  | none => exact .inl ⟨(Except.ok.inj h).symm, rfl⟩
  | some c =>
      cases hc : f c with
      | error e => rw [Option.map_some, hc] at h; cases h
      | ok a =>
          rw [Option.map_some, hc] at h
          exact .inr ⟨c, a, rfl, hc, (Except.ok.inj h).symm⟩

/-- `if cond { return Err(e) }`. -/
def rejectWhen (cond : Bool) (e : ε) : Except ε Unit :=
  if cond then .error e else .ok ()

@[simp] theorem rejectWhen_false (e : ε) : rejectWhen false e = .ok () := rfl

theorem rejectWhen_eq_ok {cond : Bool} {e : ε} {u : Unit} :
    rejectWhen cond e = .ok u ↔ cond = false := by
  cases cond <;> simp [rejectWhen]

/-! ## 2. Success -/

/-- The computation succeeds. -/
def Succeeds (x : Except ε α) : Prop := ∃ a, x = .ok a

@[simp] theorem succeeds_ok (a : α) : Succeeds (.ok a : Except ε α) := ⟨a, rfl⟩

@[simp] theorem not_succeeds_error (e : ε) : ¬ Succeeds (.error e : Except ε α) := by
  rintro ⟨_, ⟨⟩⟩

theorem Succeeds.bind {x : Except ε α} {f : α → Except ε β} (hx : Succeeds x)
    (hf : ∀ a, x = .ok a → Succeeds (f a)) : Succeeds (x >>= f) := by
  obtain ⟨a, rfl⟩ := hx
  exact hf a rfl

/-- **A loop succeeds exactly when each turn does.** -/
theorem forM_eq_ok {f : α → Except ε Unit} {xs : List α} :
    xs.forM f = .ok () ↔ ∀ x ∈ xs, f x = .ok () := by
  induction xs with
  | nil => simp
  | cons x xs ih =>
    rw [List.forall_mem_cons, ← ih]
    change (f x >>= fun _ => xs.forM f) = .ok () ↔ _
    cases f x with
    | ok u => simp
    | error e => simp

/-- The results of a successful `mapM` come from its arguments. -/
theorem mem_of_mapM {f : α → Except ε β} {xs : List α} {ys : List β} (h : xs.mapM f = .ok ys) :
    ∀ y ∈ ys, ∃ x ∈ xs, f x = .ok y := by
  induction xs generalizing ys with
  | nil =>
      cases h
      intro y hy
      cases hy
  | cons x xs ih =>
      rw [List.mapM_cons] at h
      obtain ⟨z, hz, h⟩ := bind_eq_ok.mp h
      obtain ⟨zs, hzs, h⟩ := bind_eq_ok.mp h
      cases h
      intro y hy
      rcases List.mem_cons.mp hy with rfl | hy
      · exact ⟨x, List.mem_cons_self, hz⟩
      · obtain ⟨x', hx', hf⟩ := ih hzs y hy
        exact ⟨x', List.mem_cons_of_mem _ hx', hf⟩

/-- The results of a successful `mapM`, seen through a reader of each. -/
theorem filterMap_of_mapM {γ : Type} {f : α → Except ε β} {xs : List α} {ys : List β}
    (h : xs.mapM f = .ok ys) {read : β → Option γ} {view : α → γ}
    (hread : ∀ x y, f x = .ok y → read y = some (view x)) : ys.filterMap read = xs.map view := by
  induction xs generalizing ys with
  | nil =>
      cases h
      rfl
  | cons x xs ih =>
      rw [List.mapM_cons] at h
      obtain ⟨y, hy, h⟩ := bind_eq_ok.mp h
      obtain ⟨zs, hzs, h⟩ := bind_eq_ok.mp h
      cases h
      rw [List.filterMap_cons, hread x y hy, ih hzs, List.map_cons]

/-- **A `mapM` with one test for each argument.** -/
theorem mapM_ite {c : α → Prop} [DecidablePred c] {g : α → β} {e : ε} (xs : List α) :
    (xs.mapM fun x => if c x then Except.ok (g x) else .error e) =
      if ∀ x ∈ xs, c x then .ok (xs.map g) else .error e := by
  induction xs with
  | nil => rfl
  | cons x xs ih =>
    rw [List.mapM_cons, ih]
    by_cases hx : c x
    · by_cases hxs : ∀ y ∈ xs, c y
      · rw [if_pos hx, if_pos hxs, if_pos (List.forall_mem_cons.2 ⟨hx, hxs⟩)]
        rfl
      · rw [if_pos hx, if_neg hxs, if_neg fun h => hxs (List.forall_mem_cons.1 h).2]
        rfl
    · rw [if_neg hx, if_neg fun h => hx (List.forall_mem_cons.1 h).1]
      rfl

theorem succeeds_mapM {f : α → Except ε β} {xs : List α} (h : ∀ x ∈ xs, Succeeds (f x)) :
    Succeeds (xs.mapM f) := by
  induction xs with
  | nil => exact ⟨[], rfl⟩
  | cons x xs ih =>
      rw [List.mapM_cons]
      refine .bind (h x List.mem_cons_self) fun _ _ => .bind (ih fun y hy => ?_) fun _ _ => ?_
      · exact h y (List.mem_cons_of_mem _ hy)
      · exact succeeds_ok _

/-! ## 3. What every successful run yields -/

/-- Whatever the computation yields has the property. -/
def Yields (P : α → Prop) (x : Except ε α) : Prop := ∀ a, x = .ok a → P a

theorem Yields.ok {P : α → Prop} {a : α} (h : P a) : Yields P (.ok a : Except ε α) := by
  rintro _ ⟨⟩
  exact h

theorem Yields.error {P : α → Prop} (e : ε) : Yields P (.error e : Except ε α) := by
  rintro _ ⟨⟩

/-- The continuation may use what the computation before it answered. -/
theorem Yields.bindOk {P : β → Prop} {x : Except ε α} {f : α → Except ε β}
    (h : ∀ a, x = .ok a → Yields P (f a)) : Yields P (x >>= f) := by
  intro b hb
  obtain ⟨a, hx, ha⟩ := bind_eq_ok.mp hb
  exact h a hx b ha

theorem Yields.bind {P : β → Prop} {x : Except ε α} {f : α → Except ε β}
    (h : ∀ a, Yields P (f a)) : Yields P (x >>= f) :=
  .bindOk fun a _ => h a

theorem Yields.ite {P : α → Prop} {c : Prop} [Decidable c] {x y : Except ε α}
    (hx : Yields P x) (hy : Yields P y) : Yields P (if c then x else y) := by
  split
  · exact hx
  · exact hy

end DeveSub
