/-
  File:      DeveSub/Lib/Program.lean
  Subject:   Programs that make atomic calls on a shared store, any number of them at once.

  A program is a tree: it ends with a result, or makes one call and goes on with the reply. What
  a call may reply and do to the store is a relation, so a store that may fail, a clock and a
  random source are calls like any other. Threads are a family of programs over any index type;
  a thread that never starts, or stops half way, takes no step.

  * `Run` -- the interleavings, with the trace of calls, oldest first;
  * `Run.between` -- what every call keeps holds between two calls of a run;
  * `Run.segment` -- what the calls between two calls keep; `Run.traced` -- the same for a whole
    run, with the trace in view;
  * `Run.exec` -- a schedule that is executed is a run;
  * `Program.Safe` -- rely and guarantee for one program, with the history of its own calls;
  * `Program.Safe.bind`, `Program.Safe.bindOk` -- one program after another, also when it may fail;
  * `Run.safe`, `Run.guarantee`, `Run.invariant` -- the rules for a whole run;
  * `Program.Follows`, `Run.follows`, `Run.follows_done` -- the same for what a program does
    whatever the store answers.
-/
import Mathlib.Logic.Function.Basic
import Mathlib.Data.List.Basic
import Mathlib.Data.List.Induction

namespace DeveSub

variable {Call : Type} {Reply : Call → Type} {σ ρ ρ' ι : Type}

/-! ## 1. Programs -/

/-- A program: it is done, or makes a call and goes on with the reply. -/
inductive Program (Reply : Call → Type) (ρ : Type) where
  | done (result : ρ)
  | call (c : Call) (next : Reply c → Program Reply ρ)

namespace Program

/-- One program after the other. -/
def bind : Program Reply ρ → (ρ → Program Reply ρ') → Program Reply ρ'
  | .done r, f => f r
  | .call c next, f => .call c fun a => (next a).bind f

instance : Monad (Program Reply) where
  pure := .done
  bind := bind

/-- The program of a single call. -/
def perform (c : Call) : Program Reply (Reply c) := .call c .done

@[simp] theorem pure_eq (r : ρ) : (pure r : Program Reply ρ) = .done r := rfl

@[simp] theorem done_bind (r : ρ) (f : ρ → Program Reply ρ') :
    (Program.done r >>= f) = f r := rfl

@[simp] theorem call_bind (c : Call) (next : Reply c → Program Reply ρ)
    (f : ρ → Program Reply ρ') :
    (Program.call c next >>= f) = .call c fun a => next a >>= f := rfl

@[simp] theorem perform_bind (c : Call) (f : Reply c → Program Reply ρ') :
    (perform c >>= f) = .call c f := rfl

/-- What a program answers when every call is answered by one fixed function. -/
def eval (answer : (c : Call) → Reply c) : Program Reply ρ → ρ
  | .done r => r
  | .call c next => (next (answer c)).eval answer

end Program

/-! ## 2. Interleavings -/

/-- What the store may answer a call with, and what it then is. -/
abbrev Semantics (Reply : Call → Type) (σ : Type) := (c : Call) → σ → Reply c → σ → Prop

/-- A call of a run: who made it, what came back, and the store around it. -/
structure Event (Reply : Call → Type) (σ ι : Type) where
  thread : ι
  call : Call
  reply : Reply call
  before : σ
  after : σ

/-- The event is this call with this reply. -/
def Event.Is (e : Event Reply σ ι) (c : Call) (a : Reply c) : Prop :=
  (⟨e.call, e.reply⟩ : (c : Call) × Reply c) = ⟨c, a⟩

theorem Event.Is.call_eq {e : Event Reply σ ι} {c : Call} {a : Reply c} (h : e.Is c a) :
    e.call = c :=
  congrArg Sigma.fst h

/-- The store and what is left of each thread. -/
structure Config (Reply : Call → Type) (σ ι ρ : Type) where
  store : σ
  threads : ι → Program Reply ρ

/-- The calls a thread has made, with their replies, newest first. -/
abbrev History (Reply : Call → Type) := List ((c : Call) × Reply c)

/-- Two events of a trace in their order, with what lies before the second. -/
theorem exists_append_of_pair {α : Type} {d e : α} {es : List α} (h : [d, e].Sublist es) :
    ∃ pre post, es = pre ++ e :: post ∧ d ∈ pre := by
  obtain ⟨l₁, l₂, rfl, hd, he⟩ := List.cons_sublist_iff.1 h
  obtain ⟨mid, post, rfl⟩ := List.append_of_mem (List.singleton_sublist.1 he)
  exact ⟨l₁ ++ mid, post, (List.append_assoc ..).symm, List.mem_append_left _ hd⟩

/-- Two different events of a trace come in some order. -/
theorem pair_or_pair {α : Type} {d e : α} {es : List α} (hd : d ∈ es) (he : e ∈ es) (hne : d ≠ e) :
    [d, e].Sublist es ∨ [e, d].Sublist es := by
  obtain ⟨pre, post, rfl⟩ := List.append_of_mem hd
  rcases List.mem_append.1 he with he | he
  · exact .inr ((List.singleton_sublist.2 he).append (List.singleton_sublist.2 List.mem_cons_self))
  · rcases List.mem_cons.1 he with rfl | he
    · exact absurd rfl hne
    · exact .inl (((List.singleton_sublist.2 he).cons_cons d).trans (List.sublist_append_right pre _))

theorem pair_sublist {α : Type} {d e : α} {pre post : List α} (hd : d ∈ pre) :
    [d, e].Sublist (pre ++ e :: post) :=
  (List.singleton_sublist.2 hd).append (List.singleton_sublist.2 List.mem_cons_self)

/-- A list around one of its places. -/
theorem eq_take_append_of_getElem? {α : Type} {l : List α} {k : Nat} {x : α} (h : l[k]? = some x) :
    l = l.take k ++ x :: l.drop (k + 1) := by
  obtain ⟨hk, rfl⟩ := List.getElem?_eq_some_iff.1 h
  rw [← List.drop_eq_getElem_cons hk, List.take_append_drop]

theorem pair_of_getElem? {α : Type} {es : List α} {i j : Nat} {d e : α} (hij : i < j)
    (hd : es[i]? = some d) (he : es[j]? = some e) : [d, e].Sublist es := by
  have hmem : d ∈ es.take j := by
    obtain ⟨hj, -⟩ := List.getElem?_eq_some_iff.1 he
    obtain ⟨hi, hd⟩ := List.getElem?_eq_some_iff.1 hd
    exact List.mem_take_iff_getElem.2 ⟨i, by omega, hd⟩
  rw [eq_take_append_of_getElem? he]
  exact pair_sublist hmem

/-- Of two places in a list, one comes after the other. -/
theorem append_cons_after {α : Type} {pre rest pre' rest' : List α} {d m : α}
    (h : pre ++ d :: rest = pre' ++ m :: rest') (hne : d ≠ m) (hd : d ∉ rest') :
    ∃ u, rest = u ++ m :: rest' := by
  rcases List.append_eq_append_iff.1 h with ⟨l, -, hq⟩ | ⟨l, -, hq⟩
  · cases l with
    | nil => exact absurd (List.cons.inj hq).1 hne
    | cons x l => exact ⟨l, (List.cons.inj hq).2⟩
  · cases l with
    | nil => exact absurd (List.cons.inj hq).1.symm hne
    | cons x l =>
      obtain ⟨rfl, rfl⟩ := List.cons.inj hq
      exact absurd (List.mem_append_cons_self) hd

section Runs

variable [DecidableEq ι] {sem : Semantics Reply σ}

/-- **The runs**: at each step some thread makes its next call. The trace is oldest first. -/
inductive Run (sem : Semantics Reply σ) (start : Config Reply σ ι ρ) :
    List (Event Reply σ ι) → Config Reply σ ι ρ → Prop where
  | start : Run sem start [] start
  | step {es c} (i : ι) (op : Call) (next : Reply op → Program Reply ρ) (a : Reply op) (s' : σ)
      (h : Run sem start es c) (hi : c.threads i = .call op next)
      (hs : sem op c.store a s') :
      Run sem start (es ++ [⟨i, op, a, c.store, s'⟩]) ⟨s', Function.update c.threads i (next a)⟩

/-- What a thread did in a trace, newest first. -/
def own (i : ι) (es : List (Event Reply σ ι)) : History Reply :=
  (es.filter (·.thread = i)).reverse.map fun e => ⟨e.call, e.reply⟩

@[simp] theorem own_nil (i : ι) : own i ([] : List (Event Reply σ ι)) = [] := rfl

theorem own_snoc_self (e : Event Reply σ ι) (es : List (Event Reply σ ι)) :
    own e.thread (es ++ [e]) = ⟨e.call, e.reply⟩ :: own e.thread es := by
  simp [own]

theorem own_snoc_of_ne {i : ι} {e : Event Reply σ ι} (h : e.thread ≠ i)
    (es : List (Event Reply σ ι)) : own i (es ++ [e]) = own i es := by
  simp [own, h]

/-- A call of a thread's history is an event of the trace. -/
theorem mem_own {i : ι} {es : List (Event Reply σ ι)} {x : (c : Call) × Reply c} :
    x ∈ own i es ↔ ∃ e ∈ es, e.thread = i ∧ ⟨e.call, e.reply⟩ = x := by
  simp [own, and_assoc]

theorem own_subset_append (i : ι) (es fs : List (Event Reply σ ι)) : own i es ⊆ own i (es ++ fs) := by
  intro x hx
  obtain ⟨e, he, hx⟩ := mem_own.1 hx
  exact mem_own.2 ⟨e, List.mem_append_left _ he, hx⟩

/-- Where a call of a thread's history stands in the trace. -/
theorem own_eq_append_cons {i : ι} {es : List (Event Reply σ ι)} {x : (c : Call) × Reply c}
    {later earlier : History Reply} (h : own i es = later ++ x :: earlier) :
    ∃ pre e post, es = pre ++ e :: post ∧ e.thread = i ∧ ⟨e.call, e.reply⟩ = x ∧
      own i pre = earlier := by
  induction es using List.reverseRecOn generalizing later with
  | nil => simp at h
  | append_singleton es e ih =>
    by_cases hi : e.thread = i
    · subst hi
      rw [own_snoc_self] at h
      cases later with
      | nil =>
        obtain ⟨hx, hrest⟩ := List.cons.inj h
        exact ⟨es, e, [], rfl, rfl, hx, hrest⟩
      | cons y later =>
        obtain ⟨pre, d, post, rfl, hd⟩ := ih (List.cons.inj h).2
        exact ⟨pre, d, post ++ [e], by simp, hd⟩
    · rw [own_snoc_of_ne hi] at h
      obtain ⟨pre, d, post, rfl, hd⟩ := ih h
      exact ⟨pre, d, post ++ [e], by simp, hd⟩

/-- The newest of some calls of a thread's history, with the others before it. -/
theorem sublist_own_cons {i : ι} {es : List (Event Reply σ ι)} {x : (c : Call) × Reply c}
    {calls : History Reply} (h : (x :: calls).Sublist (own i es)) :
    ∃ pre e post, es = pre ++ e :: post ∧ e.thread = i ∧ ⟨e.call, e.reply⟩ = x ∧
      calls.Sublist (own i pre) := by
  obtain ⟨r₁, r₂, hown, hx, hcalls⟩ := List.cons_sublist_iff.1 h
  obtain ⟨u, v, rfl⟩ := List.append_of_mem hx
  rw [List.append_assoc, List.cons_append] at hown
  obtain ⟨pre, e, post, hes, hthread, heq, hpre⟩ := own_eq_append_cons hown
  refine ⟨pre, e, post, hes, hthread, heq, ?_⟩
  rw [hpre]
  exact hcalls.trans (List.sublist_append_right v r₂)

variable {start : Config Reply σ ι ρ} {es : List (Event Reply σ ι)} {c : Config Reply σ ι ρ}

/-- **Every event of a run is a step of the store.** -/
theorem Run.sem_of_mem (h : Run sem start es c) {e : Event Reply σ ι} (he : e ∈ es) :
    sem e.call e.before e.reply e.after := by
  induction h with
  | start => cases he
  | step i op next a s' _ _ hs ih =>
    rcases List.mem_append.1 he with he | he
    · exact ih he
    · rw [List.mem_singleton.1 he]
      exact hs

theorem Run.sem_of_is (h : Run sem start es c) {e : Event Reply σ ι} (he : e ∈ es) {op : Call}
    {a : Reply op} (hop : e.Is op a) : sem op e.before a e.after := by
  have hsem := h.sem_of_mem he
  obtain ⟨i, op', a', before, after⟩ := e
  cases hop
  exact hsem

/-- The part of a run before an event is a run that ends where the event starts. -/
theorem Run.upTo (h : Run sem start es c) {pre post : List (Event Reply σ ι)}
    {e : Event Reply σ ι} (hes : es = pre ++ e :: post) :
    ∃ c', Run sem start pre c' ∧ c'.store = e.before := by
  induction h generalizing post with
  | start => simp at hes
  | @step es' c' i op next a s' hrun hi hs ih =>
    rcases List.eq_nil_or_concat post with rfl | ⟨post', x, rfl⟩
    · obtain ⟨rfl, hx⟩ := List.append_inj' hes rfl
      rw [List.cons.injEq] at hx
      exact ⟨c', hrun, by rw [← hx.1]⟩
    · rw [List.concat_eq_append, ← List.cons_append, ← List.append_assoc] at hes
      exact ih (List.append_inj' hes rfl).1

/-- **A property every call keeps is an invariant of runs.** -/
theorem Run.always {I : σ → Prop} (h : Run sem start es c)
    (hstep : ∀ op s a s', I s → sem op s a s' → I s') (h0 : I start.store) : I c.store := by
  induction h with
  | start => exact h0
  | step i op next a s' _ _ hs ih => exact hstep _ _ _ _ ih hs

theorem Run.always_before {I : σ → Prop} (h : Run sem start es c)
    (hstep : ∀ op s a s', I s → sem op s a s' → I s') (h0 : I start.store)
    {e : Event Reply σ ι} (he : e ∈ es) : I e.before := by
  obtain ⟨pre, post, hes⟩ := List.append_of_mem he
  obtain ⟨c', hrun, hstore⟩ := h.upTo hes
  rw [← hstore]
  exact hrun.always hstep h0

/-- **What holds of trace and store at the start, and is kept by every call, always holds.** -/
theorem Run.traced {I : List (Event Reply σ ι) → σ → Prop} (h : Run sem start es c)
    (h0 : I [] start.store)
    (hstep : ∀ (pre : List (Event Reply σ ι)) (e : Event Reply σ ι) (post : List (Event Reply σ ι)),
      es = pre ++ e :: post → I pre e.before → I (pre ++ [e]) e.after) : I es c.store := by
  induction h with
  | start => exact h0
  | @step es' c' i op next a s' hrun hi hs ih =>
    refine hstep es' ⟨i, op, a, c'.store, s'⟩ [] rfl (ih fun pre e post hes => ?_)
    exact hstep pre e (post ++ [_]) (by rw [hes, List.append_assoc, List.cons_append])

theorem Run.traced_before {I : List (Event Reply σ ι) → σ → Prop} (h : Run sem start es c)
    (h0 : I [] start.store)
    (hstep : ∀ (pre : List (Event Reply σ ι)) (e : Event Reply σ ι) (post : List (Event Reply σ ι)),
      es = pre ++ e :: post → I pre e.before → I (pre ++ [e]) e.after)
    {pre : List (Event Reply σ ι)} {e : Event Reply σ ι} {post : List (Event Reply σ ι)}
    (hes : es = pre ++ e :: post) : I pre e.before := by
  obtain ⟨c', hrun, hstore⟩ := h.upTo hes
  rw [← hstore]
  refine hrun.traced h0 fun pre' d post' hpre => ?_
  exact hstep pre' d (post' ++ e :: post) (by rw [hes, hpre, List.append_assoc, List.cons_append])

/-- The store one call leaves is the store the next one finds. -/
theorem Run.next (h : Run sem start es c) {pre : List (Event Reply σ ι)} {d e : Event Reply σ ι}
    {post : List (Event Reply σ ι)} (hes : es = pre ++ d :: e :: post) : d.after = e.before := by
  have hsplit : es = (pre ++ [d]) ++ e :: post := by rw [hes, List.append_assoc, List.singleton_append]
  obtain ⟨c', hrun, hstore⟩ := h.upTo hsplit
  rw [← hstore]
  cases hx : pre ++ [d] with
  | nil => simp at hx
  | cons x xs =>
    generalize hd : pre ++ [d] = ds at hrun
    cases hrun with
    | start => simp at hd
    | step i op next a s' _ _ _ =>
      obtain ⟨-, hlast⟩ := List.append_inj' hd rfl
      rw [(List.cons.inj hlast).1]

/-- **What every call between two calls keeps.** -/
theorem Run.segment {R : σ → σ → Prop} (h : Run sem start es c) (hrefl : ∀ s, R s s)
    (htrans : ∀ s t u, R s t → R t u → R s u) {d e : Event Reply σ ι}
    {pre mid post : List (Event Reply σ ι)} (hes : es = pre ++ d :: (mid ++ e :: post))
    (hmid : ∀ x ∈ mid, R x.before x.after) : R d.after e.before := by
  induction mid generalizing pre d with
  | nil =>
    rw [h.next hes]
    exact hrefl _
  | cons x mid ih =>
    have hnext : d.after = x.before := h.next (by rw [hes, List.cons_append])
    have hx := hmid x List.mem_cons_self
    rw [← hnext] at hx
    have hrest : es = (pre ++ [d]) ++ x :: (mid ++ e :: post) := by
      rw [hes, List.append_assoc, List.singleton_append, List.cons_append]
    exact htrans _ _ _ hx (ih hrest fun y hy => hmid y (List.mem_cons_of_mem _ hy))

section Order

variable {R : σ → σ → Prop} (hrefl : ∀ s, R s s) (htrans : ∀ s t u, R s t → R t u → R s u)
  (hstep : ∀ op s a s', sem op s a s' → R s s')

include hrefl htrans hstep

theorem Run.mono_after (h : Run sem start es c) {d : Event Reply σ ι} (hd : d ∈ es) :
    R d.after c.store := by
  induction h with
  | start => cases hd
  | step i op next a s' _ _ hs ih =>
    rcases List.mem_append.1 hd with hd | hd
    · exact htrans _ _ _ (ih hd) (hstep _ _ _ _ hs)
    · rw [List.mem_singleton.1 hd]
      exact hrefl _

/-- **Between two calls of a run the store has moved along the preorder.** -/
theorem Run.between (h : Run sem start es c) {d e : Event Reply σ ι}
    (hde : [d, e].Sublist es) : R d.after e.before := by
  induction h with
  | start => cases hde
  | @step es' c' i op next a s' hrun _ _ ih =>
    obtain ⟨l₁, l₂, hl, h₁, h₂⟩ := List.sublist_append_iff.1 hde
    cases l₂ with
    | nil =>
      rw [List.append_nil] at hl
      exact ih (hl ▸ h₁)
    | cons x l₂ =>
      obtain ⟨rfl, rfl⟩ : x = ⟨i, op, a, c'.store, s'⟩ ∧ l₂ = [] := by
        simpa using List.sublist_singleton.1 h₂
      obtain ⟨rfl, he⟩ := List.append_inj' (show [d] ++ [e] = l₁ ++ [_] from hl) rfl
      rw [(List.cons.inj he).1]
      exact hrun.mono_after hrefl htrans hstep (by simpa using h₁)

end Order

end Runs

/-! ## 3. Running a schedule -/

section Schedules

variable [DecidableEq ι]

/-- Who made the call, which, and what came back. -/
def Event.view (e : Event Reply σ ι) : ι × ((c : Call) × Reply c) := (e.thread, ⟨e.call, e.reply⟩)

omit [DecidableEq ι] in
/-- The event at a place of a trace. -/
theorem event_at {es : List (Event Reply σ ι)} {k : Nat} {i : ι} {c : Call} {a : Reply c}
    (h : es[k]?.map Event.view = some (i, ⟨c, a⟩)) :
    ∃ e, es[k]? = some e ∧ es = es.take k ++ e :: es.drop (k + 1) ∧ e.thread = i ∧ e.Is c a := by
  obtain ⟨e, he, hview⟩ := Option.map_eq_some_iff.1 h
  obtain ⟨hthread, his⟩ := Prod.mk.inj hview
  exact ⟨e, he, eq_take_append_of_getElem? he, hthread, his⟩

/-- An event at an earlier place is in its thread's history. -/
theorem mem_own_take {es : List (Event Reply σ ι)} {j k : Nat} (hjk : j < k) {i : ι}
    {x : (c : Call) × Reply c} (h : es[j]?.map Event.view = some (i, x)) : x ∈ own i (es.take k) := by
  obtain ⟨e, he, hview⟩ := Option.map_eq_some_iff.1 h
  obtain ⟨hthread, his⟩ := Prod.mk.inj hview
  obtain ⟨hj, rfl⟩ := List.getElem?_eq_some_iff.1 he
  exact mem_own.2 ⟨es[j], List.mem_take_iff_getElem.2 ⟨j, by omega, rfl⟩, hthread, his⟩

/-- One turn of a schedule: who moves, and how the store answers. -/
structure Turn (Reply : Call → Type) (σ ι : Type) where
  thread : ι
  answer : (c : Call) → σ → Reply c × σ

/-- Runs a schedule; a turn of a thread that is done changes nothing. -/
def Config.exec (c : Config Reply σ ι ρ) :
    List (Turn Reply σ ι) → List (Event Reply σ ι) × Config Reply σ ι ρ
  | [] => ([], c)
  | t :: ts =>
    match c.threads t.thread with
    | .done _ => c.exec ts
    | .call op next =>
      let (a, s') := t.answer op c.store
      let (es, c') := Config.exec ⟨s', Function.update c.threads t.thread (next a)⟩ ts
      (⟨t.thread, op, a, c.store, s'⟩ :: es, c')

/-- **A schedule whose answers the store may give is a run.** -/
theorem Run.exec {sem : Semantics Reply σ} {start : Config Reply σ ι ρ}
    {es : List (Event Reply σ ι)} {c : Config Reply σ ι ρ} (h : Run sem start es c)
    (ts : List (Turn Reply σ ι))
    (hts : ∀ t ∈ ts, ∀ op s, sem op s (t.answer op s).1 (t.answer op s).2) :
    Run sem start (es ++ (c.exec ts).1) (c.exec ts).2 := by
  induction ts generalizing es c with
  | nil =>
    rw [Config.exec, List.append_nil]
    exact h
  | cons t ts ih =>
    have hrest := fun t' ht' => hts t' (List.mem_cons_of_mem _ ht')
    rw [Config.exec]
    cases hop : c.threads t.thread with
    | done r => exact ih h hrest
    | call op next =>
      have hstep := ih (h.step t.thread op next _ _ hop (hts t List.mem_cons_self op c.store)) hrest
      rw [List.append_assoc, List.singleton_append] at hstep
      exact hstep

/-- **What is executed from the start is a run.** -/
theorem Config.run_exec {sem : Semantics Reply σ} (start : Config Reply σ ι ρ)
    (ts : List (Turn Reply σ ι))
    (hts : ∀ t ∈ ts, ∀ op s, sem op s (t.answer op s).1 (t.answer op s).2) :
    Run sem start (start.exec ts).1 (start.exec ts).2 :=
  Run.start.exec ts hts

end Schedules

/-! ## 4. Rely and guarantee -/

/-- **Rely and guarantee.** Before each of its calls, and after its end, the others may move the
    store along `rely`. Whatever they do and whatever the replies are, each call it makes meets
    `guar`, and its result meets `post`. Both may speak of the calls it made before. -/
def Program.Safe (sem : Semantics Reply σ) (rely : σ → σ → Prop)
    (guar : History Reply → Call → σ → Prop) (post : History Reply → ρ → σ → Prop) :
    Program Reply ρ → History Reply → σ → Prop
  | .done r, h, s => ∀ s', rely s s' → post h r s'
  | .call c next, h, s => ∀ s', rely s s' → guar h c s' ∧
      ∀ a s'', sem c s' a s'' → (next a).Safe sem rely guar post (⟨c, a⟩ :: h) s''

namespace Program

variable {sem : Semantics Reply σ} {rely : σ → σ → Prop} {guar : History Reply → Call → σ → Prop}
  {post : History Reply → ρ → σ → Prop} {post' : History Reply → ρ' → σ → Prop}

/-- The others cannot break a safe program. -/
theorem Safe.stable (htrans : ∀ s t u, rely s t → rely t u → rely s u) {p : Program Reply ρ}
    {h : History Reply} {s s' : σ} (hp : p.Safe sem rely guar post h s) (hs : rely s s') :
    p.Safe sem rely guar post h s' := by
  cases p with
  | done r => exact fun t ht => hp t (htrans _ _ _ hs ht)
  | call c next => exact fun t ht => hp t (htrans _ _ _ hs ht)

/-- The rule for one program after the other. -/
theorem Safe.bind {p : Program Reply ρ} {f : ρ → Program Reply ρ'} {h : History Reply} {s : σ}
    (hrefl : ∀ s, rely s s) (hp : p.Safe sem rely guar post h s)
    (hf : ∀ h' r s', post h' r s' → (f r).Safe sem rely guar post' h' s') :
    (p >>= f).Safe sem rely guar post' h s := by
  induction p generalizing h s with
  | done r => exact hf h r s (hp s (hrefl s))
  | call c next ih =>
    intro t ht
    exact ⟨(hp t ht).1, fun a u hu => ih a ((hp t ht).2 a u hu)⟩

/-- A weaker conclusion. -/
theorem Safe.weaken {post₂ : History Reply → ρ → σ → Prop} {p : Program Reply ρ}
    {h : History Reply} {s : σ} (hp : p.Safe sem rely guar post h s)
    (himp : ∀ h' r s', post h' r s' → post₂ h' r s') : p.Safe sem rely guar post₂ h s := by
  induction p generalizing h s with
  | done r => exact fun t ht => himp _ _ _ (hp t ht)
  | call c next ih => exact fun t ht => ⟨(hp t ht).1, fun a u hu => ih a ((hp t ht).2 a u hu)⟩

/-- Every call a program may make is of a kind. -/
def Calls (kind : Call → Prop) : Program Reply ρ → Prop
  | .done _ => True
  | .call c next => kind c ∧ ∀ a, (next a).Calls kind

/-- A program whose calls are always allowed is safe. -/
theorem Calls.safe {kind : Call → Prop} {p : Program Reply ρ} (hp : p.Calls kind)
    (hkind : ∀ h c s, kind c → guar h c s) (h : History Reply) (s : σ) :
    p.Safe sem rely guar (fun _ _ _ => True) h s := by
  induction p generalizing h s with
  | done r => exact fun _ _ => trivial
  | call c next ih => exact fun t _ => ⟨hkind h c t hp.1, fun a u _ => ih a (hp.2 a) _ u⟩

/-- The rule for programs that may fail: nothing is promised of an error. -/
theorem Safe.bindOk {ε α β : Type} {p : ExceptT ε (Program Reply) α}
    {f : α → ExceptT ε (Program Reply) β} {Q : History Reply → α → σ → Prop}
    {Q' : History Reply → β → σ → Prop} {h : History Reply} {s : σ} (hrefl : ∀ s, rely s s)
    (hp : Safe sem rely guar (fun h r s => ∀ a, r = .ok a → Q h a s) p.run h s)
    (hf : ∀ h' a s', Q h' a s' →
      Safe sem rely guar (fun h r s => ∀ b, r = .ok b → Q' h b s) (f a).run h' s') :
    Safe sem rely guar (fun h r s => ∀ b, r = .ok b → Q' h b s) (p >>= f).run h s := by
  refine Safe.bind hrefl hp fun h' r s' hr => ?_
  cases r with
  | ok a => exact hf h' a s' (hr a rfl)
  | error e =>
    intro t _ b hb
    cases hb

end Program

/-- The calls of a program and its result, whatever the store answers. -/
def Program.Follows (guar : History Reply → Call → Prop) (post : History Reply → ρ → Prop) :
    Program Reply ρ → History Reply → Prop
  | .done r, h => post h r
  | .call c next, h => guar h c ∧ ∀ a, (next a).Follows guar post (⟨c, a⟩ :: h)

namespace Program

variable {sem : Semantics Reply σ} {rely : σ → σ → Prop} {guar : History Reply → Call → Prop}

theorem Follows.bind {post : History Reply → ρ → Prop} {post' : History Reply → ρ' → Prop}
    {p : Program Reply ρ} {f : ρ → Program Reply ρ'} {h : History Reply}
    (hp : p.Follows guar post h) (hf : ∀ h' r, post h' r → (f r).Follows guar post' h') :
    (p >>= f).Follows guar post' h := by
  induction p generalizing h with
  | done r => exact hf h r hp
  | call c next ih => exact ⟨hp.1, fun a => ih a (hp.2 a)⟩

theorem Follows.weaken {post post' : History Reply → ρ → Prop} {p : Program Reply ρ}
    {h : History Reply} (hp : p.Follows guar post h) (himp : ∀ h' r, post h' r → post' h' r) :
    p.Follows guar post' h := by
  induction p generalizing h with
  | done r => exact himp h r hp
  | call c next ih => exact ⟨hp.1, fun a => ih a (hp.2 a)⟩

/-- The history only grows. -/
theorem Follows.grows {post : History Reply → ρ → Prop} {p : Program Reply ρ} {h : History Reply}
    (hp : p.Follows guar post h) : p.Follows guar (fun h' r => post h' r ∧ h <:+ h') h := by
  induction p generalizing h with
  | done r => exact ⟨hp, List.suffix_refl h⟩
  | call c next ih =>
    refine ⟨hp.1, fun a => (ih a (hp.2 a)).weaken fun h' r hr => ⟨hr.1, ?_⟩⟩
    exact (List.suffix_cons _ h).trans hr.2

/-- A program whose calls are all of a kind, as a protocol. -/
theorem Calls.follows {kind : Call → Prop} {p : Program Reply ρ} (hp : p.Calls kind)
    (h : History Reply) : p.Follows (fun _ c => kind c) (fun _ _ => True) h := by
  induction p generalizing h with
  | done r => trivial
  | call c next ih => exact ⟨hp.1, fun a => ih a (hp.2 a) _⟩

/-- The program may end so: with these calls and replies, and this result. -/
def Ran : Program Reply ρ → History Reply → History Reply → ρ → Prop
  | .done r, h, h', r' => h' = h ∧ r' = r
  | .call c next, h, h', r' => ∃ a, (next a).Ran (⟨c, a⟩ :: h) h' r'

theorem Follows.ran {post : History Reply → ρ → Prop} {p : Program Reply ρ} {h h' : History Reply}
    {r : ρ} (hp : p.Follows guar post h) (hran : p.Ran h h' r) : post h' r := by
  induction p generalizing h with
  | done r' =>
    obtain ⟨rfl, rfl⟩ := hran
    exact hp
  | call c next ih =>
    obtain ⟨a, ha⟩ := hran
    exact ih a (hp.2 a) ha

theorem Ran.subset {p : Program Reply ρ} {h h' : History Reply} {r : ρ} (hran : p.Ran h h' r) :
    h ⊆ h' := by
  induction p generalizing h with
  | done r' => rw [hran.1]; exact List.Subset.refl h
  | call c next ih =>
    obtain ⟨a, ha⟩ := hran
    exact (List.cons_subset.1 (ih a ha)).2

/-- A chain of two programs ends with the second. -/
theorem Ran.bind {p : Program Reply ρ} {f : ρ → Program Reply ρ'} {h h' : History Reply} {r : ρ'}
    (hran : (p >>= f).Ran h h' r) : ∃ h₁ a, p.Ran h h₁ a ∧ (f a).Ran h₁ h' r := by
  induction p generalizing h with
  | done a => exact ⟨h, a, ⟨rfl, rfl⟩, hran⟩
  | call c next ih =>
    obtain ⟨a, ha⟩ := hran
    obtain ⟨h₁, b, hp, hf⟩ := ih a ha
    exact ⟨h₁, b, ⟨a, hp⟩, hf⟩

section Fallible

variable {ε α β : Type} {failed : History Reply → Prop} {Q : History Reply → α → Prop}
  {Q' : History Reply → β → Prop} {h : History Reply}

/-- One call of a program that may fail, with its reply turned into a result. -/
def ask (c : Call) (f : Reply c → Except ε α) : ExceptT ε (Program Reply) α :=
  ExceptT.mk (.call c fun a => .done (f a))

/-- A step without a call of a program that may fail. -/
def lift (x : Except ε α) : ExceptT ε (Program Reply) α := ExceptT.mk (.done x)

/-- A program that may fail, with its failure as a value. -/
def attempt {ε' : Type} (p : ExceptT ε (Program Reply) α) :
    ExceptT ε' (Program Reply) (Except ε α) :=
  ExceptT.mk (p.run >>= fun r => .done (.ok r))

/-- A chain of programs that may fail succeeds only when each link does. -/
theorem Ran.bindOk {p : ExceptT ε (Program Reply) α} {f : α → ExceptT ε (Program Reply) β}
    {h h' : History Reply} {b : β} (hran : (p >>= f).run.Ran h h' (.ok b)) :
    ∃ h₁ a, p.run.Ran h h₁ (.ok a) ∧ (f a).run.Ran h₁ h' (.ok b) := by
  obtain ⟨h₁, r, hp, hf⟩ := Ran.bind hran
  cases r with
  | ok a => exact ⟨h₁, a, hp, hf⟩
  | error e =>
    obtain ⟨-, heq⟩ := hf
    cases heq

/-- How a program that may fail ends. -/
def Ends (failed : History Reply → Prop) (Q : History Reply → α → Prop) (h : History Reply) :
    Except ε α → Prop
  | .ok a => Q h a
  | .error _ => failed h

theorem Follows.bindOk {p : ExceptT ε (Program Reply) α} {f : α → ExceptT ε (Program Reply) β}
    (hp : p.run.Follows guar (Ends failed Q) h)
    (hf : ∀ h' a, Q h' a → (f a).run.Follows guar (Ends failed Q') h') :
    (p >>= f).run.Follows guar (Ends failed Q') h := by
  refine Follows.bind hp fun h' r hr => ?_
  cases r with
  | ok a => exact hf h' a hr
  | error e => exact hr

/-- The rule for programs that may fail, with the error in view. -/
theorem Follows.bindExcept {post : History Reply → Except ε α → Prop}
    {post' : History Reply → Except ε β → Prop} {p : ExceptT ε (Program Reply) α}
    {f : α → ExceptT ε (Program Reply) β} (hp : p.run.Follows guar post h)
    (hok : ∀ h' a, post h' (.ok a) → (f a).run.Follows guar post' h')
    (herr : ∀ h' e, post h' (.error e) → post' h' (.error e)) :
    (p >>= f).run.Follows guar post' h := by
  refine Follows.bind hp fun h' r hr => ?_
  cases r with
  | ok a => exact hok h' a hr
  | error e => exact herr h' e hr

theorem follows_ask_then {post : History Reply → Except ε β → Prop} {c : Call}
    {f : Reply c → Except ε α} {g : α → ExceptT ε (Program Reply) β} (hc : guar h c)
    (hok : ∀ a b, f a = .ok b → (g b).run.Follows guar post (⟨c, a⟩ :: h))
    (herr : ∀ a e, f a = .error e → post (⟨c, a⟩ :: h) (.error e)) :
    (ask c f >>= g).run.Follows guar post h := by
  have hfirst : (ask c f).run.Follows guar (fun h' r => ∃ a, f a = r ∧ h' = ⟨c, a⟩ :: h) h :=
    ⟨hc, fun a => ⟨a, rfl, rfl⟩⟩
  refine hfirst.bindExcept (fun h' b hb => ?_) fun h' e he => ?_
  · obtain ⟨a, ha, rfl⟩ := hb
    exact hok a b ha
  · obtain ⟨a, ha, rfl⟩ := he
    exact herr a e ha

theorem follows_lift_then {post : History Reply → Except ε β → Prop} {x : Except ε α}
    {g : α → ExceptT ε (Program Reply) β} (hok : ∀ b, x = .ok b → (g b).run.Follows guar post h)
    (herr : ∀ e, x = .error e → post h (.error e)) : (lift x >>= g).run.Follows guar post h := by
  cases x with
  | ok b => exact hok b rfl
  | error e => exact herr e rfl

theorem follows_ask {c : Call} {f : Reply c → Except ε α} (hc : guar h c)
    (hf : ∀ a, Ends failed Q (⟨c, a⟩ :: h) (f a)) :
    (ask c f).run.Follows guar (Ends failed Q) h :=
  ⟨hc, hf⟩

theorem follows_lift {x : Except ε α} (hx : Ends failed Q h x) :
    (lift x : ExceptT ε (Program Reply) α).run.Follows guar (Ends failed Q) h :=
  hx

theorem ends_of {x : Except ε α} (hok : ∀ a, x = .ok a → Q h a)
    (herr : ∀ e, x = .error e → failed h) : Ends failed Q h x := by
  cases x with
  | ok a => exact hok a rfl
  | error e => exact herr e rfl

/-- A call, and then the rest. -/
theorem follows_ask_bind {c : Call} {f : Reply c → Except ε α} {g : α → ExceptT ε (Program Reply) β}
    (hc : guar h c) (herr : ∀ a e, f a = .error e → failed (⟨c, a⟩ :: h))
    (hok : ∀ a b, f a = .ok b → (g b).run.Follows guar (Ends failed Q') (⟨c, a⟩ :: h)) :
    (ask c f >>= g).run.Follows guar (Ends failed Q') h :=
  follows_ask_then hc hok herr

/-- A step without a call, and then the rest. -/
theorem follows_lift_bind {x : Except ε α} {g : α → ExceptT ε (Program Reply) β}
    (herr : ∀ e, x = .error e → failed h)
    (hok : ∀ b, x = .ok b → (g b).run.Follows guar (Ends failed Q') h) :
    (lift x >>= g).run.Follows guar (Ends failed Q') h :=
  follows_lift_then hok herr

/-- An attempt, and then the rest. -/
theorem follows_attempt_bind {ε' : Type} {post : History Reply → Except ε α → Prop}
    {p : ExceptT ε (Program Reply) α} {g : Except ε α → ExceptT ε' (Program Reply) β}
    (hp : p.run.Follows guar post h)
    (hg : ∀ h' r, post h' r → (g r).run.Follows guar (Ends failed Q') h') :
    (attempt p >>= g).run.Follows guar (Ends failed Q') h := by
  have hattempt : (attempt p : ExceptT ε' (Program Reply) (Except ε α)).run.Follows guar
      (Ends failed post) h := Follows.bind hp fun _ _ hr => hr
  exact hattempt.bindOk hg

end Fallible

/-- A program that keeps to a protocol whatever the store answers is safe. -/
theorem Follows.safe {post : History Reply → ρ → Prop} {p : Program Reply ρ} {h : History Reply}
    (hp : p.Follows guar post h) (s : σ) :
    p.Safe sem rely (fun h c _ => guar h c) (fun h r _ => post h r) h s := by
  induction p generalizing h s with
  | done r => exact fun _ _ => hp
  | call c next ih => exact fun t _ => ⟨hp.1, fun a u _ => ih a (hp.2 a) u⟩

end Program

section Rules

variable [DecidableEq ι] {sem : Semantics Reply σ} {rely : σ → σ → Prop}
  {guar : ι → History Reply → Call → σ → Prop} {post : ι → History Reply → ρ → σ → Prop}
  {start : Config Reply σ ι ρ} {es : List (Event Reply σ ι)} {c : Config Reply σ ι ρ}
  (hrefl : ∀ s, rely s s) (htrans : ∀ s t u, rely s t → rely t u → rely s u)
  (hrely : ∀ op s a s', sem op s a s' → rely s s')
  (hsafe : ∀ i, (start.threads i).Safe sem rely (guar i) (post i) [] start.store)

include hrefl htrans hrely hsafe

/-- **Threads that are safe on their own are safe together.** -/
theorem Run.safe (h : Run sem start es c) (i : ι) :
    (c.threads i).Safe sem rely (guar i) (post i) (own i es) c.store := by
  induction h generalizing i with
  | start => exact hsafe i
  | @step es' c' j op next a s' _ hj hs ih =>
    by_cases hij : i = j
    · subst hij
      have hi := ih i
      rw [hj] at hi
      rw [own_snoc_self ⟨i, op, a, c'.store, s'⟩ es']
      simp only [Function.update_self]
      exact (hi c'.store (hrefl _)).2 a s' hs
    · simp only [Function.update_of_ne hij]
      rw [own_snoc_of_ne (Ne.symm hij)]
      exact (ih i).stable htrans (hrely _ _ _ _ hs)

/-- **Each call of a run meets its thread's guarantee.** -/
theorem Run.guarantee (h : Run sem start es c) {pre post' : List (Event Reply σ ι)}
    {e : Event Reply σ ι} (hes : es = pre ++ e :: post') :
    guar e.thread (own e.thread pre) e.call e.before := by
  induction h generalizing post' with
  | start => simp at hes
  | @step es' c' j op next a s' hrun hj hs ih =>
    rcases List.eq_nil_or_concat post' with rfl | ⟨post'', x, rfl⟩
    · obtain ⟨rfl, hx⟩ := List.append_inj' hes rfl
      rw [List.cons.injEq] at hx
      rw [← hx.1]
      have hi := hrun.safe hrefl htrans hrely hsafe j
      rw [hj] at hi
      exact (hi c'.store (hrefl _)).1
    · rw [List.concat_eq_append, ← List.cons_append, ← List.append_assoc] at hes
      exact ih (List.append_inj' hes rfl).1

/-- **An invariant that the guarantees keep.** -/
theorem Run.invariant {I : σ → Prop} (h : Run sem start es c)
    (hstep : ∀ i h op s a s', I s → guar i h op s → sem op s a s' → I s')
    (h0 : I start.store) : I c.store := by
  induction h with
  | start => exact h0
  | @step es' c' j op next a s' hrun hj hs ih =>
    have hi := hrun.safe hrefl htrans hrely hsafe j
    rw [hj] at hi
    exact hstep j _ op _ a s' ih (hi c'.store (hrefl _)).1 hs

theorem Run.invariant_before {I : σ → Prop} (h : Run sem start es c)
    (hstep : ∀ i h op s a s', I s → guar i h op s → sem op s a s' → I s')
    (h0 : I start.store) {e : Event Reply σ ι} (he : e ∈ es) : I e.before := by
  obtain ⟨pre, post', hes⟩ := List.append_of_mem he
  obtain ⟨c', hrun, hstore⟩ := h.upTo hes
  rw [← hstore]
  exact hrun.invariant hrefl htrans hrely hsafe hstep h0

end Rules

section Protocols

variable [DecidableEq ι] {sem : Semantics Reply σ} {guar : ι → History Reply → Call → Prop}
  {post : ι → History Reply → ρ → Prop} {start : Config Reply σ ι ρ}
  {es : List (Event Reply σ ι)} {c : Config Reply σ ι ρ}
  (hfollows : ∀ i, (start.threads i).Follows (guar i) (post i) [])

include hfollows

omit [DecidableEq ι] in
theorem follows_safe (i : ι) : (start.threads i).Safe sem (fun _ _ => True)
    (fun h c _ => guar i h c) (fun h r _ => post i h r) [] start.store :=
  (hfollows i).safe start.store

/-- **Each call of a run keeps to its thread's protocol.** -/
theorem Run.follows (h : Run sem start es c) {pre post' : List (Event Reply σ ι)}
    {e : Event Reply σ ι} (hes : es = pre ++ e :: post') :
    guar e.thread (own e.thread pre) e.call :=
  h.guarantee (fun _ => trivial) (fun _ _ _ _ _ => trivial) (fun _ _ _ _ _ => trivial)
    (follows_safe hfollows) hes

/-- **A thread that is done ended as its protocol says.** -/
theorem Run.follows_done (h : Run sem start es c) {i : ι} {r : ρ} (hi : c.threads i = .done r) :
    post i (own i es) r := by
  have hdone := h.safe (fun _ => trivial) (fun _ _ _ _ _ => trivial) (fun _ _ _ _ _ => trivial)
    (follows_safe hfollows) i
  rw [hi] at hdone
  exact hdone c.store trivial

end Protocols

end DeveSub
