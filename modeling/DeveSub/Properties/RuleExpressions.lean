/-
  File:      DeveSub/Properties/RuleExpressions.lean
  Subject:   Logical Clash rules as expression trees, and that `validate_rule` accepts exactly the
             well-formed ones.

  * `Passes`, `split_join_of_passes` -- the splitter reads over texts with balanced parentheses, and
    splits at the commas between them, unless they are nested too deep;
  * `Expr`, `Expr.text`, `ruleText` -- expression trees and Mihomo's syntax for them;
  * `Accepts`, `validateCondition_eq_ok_iff` -- what the checker accepts, by recursion on the tree;
  * `accepts_iff` -- the same in terms of the nodes and leaves of the tree;
  * **`logical_rule_accepted_iff`**.
-/
import DeveSub.Application.ClashRules

namespace DeveSub.ClashRules

/-! ## 1. The splitter -/

/-- At depth `d` the splitter reads over the text and adds it to the part it is reading, or the
    text is nested deeper than it may be and the splitter fails. -/
def Passes (d : Nat) (t : Str) (height : Nat) : Prop :=
  ∀ part rest, splitFrom d part (t ++ rest) = splitFrom d (part ++ t) rest ∨
    32 < d + height ∧ ∃ e, splitFrom d part (t ++ rest) = .error e

theorem Passes.mono {d height height' : Nat} {t : Str} (h : Passes d t height)
    (hle : height ≤ height') : Passes d t height' := by
  intro part rest
  rcases h part rest with heq | ⟨hlt, herr⟩
  · exact Or.inl heq
  · exact Or.inr ⟨by omega, herr⟩

theorem Passes.append {d height : Nat} {t u : Str} (ht : Passes d t height)
    (hu : Passes d u height) : Passes d (t ++ u) height := by
  intro part rest
  rw [List.append_assoc, ← List.append_assoc part]
  rcases ht part (u ++ rest) with heq | herr
  · rw [heq]
    exact hu (part ++ t) rest
  · exact Or.inr herr

/-- Inside parentheses a text without any is read over; outside it must not have commas. -/
theorem passes_plain {d : Nat} {t : Str} (hplain : ∀ c ∈ t, c ≠ '(' ∧ c ≠ ')' ∧ isBreak c = false)
    (hcomma : 0 < d ∨ ',' ∉ t) : Passes d t 0 := by
  intro part rest
  left
  induction t generalizing part with
  | nil => rw [List.append_nil, List.nil_append]
  | cons c t ih =>
    obtain ⟨hopen, hclose, hbreak⟩ := hplain c List.mem_cons_self
    have hno : ¬ (c = ',' ∧ d = 0) := by
      intro hboth
      rcases hcomma with hd | hmem
      · omega
      · exact hmem (hboth.1 ▸ List.mem_cons_self)
    have hrest := ih (fun x hx => hplain x (List.mem_cons_of_mem _ hx))
      (hcomma.imp_right fun h hmem => h (List.mem_cons_of_mem _ hmem)) (part ++ [c])
    rw [List.cons_append, splitFrom, if_neg hopen, if_neg hclose, if_neg hno, hbreak,
      if_neg (by decide), hrest, List.append_assoc]
    rfl

/-- A text in parentheses is read over where the text is one deeper. -/
theorem Passes.wrap {d height : Nat} {t : Str} (h : Passes (d + 1) t height) :
    Passes d ('(' :: (t ++ [')'])) (height + 1) := by
  intro part rest
  rw [List.cons_append, splitFrom, if_pos rfl]
  by_cases hdepth : d + 1 > 32
  · rw [if_pos hdepth]
    exact Or.inr ⟨by omega, _, rfl⟩
  · rw [if_neg hdepth, List.append_assoc]
    rcases h (part ++ ['(']) ([')'] ++ rest) with heq | ⟨hlt, herr⟩
    · left
      rw [heq, List.singleton_append, splitFrom, if_neg (by decide), if_pos rfl,
        if_neg (Nat.succ_ne_zero d), Nat.add_sub_cancel]
      simp
    · exact Or.inr ⟨by omega, herr⟩

/-- **The splitter undoes joining by commas**, or fails on texts that are nested too deep. -/
theorem split_join_of_passes {height : Nat} {ts : List Str} (hne : ts ≠ [])
    (hpasses : ∀ t ∈ ts, Passes 0 t height) (htrim : ∀ t ∈ ts, trim t = t) :
    split ([','].intercalate ts) = .ok ts ∨
      32 < height ∧ ∃ e, split ([','].intercalate ts) = .error e := by
  induction ts with
  | nil => exact absurd rfl hne
  | cons t ts ih =>
    have htrimmed := htrim t List.mem_cons_self
    cases ts with
    | nil =>
      have hpass := hpasses t List.mem_cons_self [] []
      rw [List.append_nil, List.nil_append, Nat.zero_add] at hpass
      have hend : splitFrom 0 t [] = .ok [t] := by
        rw [splitFrom, if_neg (by decide), htrimmed]
      rw [hend] at hpass
      simpa [split, List.intercalate] using hpass
    | cons u us =>
      have hrest := ih (List.cons_ne_nil u us) (fun x hx => hpasses x (List.mem_cons_of_mem _ hx))
        fun x hx => htrim x (List.mem_cons_of_mem _ hx)
      rw [List.intercalate_cons_cons, List.append_assoc, List.singleton_append]
      have hpass := hpasses t List.mem_cons_self [] (',' :: [','].intercalate (u :: us))
      rw [List.nil_append, Nat.zero_add] at hpass
      rcases hpass with heq | ⟨hlt, herr⟩
      · have hcomma : split (t ++ ',' :: [','].intercalate (u :: us)) =
            (split ([','].intercalate (u :: us)) >>= fun parts => .ok (t :: parts)) := by
          rw [split, heq, splitFrom, if_neg (by decide), if_neg (by decide), if_pos ⟨rfl, rfl⟩,
            htrimmed]
          rfl
        rw [hcomma]
        rcases hrest with hok | ⟨hlt, e, he⟩
        · left
          rw [hok]
          rfl
        · right
          rw [he]
          exact ⟨hlt, e, rfl⟩
      · exact Or.inr ⟨hlt, herr⟩

/-! ## 2. Expressions -/

/-- A non-empty text without commas, parentheses, control characters and outer white space. -/
structure Word where
  text : Str
  ne_nil : text ≠ []
  plain : ∀ c ∈ text, c ≠ ',' ∧ c ≠ '(' ∧ c ≠ ')' ∧ isControl c = false
  trimmed : trim text = text

/-- The logical operators. -/
inductive Logic where
  | and
  | or
  | not
  deriving DecidableEq

/-- Their names. -/
def Logic.text : Logic → Str
  | .and => "AND"
  | .or => "OR"
  | .not => "NOT"

/-- An expression tree. -/
inductive Expr where
  | leaf (kind payload : Word)
  | logic (op : Logic) (children : List Expr)

/-- Induction over a tree, with the hypothesis for every child. -/
@[induction_eliminator]
theorem Expr.children_induction {P : Expr → Prop} (leaf : ∀ kind payload, P (.leaf kind payload))
    (logic : ∀ op children, (∀ e ∈ children, P e) → P (.logic op children)) (e : Expr) : P e := by
  refine @Expr.rec P (fun es => ∀ e ∈ es, P e) leaf logic ?_ ?_ e
  · intro e he
    cases he
  · intro e es he hes x hx
    rcases List.mem_cons.1 hx with rfl | hx
    · exact he
    · exact hes x hx

/-- A text in parentheses. -/
def wrapped (t : Str) : Str := '(' :: (t ++ [')'])

/-- Texts with commas between them, in parentheses. -/
def listed (ts : List Str) : Str := wrapped ([','].intercalate ts)

mutual

/-- The text of a condition: its type, a comma, and its payload. -/
def Expr.text : Expr → Str
  | .leaf kind payload => [','].intercalate [kind.text, payload.text]
  | .logic op children => [','].intercalate [op.text, listed (childTexts children)]

/-- The conditions of an operator, each in parentheses. -/
def childTexts : List Expr → List Str
  | [] => []
  | e :: es => wrapped e.text :: childTexts es

end

theorem childTexts_eq_map (es : List Expr) : childTexts es = es.map fun e => wrapped e.text := by
  induction es with
  | nil => rw [childTexts, List.map_nil]
  | cons e es ih => rw [childTexts, ih, List.map_cons]

/-- The type of a condition. -/
def Expr.kind : Expr → Str
  | .leaf kind _ => kind.text
  | .logic op _ => op.text

/-- The payload of a condition. -/
def Expr.payload : Expr → Str
  | .leaf _ payload => payload.text
  | .logic _ children => listed (childTexts children)

theorem Expr.text_eq (e : Expr) : e.text = [','].intercalate [e.kind, e.payload] := by
  cases e <;> rw [Expr.text] <;> rfl

/-- The rule `OP,((..),(..)),policy`. -/
def ruleText (op : Logic) (children : List Expr) (policy : Word) : Str :=
  [','].intercalate [op.text, listed (childTexts children), policy.text]

/-! ## 3. Reading a printed expression -/

mutual

/-- How deep the parentheses of a condition are nested. -/
def Expr.height : Expr → Nat
  | .leaf _ _ => 0
  | .logic _ children => childHeight children + 1

/-- How deep those of the conditions of an operator are. -/
def childHeight : List Expr → Nat
  | [] => 0
  | e :: es => max (e.height + 1) (childHeight es)

end

theorem height_lt_childHeight {e : Expr} {es : List Expr} (he : e ∈ es) :
    e.height + 1 ≤ childHeight es := by
  induction es with
  | nil => cases he
  | cons x es ih =>
    rw [childHeight]
    rcases List.mem_cons.1 he with rfl | he
    · exact Nat.le_max_left _ _
    · exact (ih he).trans (Nat.le_max_right _ _)

theorem childHeight_le {es : List Expr} {n : Nat} (h : ∀ e ∈ es, e.height + 1 ≤ n) :
    childHeight es ≤ n := by
  induction es with
  | nil =>
    rw [childHeight]
    exact Nat.zero_le n
  | cons e es ih =>
    rw [childHeight]
    exact Nat.max_le.2 ⟨h e List.mem_cons_self, ih fun x hx => h x (List.mem_cons_of_mem _ hx)⟩

theorem isBreak_of_not_isControl {c : Char} (h : isControl c = false) : isBreak c = false := by
  have hne : ∀ x : Char, isControl x = true → c ≠ x := by
    intro x hx heq
    rw [heq, hx] at h
    cases h
  simp [isBreak, hne '\n' (by decide), hne '\r' (by decide), hne '\x00' (by decide)]

theorem Word.passes (w : Word) (d : Nat) : Passes d w.text 0 := by
  refine passes_plain (fun c hc => ?_) (Or.inr fun hmem => (w.plain _ hmem).1 rfl)
  obtain ⟨-, hopen, hclose, hcontrol⟩ := w.plain c hc
  exact ⟨hopen, hclose, isBreak_of_not_isControl hcontrol⟩

theorem Logic.passes (op : Logic) (d : Nat) : Passes d op.text 0 := by
  refine passes_plain ?_ (Or.inr ?_)
  · cases op <;> simp [Logic.text, isBreak]
  · cases op <;> simp [Logic.text]

theorem passes_comma {d : Nat} (hd : 0 < d) : Passes d [','] 0 :=
  passes_plain (by simp [isBreak]) (Or.inl hd)

/-- Inside parentheses texts that are read over are read over with commas between them. -/
theorem passes_join {d height : Nat} (hd : 0 < d) {ts : List Str}
    (h : ∀ t ∈ ts, Passes d t height) : Passes d ([','].intercalate ts) height := by
  induction ts with
  | nil => exact (passes_plain (by simp [List.intercalate]) (Or.inl hd)).mono (Nat.zero_le _)
  | cons t ts ih =>
    cases ts with
    | nil => simpa [List.intercalate] using h t List.mem_cons_self
    | cons u us =>
      rw [List.intercalate_cons_cons]
      refine Passes.append (Passes.append (h t List.mem_cons_self) ?_) ?_
      · exact (passes_comma hd).mono (Nat.zero_le _)
      · exact ih fun x hx => h x (List.mem_cons_of_mem _ hx)

/-- **A printed condition is read over** inside parentheses. -/
theorem Expr.passes (e : Expr) (d : Nat) (hd : 0 < d) : Passes d e.text e.height := by
  induction e generalizing d with
  | leaf kind payload =>
    rw [Expr.text]
    refine passes_join hd fun t ht => ?_
    rcases List.mem_pair.1 ht with rfl | rfl
    · exact (kind.passes d).mono (Nat.zero_le _)
    · exact (payload.passes d).mono (Nat.zero_le _)
  | logic op children ih =>
    rw [Expr.text, Expr.height]
    refine passes_join hd fun t ht => ?_
    rcases List.mem_pair.1 ht with rfl | rfl
    · exact (op.passes d).mono (Nat.zero_le _)
    · refine Passes.wrap (passes_join (Nat.succ_pos d) fun t ht => ?_)
      rw [childTexts_eq_map] at ht
      obtain ⟨e, he, rfl⟩ := List.mem_map.1 ht
      exact (Passes.wrap (ih e he (d + 1 + 1) (by omega))).mono (height_lt_childHeight he)

/-- The conditions of an operator are read over anywhere. -/
theorem passes_child {e : Expr} {es : List Expr} (he : e ∈ es) (d : Nat) :
    Passes d (wrapped e.text) (childHeight es) :=
  (Passes.wrap (e.passes (d + 1) (Nat.succ_pos d))).mono (height_lt_childHeight he)

theorem passes_listed (es : List Expr) (d : Nat) :
    Passes d (listed (childTexts es)) (childHeight es + 1) := by
  refine Passes.wrap (passes_join (Nat.succ_pos d) fun t ht => ?_)
  rw [childTexts_eq_map] at ht
  obtain ⟨e, he, rfl⟩ := List.mem_map.1 ht
  exact passes_child he (d + 1)

theorem trim_wrapped (t : Str) : trim (wrapped t) = wrapped t := by
  have hfront : (wrapped t).dropWhile isWhitespace = wrapped t := by
    rw [wrapped, List.dropWhile_cons, if_neg (by decide)]
  have hback : (wrapped t).reverse.dropWhile isWhitespace = (wrapped t).reverse := by
    rw [wrapped, List.reverse_cons, List.reverse_append, List.reverse_singleton,
      List.singleton_append, List.cons_append, List.dropWhile_cons, if_neg (by decide)]
  rw [trim, hfront, hback, List.reverse_reverse]

theorem Logic.trim_text (op : Logic) : trim op.text = op.text := by
  cases op <;> decide

theorem unwrapParentheses_wrapped (t : Str) : unwrapParentheses (wrapped t) = .ok t := by
  rw [unwrapParentheses, show stripPrefix ['('] (wrapped t) = some (t ++ [')']) from
    stripPrefix_append ['('] _, Option.bind_some, stripSuffix_append]
  rfl

/-! ## 4. What the checker accepts -/

/-- What `validate_condition` accepts with `levels` levels to go. -/
def Accepts (providers : Option (List (Str × Json))) : Nat → Expr → Prop
  | 0, _ => False
  | _ + 1, .leaf kind payload =>
    kind.text ∉ logicKinds ∧ checkLeaf providers kind.text payload.text = .ok ()
  | levels + 1, .logic op children =>
    children ≠ [] ∧ (op = .not → children.length = 1) ∧ ∀ e ∈ children, Accepts providers levels e

section Accepts

variable {providers : Option (List (Str × Json))}

/-- A tree with few levels is nested in few parentheses. -/
theorem height_of_accepts {levels : Nat} {e : Expr} (h : Accepts providers levels e) :
    e.height + 2 ≤ 2 * levels := by
  induction levels generalizing e with
  | zero => exact h.elim
  | succ levels ih =>
    cases e with
    | leaf kind payload =>
      rw [Expr.height]
      omega
    | logic op children =>
      obtain ⟨hne, -, hchildren⟩ := h
      obtain ⟨first, hfirst⟩ := List.exists_mem_of_ne_nil children hne
      have hpos := ih (hchildren first hfirst)
      have hbound : childHeight children ≤ 2 * levels - 1 := by
        refine childHeight_le fun e he => ?_
        have := ih (hchildren e he)
        omega
      rw [Expr.height]
      omega

/-- A condition is split into its type and its payload, unless it is nested too deep. -/
theorem split_text (e : Expr) : split e.text = .ok [e.kind, e.payload] ∨
    32 < e.height ∧ ∃ err, split e.text = .error err := by
  rw [Expr.text_eq]
  refine split_join_of_passes (List.cons_ne_nil _ _) ?_ ?_
  · intro t ht
    cases e with
    | leaf kind payload =>
      rcases List.mem_pair.1 ht with rfl | rfl
      · exact (kind.passes 0).mono (Nat.zero_le _)
      · exact (payload.passes 0).mono (Nat.zero_le _)
    | logic op children =>
      rcases List.mem_pair.1 ht with rfl | rfl
      · exact (op.passes 0).mono (Nat.zero_le _)
      · rw [Expr.height]
        exact passes_listed children 0
  · intro t ht
    cases e with
    | leaf kind payload =>
      rcases List.mem_pair.1 ht with rfl | rfl
      · exact kind.trimmed
      · exact payload.trimmed
    | logic op children =>
      rcases List.mem_pair.1 ht with rfl | rfl
      · exact op.trim_text
      · exact trim_wrapped _

/-- The conditions of an operator are split from each other, unless they are nested too deep. -/
theorem split_children {es : List Expr} (hne : es ≠ []) :
    split ([','].intercalate (childTexts es)) = .ok (childTexts es) ∨
      32 < childHeight es ∧ ∃ err, split ([','].intercalate (childTexts es)) = .error err := by
  rw [childTexts_eq_map]
  refine split_join_of_passes (by simpa using hne) ?_ ?_
  · intro t ht
    obtain ⟨e, he, rfl⟩ := List.mem_map.1 ht
    exact passes_child he 0
  · intro t ht
    obtain ⟨e, -, rfl⟩ := List.mem_map.1 ht
    exact trim_wrapped _

/-- A printed condition passes when it is split and what is inside it passes. -/
theorem checkChild_eq_ok_iff (check : Str → Str → Except Str Unit) (e : Expr) :
    checkChild check (wrapped e.text) = .ok () ↔
      split e.text = .ok [e.kind, e.payload] ∧ check e.kind e.payload = .ok () := by
  rw [checkChild, unwrapParentheses_wrapped, ok_bind]
  rcases split_text e with hok | ⟨-, err, herr⟩
  · rw [hok]
    simp
  · rw [herr]
    simp

theorem Logic.text_mem (op : Logic) : op.text ∈ logicKinds := by
  cases op <;> decide

theorem Logic.text_eq_not_iff (op : Logic) : op.text = "NOT".toList ↔ op = .not := by
  cases op <;> decide

/-- A word has no parentheses. -/
theorem unwrapParentheses_word (w : Word) (u : Str) : unwrapParentheses w.text ≠ .ok u := by
  intro h
  rw [unwrapParentheses, okOr_eq_ok, Option.bind_eq_some_iff] at h
  obtain ⟨t, ht, -⟩ := h
  have hmem : '(' ∈ w.text := by
    rw [stripPrefix_some ht]
    exact List.mem_cons_self
  exact (w.plain _ hmem).2.1 rfl

/-- The check of the conditions of an operator. -/
theorem validate_children_iff {check : Str → Str → Except Str Unit} {es : List Expr}
    (hheight : es ≠ [] → (∀ e ∈ es, check e.kind e.payload = .ok ()) → childHeight es ≤ 32)
    (op : Logic) :
    (do
      let children ← split ([','].intercalate (childTexts es))
      rejectWhen (op.text = "NOT".toList && children.length ≠ 1) "NOT requires one condition".toList
      children.forM (checkChild check)) = .ok () ↔
    es ≠ [] ∧ (op = .not → es.length = 1) ∧ ∀ e ∈ es, check e.kind e.payload = .ok () := by
  by_cases hne : es = []
  · -- an operator without conditions is printed with one that is empty
    subst hne
    have hsplit : split ([','].intercalate (childTexts [])) = .ok [[]] := by
      rw [childTexts]
      decide
    have hchild : checkChild check [] = .error "logical conditions require parentheses".toList := rfl
    rw [hsplit]
    simp [hchild]
  · have hlength : (childTexts es).length = es.length := by rw [childTexts_eq_map, List.length_map]
    have hnot : rejectWhen (op.text = "NOT".toList && (childTexts es).length ≠ 1)
        "NOT requires one condition".toList = .ok () ↔ (op = .not → es.length = 1) := by
      rw [rejectWhen_eq_ok, hlength, ← op.text_eq_not_iff]
      simp
    have hchildren : (childTexts es).forM (checkChild check) = .ok () ↔
        ∀ e ∈ es, split e.text = .ok [e.kind, e.payload] ∧ check e.kind e.payload = .ok () := by
      rw [forM_eq_ok, childTexts_eq_map, List.forall_mem_map]
      exact forall₂_congr fun e _ => checkChild_eq_ok_iff check e
    rcases split_children hne with hok | ⟨hlt, err, herr⟩
    · rw [hok, ok_bind, bind_eq_ok]
      constructor
      · intro h
        obtain ⟨_, hreject, hloop⟩ := h
        exact ⟨hne, hnot.1 hreject, fun e he => (hchildren.1 hloop e he).2⟩
      · intro h
        obtain ⟨-, hone, hall⟩ := h
        refine ⟨(), hnot.2 hone, hchildren.2 fun e he => ⟨?_, hall e he⟩⟩
        have hbound := hheight hne hall
        have hchild := height_lt_childHeight he
        rcases split_text e with hsplit | ⟨hlt, -⟩
        · exact hsplit
        · omega
    · rw [herr]
      refine ⟨fun h => (nomatch h), fun h => ?_⟩
      have hbound := hheight hne h.2.2
      omega

/-- **The checker accepts exactly the well-formed conditions.** -/
theorem validateCondition_eq_ok_iff {levels : Nat} (hlevels : levels ≤ 11) (e : Expr) :
    validateCondition providers levels e.kind e.payload = .ok () ↔ Accepts providers levels e := by
  induction levels generalizing e with
  | zero => exact ⟨fun h => (nomatch h), False.elim⟩
  | succ levels ih =>
    have ihe := fun e => ih (by omega) e
    cases e with
    | leaf kind payload =>
      have hpayload : payload.text.isEmpty = false := by simpa using payload.ne_nil
      rw [validateCondition, Expr.payload, Expr.kind, hpayload, rejectWhen_false, ok_bind]
      by_cases hlogic : kind.text ∈ logicKinds
      · rw [if_pos (by simpa using hlogic)]
        refine ⟨fun h => ?_, fun h => absurd hlogic h.1⟩
        obtain ⟨u, hu, -⟩ := bind_eq_ok.1 h
        exact absurd hu (unwrapParentheses_word payload u)
      · rw [if_neg (by simpa using hlogic)]
        exact ⟨fun h => ⟨hlogic, h⟩, fun h => h.2⟩
    | logic op children =>
      have hpayload : (listed (childTexts children)).isEmpty = false := rfl
      rw [validateCondition, Expr.payload, Expr.kind, hpayload, rejectWhen_false, ok_bind,
        if_pos (by simpa using op.text_mem), listed, unwrapParentheses_wrapped, ok_bind]
      rw [validate_children_iff (fun _ hall => ?_) op]
      · refine and_congr_right fun _ => and_congr_right fun _ => forall₂_congr fun e _ => ?_
        exact ihe e
      · refine childHeight_le fun e he => ?_
        have := height_of_accepts ((ihe e).1 (hall e he))
        omega

end Accepts

/-! ## 5. Nodes and leaves -/

mutual

/-- The operators of a tree, with the number of their conditions. -/
def Expr.operators : Expr → List (Logic × Nat)
  | .leaf _ _ => []
  | .logic op children => (op, children.length) :: operatorsOf children

/-- The operators below an operator. -/
def operatorsOf : List Expr → List (Logic × Nat)
  | [] => []
  | e :: es => e.operators ++ operatorsOf es

end

mutual

/-- The leaves of a tree whose root is at a level, with their own levels. -/
def Expr.leaves : Nat → Expr → List (Nat × Word × Word)
  | level, .leaf kind payload => [(level, kind, payload)]
  | level, .logic _ children => leavesOf (level + 1) children

/-- The leaves below an operator. -/
def leavesOf : Nat → List Expr → List (Nat × Word × Word)
  | _, [] => []
  | level, e :: es => e.leaves level ++ leavesOf level es

end

theorem mem_operatorsOf {es : List Expr} {x : Logic × Nat} :
    x ∈ operatorsOf es ↔ ∃ e ∈ es, x ∈ e.operators := by
  induction es with
  | nil => simp [operatorsOf]
  | cons e es ih => simp [operatorsOf, ih]

theorem mem_leavesOf {level : Nat} {es : List Expr} {x : Nat × Word × Word} :
    x ∈ leavesOf level es ↔ ∃ e ∈ es, x ∈ e.leaves level := by
  induction es with
  | nil => simp [leavesOf]
  | cons e es ih => simp [leavesOf, ih]

/-- The types a leaf may have. -/
def leafKinds : List Str := "RULE-SET".toList :: "NETWORK".toList :: (cidrKinds ++ plainKinds)

/-- An address and a prefix length that fits it. -/
def ValidCidr (payload : Str) : Prop :=
  ∃ address bits ip n, splitOnce '/' payload = some (address, bits) ∧
    IpAddr.parse address = some ip ∧ parseUnsigned 256 bits = some n ∧
    match ip with
    | .v4 _ => n ≤ 32
    | .v6 _ => n ≤ 128

/-- A leaf that passes: its type is supported and its payload is right for the type. -/
structure LeafOk (providers : Option (List (Str × Json))) (kind payload : Str) : Prop where
  supported : kind ∈ leafKinds
  provider : kind = "RULE-SET".toList → ∃ map, providers = some map ∧ payload ∈ map.map Prod.fst
  cidr : kind ∈ cidrKinds → ValidCidr payload
  network : kind = "NETWORK".toList → payload ∈ networkNames

theorem checkCidr_eq_ok_iff (payload : Str) : checkCidr payload = .ok () ↔ ValidCidr payload := by
  rw [checkCidr, bind_eq_ok]
  constructor
  · intro h
    obtain ⟨⟨address, bits⟩, hsplit, h⟩ := h
    obtain ⟨ip, hip, h⟩ := bind_eq_ok.1 h
    obtain ⟨n, hn, h⟩ := bind_eq_ok.1 h
    refine ⟨address, bits, ip, n, okOr_eq_ok.1 hsplit, okOr_eq_ok.1 hip, okOr_eq_ok.1 hn, ?_⟩
    rw [rejectWhen_eq_ok] at h
    cases ip <;> simpa using h
  · intro h
    obtain ⟨address, bits, ip, n, hsplit, hip, hn, hle⟩ := h
    refine ⟨(address, bits), okOr_eq_ok.2 hsplit, bind_eq_ok.2 ⟨ip, okOr_eq_ok.2 hip,
      bind_eq_ok.2 ⟨n, okOr_eq_ok.2 hn, rejectWhen_eq_ok.2 ?_⟩⟩⟩
    cases ip <;> simpa using hle

/-- **A leaf passes the checks of its arm exactly when it is right.** -/
theorem checkLeaf_eq_ok_iff (providers : Option (List (Str × Json))) (kind payload : Str) :
    (kind ∉ logicKinds ∧ checkLeaf providers kind payload = .ok ()) ↔
      LeafOk providers kind payload := by
  have hdisjoint : ∀ k ∈ leafKinds, k ∉ logicKinds := by decide
  unfold checkLeaf
  by_cases hset : kind = "RULE-SET".toList
  · subst hset
    rw [if_pos rfl, rejectWhen_eq_ok]
    constructor
    · intro h
      refine ⟨by decide, fun _ => ?_, fun hmem => absurd hmem (by decide), fun heq => absurd heq (by decide)⟩
      cases providers with
      | none => simp at h
      | some map => exact ⟨map, rfl, by simpa using h.2⟩
    · intro h
      obtain ⟨map, rfl, hmem⟩ := h.provider rfl
      exact ⟨by decide, by simpa using hmem⟩
  · rw [if_neg hset]
    by_cases hcidr : kind ∈ cidrKinds
    · have hkind : kind ∈ leafKinds :=
        List.mem_cons_of_mem _ (List.mem_cons_of_mem _ (List.mem_append_left _ hcidr))
      rw [if_pos (by simpa using hcidr), checkCidr_eq_ok_iff]
      constructor
      · intro h
        refine ⟨hkind, fun heq => absurd heq hset, fun _ => h.2, fun heq => ?_⟩
        rw [heq] at hcidr
        exact absurd hcidr (by decide)
      · intro h
        exact ⟨hdisjoint kind hkind, h.cidr hcidr⟩
    · rw [if_neg (by simpa using hcidr)]
      by_cases hnetwork : kind = "NETWORK".toList
      · subst hnetwork
        rw [if_pos rfl, rejectWhen_eq_ok]
        constructor
        · intro h
          exact ⟨by decide, fun heq => absurd heq hset, fun hmem => absurd hmem hcidr,
            fun _ => by simpa using h.2⟩
        · intro h
          exact ⟨by decide, by simpa using h.network rfl⟩
      · rw [if_neg hnetwork, rejectWhen_eq_ok]
        constructor
        · intro h
          have hplain : kind ∈ plainKinds := by simpa using h.2
          exact ⟨List.mem_cons_of_mem _ (List.mem_cons_of_mem _ (List.mem_append_right _ hplain)),
            fun heq => absurd heq hset, fun hmem => absurd hmem hcidr,
            fun heq => absurd heq hnetwork⟩
        · intro h
          have hplain : kind ∈ plainKinds := by
            have hkind := h.supported
            simp only [leafKinds, List.mem_cons, List.mem_append] at hkind
            rcases hkind with heq | heq | hmem | hmem
            · exact absurd heq hset
            · exact absurd heq hnetwork
            · exact absurd hmem hcidr
            · exact hmem
          exact ⟨hdisjoint kind h.supported, by simpa using hplain⟩

/-- An operator with at least one condition, and exactly one if it is `NOT`. -/
def OperatorOk (x : Logic × Nat) : Prop := 1 ≤ x.2 ∧ (x.1 = .not → x.2 = 1)

/-- A tree whose operators have conditions has a leaf, and no leaf lies above its root. -/
theorem exists_leaf {e : Expr} (level : Nat) (h : ∀ x ∈ e.operators, OperatorOk x) :
    ∃ x ∈ e.leaves level, level ≤ x.1 := by
  induction e generalizing level with
  | leaf kind payload =>
    rw [Expr.leaves]
    exact ⟨_, List.mem_singleton_self _, Nat.le_refl level⟩
  | logic op children ih =>
    rw [Expr.operators] at h
    obtain ⟨first, hfirst⟩ := List.exists_mem_of_length_pos (h _ List.mem_cons_self).1
    obtain ⟨x, hx, hle⟩ := ih first hfirst (level + 1) fun y hy =>
      h y (List.mem_cons_of_mem _ (mem_operatorsOf.2 ⟨first, hfirst, hy⟩))
    rw [Expr.leaves]
    exact ⟨x, mem_leavesOf.2 ⟨first, hfirst, hx⟩, by omega⟩

/-- **What the checker accepts, by the operators and the leaves of the tree.** -/
theorem accepts_iff (providers : Option (List (Str × Json))) (e : Expr) (levels level : Nat) :
    Accepts providers (levels + 1) e ↔ (∀ x ∈ e.operators, OperatorOk x) ∧
      ∀ x ∈ e.leaves level, LeafOk providers x.2.1.text x.2.2.text ∧ x.1 ≤ level + levels := by
  induction e generalizing levels level with
  | leaf kind payload =>
    rw [Accepts, checkLeaf_eq_ok_iff, Expr.operators, Expr.leaves]
    simp
  | logic op children ih =>
    rw [Accepts, Expr.operators, Expr.leaves]
    have hroot : OperatorOk (op, children.length) ↔
        children ≠ [] ∧ (op = .not → children.length = 1) := by
      rw [OperatorOk, ← List.length_pos_iff]
      exact Iff.rfl
    rw [List.forall_mem_cons, hroot, and_assoc, and_assoc]
    refine and_congr_right fun hne => and_congr_right fun _ => ?_
    cases levels with
    | zero =>
      -- no leaf may lie below the root, but a child has one
      obtain ⟨first, hfirst⟩ := List.exists_mem_of_ne_nil children hne
      refine ⟨fun h => (h first hfirst).elim, fun h => ?_⟩
      obtain ⟨x, hx, hle⟩ := exists_leaf (level + 1) fun y hy =>
        h.1 y (mem_operatorsOf.2 ⟨first, hfirst, hy⟩)
      have := (h.2 x (mem_leavesOf.2 ⟨first, hfirst, hx⟩)).2
      omega
    | succ levels =>
      constructor
      · intro h
        constructor
        · intro x hx
          obtain ⟨e, he, hx⟩ := mem_operatorsOf.1 hx
          exact ((ih e he levels (level + 1)).1 (h e he)).1 x hx
        · intro x hx
          obtain ⟨e, he, hx⟩ := mem_leavesOf.1 hx
          obtain ⟨hok, hle⟩ := ((ih e he levels (level + 1)).1 (h e he)).2 x hx
          exact ⟨hok, by omega⟩
      · intro h e he
        refine (ih e he levels (level + 1)).2 ⟨fun x hx => ?_, fun x hx => ?_⟩
        · exact h.1 x (mem_operatorsOf.2 ⟨e, he, hx⟩)
        · obtain ⟨hok, hle⟩ := h.2 x (mem_leavesOf.2 ⟨e, he, hx⟩)
          exact ⟨hok, by omega⟩

/-! ## 6. Rules -/

theorem Word.isBreak_eq_false (w : Word) : ∀ c ∈ w.text, isBreak c = false :=
  fun c hc => isBreak_of_not_isControl (w.plain c hc).2.2.2

theorem isBreak_join {ts : List Str} (h : ∀ t ∈ ts, ∀ c ∈ t, isBreak c = false) :
    ∀ c ∈ [','].intercalate ts, isBreak c = false := by
  intro c hc
  rcases mem_join hc with rfl | ⟨t, ht, hc⟩
  · decide
  · exact h t ht c hc

theorem isBreak_wrapped {t : Str} (h : ∀ c ∈ t, isBreak c = false) :
    ∀ c ∈ wrapped t, isBreak c = false := by
  intro c hc
  rcases List.mem_cons.1 hc with rfl | hc
  · decide
  · rcases List.mem_append.1 hc with hc | hc
    · exact h c hc
    · rw [List.mem_singleton.1 hc]
      decide

theorem Logic.isBreak_eq_false (op : Logic) : ∀ c ∈ op.text, isBreak c = false := by
  cases op <;> simp [Logic.text, isBreak]

/-- A printed condition is a single line. -/
theorem Expr.isBreak_eq_false (e : Expr) : ∀ c ∈ e.text, isBreak c = false := by
  induction e with
  | leaf kind payload =>
    rw [Expr.text]
    refine isBreak_join fun t ht => ?_
    rcases List.mem_pair.1 ht with rfl | rfl
    · exact kind.isBreak_eq_false
    · exact payload.isBreak_eq_false
  | logic op children ih =>
    rw [Expr.text]
    refine isBreak_join fun t ht => ?_
    rcases List.mem_pair.1 ht with rfl | rfl
    · exact op.isBreak_eq_false
    · refine isBreak_wrapped (isBreak_join fun t ht => ?_)
      rw [childTexts_eq_map] at ht
      obtain ⟨e, he, rfl⟩ := List.mem_map.1 ht
      exact isBreak_wrapped (ih e he)

/-- A printed rule is a single line. -/
theorem any_isBreak_ruleText (op : Logic) (children : List Expr) (policy : Word) :
    (ruleText op children policy).any isBreak = false := by
  have hexpr := (Expr.logic op children).isBreak_eq_false
  rw [List.any_eq_false]
  intro c hc
  rw [Bool.not_eq_true]
  refine isBreak_join (fun t ht => ?_) c hc
  simp only [List.mem_cons, List.not_mem_nil, or_false] at ht
  rcases ht with rfl | rfl | rfl
  · exact op.isBreak_eq_false
  · intro x hx
    refine hexpr x ?_
    rw [Expr.text_eq, join_cons]
    refine List.mem_append_right _ ?_
    simpa [Expr.payload] using Or.inr hx
  · exact policy.isBreak_eq_false

/-- The parts of a printed rule, unless it is nested too deep. -/
theorem ruleParts_ruleText (op : Logic) (children : List Expr) (policy : Word) :
    ruleParts (ruleText op children policy) =
        .ok [op.text, listed (childTexts children), policy.text] ∨
      32 < childHeight children + 1 ∧ ∃ err, ruleParts (ruleText op children policy) = .error err := by
  have hkind : trim (((ruleText op children policy).splitOn ',').headD []) = op.text := by
    have hop : op.text.splitOn ',' = [op.text] := by cases op <;> decide
    rw [ruleText, splitOn_join (List.cons_ne_nil _ _), List.flatMap_cons, hop]
    exact op.trim_text
  rw [ruleParts, hkind, if_pos (by simpa using op.text_mem)]
  refine split_join_of_passes (List.cons_ne_nil _ _) ?_ ?_
  · intro t ht
    simp only [List.mem_cons, List.not_mem_nil, or_false] at ht
    rcases ht with rfl | rfl | rfl
    · exact (op.passes 0).mono (Nat.zero_le _)
    · exact passes_listed children 0
    · exact (policy.passes 0).mono (Nat.zero_le _)
  · intro t ht
    simp only [List.mem_cons, List.not_mem_nil, or_false] at ht
    rcases ht with rfl | rfl | rfl
    · exact op.trim_text
    · exact trim_wrapped _
    · exact policy.trimmed

/-- **`validate_rule` accepts exactly the well-formed logical rules**: the policy is a group or
    built in; every operator has a condition, and `NOT` just one; every leaf is of a supported type
    with a payload that is right for it, and lies at most ten levels below the root. -/
theorem logical_rule_accepted_iff (op : Logic) (children : List Expr) (policy : Word)
    (groups : List Str) (providers : Option (List (Str × Json))) :
    validateRule (ruleText op children policy) groups providers = .ok () ↔
      (policy.text ∈ clashPolicies ∨ policy.text ∈ groups) ∧
      (∀ x ∈ (Expr.logic op children).operators, OperatorOk x) ∧
      ∀ x ∈ (Expr.logic op children).leaves 0,
        LeafOk providers x.2.1.text x.2.2.text ∧ x.1 ≤ 10 := by
  have htree := accepts_iff providers (.logic op children) 10 0
  rw [Nat.zero_add] at htree
  rw [← htree, ← validateCondition_eq_ok_iff (Nat.le_refl 11), validateRule, any_isBreak_ruleText,
    rejectWhen_false, ok_bind]
  have hmatch : op.text ≠ "MATCH".toList := by cases op <;> decide
  rcases ruleParts_ruleText op children policy with hok | ⟨hlt, err, herr⟩
  · have hpolicy : ([op.text, listed (childTexts children), policy.text] : List Str)[
        if op.text = "MATCH".toList then 1 else 2]? = some policy.text := by
      rw [if_neg hmatch]
      rfl
    have hknown : rejectWhen (!clashPolicies.contains policy.text && !groups.contains policy.text)
        ("unknown policy '".toList ++ policy.text ++
          "'; use a proxy group or built-in policy".toList) = .ok () ↔
        policy.text ∈ clashPolicies ∨ policy.text ∈ groups := by
      rw [rejectWhen_eq_ok]
      simp only [List.contains_eq_mem, Bool.and_eq_false_iff, Bool.not_eq_false', decide_eq_true_eq]
    rw [hok, ok_bind, List.headD_cons]
    dsimp only
    rw [hpolicy, okOr_some, ok_bind, bind_eq_ok, if_neg hmatch]
    constructor
    · intro h
      obtain ⟨_, hreject, hrest⟩ := h
      obtain ⟨_, hcondition, -⟩ := bind_eq_ok.1 hrest
      exact ⟨hknown.1 hreject, hcondition⟩
    · intro h
      exact ⟨(), hknown.2 h.1, bind_eq_ok.2 ⟨(), h.2, rfl⟩⟩
  · rw [herr]
    refine ⟨fun h => (nomatch h), fun h => ?_⟩
    have hheight := height_of_accepts ((validateCondition_eq_ok_iff (Nat.le_refl 11) _).1 h.2)
    rw [Expr.height] at hheight
    omega

end DeveSub.ClashRules
