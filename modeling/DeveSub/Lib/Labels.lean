/-
  File:      DeveSub/Lib/Labels.lean
  Subject:   Names made unique by a counter, and the last occurrence of a separator in a text.

  * `Least`, `search` -- the first candidate of a sequence that is not taken, and the loop that
    looks for it;
  * `exists_least`, `search_eq` -- among pairwise different candidates one of the first
    `used.length + 1` is free, and the loop finds it;
  * `counter`, `suffixed` -- a text, and the text with a counter from two on;
  * `rsplitText` -- `str::rsplit_once` with a text as the separator.
-/
import Mathlib.Data.List.Nodup
import Mathlib.Data.List.Perm.Subperm
import Mathlib.Data.Nat.Find
import DeveSub.Lib.Text

namespace DeveSub.Labels

/-! ## 1. The least free candidate -/

section Least

variable {α : Type}

/-- The `k`-th candidate is free, those before it are taken. -/
structure Least (candidate : Nat → α) (used : List α) (k : Nat) : Prop where
  free : candidate k ∉ used
  taken : ∀ j < k, candidate j ∈ used

theorem Least.unique {candidate : Nat → α} {used : List α} {k k' : Nat}
    (h : Least candidate used k) (h' : Least candidate used k') : k = k' := by
  rcases Nat.lt_trichotomy k k' with hlt | heq | hgt
  · exact absurd (h'.taken k hlt) h.free
  · exact heq
  · exact absurd (h.taken k' hgt) h'.free

/-- Only what is taken among the candidates counts. -/
theorem Least.congr {candidate : Nat → α} {used used' : List α} {k : Nat}
    (h : Least candidate used k) (hused : ∀ j, candidate j ∈ used ↔ candidate j ∈ used') :
    Least candidate used' k where
  free := fun hmem => h.free ((hused k).2 hmem)
  taken := fun j hj => (hused j).1 (h.taken j hj)

/-- **Among different candidates there is a free one**, and no later than there are names taken. -/
theorem exists_least [DecidableEq α] {candidate : Nat → α}
    (hinj : Function.Injective candidate) (used : List α) :
    ∃ k ≤ used.length, Least candidate used k := by
  have hfree : ∃ k, k ≤ used.length ∧ candidate k ∉ used := by
    by_contra hall
    have hsub : (List.range (used.length + 1)).map candidate ⊆ used := by
      intro x hx
      obtain ⟨k, hk, rfl⟩ := List.mem_map.1 hx
      by_contra hmem
      exact hall ⟨k, Nat.lt_succ_iff.1 (List.mem_range.1 hk), hmem⟩
    have hnodup : ((List.range (used.length + 1)).map candidate).Nodup :=
      List.nodup_range.map hinj
    have hlength := (hnodup.subperm hsub).length_le
    rw [List.length_map, List.length_range] at hlength
    omega
  refine ⟨Nat.find hfree, (Nat.find_spec hfree).1, (Nat.find_spec hfree).2, ?_⟩
  intro j hj
  by_contra hmem
  exact Nat.find_min hfree hj ⟨by have := (Nat.find_spec hfree).1; omega, hmem⟩

variable [DecidableEq α]

/-- The loop, at the `k`-th candidate; `none` when the fuel runs out. -/
def search (candidate : Nat → α) (used : List α) : (fuel k : Nat) → Option α
  | 0, _ => none
  | fuel + 1, k =>
    if candidate k ∈ used then search candidate used fuel (k + 1) else some (candidate k)

/-- **The loop stops at the least free candidate.** -/
theorem search_eq {candidate : Nat → α} {used : List α} {k : Nat} (h : Least candidate used k) :
    ∀ {fuel j : Nat}, j ≤ k → k < j + fuel → search candidate used fuel j = some (candidate k) := by
  intro fuel
  induction fuel with
  | zero =>
    intro j hj hlt
    omega
  | succ fuel ih =>
    intro j hj hlt
    rw [search]
    by_cases heq : j = k
    · subst heq
      rw [if_neg h.free]
    · rw [if_pos (h.taken j (by omega))]
      exact ih (by omega) (by omega)

end Least

/-! ## 2. Counters -/

/-- Nothing, and from one on a blank and a counter that starts at two. -/
def counter : Nat → Str
  | 0 => []
  | k + 1 => ' ' :: natText (k + 2)

/-- A text with a counter. -/
def suffixed (base : Str) (k : Nat) : Str := base ++ counter k

@[simp] theorem suffixed_zero (base : Str) : suffixed base 0 = base := List.append_nil base

theorem natText_injective : Function.Injective natText := by
  intro m n h
  have hdigits := congrArg digits? h
  rw [digits?_natText, digits?_natText] at hdigits
  exact Option.some.inj hdigits

theorem counter_injective : Function.Injective counter := by
  intro j k h
  cases j with
  | zero => cases k with
    | zero => rfl
    | succ k => cases h
  | succ j => cases k with
    | zero => cases h
    | succ k =>
      have htext := natText_injective (List.cons.inj h).2
      omega

theorem suffixed_injective (base : Str) : Function.Injective (suffixed base) :=
  fun _ _ h => counter_injective (List.append_cancel_left h)

/-- A counter is made of blanks and digits. -/
theorem of_mem_counter {k : Nat} {c : Char} (hc : c ∈ counter k) : c = ' ' ∨ c.isDigit = true := by
  cases k with
  | zero => cases hc
  | succ k =>
    rcases List.mem_cons.1 hc with rfl | hc
    · exact Or.inl rfl
    · exact Or.inr (isDigit_of_mem_natText hc)

/-! ## 3. The last occurrence of a separator -/

/-- `str::rsplit_once` for a separator that is not empty. -/
def rsplitText (separator : Str) : Str → Option (Str × Str)
  | [] => none
  | c :: s =>
    match rsplitText separator s with
    | some (a, b) => some (c :: a, b)
    | none => (stripPrefix separator (c :: s)).map fun b => ([], b)

/-- A text without a character of the separator has no separator. -/
theorem rsplitText_eq_none {separator : Str} {c : Char} (hc : c ∈ separator) {s : Str}
    (h : c ∉ s) : rsplitText separator s = none := by
  induction s with
  | nil => rfl
  | cons d s ih =>
    rw [rsplitText, ih fun hmem => h (List.mem_cons_of_mem _ hmem)]
    cases hstrip : stripPrefix separator (d :: s) with
    | none => rfl
    | some r =>
      refine absurd ?_ h
      rw [stripPrefix_some hstrip]
      exact List.mem_append_left _ hc

/-- **The last separator of two characters** stands before a text without its second. -/
theorem rsplitText_append {x y : Char} (hxy : x ≠ y) (a : Str) {b : Str} (hb : y ∉ b) :
    rsplitText [x, y] (a ++ x :: y :: b) = some (a, b) := by
  induction a with
  | nil =>
    have hnone : rsplitText [x, y] (y :: b) = none := by
      rw [rsplitText, rsplitText_eq_none (List.mem_cons_of_mem _ List.mem_cons_self) hb]
      simp [stripPrefix, hxy]
    rw [List.nil_append, rsplitText, hnone]
    simp [stripPrefix]
  | cons c a ih => rw [List.cons_append, rsplitText, ih]

end DeveSub.Labels
