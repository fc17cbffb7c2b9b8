/-
  File:      DeveSub/Lib/Aggregate.lean
  Subject:   Tables with a `CHECK`, sums over a column, and SQLite's integer `SUM`.

  A checked table carries that each of its rows passes; a statement that would leave a row that
  does not is refused. Running totals are kept by upserts: what an upsert does to the sum of a
  column is one lemma. The integer `SUM` fails as soon as a partial sum leaves the range.

  * `Checked.upsert` -- `INSERT ... ON CONFLICT DO UPDATE` on a checked table;
  * `sum_upsert`, `sum_delete` -- the sum of a column after a statement;
  * `sqlSum_eq` -- `SUM` answers exactly if the sum is in range.
-/
import Mathlib.Algebra.BigOperators.Group.List.Basic
import Mathlib.Algebra.Group.Prod
import Mathlib.Algebra.GroupWithZero.Nat
import DeveSub.Lib.Database

namespace DeveSub

open Keyed

variable {α κ M : Type}

/-! ## 1. Checked tables -/

/-- **A table with a `CHECK`.** -/
structure Checked (α : Type) {κ : Type} [Keyed α κ] (ok : α → Bool) extends Table α where
  checks : ∀ r ∈ rows, ok r = true

namespace Checked

variable [Keyed α κ] {ok : α → Bool}

/-- The table without rows. -/
def empty : Checked α ok := ⟨.empty, fun _ h => absurd h (Table.not_mem_empty _)⟩

/-- `DELETE ... WHERE`. -/
def delete (t : Checked α ok) (p : α → Bool) : Checked α ok :=
  ⟨t.toTable.delete p, fun r hr => t.checks r (Table.mem_delete.1 hr).1⟩

variable [DecidableEq κ]

/-- `INSERT ... ON CONFLICT DO UPDATE`, refused where a row would fail the check. -/
def upsert (t : Checked α ok) (r : α) (merge : α → α) (hm : ∀ x, key (merge x) = key x) :
    Option (Checked α ok) :=
  if h : ∀ x ∈ (t.toTable.upsert r merge hm).rows, ok x = true then some ⟨_, h⟩ else none

theorem upsert_eq_some {t t' : Checked α ok} {r : α} {merge : α → α}
    {hm : ∀ x, key (merge x) = key x} (h : t.upsert r merge hm = some t') :
    t'.toTable = t.toTable.upsert r merge hm := by
  unfold upsert at h
  split at h
  · rw [← Option.some.inj h]
  · cases h

/-- **An upsert whose row would fail the check is refused.** -/
theorem upsert_eq_none {t : Checked α ok} {r : α} {merge : α → α}
    {hm : ∀ x, key (merge x) = key x}
    (h : ok (((t.toTable.find (key r)).elim r merge)) = false) : t.upsert r merge hm = none := by
  unfold upsert
  refine dif_neg fun hall => ?_
  have hfind := t.toTable.find_upsert r merge hm (key r)
  rw [if_pos rfl] at hfind
  rw [hall _ (Table.find_eq_some.1 hfind).1] at h
  cases h

end Checked

/-! ## 2. The sum of a column -/

section Sums

variable [AddCommMonoid M]

/-- One row of a key changes by `δ`, the others do not. -/
theorem sum_map_of_key [Keyed α κ] [DecidableEq κ] {f g : α → M} {k : κ} {δ : M} :
    ∀ {l : List α}, (l.map key).Nodup → k ∈ l.map key →
      (∀ x ∈ l, g x = if key x = k then f x + δ else f x) → (l.map g).sum = (l.map f).sum + δ
  | [], _, hk, _ => by cases hk
  | x :: l, hnodup, hk, hg => by
    rw [List.map_cons, List.nodup_cons] at hnodup
    rw [List.map_cons, List.map_cons, List.sum_cons, List.sum_cons, hg x List.mem_cons_self]
    by_cases hx : key x = k
    · have hrest : l.map g = l.map f := by
        refine List.map_congr_left fun y hy => ?_
        rw [hg y (List.mem_cons_of_mem x hy), if_neg]
        intro hyk
        exact hnodup.1 (List.mem_map.2 ⟨y, hy, hyk.trans hx.symm⟩)
      rw [if_pos hx, hrest, add_right_comm]
    · have hk' : k ∈ l.map key := by
        rw [List.map_cons, List.mem_cons] at hk
        exact hk.resolve_left fun h => hx h.symm
      rw [if_neg hx, sum_map_of_key hnodup.2 hk' fun y hy => hg y (List.mem_cons_of_mem x hy),
        add_assoc]

/-- **An upsert that adds a row's value adds it to the sum.** -/
theorem Table.sum_upsert [Keyed α κ] [DecidableEq κ] (t : Table α) {r : α} {merge : α → α}
    {hm : ∀ x, key (merge x) = key x} {f : α → M}
    (hadd : ∀ x, key x = key r → f (merge x) = f x + f r) :
    ((t.upsert r merge hm).rows.map f).sum = (t.rows.map f).sum + f r := by
  unfold Table.upsert
  cases hins : t.insert r with
  | some t' =>
    dsimp only
    rw [Table.insert_rows hins, List.map_append, List.sum_append, List.map_singleton,
      List.sum_singleton]
  | none =>
    obtain ⟨x, hx⟩ := Table.insert_eq_none hins
    obtain ⟨hmem, hkey⟩ := Table.find_eq_some.1 hx
    have hk : key r ∈ t.rows.map key := List.mem_map.2 ⟨x, hmem, hkey⟩
    dsimp only [Table.update]
    rw [List.map_map]
    refine sum_map_of_key t.unique hk fun y _ => ?_
    by_cases hy : key y = key r
    · simp [hy, hadd y hy]
    · simp [hy]

/-- What counts for nothing may be left out. -/
theorem sum_filter_of_zero {p : α → Bool} {f : α → M} (hzero : ∀ x, p x = false → f x = 0)
    (l : List α) : ((l.filter p).map f).sum = (l.map f).sum := by
  induction l with
  | nil => rfl
  | cons x l ih =>
    by_cases hx : p x = true
    · simp [hx, ih]
    · simp [hx, ih, hzero x (Bool.eq_false_iff.2 hx)]

/-- Rows that count for nothing may be deleted. -/
theorem Table.sum_delete [Keyed α κ] (t : Table α) {p : α → Bool} {f : α → M}
    (hzero : ∀ x, p x = true → f x = 0) : ((t.delete p).rows.map f).sum = (t.rows.map f).sum :=
  sum_filter_of_zero (fun x hx => hzero x (by simpa using hx)) t.rows

/-- Rows that are left count for nothing. -/
theorem Table.sum_delete_zero [Keyed α κ] (t : Table α) {p : α → Bool} {f : α → M}
    (hzero : ∀ x, p x = false → f x = 0) : ((t.delete p).rows.map f).sum = 0 := by
  refine List.sum_eq_zero fun m hm => ?_
  obtain ⟨x, hx, rfl⟩ := List.mem_map.1 hm
  exact hzero x (Table.mem_delete.1 hx).2

end Sums

/-! ## 3. `SUM` -/

/-- SQLite's `SUM` over non-negative integers up to `limit`. -/
def sqlSum (limit : Nat) : Nat → List Nat → Option Nat
  | acc, [] => some acc
  | acc, n :: rest => if limit < acc + n then none else sqlSum limit (acc + n) rest

/-- **`SUM` answers exactly if the sum is in range.** -/
theorem sqlSum_eq {limit acc : Nat} (hacc : acc ≤ limit) (l : List Nat) :
    sqlSum limit acc l = if acc + l.sum ≤ limit then some (acc + l.sum) else none := by
  induction l generalizing acc with
  | nil => simp [sqlSum, hacc]
  | cons n rest ih =>
    rw [sqlSum, List.sum_cons, ← Nat.add_assoc]
    by_cases hover : limit < acc + n
    · rw [if_pos hover, if_neg (by omega)]
    · rw [if_neg hover, ih (Nat.le_of_not_lt hover)]

/-! ## 4. Sums over neighbours -/

/-- The sum of a quantity over neighbouring elements. -/
def pairSum {α M : Type} [AddMonoid M] (f : α → α → M) : List α → M
  | a :: b :: l => f a b + pairSum f (b :: l)
  | _ => 0

/-- One more element adds the quantity from the last one. -/
theorem pairSum_snoc {α M : Type} [AddMonoid M] (f : α → α → M) (a c : α) (l : List α) :
    pairSum f (a :: (l ++ [c])) = pairSum f (a :: l) + f (l.getLastD a) c := by
  induction l generalizing a with
  | nil =>
    have hnil : f a c + 0 = 0 + f a c := by rw [add_zero, zero_add]
    exact hnil
  | cons b l ih =>
    rw [List.cons_append, pairSum, ih b, ← add_assoc, List.getLastD_cons]
    rfl

end DeveSub
