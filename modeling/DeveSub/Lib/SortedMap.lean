/-
  File:      DeveSub/Lib/SortedMap.lean
  Subject:   A map as the list of its entries, in the order of the keys (`BTreeMap`).

  The map carries that its keys increase. Looking up, `entry(k).or_insert(..)` with a change of the
  value, `retain` and `remove` are the operations; iterating is `entries`.

  * `get?_update`, `get?_retain`, `get?_remove` -- looking up after a change;
  * `getD_fill` -- a map filled in a loop holds, at each key, the loop over the items of
    that key;
  * `entries_eq_filterMap` -- iterating, when the keys are among those of a sorted list.
-/
import Mathlib.Data.List.Lex
import Mathlib.Order.Lattice

namespace DeveSub

/-- **A map in the order of its keys.** -/
structure SortedMap (κ ν : Type) [LinearOrder κ] where
  entries : List (κ × ν)
  sorted : entries.Pairwise fun a b => a.1 < b.1

namespace SortedMap

variable {κ ν α : Type} [LinearOrder κ]

/-! ## 1. Operations -/

/-- The map without entries. -/
def empty : SortedMap κ ν := ⟨[], .nil⟩

/-- `get`. -/
def get? (m : SortedMap κ ν) (k : κ) : Option ν := (m.entries.find? fun e => e.1 = k).map Prod.snd

/-- The entries with the one of `k` changed, or added at its place. -/
def updateEntries (k : κ) (f : Option ν → ν) : List (κ × ν) → List (κ × ν)
  | [] => [(k, f none)]
  | e :: es =>
    if k < e.1 then (k, f none) :: e :: es
    else if e.1 = k then (k, f (some e.2)) :: es
    else e :: updateEntries k f es

theorem mem_updateEntries {k : κ} {f : Option ν → ν} {es : List (κ × ν)} {e : κ × ν}
    (h : e ∈ updateEntries k f es) : e.1 = k ∨ e ∈ es := by
  induction es with
  | nil =>
    rw [updateEntries, List.mem_singleton] at h
    exact .inl (by rw [h])
  | cons x es ih =>
    rw [updateEntries] at h
    split at h
    · rcases List.mem_cons.1 h with rfl | h
      · exact .inl rfl
      · exact .inr h
    split at h
    · rcases List.mem_cons.1 h with rfl | h
      · exact .inl rfl
      · exact .inr (List.mem_cons_of_mem _ h)
    · rcases List.mem_cons.1 h with rfl | h
      · exact .inr List.mem_cons_self
      · exact (ih h).imp_right (List.mem_cons_of_mem _)

theorem sorted_updateEntries (k : κ) (f : Option ν → ν) {es : List (κ × ν)}
    (h : es.Pairwise fun a b => a.1 < b.1) :
    (updateEntries k f es).Pairwise fun a b => a.1 < b.1 := by
  induction es with
  | nil => exact List.pairwise_singleton _ _
  | cons x es ih =>
    obtain ⟨hx, hes⟩ := List.pairwise_cons.1 h
    rw [updateEntries]
    split
    · rename_i hlt
      refine List.pairwise_cons.2 ⟨fun e he => ?_, h⟩
      rcases List.mem_cons.1 he with rfl | he
      · exact hlt
      · exact hlt.trans (hx e he)
    rename_i hle
    split
    · rename_i heq
      exact List.pairwise_cons.2 ⟨fun e he => heq ▸ hx e he, hes⟩
    · rename_i hne
      refine List.pairwise_cons.2 ⟨fun e he => ?_, ih hes⟩
      rcases mem_updateEntries he with hk | he
      · rw [hk]
        exact lt_of_le_of_ne (not_lt.1 hle) hne
      · exact hx e he

/-- `entry(k)`, with the value it is left with. -/
def update (m : SortedMap κ ν) (k : κ) (f : Option ν → ν) : SortedMap κ ν :=
  ⟨updateEntries k f m.entries, sorted_updateEntries k f m.sorted⟩

/-- `retain`, the map it leaves. -/
def retain (m : SortedMap κ ν) (keep : κ → ν → Bool) : SortedMap κ ν :=
  ⟨m.entries.filter fun e => keep e.1 e.2, m.sorted.filter _⟩

/-- `remove`, the map it leaves. -/
def remove (m : SortedMap κ ν) (k : κ) : SortedMap κ ν := m.retain fun j _ => j ≠ k

/-! ## 2. Looking up -/

@[simp] theorem get?_empty (k : κ) : (empty : SortedMap κ ν).get? k = none := rfl

/-- The value of a key is the one of its entry. -/
theorem get?_eq_some {m : SortedMap κ ν} {k : κ} {v : ν} : m.get? k = some v ↔ (k, v) ∈ m.entries := by
  obtain ⟨es, hes⟩ := m
  rw [get?]
  dsimp only
  induction es with
  | nil => simp
  | cons e es ih =>
    obtain ⟨he, hes⟩ := List.pairwise_cons.1 hes
    rw [List.find?_cons]
    by_cases hk : e.1 = k
    · simp only [hk, decide_true, Option.map_some, Option.some.injEq, List.mem_cons]
      constructor
      · intro hv
        exact .inl (Prod.ext hk.symm hv.symm)
      · intro hmem
        rcases hmem with rfl | hmem
        · rfl
        · have hlt := he _ hmem
          rw [hk] at hlt
          exact absurd hlt (lt_irrefl k)
    · simp only [hk, decide_false]
      rw [ih hes, List.mem_cons]
      constructor
      · exact .inr
      · intro hmem
        rcases hmem with rfl | hmem
        · exact absurd rfl hk
        · exact hmem

/-- A key before the first entry is in no entry. -/
theorem find?_eq_none_of_lt {k : κ} {x : κ × ν} {es : List (κ × ν)} (hlt : k < x.1)
    (hx : ∀ e ∈ es, x.1 < e.1) : (x :: es).find? (fun e => e.1 = k) = none := by
  rw [List.find?_eq_none]
  intro e he
  rw [decide_eq_true_eq]
  intro hk
  rcases List.mem_cons.1 he with rfl | he
  · exact absurd hk hlt.ne'
  · exact absurd hk (hlt.trans (hx e he)).ne'

theorem find?_updateEntries (k j : κ) (f : Option ν → ν) {es : List (κ × ν)}
    (h : es.Pairwise fun a b => a.1 < b.1) :
    ((updateEntries k f es).find? fun e => e.1 = j).map Prod.snd =
      if j = k then some (f ((es.find? fun e => e.1 = k).map Prod.snd))
      else (es.find? fun e => e.1 = j).map Prod.snd := by
  induction es with
  | nil =>
    by_cases hj : j = k
    · simp [updateEntries, hj]
    · simp [updateEntries, hj, Ne.symm hj]
  | cons x es ih =>
    obtain ⟨hx, hes⟩ := List.pairwise_cons.1 h
    rw [updateEntries]
    split
    · rename_i hlt
      rw [find?_eq_none_of_lt hlt hx, List.find?_cons]
      by_cases hj : j = k
      · simp [hj]
      · simp [hj, Ne.symm hj]
    split
    · rename_i heq
      rw [List.find?_cons, List.find?_cons, List.find?_cons, heq]
      by_cases hj : j = k
      · simp [hj]
      · simp [hj, Ne.symm hj]
    · rename_i hne
      rw [List.find?_cons, List.find?_cons, List.find?_cons]
      by_cases hj : x.1 = j
      · have hjk : j ≠ k := by
          rw [← hj]
          exact hne
        simp [hj, hjk]
      · simp only [hj, hne, decide_false]
        exact ih hes

/-- **Looking up after a change.** -/
theorem get?_update (m : SortedMap κ ν) (k j : κ) (f : Option ν → ν) :
    (m.update k f).get? j = if j = k then some (f (m.get? k)) else m.get? j :=
  find?_updateEntries k j f m.sorted

/-- **Looking up after a `retain`.** -/
theorem get?_retain (m : SortedMap κ ν) (keep : κ → ν → Bool) (k : κ) :
    (m.retain keep).get? k = (m.get? k).filter (keep k) := by
  apply Option.ext
  intro v
  rw [Option.filter_eq_some_iff, get?_eq_some, get?_eq_some, retain, List.mem_filter]

/-- **Looking up after a removal.** -/
theorem get?_remove (m : SortedMap κ ν) {k j : κ} (h : j ≠ k) : (m.remove k).get? j = m.get? j := by
  rw [remove, get?_retain]
  cases m.get? j with
  | none => rfl
  | some v => simp [Option.filter, h]

/-! ## 3. A map that is filled in a loop -/

section Fill

variable (key : α → κ) (init : ν) (step : ν → α → ν)

/-- Each item changes the value of its key. -/
def fill (m : SortedMap κ ν) (items : List α) : SortedMap κ ν :=
  items.foldl (fun m x => m.update (key x) fun v => step (v.getD init) x) m

/-- **At each key stands the loop over the items of that key.** -/
theorem getD_fill [DecidableEq κ] (items : List α) (m : SortedMap κ ν) (k : κ) :
    ((fill key init step m items).get? k).getD init =
      (items.filter fun x => key x = k).foldl step ((m.get? k).getD init) := by
  induction items generalizing m with
  | nil => rfl
  | cons x items ih =>
    rw [fill, List.foldl_cons, ← fill, ih, get?_update, List.filter_cons]
    by_cases hk : key x = k
    · simp [hk]
    · simp [hk, Ne.symm hk]

/-- The keys are those of the items. -/
theorem isSome_fill [DecidableEq κ] (items : List α) (m : SortedMap κ ν) (k : κ) :
    ((fill key init step m items).get? k).isSome =
      ((m.get? k).isSome || items.any fun x => key x = k) := by
  induction items generalizing m with
  | nil => simp [fill]
  | cons x items ih =>
    rw [fill, List.foldl_cons, ← fill, ih, get?_update, List.any_cons]
    by_cases hk : key x = k
    · simp [hk]
    · simp [hk, Ne.symm hk]

end Fill

/-! ## 4. Iterating -/

/-- **Iterating goes through the keys in order**: when they are among those of a sorted list, the
    entries are those the list finds. -/
theorem entries_eq_filterMap (m : SortedMap κ ν) {keys : List κ} (hkeys : keys.Pairwise (· < ·))
    (hall : ∀ k, (m.get? k).isSome → k ∈ keys) :
    m.entries = keys.filterMap fun k => (m.get? k).map fun v => (k, v) := by
  have hsorted : (keys.filterMap fun k => (m.get? k).map fun v => (k, v)).Pairwise
      fun a b => a.1 < b.1 := by
    refine List.Pairwise.filterMap _ (fun a b hab x hx y hy => ?_) hkeys
    obtain ⟨v, -, rfl⟩ := Option.map_eq_some_iff.1 hx
    obtain ⟨w, -, rfl⟩ := Option.map_eq_some_iff.1 hy
    exact hab
  have hnodup : ∀ {l : List (κ × ν)}, l.Pairwise (fun a b => a.1 < b.1) → l.Nodup := by
    intro l hl
    refine hl.imp fun {a b} hab he => ?_
    rw [he] at hab
    exact absurd hab (lt_irrefl _)
  refine List.Perm.eq_of_pairwise ?_ m.sorted hsorted ?_
  · intro a b _ _ hab hba
    exact absurd (hab.trans hba) (lt_irrefl _)
  · rw [List.perm_ext_iff_of_nodup (hnodup m.sorted) (hnodup hsorted)]
    intro e
    rw [List.mem_filterMap]
    constructor
    · intro he
      have hget : m.get? e.1 = some e.2 := get?_eq_some.2 he
      exact ⟨e.1, hall _ (by rw [hget]; rfl), by rw [hget]; rfl⟩
    · intro he
      obtain ⟨k, -, he⟩ := he
      obtain ⟨v, hv, rfl⟩ := Option.map_eq_some_iff.1 he
      exact get?_eq_some.1 hv

end SortedMap

end DeveSub
