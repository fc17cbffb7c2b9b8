/-
  File:      DeveSub/Lib/Database.lean
  Subject:   Tables with a primary key, and transactions on a store.

  A table is a list of rows no two of which have the same key; the constraint is a field, so a
  table that breaks it cannot be built. The statements are an insertion, which a key that is
  already there refuses, an update that keeps keys, and a deletion. A transaction either commits
  or leaves the store as it was.
-/
import Mathlib.Data.List.Forall2
import Mathlib.Data.List.Nodup
import DeveSub.Lib.Fallible

namespace DeveSub

variable {α κ σ ε τ β : Type}

/-! ## 1. Tables -/

/-- The primary key of a row. -/
class Keyed (α : Type) (κ : outParam Type) where
  key : α → κ

open Keyed

/-- **A table**: its rows have pairwise different keys. -/
structure Table (α : Type) {κ : Type} [Keyed α κ] where
  rows : List α
  unique : (rows.map key).Nodup

namespace Table

variable [Keyed α κ]

instance : Membership α (Table α) := ⟨fun t r => r ∈ t.rows⟩

theorem mem_def {t : Table α} {r : α} : r ∈ t ↔ r ∈ t.rows := Iff.rfl

/-- The table without rows. -/
def empty : Table α := ⟨[], List.nodup_nil⟩

@[simp] theorem not_mem_empty (r : α) : r ∉ (empty : Table α) := by simp [mem_def, empty]

theorem ext {t t' : Table α} (h : t.rows = t'.rows) : t = t' := by
  cases t
  cases t'
  cases h
  rfl

/-- **Two rows with one key are one row.** -/
theorem eq_of_key {t : Table α} {x y : α} (hx : x ∈ t) (hy : y ∈ t) (h : key x = key y) : x = y :=
  List.inj_on_of_nodup_map t.unique hx hy h

/-- `DELETE ... WHERE`. -/
def delete (t : Table α) (p : α → Bool) : Table α :=
  ⟨t.rows.filter fun r => !p r, t.unique.sublist (List.filter_sublist.map key)⟩

@[simp] theorem mem_delete {t : Table α} {p : α → Bool} {r : α} :
    r ∈ t.delete p ↔ r ∈ t ∧ p r = false := by
  simp [mem_def, delete]

/-- `UPDATE ... SET ... WHERE`: the change keeps the key. -/
def update (t : Table α) (p : α → Bool) (f : α → α) (hf : ∀ r, key (f r) = key r) : Table α where
  rows := t.rows.map fun r => if p r then f r else r
  unique := by
    have hkeys : (t.rows.map fun r => if p r then f r else r).map key = t.rows.map key := by
      rw [List.map_map]
      refine List.map_congr_left fun r _ => ?_
      by_cases hp : p r <;> simp [hp, hf]
    rw [hkeys]
    exact t.unique

@[simp] theorem mem_update {t : Table α} {p : α → Bool} {f : α → α}
    {hf : ∀ r, key (f r) = key r} {r : α} :
    r ∈ t.update p f hf ↔ ∃ x ∈ t, (if p x then f x else x) = r := by
  simp [mem_def, update]

/-- A row that the update does not select stays. -/
theorem mem_update_of_not {t : Table α} {p : α → Bool} {f : α → α} {hf : ∀ r, key (f r) = key r}
    {r : α} (hr : r ∈ t) (hp : p r = false) : r ∈ t.update p f hf :=
  mem_update.2 ⟨r, hr, by simp [hp]⟩

/-- An update keeps the keys of a table. -/
theorem exists_mem_update {t : Table α} (p : α → Bool) {f : α → α} (hf : ∀ r, key (f r) = key r)
    {r : α} (hr : r ∈ t) : ∃ x ∈ t.update p f hf, key x = key r := by
  refine ⟨_, mem_update.2 ⟨r, hr, rfl⟩, ?_⟩
  by_cases hp : p r <;> simp [hp, hf]

variable [DecidableEq κ]

/-- `INSERT`: refused when the key is there. -/
def insert (t : Table α) (r : α) : Option (Table α) :=
  if h : key r ∈ t.rows.map key then none
  else some ⟨t.rows ++ [r], by
    rw [List.map_append, List.map_singleton]
    exact List.nodup_append.2 ⟨t.unique, List.nodup_singleton _, fun a ha b hb => by
      rw [List.mem_singleton.1 hb]
      rintro rfl
      exact h ha⟩⟩

/-- The new row is the last one. -/
theorem insert_rows {t t' : Table α} {r : α} (h : t.insert r = some t') :
    t'.rows = t.rows ++ [r] := by
  unfold insert at h
  split at h
  · cases h
  · obtain rfl := Option.some.inj h
    rfl

theorem mem_insert {t t' : Table α} {r x : α} (h : t.insert r = some t') :
    x ∈ t' ↔ x ∈ t ∨ x = r := by
  rw [mem_def, insert_rows h]
  simp [mem_def]

/-- The inserted row's key was free. -/
theorem key_ne_of_insert {t t' : Table α} {r x : α} (h : t.insert r = some t') (hx : x ∈ t) :
    key x ≠ key r := by
  unfold insert at h
  split at h
  · cases h
  · rename_i hfree
    intro heq
    exact hfree (heq ▸ List.mem_map_of_mem hx)

/-- `INSERT ... ON CONFLICT DO UPDATE`: a row with the key is merged, another one is added. -/
def upsert (t : Table α) (r : α) (merge : α → α) (hm : ∀ x, key (merge x) = key x) : Table α :=
  match t.insert r with
  | some t' => t'
  | none => t.update (fun x => key x = key r) merge hm

/-- The row with a key. -/
def find (t : Table α) (k : κ) : Option α := t.rows.find? fun r => key r = k

theorem find_eq_some {t : Table α} {k : κ} {r : α} : t.find k = some r ↔ r ∈ t ∧ key r = k := by
  constructor
  · intro h
    exact ⟨List.mem_of_find?_eq_some h, by simpa using List.find?_some h⟩
  · rintro ⟨hr, hk⟩
    cases hf : t.find k with
    | none =>
      have hnone := List.find?_eq_none.1 hf r hr
      simp [hk] at hnone
    | some x =>
      have hx := List.mem_of_find?_eq_some hf
      have hkx : key x = k := by simpa using List.find?_some hf
      rw [eq_of_key hx hr (hkx.trans hk.symm)]

theorem find_eq_none {t : Table α} {k : κ} : t.find k = none ↔ ∀ r ∈ t, key r ≠ k := by
  simp [find, mem_def]

/-- **What a lookup finds after an update.** -/
theorem find_update (t : Table α) (p : α → Bool) (f : α → α) (hf : ∀ r, key (f r) = key r) (k : κ) :
    (t.update p f hf).find k = (t.find k).map fun r => if p r then f r else r := by
  have hkey : ∀ r : α, key (if p r then f r else r) = key r := by
    intro r
    by_cases hp : p r <;> simp [hp, hf]
  simp only [find, update, List.find?_map, Function.comp_def, hkey]

/-- **What a lookup finds after a deletion.** -/
theorem find_delete (t : Table α) (p : α → Bool) (k : κ) :
    (t.delete p).find k = (t.find k).filter fun r => !p r := by
  refine Option.ext fun r => ?_
  rw [Option.filter_eq_some_iff, find_eq_some, find_eq_some, mem_delete]
  simp only [Bool.not_eq_true']
  tauto

/-- A deletion by key hides exactly the keys it selects. -/
theorem find_delete_of_key (t : Table α) {p : α → Bool} {q : κ → Bool} (hp : ∀ r, p r = q (key r))
    (k : κ) : (t.delete p).find k = if q k then none else t.find k := by
  rw [find_delete]
  cases hfind : t.find k with
  | none => simp
  | some r =>
    rw [Option.filter_some, hp r, (find_eq_some.1 hfind).2]
    cases q k <;> rfl

/-- **What a lookup finds after an insertion.** -/
theorem find_insert {t t' : Table α} {r : α} (h : t.insert r = some t') (k : κ) :
    t'.find k = if key r = k then some r else t.find k := by
  refine Option.ext fun x => ?_
  rw [find_eq_some, mem_insert h]
  by_cases hk : key r = k
  · rw [if_pos hk, Option.some.injEq]
    constructor
    · intro hx
      rcases hx with ⟨hx | rfl, hkx⟩
      · exact absurd (hkx.trans hk.symm) (key_ne_of_insert h hx)
      · rfl
    · intro hx
      exact hx ▸ ⟨.inr rfl, hk⟩
  · rw [if_neg hk, find_eq_some]
    constructor
    · intro hx
      rcases hx with ⟨hx | rfl, hkx⟩
      · exact ⟨hx, hkx⟩
      · exact absurd hkx hk
    · intro hx
      exact ⟨.inl hx.1, hx.2⟩

theorem insert_eq_none {t : Table α} {r : α} (h : t.insert r = none) : ∃ x, t.find (key r) = some x := by
  unfold insert at h
  split at h
  · rename_i hmem
    obtain ⟨x, hx, hk⟩ := List.mem_map.1 hmem
    exact ⟨x, find_eq_some.2 ⟨hx, hk⟩⟩
  · cases h

/-- **What a lookup finds after an upsert.** -/
theorem find_upsert (t : Table α) (r : α) (merge : α → α) (hm : ∀ x, key (merge x) = key x) (k : κ) :
    (t.upsert r merge hm).find k =
      if key r = k then some ((t.find k).elim r merge) else t.find k := by
  unfold upsert
  cases hi : t.insert r with
  | some t' =>
    have hnew : t.find (key r) = none := find_eq_none.2 fun x hx => key_ne_of_insert hi hx
    simp only [find_insert hi]
    by_cases hk : key r = k
    · subst hk
      simp [hnew]
    · simp [hk]
  | none =>
    simp only [find_update]
    by_cases hk : key r = k
    · subst hk
      obtain ⟨x, hx⟩ := insert_eq_none hi
      simp [hx, (find_eq_some.1 hx).2]
    · rw [if_neg hk]
      cases hx : t.find k with
      | none => rfl
      | some x => simp [(find_eq_some.1 hx).2, Ne.symm hk]

end Table

/-! ## 2. Transactions -/

/-- A transaction: it fails, or answers and changes the store. -/
abbrev Tx (σ ε α : Type) := σ → Except ε (α × σ)

/-- **A transaction commits as a whole or not at all.** -/
def commit (tx : Tx σ ε α) (s : σ) : Except ε α × σ :=
  match tx s with
  | .ok (a, s') => (.ok a, s')
  | .error e => (.error e, s)

theorem commit_eq {tx : Tx σ ε α} {s s' : σ} {r : Except ε α} (h : commit tx s = (r, s')) :
    (∃ a, r = .ok a ∧ tx s = .ok (a, s')) ∨ (∃ e, r = .error e ∧ tx s = .error e ∧ s' = s) := by
  unfold commit at h
  split at h
  · rename_i a t htx
    obtain ⟨rfl, rfl⟩ := Prod.mk.inj h
    exact .inl ⟨a, rfl, htx⟩
  · rename_i e htx
    obtain ⟨rfl, rfl⟩ := Prod.mk.inj h
    exact .inr ⟨e, rfl, htx, rfl⟩

/-- A read answers the value or a storage fault, and changes nothing. -/
def Reads (value : α) (fault : τ → ε) (db : σ) (reply : Except ε α) (db' : σ) : Prop :=
  (reply = .ok value ∨ ∃ message, reply = .error (fault message)) ∧ db' = db

/-- A write commits, is refused by its transaction, or meets a storage fault; only the first
    changes the database. -/
def Writes (tx : Tx σ ε α) (fault : τ → ε) (db : σ) (reply : Except ε α) (db' : σ) : Prop :=
  commit tx db = (reply, db') ∨ (∃ message, reply = .error (fault message)) ∧ db' = db

theorem Writes.cases {tx : Tx σ ε α} {fault : τ → ε} {db db' : σ} {reply : Except ε α}
    (h : Writes tx fault db reply db') :
    (∃ a, reply = .ok a ∧ tx db = .ok (a, db')) ∨ (∃ e, reply = .error e) ∧ db' = db := by
  rcases h with h | ⟨⟨m, hm⟩, hdb⟩
  · rcases commit_eq h with hok | ⟨e, he, -, hdb⟩
    · exact .inl hok
    · exact .inr ⟨⟨e, he⟩, hdb⟩
  · exact .inr ⟨⟨_, hm⟩, hdb⟩

/-- A write that answers has committed. -/
theorem Writes.committed {tx : Tx σ ε α} {fault : τ → ε} {db db' : σ} {a : α}
    (h : Writes tx fault db (.ok a) db') : tx db = .ok (a, db') := by
  rcases h.cases with ⟨b, hb, htx⟩ | ⟨⟨e, he⟩, -⟩
  · rw [Except.ok.inj hb]
    exact htx
  · cases he

/-- A read that answers has read the value. -/
theorem Reads.value {value a : α} {fault : τ → ε} {db db' : σ}
    (h : Reads value fault db (.ok a) db') : a = value := by
  rcases h.1 with h | ⟨m, h⟩
  · exact Except.ok.inj h
  · cases h

/-! ## 3. Batches -/

/-- `slice::chunks`, with one step of fuel for each element. -/
def chunksFuel (n : Nat) : Nat → List α → List (List α)
  | 0, _ => []
  | _ + 1, [] => []
  | fuel + 1, l => l.take n :: chunksFuel n fuel (l.drop n)

/-- `slice::chunks`. -/
def chunks (n : Nat) (l : List α) : List (List α) := chunksFuel n l.length l

theorem flatten_chunksFuel {n : Nat} (hn : 0 < n) :
    ∀ (fuel : Nat) (l : List α), l.length ≤ fuel → (chunksFuel n fuel l).flatten = l
  | 0, l, h => by
    rw [List.length_eq_zero_iff.1 (Nat.le_zero.1 h)]
    rfl
  | fuel + 1, [], _ => rfl
  | fuel + 1, x :: l, h => by
    have hlen : ((x :: l).drop n).length ≤ fuel := by
      rw [List.length_drop]
      simp only [List.length_cons] at h ⊢
      omega
    rw [chunksFuel, List.flatten_cons, flatten_chunksFuel hn fuel _ hlen, List.take_append_drop]
    exact List.cons_ne_nil x l

/-- **The batches of a list, one after the other, are the list.** -/
theorem flatten_chunks {n : Nat} (hn : 0 < n) (l : List α) : (chunks n l).flatten = l :=
  flatten_chunksFuel hn l.length l (Nat.le_refl _)

/-! ## 4. Lists side by side -/

theorem exists_of_mem_left {R : α → β → Prop} {l : List α} {l' : List β} (h : List.Forall₂ R l l')
    {a : α} (ha : a ∈ l) : ∃ b ∈ l', R a b := by
  induction h with
  | nil => cases ha
  | cons hab _ ih =>
    rcases List.mem_cons.1 ha with rfl | ha
    · exact ⟨_, List.mem_cons_self, hab⟩
    · obtain ⟨b, hb, hr⟩ := ih ha
      exact ⟨b, List.mem_cons_of_mem _ hb, hr⟩

theorem exists_of_mem_right {R : α → β → Prop} {l : List α} {l' : List β} (h : List.Forall₂ R l l')
    {b : β} (hb : b ∈ l') : ∃ a ∈ l, R a b :=
  exists_of_mem_left h.flip hb

theorem exists_of_getElem? {R : α → β → Prop} {l : List α} {l' : List β} (h : List.Forall₂ R l l')
    {i : Nat} {a : α} (ha : l[i]? = some a) : ∃ b, l'[i]? = some b ∧ R a b := by
  induction h generalizing i with
  | nil => cases ha
  | cons hab _ ih =>
    cases i with
    | zero =>
      obtain rfl := Option.some.inj ha
      exact ⟨_, rfl, hab⟩
    | succ i => exact ih ha

/-- Two lists side by side with a third. -/
theorem forall₂_of_zip {γ : Type} {R : α → β → Prop} {S : α × β → γ → Prop} {l : List α}
    {l' : List β} {l'' : List γ} (h : List.Forall₂ R l l') (hs : List.Forall₂ S (l.zip l') l'') :
    List.Forall₂ (fun a c => ∃ b, R a b ∧ S (a, b) c) l l'' := by
  induction h generalizing l'' with
  | nil =>
    cases hs
    exact .nil
  | cons hab _ ih =>
    cases hs with
    | cons hc hs => exact .cons ⟨_, hab, hc⟩ (ih hs)

/-- **A successful `mapM`** has one result beside each argument. -/
theorem mapM_eq_ok {f : α → Except ε β} {xs : List α} {ys : List β} :
    xs.mapM f = .ok ys ↔ List.Forall₂ (fun x y => f x = .ok y) xs ys := by
  induction xs generalizing ys with
  | nil =>
    rw [List.mapM_nil, List.forall₂_nil_left_iff]
    exact ⟨fun h => (Except.ok.inj h).symm, fun h => congrArg Except.ok h.symm⟩
  | cons x xs ih =>
    rw [List.mapM_cons, List.forall₂_cons_left_iff, bind_eq_ok]
    constructor
    · intro h
      obtain ⟨y, hy, h⟩ := h
      obtain ⟨zs, hzs, h⟩ := bind_eq_ok.1 h
      exact ⟨y, zs, hy, ih.1 hzs, (Except.ok.inj h).symm⟩
    · intro h
      obtain ⟨y, zs, hy, hzs, rfl⟩ := h
      exact ⟨y, hy, bind_eq_ok.2 ⟨zs, ih.2 hzs, rfl⟩⟩

end DeveSub
