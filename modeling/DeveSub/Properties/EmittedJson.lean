/-
  File:      DeveSub/Properties/EmittedJson.lean
  Subject:   The JSON objects the emitters put together, seen from the reader's side: what a key
             finds in them, and that their text reads back.

  An emitter appends members one by one, most of them optional. Here such an object is a table of
  rows, each a key with its value if it is written; a reader sees the table alone.

  * **`get_rowMembers`** -- a key finds the value of its row;
  * **`canonical_rowMembers`** -- an object with readable values reads back from its text.
-/
import DeveSub.Emitter.Common
import DeveSub.Lib.JsonText
import DeveSub.Protocol.Container

namespace DeveSub

/-! ## 1. Rows -/

/-- The members of an object as a table: each key with its value, if it is written. -/
abbrev Rows := List (Str × Option Json)

/-- The members the rows stand for. -/
def rowMembers (rows : Rows) : List (Str × Json) := rows.flatMap fun r => member r.1 r.2

/-- The value of the row of a key. -/
def rowValue (rows : Rows) (key : Str) : Option Json := (rows.find? fun r => r.1 = key).bind Prod.snd

@[simp] theorem rowMembers_nil : rowMembers [] = [] := rfl

@[simp] theorem rowMembers_cons (k : Str) (v : Option Json) (rows : Rows) :
    rowMembers ((k, v) :: rows) = member k v ++ rowMembers rows := rfl

theorem rowMembers_append (a b : Rows) : rowMembers (a ++ b) = rowMembers a ++ rowMembers b :=
  List.flatMap_append

@[simp] theorem member_some (k : Str) (v : Json) : member k (some v) = [(k, v)] := rfl

@[simp] theorem member_none (k : Str) : member k none = [] := rfl

/-- A member that is written unless a condition holds. -/
theorem member_ite (c : Prop) [Decidable c] (k : Str) (v : Json) :
    member k (if c then none else some v) = if c then [] else [(k, v)] := by
  by_cases hc : c
  · rw [if_pos hc, if_pos hc]
    rfl
  · rw [if_neg hc, if_neg hc]
    rfl

theorem keys_rowMembers (rows : Rows) : ((rowMembers rows).map Prod.fst).Sublist (rows.map Prod.fst) := by
  induction rows with
  | nil => exact List.Sublist.refl []
  | cons r rows ih =>
      obtain ⟨k, v⟩ := r
      cases v with
      | none => exact ih.cons k
      | some v => exact ih.cons_cons k

/-- A key without a row finds nothing. -/
theorem get_rowMembers_of_not_mem {rows : Rows} {key : Str} (h : key ∉ rows.map Prod.fst) :
    (Json.obj (rowMembers rows)).get key = none := by
  have hfind : (rowMembers rows).find? (fun m => m.1 = key) = none := by
    rw [List.find?_eq_none]
    intro m hm heq
    have hmem := (keys_rowMembers rows).subset (List.mem_map_of_mem hm)
    rw [of_decide_eq_true heq] at hmem
    exact h hmem
  rw [Json.get, hfind]
  rfl

/-- **A key finds the value of its row.** -/
theorem get_rowMembers {rows : Rows} (h : (rows.map Prod.fst).Nodup) (key : Str) :
    (Json.obj (rowMembers rows)).get key = rowValue rows key := by
  induction rows with
  | nil => rfl
  | cons r rows ih =>
      obtain ⟨k, v⟩ := r
      obtain ⟨hk, hrows⟩ := List.nodup_cons.mp h
      by_cases hkey : k = key
      · have hvalue : rowValue ((k, v) :: rows) key = v := by simp [rowValue, hkey]
        rw [hvalue]
        cases v with
        | none =>
            rw [hkey] at hk
            show (Json.obj (rowMembers rows)).get key = none
            exact get_rowMembers_of_not_mem hk
        | some v =>
            show (Json.obj ((k, v) :: rowMembers rows)).get key = _
            rw [Json.get_obj_cons, if_pos hkey]
      · have hvalue : rowValue ((k, v) :: rows) key = rowValue rows key := by simp [rowValue, hkey]
        rw [hvalue, ← ih hrows]
        cases v with
        | none => rfl
        | some v =>
            show (Json.obj ((k, v) :: rowMembers rows)).get key = _
            rw [Json.get_obj_cons, if_neg hkey]

/-! ## 2. Fields -/

section Fields

variable {v : Json} {key : Str}

theorem getStr_of_get {s : Option Str} (h : v.get key = s.map Json.str) : getStr v key = s := by
  rw [getStr, h]
  cases s <;> rfl

theorem filterMap_asStr (items : List Str) : (items.map Json.str).filterMap Json.asStr = items := by
  rw [List.filterMap_map]
  exact List.filterMap_some

/-- A list that is left out when it is empty. -/
theorem getStrArray_of_get {items : List Str}
    (h : v.get key = if items.isEmpty then none else some (strs items)) :
    getStrArray v key = items := by
  rw [getStrArray, h]
  cases items with
  | nil => rfl
  | cons s items => exact filterMap_asStr (s :: items)

/-- A list that is always written. -/
theorem getStrArray_strs {items : List Str} (h : v.get key = some (strs items)) :
    getStrArray v key = items := by
  rw [getStrArray, h]
  exact filterMap_asStr items

/-- Three octets of an array. -/
def octetsJson (r : UInt8 × UInt8 × UInt8) : Json :=
  .arr [Json.ofNat r.1.toNat, Json.ofNat r.2.1.toNat, Json.ofNat r.2.2.toNat]

theorem octet?_ofNat (x : UInt8) : octet? (Json.ofNat x.toNat) = some x := by
  have hx : x.toNat < 256 := x.toNat_lt
  have hval : (UInt64.ofNat x.toNat).toNat = x.toNat :=
    UInt64.toNat_ofNat_of_lt' (Nat.lt_trans hx (by decide))
  show (if (UInt64.ofNat x.toNat).toNat < 256 then
    some (UInt8.ofNat (UInt64.ofNat x.toNat).toNat) else none) = some x
  rw [hval, if_pos hx, UInt8.ofNat_toNat]

theorem parseReservedArray_octets (r : Option (UInt8 × UInt8 × UInt8)) :
    parseReservedArray (r.map octetsJson) = r := by
  cases r with
  | none => rfl
  | some r =>
      obtain ⟨a, b, c⟩ := r
      show ((octet? (Json.ofNat a.toNat)).bind fun x => (octet? (Json.ofNat b.toNat)).bind fun y =>
        (octet? (Json.ofNat c.toNat)).bind fun z => some (x, y, z)) = _
      rw [octet?_ofNat, octet?_ofNat, octet?_ofNat]
      rfl

end Fields

/-! ## 3. Reading back -/

section Canonical

variable (float : Str → Option Str)

/-- The value, if it is written, reads back. -/
def OptCanonical (v : Option Json) : Prop := ∀ w, v = some w → Json.Canonical float w

@[simp] theorem optCanonical_none : OptCanonical float none := fun _ h => by cases h

@[simp] theorem optCanonical_some {v : Json} : OptCanonical float (some v) ↔ Json.Canonical float v := by
  constructor
  · intro h
    exact h v rfl
  · intro h w hw
    cases hw
    exact h

@[simp] theorem optCanonical_map {α : Type} {f : α → Json} {a : Option α} :
    OptCanonical float (a.map f) ↔ ∀ x, a = some x → Json.Canonical float (f x) := by
  cases a <;> simp

@[simp] theorem optCanonical_ite {c : Prop} [Decidable c] {v w : Option Json} :
    OptCanonical float (if c then v else w) ↔
      (c → OptCanonical float v) ∧ (¬ c → OptCanonical float w) := by
  by_cases hc : c <;> simp [hc]

@[simp] theorem canonical_str (s : Str) : Json.Canonical float (.str s) := by
  rw [Json.Canonical]
  trivial

@[simp] theorem canonical_ofNat (n : Nat) : Json.Canonical float (Json.ofNat n) := by
  rw [Json.ofNat, Json.Canonical, Json.CanonicalNum]
  trivial

@[simp] theorem canonical_arr {items : List Json} :
    Json.Canonical float (.arr items) ↔ ∀ v ∈ items, Json.Canonical float v := by
  rw [Json.Canonical]
  exact Json.canonicalItems_iff float

@[simp] theorem canonical_strs (items : List Str) : Json.Canonical float (strs items) := by
  rw [strs, canonical_arr]
  intro v hv
  obtain ⟨s, -, rfl⟩ := List.mem_map.mp hv
  exact canonical_str float s

@[simp] theorem canonical_octetsJson (r : UInt8 × UInt8 × UInt8) :
    Json.Canonical float (octetsJson r) := by
  simp [octetsJson]

theorem canonical_obj {ms : List (Str × Json)} :
    Json.Canonical float (.obj ms) ↔
      (ms.map Prod.fst).Nodup ∧ ∀ m ∈ ms, Json.Canonical float m.2 := by
  rw [Json.Canonical, Json.canonicalMembers_iff]

/-- **An object of readable rows reads back.** -/
theorem canonical_rowMembers {rows : Rows} (hkeys : (rows.map Prod.fst).Nodup)
    (hvalues : ∀ r ∈ rows, OptCanonical float r.2) : Json.Canonical float (.obj (rowMembers rows)) := by
  refine (canonical_obj float).mpr ⟨hkeys.sublist (keys_rowMembers rows), fun m hm => ?_⟩
  obtain ⟨r, hr, hm⟩ := List.mem_flatMap.mp hm
  have hrow := hvalues r hr
  cases hv : r.2 with
  | none =>
      rw [hv] at hm
      cases hm
  | some v =>
      rw [hv] at hm hrow
      rw [List.mem_singleton.mp hm]
      exact (optCanonical_some float).mp hrow

end Canonical

end DeveSub
