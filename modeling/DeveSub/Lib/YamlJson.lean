/-
  File:      DeveSub/Lib/YamlJson.lean
  Subject:   YAML values as JSON values, as a loader into a JSON tree makes them.

  * `Yaml.toJson` -- the conversion;
  * `Yaml.toJson_map`, `Yaml.toJson_seq` -- members and items are converted one by one.
-/
import DeveSub.Lib.Json
import DeveSub.Lib.YamlBlock

namespace DeveSub.Yaml

/-- An integer as a JSON number; one outside the two integer types keeps its text only. -/
def intJson (n : Int) : Json :=
  if 0 ≤ n ∧ n < 18446744073709551616 then .num (.posInt (UInt64.ofNat n.toNat))
  else if -9223372036854775808 ≤ n ∧ n < 0 then .num (.negInt n)
  else .num (.float ((if n < 0 then ['-'] else []) ++ natText n.natAbs))

mutual

/-- The JSON value of a YAML value. -/
def toJson : Yaml → Json
  | .null => .null
  | .bool b => .bool b
  | .int n => intJson n
  | .num text => .num (.float text)
  | .str s => .str s
  | .seq items => .arr (itemsJson items)
  | .map ms => .obj (membersJson ms)

def itemsJson : List Yaml → List Json
  | [] => []
  | v :: vs => toJson v :: itemsJson vs

def membersJson : List (Str × Yaml) → List (Str × Json)
  | [] => []
  | (k, v) :: ms => (k, toJson v) :: membersJson ms

end

theorem itemsJson_eq (items : List Yaml) : itemsJson items = items.map toJson := by
  induction items with
  | nil => rw [itemsJson, List.map_nil]
  | cons v items ih => rw [itemsJson, ih, List.map_cons]

theorem membersJson_eq (ms : List (Str × Yaml)) :
    membersJson ms = ms.map fun m => (m.1, m.2.toJson) := by
  induction ms with
  | nil => rw [membersJson, List.map_nil]
  | cons m ms ih =>
      obtain ⟨k, v⟩ := m
      rw [membersJson, ih, List.map_cons]

theorem toJson_seq (items : List Yaml) : toJson (.seq items) = .arr (items.map toJson) := by
  rw [toJson, itemsJson_eq]

theorem toJson_map (ms : List (Str × Yaml)) :
    toJson (.map ms) = .obj (ms.map fun m => (m.1, m.2.toJson)) := by
  rw [toJson, membersJson_eq]

@[simp] theorem toJson_str (s : Str) : toJson (.str s) = .str s := by rw [toJson]

/-- A natural number below `2 ^ 64`. -/
theorem toJson_nat {n : Nat} (h : n < 18446744073709551616) : toJson (.int n) = Json.ofNat n := by
  have hrange : 0 ≤ (n : Int) ∧ (n : Int) < 18446744073709551616 := by omega
  rw [toJson, intJson, if_pos hrange, Int.toNat_natCast]
  rfl

end DeveSub.Yaml
