/-
  File:      DeveSub/Properties/MihomoRows.lean
  Subject:   The entries of a Mihomo document as a reader of its JSON tree sees them.

  A document is read as YAML and its entries are taken over as JSON. The layout of an entry becomes
  a table of rows, so that a reader's lookup is a lookup in the table.

  * `entryRows` -- the table of a node's entry;
  * **`proxyValue_toJson`** -- the entry read back is the object of the table;
  * **`get_entryRows`** -- a key finds the value of its row.
-/
import DeveSub.Lib.YamlJson
import DeveSub.Properties.EmittedJson
import DeveSub.Properties.MihomoYaml

namespace DeveSub.Mihomo

open Yaml (Block)

/-! ## 1. Values -/

/-- The JSON value of a layout. -/
def blockJson (b : Block Scalar) : Json := (b.value Scalar.value).toJson

theorem blockJson_scalar (s : Scalar) : blockJson (.scalar s) = s.value.toJson := by
  rw [blockJson, Block.value]

theorem map_given (s : Scalar) : (given s).map blockJson = some s.value.toJson := by
  rw [given, Option.map_some, blockJson_scalar]

theorem map_perhaps {α : Type} (scalar : α → Scalar) (value : Option α) :
    (perhaps scalar value).map blockJson = value.map fun a => (scalar a).value.toJson := by
  cases value with
  | none => rfl
  | some a => rw [perhaps, Option.map_some, Option.map_some, Option.map_some, blockJson_scalar]

theorem toJson_list (first : Str) (more : List Str) :
    (Scalar.list first more).value.toJson = strs (first :: more) := by
  rw [Scalar.value, Yaml.toJson_seq, strs, List.map_map]
  congr 1

theorem map_listed (items : List Str) :
    (listed items).map blockJson = if items.isEmpty then none else some (strs items) := by
  cases items with
  | nil => rfl
  | cons first more =>
      rw [listed, map_given, toJson_list]
      rfl

theorem toJson_bytes (a b c : UInt8) :
    (Scalar.bytes a b c).value.toJson =
      .arr [Json.ofNat a.toNat, Json.ofNat b.toNat, Json.ofNat c.toNat] := by
  have hbyte : ∀ x : UInt8, Yaml.toJson (.int x.toNat) = Json.ofNat x.toNat := by
    intro x
    have hx := x.toNat_lt
    exact Yaml.toJson_nat (by omega)
  rw [Scalar.value, Yaml.toJson_seq, List.map_cons, List.map_cons, List.map_cons, List.map_nil,
    hbyte, hbyte, hbyte]

/-! ## 2. Tables -/

/-- Rows with their values in JSON. -/
def jsonRows (rows : List Row) : Rows := rows.map fun r => (r.1, r.2.map blockJson)

theorem map_fst_jsonRows (rows : List Row) : (jsonRows rows).map Prod.fst = rows.map Prod.fst := by
  rw [jsonRows, List.map_map]
  rfl

theorem membersJson_present (rows : List Row) :
    ((Block.memberValues Scalar.value (present rows)).map fun m => (m.1, m.2.toJson)) =
      rowMembers (jsonRows rows) := by
  induction rows with
  | nil => rw [present, List.filterMap_nil, Block.memberValues]; rfl
  | cons r rows ih =>
      obtain ⟨k, b⟩ := r
      cases b with
      | none => exact ih
      | some b =>
          show ((Block.memberValues Scalar.value ((k, b) :: present rows)).map _) = _
          rw [Block.memberValues, List.map_cons, ih]
          rfl

/-- The table of a node's entry. -/
def entryRows (node : Node) : Rows :=
  ("name", some (.str node.displayName)) :: jsonRows (proxyRows node)

/-- **The entry of a node, read back, is the object of its table.** -/
theorem proxyValue_toJson (node : Node) :
    (proxyValue node).toJson = .obj (rowMembers (entryRows node)) := by
  rw [proxyValue, Yaml.toJson_map, List.map_cons, membersJson_present, Yaml.toJson_str]
  rfl

/-- **A key finds the value of its row**, in an entry without ShadowTLS layer. -/
theorem get_entryRows {node : Node} (h : proxyRows node = directRows node) (key : Str) :
    (Json.obj (rowMembers (entryRows node))).get key = rowValue (entryRows node) key := by
  refine get_rowMembers ?_ key
  rw [entryRows, List.map_cons, map_fst_jsonRows, h]
  rcases keys_directRows node with hrows | hrows
  · rw [hrows]
    exact List.nodup_cons.mpr ⟨List.not_mem_nil, List.nodup_nil⟩
  · rw [hrows]
    exact (directKeys_plain node.protocol).2

end DeveSub.Mihomo
