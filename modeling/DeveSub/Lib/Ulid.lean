/-
  File:      DeveSub/Lib/Ulid.lean
  Subject:   ULIDs: 128-bit identifiers written as 26 characters of Crockford's base 32.

  The text is injective and of fixed length, so identifiers compare as their texts do.
-/
import Mathlib.Data.Nat.ModEq
import DeveSub.Lib.Text

namespace DeveSub

/-- A ULID, by its 128-bit value. -/
abbrev Ulid := Fin (2 ^ 128)

instance Ulid.instNeZero : NeZero (2 ^ 128) := ⟨by decide⟩

namespace Ulid

/-- Crockford's base 32. -/
def alphabet : List Char := "0123456789ABCDEFGHJKMNPQRSTVWXYZ".toList

/-- One character, by its five bits. -/
def digit (n : Nat) : Char := alphabet.getD (n % 32) '0'

/-- `Display for Ulid`: the most significant digit comes first. -/
def text (u : Ulid) : Str := (List.range 26).reverse.map fun k => digit (u.val / 32 ^ k)

@[simp] theorem length_text (u : Ulid) : u.text.length = 26 := by simp [text]

theorem digit_injective {m n : Nat} (h : digit m = digit n) : m % 32 = n % 32 := by
  have hall : (List.range 32).all (fun i => (List.range 32).all fun j =>
      decide (alphabet.getD i '0' = alphabet.getD j '0' → i = j)) = true := by decide
  have hm := List.all_eq_true.1 hall (m % 32) (List.mem_range.2 (Nat.mod_lt _ (by decide)))
  have hn := List.all_eq_true.1 hm (n % 32) (List.mem_range.2 (Nat.mod_lt _ (by decide)))
  exact of_decide_eq_true hn h

/-- Two numbers with the same digits are the same, up to the digits that were compared. -/
theorem mod_pow_eq_of_digits {base a b : Nat} (n : Nat)
    (h : ∀ k < n, a / base ^ k % base = b / base ^ k % base) : a % base ^ n = b % base ^ n := by
  induction n with
  | zero => simp [Nat.mod_one]
  | succ n ih =>
    rw [Nat.mod_pow_succ, Nat.mod_pow_succ, ih fun k hk => h k (Nat.lt_succ_of_lt hk),
      h n (Nat.lt_succ_self n)]

/-- **Different identifiers have different texts.** -/
theorem text_injective : Function.Injective text := by
  intro u v h
  have hdigits : ∀ k < 26, u.val / 32 ^ k % 32 = v.val / 32 ^ k % 32 := by
    intro k hk
    have hmem : k ∈ (List.range 26).reverse := by simpa using hk
    exact digit_injective (List.map_eq_map_iff.1 h k hmem)
  have hmod := mod_pow_eq_of_digits 26 hdigits
  have hu : u.val < 32 ^ 26 := lt_of_lt_of_le u.isLt (by decide)
  have hv : v.val < 32 ^ 26 := lt_of_lt_of_le v.isLt (by decide)
  rw [Nat.mod_eq_of_lt hu, Nat.mod_eq_of_lt hv] at hmod
  exact Fin.ext hmod

example : text 1 = "00000000000000000000000001".toList := by decide

end Ulid

end DeveSub
