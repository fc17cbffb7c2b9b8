/-
  File:      DeveSub/Lib/Text.lean
  Subject:   Texts as lists of characters, with the string operations of Rust's standard library
             the parsers and emitters call.

  A Rust `String` is a sequence of Unicode scalar values, and so is a `List Char`. The file
  fixes the operations (`split_once`, `strip_prefix`, `split`, `join`, `trim`, decimal
  numbers) and, beside each one, the lemma that says how it undoes its counterpart.
-/
import Mathlib.Algebra.Group.Int.Defs
import Mathlib.Algebra.Group.Nat.Defs
import Mathlib.Data.List.Basic
import Mathlib.Data.List.Infix

namespace DeveSub

/-- A text: the sequence of its Unicode scalar values. -/
abbrev Str := List Char

instance : Coe String Str := ⟨String.toList⟩

instance Str.instLawfulBEq : LawfulBEq Str := inferInstance

/-! ## 1. Splitting at the first or the last occurrence of a character -/

/-- `str::split_once`: what stands before and after the first `c`. -/
def splitOnce (c : Char) : Str → Option (Str × Str)
  | [] => none
  | x :: xs => if x = c then some ([], xs) else (splitOnce c xs).map fun p => (x :: p.1, p.2)

/-- `str::rsplit_once`: what stands before and after the last `c`. -/
def rsplitOnce (c : Char) (s : Str) : Option (Str × Str) :=
  (splitOnce c s.reverse).map fun p => (p.2.reverse, p.1.reverse)

theorem splitOnce_append {c : Char} {a : Str} (b : Str) (h : c ∉ a) :
    splitOnce c (a ++ c :: b) = some (a, b) := by
  induction a with
  | nil => simp [splitOnce]
  | cons x a ih =>
      have hx : x ≠ c := fun e => h (by simp [e])
      simp [splitOnce, hx, ih (List.not_mem_of_not_mem_cons h)]

theorem splitOnce_of_not_mem {c : Char} {s : Str} (h : c ∉ s) : splitOnce c s = none := by
  induction s with
  | nil => rfl
  | cons x s ih =>
      have hx : x ≠ c := fun e => h (by simp [e])
      simp [splitOnce, hx, ih (List.not_mem_of_not_mem_cons h)]

/-- What `splitOnce` answers: the text is the two halves around the separator, and the first
    half holds no separator. -/
theorem splitOnce_some {c : Char} {s a b : Str} (h : splitOnce c s = some (a, b)) :
    s = a ++ c :: b ∧ c ∉ a := by
  induction s generalizing a with
  | nil => simp [splitOnce] at h
  | cons x s ih =>
      by_cases hx : x = c
      · simp only [splitOnce, hx, if_true, Option.some.injEq, Prod.mk.injEq] at h
        obtain ⟨rfl, rfl⟩ := h
        exact ⟨by rw [hx]; rfl, List.not_mem_nil⟩
      · simp only [splitOnce, hx, if_false, Option.map_eq_some_iff] at h
        obtain ⟨⟨a', b'⟩, hs, he⟩ := h
        simp only [Prod.mk.injEq] at he
        obtain ⟨rfl, rfl⟩ := he
        obtain ⟨hs', hc⟩ := ih hs
        refine ⟨by rw [hs']; rfl, ?_⟩
        simp [Ne.symm hx, hc]

theorem splitOnce_none {c : Char} {s : Str} (h : splitOnce c s = none) : c ∉ s := by
  intro hc
  obtain ⟨a, b, rfl, ha⟩ := List.eq_append_cons_of_mem hc
  rw [splitOnce_append b ha] at h
  cases h

theorem rsplitOnce_append {c : Char} (a : Str) {b : Str} (h : c ∉ b) :
    rsplitOnce c (a ++ c :: b) = some (a, b) := by
  have hr : (a ++ c :: b).reverse = b.reverse ++ c :: a.reverse := by simp
  simp only [rsplitOnce, hr]
  rw [splitOnce_append _ (by simpa using h)]
  simp

theorem rsplitOnce_some {c : Char} {s a b : Str} (h : rsplitOnce c s = some (a, b)) :
    s = a ++ c :: b ∧ c ∉ b := by
  simp only [rsplitOnce, Option.map_eq_some_iff] at h
  obtain ⟨⟨x, y⟩, hs, he⟩ := h
  simp only [Prod.mk.injEq] at he
  obtain ⟨rfl, rfl⟩ := he
  obtain ⟨hs', hc⟩ := splitOnce_some hs
  refine ⟨?_, by simpa using hc⟩
  have := congrArg List.reverse hs'
  simpa using this

/-! ## 2. Prefixes and suffixes -/

/-- `str::strip_prefix`. -/
def stripPrefix : Str → Str → Option Str
  | [], s => some s
  | _ :: _, [] => none
  | p :: ps, x :: xs => if p = x then stripPrefix ps xs else none

/-- `str::strip_suffix`. -/
def stripSuffix (p s : Str) : Option Str := (stripPrefix p.reverse s.reverse).map List.reverse

@[simp] theorem stripPrefix_append (p s : Str) : stripPrefix p (p ++ s) = some s := by
  induction p with
  | nil => rfl
  | cons x p ih => simpa [stripPrefix] using ih

theorem stripPrefix_some {p s r : Str} (h : stripPrefix p s = some r) : s = p ++ r := by
  induction p generalizing s with
  | nil => simpa [stripPrefix] using h
  | cons x p ih =>
      cases s with
      | nil => simp [stripPrefix] at h
      | cons y s =>
          by_cases hxy : x = y
          · simp only [stripPrefix, hxy, if_true] at h
            rw [hxy, ih h]
            rfl
          · simp [stripPrefix, hxy] at h

@[simp] theorem stripSuffix_append (s p : Str) : stripSuffix p (s ++ p) = some s := by
  simp [stripSuffix]

theorem stripSuffix_some {p s r : Str} (h : stripSuffix p s = some r) : s = r ++ p := by
  simp only [stripSuffix, Option.map_eq_some_iff] at h
  obtain ⟨q, hq, rfl⟩ := h
  have := congrArg List.reverse (stripPrefix_some hq)
  simpa using this

/-- `str::starts_with`. -/
def startsWith (p s : Str) : Bool := (stripPrefix p s).isSome

/-- The longest front of a kind, when something of another kind or nothing follows. -/
theorem takeWhile_append_of_stop {p : Char → Bool} {ds rest : Str} (h : ∀ c ∈ ds, p c = true)
    (hr : ∀ c s, rest = c :: s → p c = false) :
    (ds ++ rest).takeWhile p = ds ∧ (ds ++ rest).dropWhile p = rest := by
  induction ds with
  | nil =>
      cases rest with
      | nil => simp
      | cons c s => simp [hr c s rfl]
  | cons x ds ih =>
      obtain ⟨h1, h2⟩ := ih fun c hc => h c (List.mem_cons_of_mem _ hc)
      simp [h x List.mem_cons_self, h1, h2]

/-! ## 3. Lists written with a separator -/

/-- `[T]::join` and `str::split` on a one-character separator undo each other on the parts
    `split` returns. -/
theorem join_split (c : Char) (s : Str) : [c].intercalate (s.splitOn c) = s :=
  List.intercalate_splitOn c

theorem split_join {c : Char} {parts : List Str} (hne : parts ≠ []) (h : ∀ p ∈ parts, c ∉ p) :
    ([c].intercalate parts).splitOn c = parts :=
  List.splitOn_intercalate c h hne

theorem join_cons (c : Char) (t : Str) (ts : List Str) :
    [c].intercalate (t :: ts) = t ++ ts.flatMap fun u => c :: u := by
  induction ts generalizing t with
  | nil => simp [List.intercalate]
  | cons u us ih =>
    rw [List.intercalate_cons_cons, ih, List.flatMap_cons, List.append_assoc]
    rfl

theorem mem_join {c : Char} {parts : List Str} {x : Char} (h : x ∈ [c].intercalate parts) :
    x = c ∨ ∃ part ∈ parts, x ∈ part := by
  cases parts with
  | nil => simp [List.intercalate] at h
  | cons p ps =>
    rw [join_cons, List.mem_append, List.mem_flatMap] at h
    rcases h with h | ⟨q, hq, h⟩
    · exact .inr ⟨p, List.mem_cons_self, h⟩
    · rcases List.mem_cons.mp h with h | h
      · exact .inl h
      · exact .inr ⟨q, List.mem_cons_of_mem _ hq, h⟩

theorem splitOn_join {c : Char} {parts : List Str} (hne : parts ≠ []) :
    ([c].intercalate parts).splitOn c = parts.flatMap (·.splitOn c) := by
  induction parts with
  | nil => exact absurd rfl hne
  | cons p ps ih =>
    cases ps with
    | nil => simp [List.intercalate]
    | cons q qs =>
      rw [List.intercalate_cons_cons, List.append_assoc, List.singleton_append,
        List.splitOn_append_cons_self, ih (List.cons_ne_nil q qs)]
      rfl

theorem two_le_length_splitOn {c : Char} {s : Str} (h : c ∈ s) : 2 ≤ (s.splitOn c).length := by
  obtain ⟨xs, ys, rfl⟩ := List.append_of_mem h
  have hx := List.length_pos_iff.mpr (List.splitOn_ne_nil c xs)
  have hy := List.length_pos_iff.mpr (List.splitOn_ne_nil c ys)
  rw [List.splitOn_append_cons_self, List.length_append]
  omega

theorem length_le_length_split (c : Char) (parts : List Str) :
    parts.length ≤ (parts.flatMap (·.splitOn c)).length := by
  induction parts with
  | nil => exact Nat.le_refl 0
  | cons p ps ih =>
    have hp := List.length_pos_iff.mpr (List.splitOn_ne_nil c p)
    rw [List.flatMap_cons, List.length_append, List.length_cons]
    omega

/-- **Joined parts that split into as many parts do not hold the separator.** -/
theorem not_mem_of_length_split {c : Char} {parts : List Str}
    (h : (parts.flatMap (·.splitOn c)).length = parts.length) : ∀ p ∈ parts, c ∉ p := by
  induction parts with
  | nil => exact fun p hp => absurd hp List.not_mem_nil
  | cons p ps ih =>
    rw [List.flatMap_cons, List.length_append, List.length_cons] at h
    have hp := List.length_pos_iff.mpr (List.splitOn_ne_nil c p)
    have hps := length_le_length_split c ps
    intro q hq
    rcases List.mem_cons.mp hq with rfl | hq
    · intro hmem
      have := two_le_length_splitOn hmem
      omega
    · exact ih (by omega) q hq

/-- The parts of a split do not hold the separator. -/
theorem not_mem_of_mem_splitOn {c : Char} {s p : Str} (h : p ∈ s.splitOn c) : c ∉ p := by
  have hjoin : ([c].intercalate (s.splitOn c)).splitOn c = (s.splitOn c).flatMap (·.splitOn c) :=
    splitOn_join (List.splitOn_ne_nil c s)
  rw [join_split] at hjoin
  exact not_mem_of_length_split (congrArg List.length hjoin).symm p h

/-! ## 4. White space and letter case -/

/-- `char::is_whitespace`: the Unicode property `White_Space`. -/
def isWhitespace (c : Char) : Bool :=
  let n := c.toNat
  (9 ≤ n && n ≤ 13) || n = 0x20 || n = 0x85 || n = 0xA0 || n = 0x1680 ||
    (0x2000 ≤ n && n ≤ 0x200A) || n = 0x2028 || n = 0x2029 || n = 0x202F || n = 0x205F ||
    n = 0x3000

/-- `char::is_control`: the general category `Cc`. -/
def isControl (c : Char) : Bool :=
  let n := c.toNat
  n < 0x20 || (0x7F ≤ n && n < 0xA0)

/-- `str::trim`. -/
def trim (s : Str) : Str := ((s.dropWhile isWhitespace).reverse.dropWhile isWhitespace).reverse

/-- `str::trim_start`. -/
def trimStart (s : Str) : Str := s.dropWhile isWhitespace

theorem dropWhile_eq_self {p : Char → Bool} {s : Str} (h : ∀ c ∈ s, p c = false) :
    s.dropWhile p = s := by
  cases s with
  | nil => rfl
  | cons c r => rw [List.dropWhile_cons, h c List.mem_cons_self, if_neg (by decide)]

/-- Nothing is trimmed at the end of a text without white space. -/
theorem trim_eq_trimStart {s : Str} (h : ∀ c ∈ trimStart s, isWhitespace c = false) :
    trim s = trimStart s := by
  have hrev : ∀ c ∈ (trimStart s).reverse, isWhitespace c = false :=
    fun c hc => h c (List.mem_reverse.mp hc)
  calc trim s = ((trimStart s).reverse.dropWhile isWhitespace).reverse := rfl
    _ = trimStart s := by rw [dropWhile_eq_self hrev, List.reverse_reverse]

/-- A text without white space is not changed. -/
theorem trim_eq_self {s : Str} (h : ∀ c ∈ s, isWhitespace c = false) : trim s = s := by
  have hstart : trimStart s = s := dropWhile_eq_self h
  rw [trim_eq_trimStart (hstart.symm ▸ h), hstart]

/-- What is dropped at the front of a text satisfies the test. -/
theorem mem_dropWhile_or {p : Char → Bool} {s : Str} {c : Char} (h : c ∈ s) :
    c ∈ s.dropWhile p ∨ p c = true := by
  rw [← List.takeWhile_append_dropWhile (p := p) (l := s), List.mem_append] at h
  rcases h with h | h
  · exact .inr (List.all_eq_true.mp List.all_takeWhile c h)
  · exact .inl h

/-- `str::to_ascii_lowercase`. -/
def toAsciiLowercase (s : Str) : Str :=
  s.map fun c => if 'A' ≤ c ∧ c ≤ 'Z' then Char.ofNat (c.toNat + 32) else c

/-! ## 5. Decimal numbers -/

/-- The decimal text of a number (`to_string`). -/
def natText (n : Nat) : Str := Nat.toDigits 10 n

/-- A non-empty run of decimal digits, read as a number. -/
def digits? (s : Str) : Option Nat :=
  if s ≠ [] ∧ s.all Char.isDigit then some (Nat.ofDigitChars 10 s 0) else none

/-- `str::parse` at an unsigned type with `bound` values: one leading `+` is allowed, an
    overflow is an error. -/
def parseUnsigned (bound : Nat) (s : Str) : Option Nat :=
  (digits? (match s with | '+' :: r => r | _ => s)).filter (· < bound)

/-- A property of each of a few characters, by evaluation. -/
theorem forall_mem_of_all {P : Char → Prop} [DecidablePred P] {l : List Char}
    (h : l.all (fun c => decide (P c)) = true) : ∀ c ∈ l, P c :=
  fun c hc => of_decide_eq_true (List.all_eq_true.mp h c hc)

/-- What holds of each of the 128 ASCII characters holds of every one. -/
theorem forall_ascii {P : Char → Prop} (h : ∀ n : Fin 128, P (Char.ofNat n.val)) {c : Char}
    (hc : c.toNat < 128) : P c := by
  have hn := h ⟨c.toNat, hc⟩
  rwa [show Char.ofNat c.toNat = c from Char.ofNat_toNat c] at hn

/-- What holds of each of the ten digits holds of every digit. -/
theorem forall_digit {P : Char → Prop} [DecidablePred P]
    (h : ['0', '1', '2', '3', '4', '5', '6', '7', '8', '9'].all (fun c => decide (P c)) = true)
    {c : Char} (hc : c.isDigit = true) : P c := by
  apply of_decide_eq_true
  apply List.all_eq_true.mp h
  simp only [Char.isDigit, Bool.and_eq_true, decide_eq_true_eq, ge_iff_le,
    UInt32.le_iff_toNat_le] at hc
  have hlow : 48 ≤ c.toNat := hc.1
  have hhigh : c.toNat ≤ 57 := hc.2
  rw [← Char.ofNat_toNat c]
  generalize c.toNat = n at hlow hhigh
  have all : ∀ i : Fin 10,
      Char.ofNat (48 + i.val) ∈ ['0', '1', '2', '3', '4', '5', '6', '7', '8', '9'] := by decide
  have hn := all ⟨n - 48, by omega⟩
  rwa [show 48 + (n - 48) = n by omega] at hn

theorem isDigit_of_mem_natText {n : Nat} {c : Char} (h : c ∈ natText n) : c.isDigit = true :=
  Nat.isDigit_of_mem_toDigits (by decide) (by decide) h

theorem natText_ne_nil (n : Nat) : natText n ≠ [] := Nat.toDigits_ne_nil

@[simp] theorem digits?_natText (n : Nat) : digits? (natText n) = some n := by
  have hall : (natText n).all Char.isDigit = true :=
    List.all_eq_true.mpr fun c hc => isDigit_of_mem_natText hc
  simp only [digits?, natText_ne_nil, ne_eq, not_false_eq_true, hall, and_self, if_true]
  exact congrArg some Nat.ofDigitChars_ten_toDigits

theorem parseUnsigned_of_head {bound : Nat} {s : Str} (h : ∀ r, s ≠ '+' :: r) :
    parseUnsigned bound s = (digits? s).filter (· < bound) := by
  unfold parseUnsigned
  split
  · exact absurd rfl (h _)
  · rfl

/-- **A number written in decimal reads back as itself** at every type it fits. -/
theorem parseUnsigned_natText {bound n : Nat} (h : n < bound) :
    parseUnsigned bound (natText n) = some n := by
  rw [parseUnsigned_of_head, digits?_natText]
  · simp [Option.filter, h]
  · intro r hr
    have : ('+' : Char).isDigit = true := isDigit_of_mem_natText (n := n) (by rw [hr]; simp)
    exact absurd this (by decide)

/-! ## 6. Hexadecimal numbers -/

/-- `char::to_digit(16)`. -/
def hexVal? (c : Char) : Option Nat :=
  if '0' ≤ c ∧ c ≤ '9' then some (c.toNat - 48)
  else if 'a' ≤ c ∧ c ≤ 'f' then some (c.toNat - 87)
  else if 'A' ≤ c ∧ c ≤ 'F' then some (c.toNat - 55)
  else none

/-- Whether `c` is a hexadecimal digit of either case. -/
def isHexDigit (c : Char) : Bool := (hexVal? c).isSome

/-- The number a text of hexadecimal digits denotes. -/
def hexNat (s : Str) : Nat := s.foldl (fun acc c => 16 * acc + (hexVal? c).getD 0) 0

/-- The lower-case hexadecimal text of a number (`{:x}`). -/
def hexText (n : Nat) : Str := Nat.toDigits 16 n

theorem hexVal?_digitChar {n : Nat} (h : n < 16) : hexVal? (Nat.digitChar n) = some n := by
  have all : ∀ i : Fin 16, hexVal? (Nat.digitChar i.val) = some i.val := by decide
  exact all ⟨n, h⟩

theorem hexNat_append_singleton (s : Str) (c : Char) :
    hexNat (s ++ [c]) = 16 * hexNat s + (hexVal? c).getD 0 := by
  simp [hexNat]

/-- The last hexadecimal digit of a number of two or more digits. -/
theorem hexText_of_ge {n : Nat} (h : 16 ≤ n) :
    hexText n = hexText (n / 16) ++ [Nat.digitChar (n % 16)] := by
  unfold hexText
  rw [Nat.toDigits_of_base_le (by decide) h]

theorem hexText_of_lt {n : Nat} (h : n < 16) : hexText n = [Nat.digitChar n] :=
  Nat.toDigits_of_lt_base h

theorem hexNat_hexText (n : Nat) : hexNat (hexText n) = n := by
  induction n using Nat.strongRecOn with
  | ind n ih =>
      by_cases h : n < 16
      · rw [hexText_of_lt h]
        simp [hexNat, hexVal?_digitChar h]
      · rw [hexText_of_ge (by omega), hexNat_append_singleton, ih (n / 16) (by omega),
          hexVal?_digitChar (Nat.mod_lt n (by decide))]
        simp only [Option.getD_some]
        omega

theorem isHexDigit_of_mem_hexText {n : Nat} {c : Char} (h : c ∈ hexText n) :
    isHexDigit c = true := by
  induction n using Nat.strongRecOn with
  | ind n ih =>
      by_cases hn : n < 16
      · rw [hexText_of_lt hn, List.mem_singleton] at h
        simp [h, isHexDigit, hexVal?_digitChar hn]
      · rw [hexText_of_ge (by omega), List.mem_append, List.mem_singleton] at h
        rcases h with h | rfl
        · exact ih (n / 16) (by omega) h
        · simp [isHexDigit, hexVal?_digitChar (Nat.mod_lt n (by decide : 0 < 16))]

theorem hexText_ne_nil (n : Nat) : hexText n ≠ [] := Nat.toDigits_ne_nil

end DeveSub
