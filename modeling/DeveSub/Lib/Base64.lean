/-
  File:      DeveSub/Lib/Base64.lean
  Subject:   Base64 as the `base64` crate's general-purpose engines read and write it: the
             standard and the URL-safe alphabet, with required or with forbidden padding.

  Decoding is canonical: the unused low bits of the last symbol must be zero. An encoded octet
  sequence decodes to itself (**`decode_encode`**, **`decode_encodeNoPad`**), and of two engines
  that accept a text without padding both read the same (**`decode_agree`**).
-/
import DeveSub.Lib.Text

namespace DeveSub.Base64

/-- The two alphabets. -/
inductive Alphabet where
  | standard
  | urlSafe
  deriving DecidableEq

/-- The symbol of a six-bit value. -/
def symbol (al : Alphabet) (n : Nat) : Char :=
  if n < 26 then Char.ofNat (65 + n)
  else if n < 52 then Char.ofNat (71 + n)
  else if n < 62 then Char.ofNat (n - 4)
  else match al with
    | .standard => if n = 62 then '+' else '/'
    | .urlSafe => if n = 62 then '-' else '_'

/-- The six-bit value of a symbol. -/
def value (al : Alphabet) (c : Char) : Option Nat :=
  if 'A' ≤ c ∧ c ≤ 'Z' then some (c.toNat - 65)
  else if 'a' ≤ c ∧ c ≤ 'z' then some (c.toNat - 71)
  else if '0' ≤ c ∧ c ≤ '9' then some (c.toNat + 4)
  else match al with
    | .standard => if c = '+' then some 62 else if c = '/' then some 63 else none
    | .urlSafe => if c = '-' then some 62 else if c = '_' then some 63 else none

/-- The padding an engine writes and requires, or forbids. -/
inductive Padding where
  | required
  | forbidden
  deriving DecidableEq

/-- A last group of two symbols: one octet, the low four bits zero. -/
def lastOne (al : Alphabet) (a b : Char) : Option (List UInt8) := do
  let x ← value al a
  let y ← value al b
  if y % 16 = 0 then some [UInt8.ofNat (4 * x + y / 16)] else none

/-- A last group of three symbols: two octets, the low two bits zero. -/
def lastTwo (al : Alphabet) (a b c : Char) : Option (List UInt8) := do
  let x ← value al a
  let y ← value al b
  let z ← value al c
  if z % 4 = 0 then
    some [UInt8.ofNat (4 * x + y / 16), UInt8.ofNat (16 * (y % 16) + z / 4)]
  else none

/-- A full group: three octets. -/
def group (al : Alphabet) (a b c d : Char) : Option (List UInt8) := do
  let x ← value al a
  let y ← value al b
  let z ← value al c
  let w ← value al d
  some [UInt8.ofNat (4 * x + y / 16), UInt8.ofNat (16 * (y % 16) + z / 4),
    UInt8.ofNat (64 * (z % 4) + w)]

/-- `Engine::decode`. -/
def decode (al : Alphabet) (pad : Padding) : Str → Option (List UInt8)
  | [] => some []
  | [_] => none
  | [a, b] => if pad = .forbidden then lastOne al a b else none
  | [a, b, c] => if pad = .forbidden then lastTwo al a b c else none
  | a :: b :: c :: d :: rest =>
      if pad = .required ∧ rest = [] ∧ d = '=' then
        if c = '=' then lastOne al a b else lastTwo al a b c
      else do
        let xs ← group al a b c d
        let ys ← decode al pad rest
        some (xs ++ ys)

/-- `Engine::encode` of an engine that pads. -/
def encode (al : Alphabet) : List UInt8 → Str
  | [] => []
  | [a] => [symbol al (a.toNat / 4), symbol al (16 * (a.toNat % 4)), '=', '=']
  | [a, b] => [symbol al (a.toNat / 4), symbol al (16 * (a.toNat % 4) + b.toNat / 16),
      symbol al (4 * (b.toNat % 16)), '=']
  | a :: b :: c :: rest =>
      symbol al (a.toNat / 4) :: symbol al (16 * (a.toNat % 4) + b.toNat / 16) ::
        symbol al (4 * (b.toNat % 16) + c.toNat / 64) :: symbol al (c.toNat % 64) :: encode al rest

/-- `Engine::encode` of an engine that does not pad. -/
def encodeNoPad (al : Alphabet) (bs : List UInt8) : Str := (encode al bs).takeWhile (· ≠ '=')

theorem value_symbol (al : Alphabet) {n : Nat} (h : n < 64) : value al (symbol al n) = some n := by
  have all : ∀ i : Fin 64, value al (symbol al i.val) = some i.val := by
    cases al <;> decide +kernel
  exact all ⟨n, h⟩

theorem symbol_ne_pad (al : Alphabet) {n : Nat} (h : n < 64) : symbol al n ≠ '=' := by
  intro e
  have hv := value_symbol al h
  rw [e] at hv
  cases al <;> exact absurd hv (by simp [value])

/-! ## What was encoded -/

section Groups

variable (al : Alphabet) (a b c : UInt8)

theorem lastOne_symbols :
    lastOne al (symbol al (a.toNat / 4)) (symbol al (16 * (a.toNat % 4))) = some [a] := by
  have ha : a.toNat < 256 := a.toNat_lt
  have e1 : 4 * (a.toNat / 4) + 16 * (a.toNat % 4) / 16 = a.toNat := by omega
  have hm : 16 * (a.toNat % 4) % 16 = 0 := by omega
  simp (disch := omega) only [lastOne, value_symbol, if_true, hm, e1, Option.bind_eq_bind,
    Option.bind_some, UInt8.ofNat_toNat]

theorem lastTwo_symbols :
    lastTwo al (symbol al (a.toNat / 4)) (symbol al (16 * (a.toNat % 4) + b.toNat / 16))
      (symbol al (4 * (b.toNat % 16))) = some [a, b] := by
  have ha : a.toNat < 256 := a.toNat_lt
  have hb : b.toNat < 256 := b.toNat_lt
  have e1 : 4 * (a.toNat / 4) + (16 * (a.toNat % 4) + b.toNat / 16) / 16 = a.toNat := by omega
  have e2 : 16 * ((16 * (a.toNat % 4) + b.toNat / 16) % 16) + 4 * (b.toNat % 16) / 4 =
      b.toNat := by omega
  have hm : 4 * (b.toNat % 16) % 4 = 0 := by omega
  simp (disch := omega) only [lastTwo, value_symbol, if_true, hm, e1, e2, Option.bind_eq_bind,
    Option.bind_some, UInt8.ofNat_toNat]

theorem group_symbols :
    group al (symbol al (a.toNat / 4)) (symbol al (16 * (a.toNat % 4) + b.toNat / 16))
      (symbol al (4 * (b.toNat % 16) + c.toNat / 64)) (symbol al (c.toNat % 64)) =
        some [a, b, c] := by
  have ha : a.toNat < 256 := a.toNat_lt
  have hb : b.toNat < 256 := b.toNat_lt
  have hc : c.toNat < 256 := c.toNat_lt
  have e1 : 4 * (a.toNat / 4) + (16 * (a.toNat % 4) + b.toNat / 16) / 16 = a.toNat := by omega
  have e2 : 16 * ((16 * (a.toNat % 4) + b.toNat / 16) % 16) +
      (4 * (b.toNat % 16) + c.toNat / 64) / 4 = b.toNat := by omega
  have e3 : 64 * ((4 * (b.toNat % 16) + c.toNat / 64) % 4) + c.toNat % 64 = c.toNat := by omega
  simp (disch := omega) only [group, value_symbol, e1, e2, e3, Option.bind_eq_bind,
    Option.bind_some, UInt8.ofNat_toNat]

end Groups

/-- **An encoded octet sequence decodes to itself.** -/
theorem decode_encode (al : Alphabet) (bs : List UInt8) :
    decode al .required (encode al bs) = some bs := by
  induction bs using encode.induct with
  | case1 => rfl
  | case2 a => simp [encode, decode, lastOne_symbols]
  | case3 a b =>
      have hc : symbol al (4 * (b.toNat % 16)) ≠ '=' := symbol_ne_pad al (by omega)
      simp [encode, decode, hc, lastTwo_symbols]
  | case4 a b c rest ih =>
      have hd : symbol al (c.toNat % 64) ≠ '=' := symbol_ne_pad al (by omega)
      simp [encode, decode, hd, group_symbols, ih]

/-! ## Texts without padding -/

theorem takeWhile_symbol (al : Alphabet) {n : Nat} (h : n < 64) (t : Str) :
    (symbol al n :: t).takeWhile (· ≠ '=') = symbol al n :: t.takeWhile (· ≠ '=') :=
  List.takeWhile_cons_of_pos (decide_eq_true (symbol_ne_pad al h))

/-- **The same without padding.** -/
theorem decode_encodeNoPad (al : Alphabet) (bs : List UInt8) :
    decode al .forbidden (encodeNoPad al bs) = some bs := by
  induction bs using encode.induct with
  | case1 => rfl
  | case2 a =>
      have ha : a.toNat < 256 := a.toNat_lt
      simp (disch := omega) only [encodeNoPad, encode, takeWhile_symbol]
      exact lastOne_symbols al a
  | case3 a b =>
      have ha : a.toNat < 256 := a.toNat_lt
      have hb : b.toNat < 256 := b.toNat_lt
      simp (disch := omega) only [encodeNoPad, encode, takeWhile_symbol]
      exact lastTwo_symbols al a b
  | case4 a b c rest ih =>
      have ha : a.toNat < 256 := a.toNat_lt
      have hb : b.toNat < 256 := b.toNat_lt
      have hc : c.toNat < 256 := c.toNat_lt
      simp (disch := omega) only [encodeNoPad, encode, takeWhile_symbol]
      rw [decode, if_neg (by simp), group_symbols, ← encodeNoPad, ih]
      rfl

/-- Every character of an encoded text is a symbol or padding. -/
theorem mem_encode {al : Alphabet} {bs : List UInt8} {c : Char} (h : c ∈ encode al bs) :
    c = '=' ∨ ∃ n < 64, c = symbol al n := by
  induction bs using encode.induct with
  | case1 => simp [encode] at h
  | case2 a =>
      have ha : a.toNat < 256 := a.toNat_lt
      simp only [encode, List.mem_cons, List.not_mem_nil, or_false] at h
      rcases h with h | h | h | h
      · exact .inr ⟨_, by omega, h⟩
      · exact .inr ⟨_, by omega, h⟩
      · exact .inl h
      · exact .inl h
  | case3 a b =>
      have ha : a.toNat < 256 := a.toNat_lt
      have hb : b.toNat < 256 := b.toNat_lt
      simp only [encode, List.mem_cons, List.not_mem_nil, or_false] at h
      rcases h with h | h | h | h
      · exact .inr ⟨_, by omega, h⟩
      · exact .inr ⟨_, by omega, h⟩
      · exact .inr ⟨_, by omega, h⟩
      · exact .inl h
  | case4 a b d rest ih =>
      have ha : a.toNat < 256 := a.toNat_lt
      have hb : b.toNat < 256 := b.toNat_lt
      have hd : d.toNat < 256 := d.toNat_lt
      simp only [encode, List.mem_cons] at h
      rcases h with h | h | h | h | h
      · exact .inr ⟨_, by omega, h⟩
      · exact .inr ⟨_, by omega, h⟩
      · exact .inr ⟨_, by omega, h⟩
      · exact .inr ⟨_, by omega, h⟩
      · exact ih h

/-- A character outside the alphabet does not occur in an encoded text, unless it is the padding. -/
theorem not_mem_encode {al : Alphabet} {c : Char} (hc : value al c = none) (hpad : c ≠ '=')
    (bs : List UInt8) : c ∉ encode al bs := by
  intro h
  rcases mem_encode h with h | ⟨n, hn, rfl⟩
  · exact hpad h
  · rw [value_symbol al hn] at hc
    cases hc

theorem not_mem_encodeNoPad {al : Alphabet} {c : Char} (hc : value al c = none)
    (bs : List UInt8) : c ∉ encodeNoPad al bs := by
  intro h
  by_cases hpad : c = '='
  · have hstop := List.all_eq_true.mp List.all_takeWhile c h
    simp [hpad] at hstop
  · exact not_mem_encode hc hpad bs ((List.takeWhile_sublist _).subset h)

/-! ## Two engines -/

theorem value_agree {al al' : Alphabet} {c : Char} {m n : Nat} (hm : value al c = some m)
    (hn : value al' c = some n) : m = n := by
  unfold value at hm hn
  grind

/-- What both engines make of a symbol, they make of one value. -/
theorem bind_value_agree {al al' : Alphabet} {c : Char} {f g : Nat → Option (List UInt8)}
    {xs ys : List UInt8} (hx : (value al c).bind f = some xs) (hy : (value al' c).bind g = some ys) :
    ∃ n, f n = some xs ∧ g n = some ys := by
  obtain ⟨m, hm, hx⟩ := Option.bind_eq_some_iff.mp hx
  obtain ⟨n, hn, hy⟩ := Option.bind_eq_some_iff.mp hy
  obtain rfl := value_agree hm hn
  exact ⟨m, hx, hy⟩

theorem lastOne_agree {al al' : Alphabet} {a b : Char} {xs ys : List UInt8}
    (hx : lastOne al a b = some xs) (hy : lastOne al' a b = some ys) : xs = ys := by
  obtain ⟨x, hx, hy⟩ := bind_value_agree hx hy
  obtain ⟨y, hx, hy⟩ := bind_value_agree hx hy
  exact Option.some.inj (hx.symm.trans hy)

theorem lastTwo_agree {al al' : Alphabet} {a b c : Char} {xs ys : List UInt8}
    (hx : lastTwo al a b c = some xs) (hy : lastTwo al' a b c = some ys) : xs = ys := by
  obtain ⟨x, hx, hy⟩ := bind_value_agree hx hy
  obtain ⟨y, hx, hy⟩ := bind_value_agree hx hy
  obtain ⟨z, hx, hy⟩ := bind_value_agree hx hy
  exact Option.some.inj (hx.symm.trans hy)

theorem group_agree {al al' : Alphabet} {a b c d : Char} {xs ys : List UInt8}
    (hx : group al a b c d = some xs) (hy : group al' a b c d = some ys) : xs = ys := by
  obtain ⟨x, hx, hy⟩ := bind_value_agree hx hy
  obtain ⟨y, hx, hy⟩ := bind_value_agree hx hy
  obtain ⟨z, hx, hy⟩ := bind_value_agree hx hy
  obtain ⟨w, hx, hy⟩ := bind_value_agree hx hy
  exact Option.some.inj (hx.symm.trans hy)

/-- **Two engines that accept a text without padding read the same octets.** -/
theorem decode_agree {al al' : Alphabet} {pad pad' : Padding} :
    ∀ {t : Str} {xs ys : List UInt8}, '=' ∉ t → decode al pad t = some xs →
      decode al' pad' t = some ys → xs = ys
  | [], _, _, _, hx, hy => Option.some.inj (hx.symm.trans hy)
  | [_], _, _, _, hx, _ => by cases hx
  | [a, b], _, _, _, hx, hy => by
      rw [decode, Option.ite_none_right_eq_some] at hx hy
      exact lastOne_agree hx.2 hy.2
  | [a, b, c], _, _, _, hx, hy => by
      rw [decode, Option.ite_none_right_eq_some] at hx hy
      exact lastTwo_agree hx.2 hy.2
  | a :: b :: c :: d :: rest, xs, ys, ht, hx, hy => by
      have hd : d ≠ '=' := by
        rintro rfl
        simp at ht
      have hrest : '=' ∉ rest := fun h => ht (by simp [h])
      rw [decode, if_neg fun h => hd h.2.2] at hx hy
      obtain ⟨x, hgx, hx⟩ := Option.bind_eq_some_iff.mp hx
      obtain ⟨xs', hrx, hx⟩ := Option.bind_eq_some_iff.mp hx
      obtain ⟨y, hgy, hy⟩ := Option.bind_eq_some_iff.mp hy
      obtain ⟨ys', hry, hy⟩ := Option.bind_eq_some_iff.mp hy
      obtain rfl := group_agree hgx hgy
      obtain rfl := decode_agree hrest hrx hry
      exact Option.some.inj (hx.symm.trans hy)

/-- **A text with a character that is no symbol is not read.** -/
theorem decode_eq_none_of_mem {al : Alphabet} {pad : Padding} {x : Char} (hx : value al x = none)
    (hpad : x ≠ '=') : ∀ {t : Str}, x ∈ t → decode al pad t = none
  | [_], _ => rfl
  | [a, b], ht => by
      rcases List.mem_pair.mp ht with rfl | rfl <;> simp [decode, lastOne, hx]
  | [a, b, c], ht => by
      simp only [List.mem_cons, List.not_mem_nil, or_false] at ht
      rcases ht with rfl | rfl | rfl <;> simp [decode, lastTwo, hx]
  | a :: b :: c :: d :: rest, ht => by
      simp only [List.mem_cons] at ht
      rcases ht with rfl | rfl | rfl | rfl | ht
      · simp [decode, lastOne, lastTwo, group, hx]
      · simp [decode, lastOne, lastTwo, group, hx]
      · simp [decode, lastTwo, group, hx, hpad]
      · simp [decode, group, hx, hpad]
      · have hne : rest ≠ [] := List.ne_nil_of_mem ht
        simp [decode, hne, decode_eq_none_of_mem hx hpad ht]

end DeveSub.Base64
