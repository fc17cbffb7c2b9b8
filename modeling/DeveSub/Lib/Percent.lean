/-
  File:      DeveSub/Lib/Percent.lean
  Subject:   UTF-8, percent coding and form coding of texts: the functions of the
             `percent_encoding` and `form_urlencoded` crates.

  * `utf8Lossy` -- decoding with the replacement character for each maximal invalid part;
  * `percentEncode set`, `percentDecode` -- a character is written as it is when it is ASCII and
    not in `set`, and as its UTF-8 octets in `%XX` otherwise;
  * **`percentDecode_percentEncode`** -- decoding undoes encoding for every set that holds `%`;
  * `formDecode`, `parseForm` -- the query syntax, where `+` stands for a space;
  * **`formDecode_percentEncode`** -- the same for query values, when the set also holds `+`.
  * **`count_percentDecode_append`** -- a separator between two texts is not lost.
-/
import DeveSub.Lib.Text

namespace DeveSub

/-! ## 1. UTF-8 -/

/-- The UTF-8 octets of a text. -/
def utf8Bytes (s : Str) : List UInt8 := s.flatMap String.utf8EncodeChar

/-- The character at the front of an octet sequence, if a well-formed one stands there. -/
def utf8Front (bs : List UInt8) : Option Char := (bs.take 4).toByteArray.utf8DecodeChar? 0

/-- The length of the maximal invalid part at the front: what one replacement character
    stands for. -/
def invalidLength : List UInt8 → Nat
  | [] => 0
  | b :: rest =>
      let second (lo hi : UInt8) : Bool := rest.head?.any fun x => lo ≤ x && x ≤ hi
      let third : Bool := (rest.drop 1).head?.any fun x => 0x80 ≤ x && x ≤ 0xBF
      if b = 0xE0 then if second 0xA0 0xBF then 2 else 1
      else if b = 0xED then if second 0x80 0x9F then 2 else 1
      else if 0xE1 ≤ b ∧ b ≤ 0xEF then if second 0x80 0xBF then 2 else 1
      else if b = 0xF0 then if second 0x90 0xBF then if third then 3 else 2 else 1
      else if 0xF1 ≤ b ∧ b ≤ 0xF3 then if second 0x80 0xBF then if third then 3 else 2 else 1
      else if b = 0xF4 then if second 0x80 0x8F then if third then 3 else 2 else 1
      else 1

/-- `String::from_utf8_lossy`, with one unit of fuel for each character to produce. -/
def utf8LossyAux : Nat → List UInt8 → Str
  | 0, _ => []
  | _, [] => []
  | fuel + 1, bs =>
      match utf8Front bs with
      | some c => c :: utf8LossyAux fuel (bs.drop c.utf8Size)
      | none => '�' :: utf8LossyAux fuel (bs.drop (invalidLength bs))

/-- `String::from_utf8_lossy`. -/
def utf8Lossy (bs : List UInt8) : Str := utf8LossyAux bs.length bs

/-- `String::from_utf8`: every octet belongs to a well-formed character. -/
def utf8StrictAux : Nat → List UInt8 → Option Str
  | _, [] => some []
  | 0, _ :: _ => none
  | fuel + 1, bs =>
      match utf8Front bs with
      | some c => (utf8StrictAux fuel (bs.drop c.utf8Size)).map (c :: ·)
      | none => none

/-- `String::from_utf8`. -/
def utf8Strict (bs : List UInt8) : Option Str := utf8StrictAux bs.length bs

@[simp] theorem utf8Bytes_nil : utf8Bytes [] = [] := rfl

@[simp] theorem utf8Bytes_cons (c : Char) (s : Str) :
    utf8Bytes (c :: s) = String.utf8EncodeChar c ++ utf8Bytes s := rfl

@[simp] theorem utf8Bytes_append (s t : Str) : utf8Bytes (s ++ t) = utf8Bytes s ++ utf8Bytes t := by
  simp [utf8Bytes]

theorem utf8Size_le_four (c : Char) : c.utf8Size ≤ 4 := Char.utf8Size_le_four c

theorem utf8Front_encode (c : Char) (bs : List UInt8) :
    utf8Front (String.utf8EncodeChar c ++ bs) = some c := by
  have hlen : (String.utf8EncodeChar c).length ≤ 4 := by
    rw [String.length_utf8EncodeChar]
    exact utf8Size_le_four c
  unfold utf8Front
  rw [List.take_append, List.take_of_length_le hlen, List.toByteArray_append]
  exact ByteArray.utf8DecodeChar?_utf8EncodeChar_append

theorem drop_encode (c : Char) (bs : List UInt8) :
    (String.utf8EncodeChar c ++ bs).drop c.utf8Size = bs := by
  rw [← String.length_utf8EncodeChar, List.drop_left]

theorem encode_ne_nil (c : Char) (bs : List UInt8) : String.utf8EncodeChar c ++ bs ≠ [] := by
  simp [String.utf8EncodeChar_ne_nil]

theorem utf8Aux_utf8Bytes (s : Str) {fuel : Nat} (h : (utf8Bytes s).length ≤ fuel) :
    utf8LossyAux fuel (utf8Bytes s) = s ∧ utf8StrictAux fuel (utf8Bytes s) = some s := by
  induction s generalizing fuel with
  | nil => cases fuel <;> exact ⟨rfl, rfl⟩
  | cons c s ih =>
      rw [utf8Bytes_cons, List.length_append, String.length_utf8EncodeChar] at h
      have hc := Char.utf8Size_pos c
      obtain ⟨f, rfl⟩ : ∃ f, fuel = f + 1 := ⟨fuel - 1, by omega⟩
      obtain ⟨hlossy, hstrict⟩ := @ih f (by omega)
      rw [utf8Bytes_cons, utf8LossyAux, utf8StrictAux, utf8Front_encode]
      · simp only [drop_encode, hlossy, hstrict, Option.map_some, and_self]
      all_goals exact encode_ne_nil c _

/-- **A text is decoded from its own octets**, lossily as well as strictly. -/
theorem utf8Lossy_utf8Bytes (s : Str) : utf8Lossy (utf8Bytes s) = s :=
  (utf8Aux_utf8Bytes s (Nat.le_refl _)).1

theorem utf8Strict_utf8Bytes (s : Str) : utf8Strict (utf8Bytes s) = some s :=
  (utf8Aux_utf8Bytes s (Nat.le_refl _)).2

/-! ## 2. Percent coding -/

/-- An upper-case hexadecimal digit. -/
def upperHex (n : Nat) : Char := if n < 10 then Char.ofNat (48 + n) else Char.ofNat (55 + n)

/-- One octet as `%XX`. -/
def percentByte (b : UInt8) : Str := ['%', upperHex (b.toNat / 16), upperHex (b.toNat % 16)]

/-- One character, encoded unless it is an ASCII character outside `set`. -/
def percentChar (set : Char → Bool) (c : Char) : Str :=
  if c.toNat < 128 ∧ set c = false then [c]
  else (String.utf8EncodeChar c).flatMap percentByte

/-- `utf8_percent_encode`. -/
def percentEncode (set : Char → Bool) (s : Str) : Str := s.flatMap (percentChar set)

/-- The octets of a percent-coded octet sequence; a `%` without two digits stands for itself. -/
def percentDecodeBytes : List UInt8 → List UInt8
  | [] => []
  | [a] => [a]
  | [a, b] => [a, b]
  | a :: b :: c :: rest =>
      if a = 0x25 then
        match hexVal? (Char.ofNat b.toNat), hexVal? (Char.ofNat c.toNat) with
        | some h, some l => UInt8.ofNat (16 * h + l) :: percentDecodeBytes rest
        | _, _ => a :: percentDecodeBytes (b :: c :: rest)
      else a :: percentDecodeBytes (b :: c :: rest)

/-- `percent_decode_str(..).decode_utf8_lossy()`. -/
def percentDecode (s : Str) : Str := utf8Lossy (percentDecodeBytes (utf8Bytes s))

theorem percentDecodeBytes_cons {a : UInt8} (h : a ≠ 0x25) (rest : List UInt8) :
    percentDecodeBytes (a :: rest) = a :: percentDecodeBytes rest := by
  match rest with
  | [] => rfl
  | [b] => rfl
  | b :: c :: rest => simp [percentDecodeBytes, h]

theorem utf8EncodeChar_ascii {c : Char} (h : c.toNat < 128) :
    String.utf8EncodeChar c = [UInt8.ofNat c.toNat] := by
  have h' : c.val.toNat ≤ 127 := Nat.lt_succ_iff.mp h
  unfold String.utf8EncodeChar
  exact if_pos h'

/-- The two digits of every octet decode to it. -/
theorem percentDecodeBytes_percentByte (b : UInt8) (rest : List UInt8) :
    percentDecodeBytes (utf8Bytes (percentByte b) ++ rest) = b :: percentDecodeBytes rest := by
  have digit : ∀ n : Fin 16, (upperHex n.val).toNat < 128 ∧
      hexVal? (Char.ofNat (UInt8.ofNat (upperHex n.val).toNat).toNat) = some n.val := by
    decide
  have hb : b.toNat < 256 := b.toNat_lt
  obtain ⟨h1, h1'⟩ := digit ⟨b.toNat / 16, by omega⟩
  obtain ⟨h2, h2'⟩ := digit ⟨b.toNat % 16, Nat.mod_lt _ (by decide)⟩
  have e : 16 * (b.toNat / 16) + b.toNat % 16 = b.toNat := by omega
  have hp : String.utf8EncodeChar '%' = [0x25] := by decide
  simp only [percentByte, utf8Bytes_cons, utf8Bytes_nil, hp, utf8EncodeChar_ascii h1,
    utf8EncodeChar_ascii h2, List.cons_append, List.nil_append, percentDecodeBytes,
    if_true, h1', h2', e, UInt8.ofNat_toNat]

theorem percentDecodeBytes_percentBytes (bs rest : List UInt8) :
    percentDecodeBytes (utf8Bytes (bs.flatMap percentByte) ++ rest) =
      bs ++ percentDecodeBytes rest := by
  induction bs with
  | nil => rfl
  | cons b bs ih =>
      rw [List.flatMap_cons, utf8Bytes_append, List.append_assoc, percentDecodeBytes_percentByte,
        ih]
      rfl

theorem percentDecodeBytes_percentChar {set : Char → Bool} (hp : set '%' = true) (c : Char)
    (rest : List UInt8) :
    percentDecodeBytes (utf8Bytes (percentChar set c) ++ rest) =
      String.utf8EncodeChar c ++ percentDecodeBytes rest := by
  unfold percentChar
  split
  · rename_i h
    have hne : UInt8.ofNat c.toNat ≠ 0x25 := by
      intro e
      have hn : c.toNat = 0x25 := by
        have he : c.toNat % 256 = 0x25 := by simpa using congrArg UInt8.toNat e
        have hlt := h.1
        omega
      have : c = '%' := Char.toNat_inj.mp hn
      rw [this, hp] at h
      exact absurd h.2 (by simp)
    simp only [utf8Bytes_cons, utf8Bytes_nil, List.append_nil, utf8EncodeChar_ascii h.1,
      List.cons_append, List.nil_append, percentDecodeBytes_cons hne]
  · exact percentDecodeBytes_percentBytes _ _

theorem percentDecodeBytes_percentEncode {set : Char → Bool} (hp : set '%' = true) (s : Str) :
    percentDecodeBytes (utf8Bytes (percentEncode set s)) = utf8Bytes s := by
  induction s with
  | nil => rfl
  | cons c s ih =>
      simp only [percentEncode, List.flatMap_cons, utf8Bytes_append, utf8Bytes_cons] at ih ⊢
      rw [percentDecodeBytes_percentChar hp, ih]

/-- **Percent decoding undoes percent encoding** for every set that holds `%`. -/
theorem percentDecode_percentEncode {set : Char → Bool} (hp : set '%' = true) (s : Str) :
    percentDecode (percentEncode set s) = s := by
  rw [percentDecode, percentDecodeBytes_percentEncode hp, utf8Lossy_utf8Bytes]

/-- Every character of an encoded text is an upper-case hexadecimal digit, a `%`, or an ASCII
    character outside the set. -/
theorem mem_percentEncode {set : Char → Bool} {s : Str} {c : Char}
    (h : c ∈ percentEncode set s) :
    c = '%' ∨ (∃ n < 16, c = upperHex n) ∨ (c.toNat < 128 ∧ set c = false ∧ c ∈ s) := by
  obtain ⟨d, hd, hc⟩ := List.mem_flatMap.mp h
  unfold percentChar at hc
  split at hc
  · rename_i hs
    obtain rfl := List.mem_singleton.mp hc
    exact .inr (.inr ⟨hs.1, hs.2, hd⟩)
  · obtain ⟨b, -, hb⟩ := List.mem_flatMap.mp hc
    have hlt : b.toNat < 256 := b.toNat_lt
    simp only [percentByte, List.mem_cons, List.not_mem_nil, or_false] at hb
    rcases hb with rfl | rfl | rfl
    · exact .inl rfl
    · exact .inr (.inl ⟨_, by omega, rfl⟩)
    · exact .inr (.inl ⟨_, Nat.mod_lt _ (by decide), rfl⟩)

/-- A character of the set other than `%` and the hexadecimal digits does not occur in an
    encoded text. -/
theorem not_mem_percentEncode {set : Char → Bool} (s : Str) {c : Char} (hset : set c = true)
    (hpc : c ≠ '%') (hhex : ∀ n < 16, c ≠ upperHex n) : c ∉ percentEncode set s := by
  intro h
  rcases mem_percentEncode h with h | ⟨n, hn, h⟩ | ⟨-, h, -⟩
  · exact hpc h
  · exact hhex n hn h
  · rw [hset] at h
    cases h

/-- A text of ASCII characters outside the set is not changed. -/
theorem percentEncode_eq_self {set : Char → Bool} {s : Str}
    (h : ∀ c ∈ s, c.toNat < 128 ∧ set c = false) : percentEncode set s = s := by
  induction s with
  | nil => rfl
  | cons c s ih =>
      have hc : percentChar set c = [c] := if_pos (h c List.mem_cons_self)
      have hs : percentEncode set s = s := ih fun d hd => h d (List.mem_cons_of_mem _ hd)
      rw [percentEncode, List.flatMap_cons, hc]
      exact congrArg (c :: ·) hs

theorem percentDecodeBytes_ne_nil {bs : List UInt8} (h : bs ≠ []) : percentDecodeBytes bs ≠ [] := by
  match bs with
  | [] => exact absurd rfl h
  | [a] => simp [percentDecodeBytes]
  | [a, b] => simp [percentDecodeBytes]
  | a :: b :: c :: rest =>
      rw [percentDecodeBytes]
      split
      · split <;> exact List.cons_ne_nil _ _
      · exact List.cons_ne_nil _ _

theorem utf8Lossy_ne_nil {bs : List UInt8} (h : bs ≠ []) : utf8Lossy bs ≠ [] := by
  obtain ⟨b, rest, rfl⟩ := List.exists_cons_of_ne_nil h
  rw [utf8Lossy, List.length_cons, utf8LossyAux]
  · split <;> exact List.cons_ne_nil _ _
  · exact h

/-- Only the empty text decodes to the empty text. -/
theorem percentDecode_ne_nil {s : Str} (h : s ≠ []) : percentDecode s ≠ [] := by
  obtain ⟨c, rest, rfl⟩ := List.exists_cons_of_ne_nil h
  have hbytes : utf8Bytes (c :: rest) ≠ [] := encode_ne_nil c _
  exact utf8Lossy_ne_nil (percentDecodeBytes_ne_nil hbytes)

theorem percentEncode_ne_nil {set : Char → Bool} (hp : set '%' = true) {s : Str} (h : s ≠ []) :
    percentEncode set s ≠ [] := by
  intro he
  have hdec := percentDecode_percentEncode hp s
  rw [he] at hdec
  exact h hdec.symm

/-! ## 3. Form coding -/

/-- A key or a value of a form-coded text: `+` stands for a space. -/
def formDecode (s : Str) : Str := percentDecode (s.map fun c => if c = '+' then ' ' else c)

/-- `form_urlencoded::parse`: the pairs of a query, empty parts skipped. -/
def parseForm (s : Str) : List (Str × Str) :=
  ((s.splitOn '&').filter (· ≠ [])).map fun part =>
    match splitOnce '=' part with
    | some (k, v) => (formDecode k, formDecode v)
    | none => (formDecode part, [])

theorem formDecode_of_no_plus {s : Str} (h : '+' ∉ s) : formDecode s = percentDecode s := by
  have e : (s.map fun c => if c = '+' then ' ' else c) = s := by
    conv_rhs => rw [← List.map_id s]
    refine List.map_congr_left fun c hc => ?_
    have hne : c ≠ '+' := fun e => h (e ▸ hc)
    simp [hne]
  rw [formDecode, e]

theorem upperHex_ne {n : Nat} (hn : n < 16) {c : Char} (hc : c.isAlphanum = false) :
    c ≠ upperHex n := by
  have all : ∀ i : Fin 16, (upperHex i.val).isAlphanum = true := by decide
  intro e
  rw [e, all ⟨n, hn⟩] at hc
  cases hc

/-- **Form decoding undoes percent encoding** for every set that holds `%` and `+`. -/
theorem formDecode_percentEncode {set : Char → Bool} (hp : set '%' = true) (hplus : set '+' = true)
    (s : Str) : formDecode (percentEncode set s) = s := by
  have hno : '+' ∉ percentEncode set s :=
    not_mem_percentEncode s hplus (by decide) fun n hn => upperHex_ne hn (by decide)
  rw [formDecode_of_no_plus hno, percentDecode_percentEncode hp]

/-! ## 4. ASCII in decoded texts -/

theorem utf8EncodeChar_high {c : Char} (h : ¬ c.toNat < 128) :
    ∀ b ∈ String.utf8EncodeChar c, 0x80 ≤ b := by
  have hbyte : ∀ n : Nat, 128 ≤ n → n < 256 → 0x80 ≤ UInt8.ofNat n := by
    intro n hlow hhigh
    rw [UInt8.le_iff_toNat_le, UInt8.toNat_ofNat', Nat.mod_eq_of_lt hhigh]
    exact hlow
  have hv : ¬ c.val.toNat ≤ 0x7f := fun hle => h (Nat.lt_succ_of_le hle)
  intro b hb
  unfold String.utf8EncodeChar at hb
  simp only [hv, if_false] at hb
  split at hb
  · simp only [List.mem_cons, List.not_mem_nil, or_false] at hb
    rcases hb with rfl | rfl <;> exact hbyte _ (by omega) (by omega)
  · split at hb
    · simp only [List.mem_cons, List.not_mem_nil, or_false] at hb
      rcases hb with rfl | rfl | rfl <;> exact hbyte _ (by omega) (by omega)
    · simp only [List.mem_cons, List.not_mem_nil, or_false] at hb
      rcases hb with rfl | rfl | rfl | rfl <;> exact hbyte _ (by omega) (by omega)

theorem utf8Front_eq_some {bs : List UInt8} {c : Char} (h : utf8Front bs = some c) :
    ∃ rest, bs = String.utf8EncodeChar c ++ rest := by
  obtain ⟨l, hl⟩ := ByteArray.exists_of_utf8DecodeChar?_eq_some h
  refine ⟨l.data.toList ++ bs.drop 4, ?_⟩
  have htake : bs.take 4 = String.utf8EncodeChar c ++ l.data.toList := by
    have := congrArg (fun b => b.data.toList) hl
    simpa using this
  rw [← List.append_assoc, ← htake, List.take_append_drop]

/-- An octet between two bounds at the front. -/
theorem high_of_head {rest : List UInt8} {lo hi : UInt8}
    (h : (rest.head?.any fun x => lo ≤ x && x ≤ hi) = true) (hlo : 0x80 ≤ lo) :
    ∀ x ∈ rest.take 1, 0x80 ≤ x := by
  intro x hx
  cases rest with
  | nil => cases hx
  | cons y rest =>
    simp only [List.head?_cons, Option.any_some, Bool.and_eq_true, decide_eq_true_eq] at h
    obtain rfl := List.mem_singleton.1 (by simpa using hx)
    exact UInt8.le_trans hlo h.1

theorem high_of_two {rest : List UInt8} {lo hi : UInt8}
    (h : (rest.head?.any fun x => lo ≤ x && x ≤ hi) = true)
    (h' : ((rest.drop 1).head?.any fun x => 0x80 ≤ x && x ≤ 0xBF) = true) (hlo : 0x80 ≤ lo) :
    ∀ x ∈ rest.take 2, 0x80 ≤ x := by
  intro x hx
  cases rest with
  | nil => cases hx
  | cons y rest =>
    rcases List.mem_cons.1 hx with rfl | hx
    · exact high_of_head h hlo x (by simp)
    · exact high_of_head h' (by decide) x hx

/-- What one replacement character stands for goes on with octets that are not ASCII. -/
theorem high_of_invalidLength (b : UInt8) (rest : List UInt8) :
    ∀ x ∈ rest.take (invalidLength (b :: rest) - 1), 0x80 ≤ x := by
  have hone : ∀ x ∈ rest.take (1 - 1), 0x80 ≤ x := by simp
  unfold invalidLength
  simp only
  split_ifs
  all_goals first
    | exact hone
    | exact high_of_head (by assumption) (by decide)
    | exact high_of_two (by assumption) (by assumption) (by decide)

theorem invalidLength_pos (b : UInt8) (rest : List UInt8) : 1 ≤ invalidLength (b :: rest) := by
  unfold invalidLength
  simp only
  split_ifs <;> decide

/-- An octet no character starts with is not ASCII. -/
theorem high_of_front_none {b : UInt8} {rest : List UInt8} (h : utf8Front (b :: rest) = none) :
    0x80 ≤ b := by
  by_contra hlow
  have hb : b.toNat < 128 := by
    rw [UInt8.le_iff_toNat_le] at hlow
    exact Nat.lt_of_not_le hlow
  have hchar : (Char.ofNat b.toNat).toNat = b.toNat := by
    have hvalid : b.toNat.isValidChar := .inl (by omega)
    rw [Char.ofNat, dif_pos hvalid]
    rfl
  have hencode : String.utf8EncodeChar (Char.ofNat b.toNat) = [b] := by
    rw [utf8EncodeChar_ascii (by rw [hchar]; exact hb), hchar, UInt8.ofNat_toNat]
  have hfront := utf8Front_encode (Char.ofNat b.toNat) rest
  rw [hencode, List.singleton_append, h] at hfront
  cases hfront

/-- **Lossy decoding keeps the ASCII characters**, each for its octet. -/
theorem count_utf8LossyAux {c : Char} (hc : c.toNat < 128) {fuel : Nat} {bs : List UInt8}
    (h : bs.length ≤ fuel) :
    (utf8LossyAux fuel bs).count c = bs.count (UInt8.ofNat c.toNat) := by
  have hlow : ¬ 0x80 ≤ UInt8.ofNat c.toNat := by
    rw [UInt8.le_iff_toNat_le, UInt8.toNat_ofNat', Nat.mod_eq_of_lt (by omega)]
    exact Nat.not_le_of_lt hc
  have hnone : ∀ l : List UInt8, (∀ x ∈ l, 0x80 ≤ x) → l.count (UInt8.ofNat c.toNat) = 0 := by
    intro l hl
    exact List.count_eq_zero.2 fun hmem => hlow (hl _ hmem)
  induction fuel generalizing bs with
  | zero =>
    rw [List.eq_nil_of_length_eq_zero (Nat.le_zero.1 h)]
    rfl
  | succ fuel ih =>
    cases bs with
    | nil => rfl
    | cons b rest =>
      rw [utf8LossyAux]
      cases hfront : utf8Front (b :: rest) with
      | some d =>
        obtain ⟨tail, htail⟩ := utf8Front_eq_some hfront
        have hlen : tail.length ≤ fuel := by
          have hsize := congrArg List.length htail
          have hpos := Char.utf8Size_pos d
          rw [List.length_append, String.length_utf8EncodeChar] at hsize
          omega
        simp only
        rw [htail, drop_encode, List.count_cons, List.count_append, ih hlen, Nat.add_comm]
        congr 1
        by_cases hd : d.toNat < 128
        · rw [utf8EncodeChar_ascii hd, List.count_singleton]
          have hiff : UInt8.ofNat d.toNat = UInt8.ofNat c.toNat ↔ d = c := by
            refine ⟨fun heq => ?_, fun heq => by rw [heq]⟩
            have hnat := congrArg UInt8.toNat heq
            rw [UInt8.toNat_ofNat', UInt8.toNat_ofNat', Nat.mod_eq_of_lt (by omega),
              Nat.mod_eq_of_lt (by omega)] at hnat
            exact Char.toNat_inj.1 hnat
          by_cases hdc : d = c <;> simp [hdc, hiff]
        · rw [hnone _ (utf8EncodeChar_high hd)]
          have hne : d ≠ c := by
            rintro rfl
            exact hd hc
          simp [hne]
      | none =>
        have hrest : (rest.drop (invalidLength (b :: rest) - 1)).length ≤ fuel := by
          rw [List.length_drop]
          rw [List.length_cons] at h
          omega
        have hdrop : (b :: rest).drop (invalidLength (b :: rest)) =
            rest.drop (invalidLength (b :: rest) - 1) := by
          have hpos := invalidLength_pos b rest
          obtain ⟨n, hn⟩ : ∃ n, invalidLength (b :: rest) = n + 1 := ⟨_, (Nat.sub_add_cancel hpos).symm⟩
          rw [hn]
          rfl
        have hreplacement : ('\uFFFD' : Char) ≠ c := by
          rintro rfl
          revert hc
          decide
        have hb : b ≠ UInt8.ofNat c.toNat := fun heq => hlow (heq ▸ high_of_front_none hfront)
        have hhigh := hnone _ (high_of_invalidLength b rest)
        have hsplit : rest.count (UInt8.ofNat c.toNat) =
            (rest.drop (invalidLength (b :: rest) - 1)).count (UInt8.ofNat c.toNat) := by
          conv_lhs => rw [← List.take_append_drop (invalidLength (b :: rest) - 1) rest]
          rw [List.count_append, hhigh, Nat.zero_add]
        simp only
        rw [hdrop, List.count_cons_of_ne hreplacement, ih hrest, List.count_cons_of_ne hb, hsplit]
      exact nofun

/-- **An octet that is no part of a code splits the decoding.** -/
theorem percentDecodeBytes_append {a : UInt8} (ha : a ≠ 0x25)
    (hhex : hexVal? (Char.ofNat a.toNat) = none) (xs ys : List UInt8) :
    percentDecodeBytes (xs ++ a :: ys) = percentDecodeBytes xs ++ a :: percentDecodeBytes ys := by
  match xs with
  | [] => exact percentDecodeBytes_cons ha ys
  | [x] =>
    have hrest := percentDecodeBytes_cons ha ys
    cases ys with
    | nil => rfl
    | cons y ys =>
      show percentDecodeBytes (x :: a :: y :: ys) = x :: a :: percentDecodeBytes (y :: ys)
      rw [percentDecodeBytes, hrest, hhex]
      split <;> rfl
  | [x, b] =>
    have hrest := percentDecodeBytes_append ha hhex [b] ys
    show percentDecodeBytes (x :: b :: a :: ys) = x :: b :: a :: percentDecodeBytes ys
    rw [percentDecodeBytes, show b :: a :: ys = [b] ++ a :: ys from rfl, hrest, hhex]
    split
    · split
      · rename_i hl
        cases hl
      · rfl
    · rfl
  | x :: b :: c :: xs =>
    have hlong := percentDecodeBytes_append ha hhex (b :: c :: xs) ys
    have hshort := percentDecodeBytes_append ha hhex xs ys
    show percentDecodeBytes (x :: b :: c :: (xs ++ a :: ys)) = _
    rw [percentDecodeBytes, percentDecodeBytes, hshort,
      show b :: c :: (xs ++ a :: ys) = b :: c :: xs ++ a :: ys from rfl, hlong]
    split
    · split <;> rfl
    · rfl

/-- **A separator in a text is one more of it in the decoded text.** -/
theorem count_percentDecode_append {c : Char} (hc : c.toNat < 128) (hpercent : c ≠ '%')
    (hhex : hexVal? c = none) (s t : Str) :
    (percentDecode (s ++ c :: t)).count c =
      (percentDecode s).count c + (percentDecode t).count c + 1 := by
  have hcode : UInt8.ofNat c.toNat ≠ 0x25 := by
    intro heq
    have hnat := congrArg UInt8.toNat heq
    rw [UInt8.toNat_ofNat', Nat.mod_eq_of_lt (by omega)] at hnat
    exact hpercent (Char.toNat_inj.1 hnat)
  have hchar : Char.ofNat (UInt8.ofNat c.toNat).toNat = c := by
    rw [UInt8.toNat_ofNat', Nat.mod_eq_of_lt (by omega), Char.ofNat_toNat]
  have hbytes : utf8Bytes (s ++ c :: t) = utf8Bytes s ++ UInt8.ofNat c.toNat :: utf8Bytes t := by
    rw [utf8Bytes_append, utf8Bytes_cons, utf8EncodeChar_ascii hc, List.singleton_append]
  have hcount : ∀ bs, (utf8Lossy bs).count c = bs.count (UInt8.ofNat c.toNat) := fun bs =>
    count_utf8LossyAux hc (Nat.le_refl bs.length)
  rw [percentDecode, percentDecode, percentDecode, hcount, hcount, hcount, hbytes,
    percentDecodeBytes_append hcode (by rw [hchar]; exact hhex), List.count_append,
    List.count_cons_self]
  omega

end DeveSub
