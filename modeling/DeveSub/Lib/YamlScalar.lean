/-
  File:      DeveSub/Lib/YamlScalar.lean
  Subject:   YAML values, and the scalars and flow sequences that fit on one line.

  `readInline` reads what stands behind `key: ` on one line: a double-quoted scalar, a flow
  sequence of scalars, or a plain scalar resolved by the core schema. Comments, single quotes,
  anchors, tags, block scalars and flow mappings are outside this subset and read as nothing.
  A text it reads as a string is either shorter than its source or a plain scalar that is no
  null, Boolean or number (`readInline_eq_str_self`).
-/
import DeveSub.Lib.Text

namespace DeveSub

/-! ## 1. Values -/

/-- What a YAML text denotes. A number that is no decimal integer is kept by its text. -/
inductive Yaml where
  | null
  | bool (b : Bool)
  | int (n : Int)
  | num (text : Str)
  | str (s : Str)
  | seq (items : List Yaml)
  | map (members : List (Str × Yaml))

namespace Yaml

/-! ## 2. Plain scalars -/

/-- `nb-char`: a printable character that breaks no line, in YAML 1.1 or 1.2. -/
def isPrintable (c : Char) : Bool :=
  let n := c.toNat
  n = 9 || (0x20 ≤ n && n ≤ 0x7E) || (0xA0 ≤ n && n ≤ 0xD7FF && n ≠ 0x2028 && n ≠ 0x2029) ||
    (0xE000 ≤ n && n ≤ 0xFFFD && n ≠ 0xFEFF) || 0x10000 ≤ n

/-- `s-white`. -/
def isBlank (c : Char) : Bool := c = ' ' || c = '\t'

/-- `ns-char`. -/
def isSolid (c : Char) : Bool := isPrintable c && !isBlank c

/-- `c-indicator`. -/
def isIndicator (c : Char) : Bool := "-?:,[]\x7b\x7d#&*!|>'\"%@\x60".toList.contains c

/-- Whether a text starts with a character that is neither blank nor unprintable. -/
def startsSolid : Str → Bool
  | c :: _ => isSolid c
  | [] => false

/-- The characters of a plain scalar after the first one; `white` says that the one in front
    is blank. A `#` must not follow a blank, a `:` must not stand before one. -/
def plainTail (white : Bool) : Str → Bool
  | [] => !white
  | c :: cs =>
      if isBlank c then plainTail true cs
      else isSolid c && (c ≠ '#' || !white) && (c ≠ ':' || startsSolid cs) && plainTail false cs

/-- A plain scalar on one line, in block context. -/
def isPlain : Str → Bool
  | [] => false
  | c :: cs =>
      isSolid c && (!isIndicator c || ("-?:".toList.contains c && startsSolid cs)) &&
        plainTail false cs

/-- The plain texts that denote null. -/
def isNullWord (s : Str) : Bool := ["~".toList, "null".toList, "Null".toList, "NULL".toList].contains s

/-- The plain texts that denote a Boolean. -/
def boolWord? (s : Str) : Option Bool :=
  if ["true".toList, "True".toList, "TRUE".toList].contains s then some true
  else if ["false".toList, "False".toList, "FALSE".toList].contains s then some false
  else none

/-- A text without its sign. -/
def unsigned : Str → Str
  | '-' :: r => r
  | '+' :: r => r
  | s => s

/-- A decimal integer, with an optional sign. -/
def intWord? (s : Str) : Option Int :=
  match s with
  | '-' :: r => (digits? r).map fun n => -(n : Int)
  | '+' :: r => (digits? r).map fun n => (n : Int)
  | _ => (digits? s).map fun n => (n : Int)

/-- `0o17`, `0xA0`. -/
def isRadixWord : Str → Bool
  | '0' :: 'o' :: r => !r.isEmpty && r.all fun c => '0' ≤ c && c ≤ '7'
  | '0' :: 'x' :: r => !r.isEmpty && r.all isHexDigit
  | _ => false

/-- What may follow the mantissa of a floating-point number. -/
def isExponent : Str → Bool
  | [] => true
  | c :: r => (c = 'e' || c = 'E') && (digits? (unsigned r)).isSome

/-- A floating-point number of the core schema, without its sign. -/
def isFloatBody (s : Str) : Bool :=
  let whole := s.takeWhile Char.isDigit
  match s.dropWhile Char.isDigit with
  | '.' :: r => (!whole.isEmpty || startsDigit r) && isExponent (r.dropWhile Char.isDigit)
  | r => !whole.isEmpty && isExponent r
where
  startsDigit : Str → Bool
    | c :: _ => c.isDigit
    | [] => false

/-- A floating-point number of the core schema. -/
def isFloatWord (s : Str) : Bool :=
  isFloatBody (unsigned s) ||
    [".inf".toList, ".Inf".toList, ".INF".toList].contains (unsigned s) ||
    [".nan".toList, ".NaN".toList, ".NAN".toList].contains s

/-- The core schema on a plain scalar. -/
def resolve (s : Str) : Yaml :=
  if isNullWord s then .null
  else match boolWord? s with
    | some b => .bool b
    | none =>
        match intWord? s with
        | some n => .int n
        | none => if isRadixWord s || isFloatWord s then .num s else .str s

/-- A text that the core schema resolves to no null, Boolean or number. -/
def isText (s : Str) : Bool :=
  !isNullWord s && (boolWord? s).isNone && (intWord? s).isNone && !(isRadixWord s || isFloatWord s)

/-- A plain scalar that denotes itself. -/
def isPlainString (s : Str) : Bool := isPlain s && isText s

theorem resolve_eq_str {s t : Str} (h : resolve s = .str t) :
    t = s ∧ isNullWord s = false ∧ boolWord? s = none ∧ intWord? s = none ∧
      (isRadixWord s || isFloatWord s) = false := by
  unfold resolve at h
  split at h
  · cases h
  · rename_i hnull
    split at h
    · cases h
    · rename_i hbool
      split at h
      · cases h
      · rename_i hint
        split at h
        · cases h
        · rename_i hnum
          cases h
          exact ⟨rfl, by simpa using hnull, hbool, hint, by simpa using hnum⟩

theorem resolve_of_isPlainString {s : Str} (h : isPlainString s = true) : resolve s = .str s := by
  simp only [isPlainString, isText, Bool.and_eq_true, Bool.not_eq_true',
    Option.isNone_iff_eq_none] at h
  obtain ⟨-, ⟨⟨hnull, hbool⟩, hint⟩, hnum⟩ := h
  simp [resolve, hnull, hbool, hint, hnum]

/-- Digits, with a minus in front or not, are an integer. -/
theorem resolve_of_intWord {c : Char} {cs : Str} {n : Int} (hc : c = '-' ∨ c.isDigit = true)
    (h : intWord? (c :: cs) = some n) : resolve (c :: cs) = .int n := by
  have hhead : c ∉ ['~', 'n', 'N', 't', 'T', 'f', 'F'] := by
    rcases hc with rfl | hc
    · decide
    · exact forall_digit (P := fun c => c ∉ ['~', 'n', 'N', 't', 'T', 'f', 'F']) (by decide) hc
  simp only [List.mem_cons, List.not_mem_nil, or_false, not_or] at hhead
  have hnull : isNullWord (c :: cs) = false := by simp [isNullWord, hhead]
  have hbool : boolWord? (c :: cs) = none := by simp [boolWord?, hhead]
  simp [resolve, hnull, hbool, h]

theorem plainTail_of_digits {s : Str} (h : ∀ c ∈ s, c.isDigit = true) :
    plainTail false s = true := by
  induction s with
  | nil => rfl
  | cons c s ih =>
    have hc := forall_digit (P := fun c => isBlank c = false ∧ isSolid c = true ∧ c ≠ '#' ∧ c ≠ ':')
      (by decide) (h c List.mem_cons_self)
    have hs := ih fun d hd => h d (List.mem_cons_of_mem c hd)
    simp [plainTail, hc, hs]

/-- The decimal text of a number is a plain scalar that denotes it. -/
theorem isPlain_natText (n : Nat) : isPlain (natText n) = true ∧ resolve (natText n) = .int n := by
  have hdigits : ∀ c ∈ natText n, c.isDigit = true := fun c hc => isDigit_of_mem_natText hc
  have hword : ∀ s : Str, (∀ c ∈ s, c.isDigit = true) → digits? s = some n →
      intWord? s = some (n : Int) := by
    intro s hs hd
    unfold intWord?
    split
    · exact absurd (hs '-' List.mem_cons_self) (by decide)
    · exact absurd (hs '+' List.mem_cons_self) (by decide)
    · rw [hd]; rfl
  have hint := hword (natText n) hdigits (digits?_natText n)
  cases hs : natText n with
  | nil => exact absurd hs (natText_ne_nil n)
  | cons c cs =>
    rw [hs] at hdigits hint
    have hc := hdigits c List.mem_cons_self
    have hfirst := forall_digit (P := fun c => isSolid c = true ∧ isIndicator c = false)
      (by decide) hc
    have htail := plainTail_of_digits fun d hd => hdigits d (List.mem_cons_of_mem c hd)
    exact ⟨by simp [isPlain, hfirst, htail], resolve_of_intWord (.inr hc) hint⟩

/-- So is a minus in front of it. -/
theorem isPlain_neg_natText (n : Nat) :
    isPlain ('-' :: natText n) = true ∧ resolve ('-' :: natText n) = .int (-n) := by
  have hdigits : ∀ c ∈ natText n, c.isDigit = true := fun c hc => isDigit_of_mem_natText hc
  have hint : intWord? ('-' :: natText n) = some (-(n : Int)) := by
    simp [intWord?]
  refine ⟨?_, resolve_of_intWord (.inl rfl) hint⟩
  cases hs : natText n with
  | nil => exact absurd hs (natText_ne_nil n)
  | cons c cs =>
    rw [hs] at hdigits
    have hfirst := forall_digit (P := fun c => isSolid c = true) (by decide)
      (hdigits c List.mem_cons_self)
    have htail := plainTail_of_digits hdigits
    have hminus : isSolid '-' = true ∧ "-?:".toList.contains '-' = true := by decide
    simp [isPlain, hminus, startsSolid, hfirst, htail]

/-! ## 3. Double-quoted scalars -/

/-- The escapes of one character. -/
def escaped? (c : Char) : Option Char :=
  match c with
  | '0' => some '\x00'
  | 'a' => some '\x07'
  | 'b' => some '\x08'
  | 't' => some '\t'
  | '\t' => some '\t'
  | 'n' => some '\n'
  | 'v' => some '\x0b'
  | 'f' => some '\x0c'
  | 'r' => some '\r'
  | 'e' => some '\x1b'
  | ' ' => some ' '
  | '"' => some '"'
  | '/' => some '/'
  | '\\' => some '\\'
  | 'N' => some (Char.ofNat 0x85)
  | '_' => some (Char.ofNat 0xA0)
  | 'L' => some (Char.ofNat 0x2028)
  | 'P' => some (Char.ofNat 0x2029)
  | _ => none

/-- How many hexadecimal digits an escape takes. -/
def hexWidth? (c : Char) : Option Nat :=
  match c with
  | 'x' => some 2
  | 'u' => some 4
  | 'U' => some 8
  | _ => none

/-- The character of a code point. -/
def charOf? (n : Nat) : Option Char := if n.isValidChar then some (Char.ofNat n) else none

/-- What stands for itself between double quotes: no control character but the tab, and no line
    break of YAML 1.1. -/
def isQuotable (c : Char) : Bool :=
  let n := c.toNat
  n = 9 || (0x20 ≤ n && n ≠ 0x85 && n ≠ 0x2028 && n ≠ 0x2029)

/-- Where the reader of a double-quoted scalar stands. -/
inductive DqMode where
  | text
  | escape
  | hex (left acc : Nat)

/-- The text up to the closing quote, decoded, and what follows the quote. -/
def readDq : DqMode → Str → Option (Str × Str)
  | _, [] => none
  | .text, c :: cs =>
      if c = '"' then some ([], cs)
      else if c = '\\' then readDq .escape cs
      else if isQuotable c then (readDq .text cs).map fun r => (c :: r.1, r.2)
      else none
  | .escape, c :: cs =>
      match hexWidth? c with
      | some width => readDq (.hex width 0) cs
      | none => (escaped? c).bind fun d => (readDq .text cs).map fun r => (d :: r.1, r.2)
  | .hex left acc, c :: cs =>
      (hexVal? c).bind fun v =>
        if left = 1 then
          (charOf? (16 * acc + v)).bind fun d => (readDq .text cs).map fun r => (d :: r.1, r.2)
        else readDq (.hex (left - 1) (16 * acc + v)) cs

/-- **A double-quoted scalar is longer than the text it denotes.** -/
theorem length_of_readDq {mode : DqMode} {s d rest : Str} (h : readDq mode s = some (d, rest)) :
    d.length + rest.length < s.length := by
  induction s generalizing mode d with
  | nil => cases mode <;> simp [readDq] at h
  | cons c cs ih =>
    have step : ∀ {e : Char}, (readDq .text cs).map (fun r => (e :: r.1, r.2)) = some (d, rest) →
        d.length + rest.length < (c :: cs).length := by
      intro e he
      obtain ⟨⟨d', rest'⟩, hd, heq⟩ := Option.map_eq_some_iff.mp he
      simp only [Prod.mk.injEq] at heq
      obtain ⟨rfl, rfl⟩ := heq
      have := ih hd
      simp only [List.length_cons]
      omega
    cases mode with
    | text =>
      simp only [readDq] at h
      split at h
      · cases h
        simp
      · split at h
        · have := ih h
          simp only [List.length_cons]
          omega
        · split at h
          · exact step h
          · cases h
    | escape =>
      simp only [readDq] at h
      split at h
      · have := ih h
        simp only [List.length_cons]
        omega
      · obtain ⟨e, _, he⟩ := Option.bind_eq_some_iff.mp h
        exact step he
    | hex left acc =>
      simp only [readDq] at h
      obtain ⟨v, _, hv⟩ := Option.bind_eq_some_iff.mp h
      split at hv
      · obtain ⟨e, _, he⟩ := Option.bind_eq_some_iff.mp hv
        exact step he
      · have := ih hv
        simp only [List.length_cons]
        omega

/-! ## 4. Flow sequences and inline values -/

/-- Whether `c` ends a plain scalar inside a flow sequence. -/
def isFlowIndicator (c : Char) : Bool := ",[]\x7b\x7d".toList.contains c

/-- One scalar of a flow sequence, and what follows it. -/
def readFlowItem (s : Str) : Option (Yaml × Str) :=
  match s with
  | '"' :: r => (readDq .text r).map fun p => (.str p.1, p.2)
  | _ =>
      let token := s.takeWhile fun c => !isFlowIndicator c
      if isPlain token then some (resolve token, s.dropWhile fun c => !isFlowIndicator c)
      else none

/-- The items of a flow sequence up to its closing bracket, and what follows it. -/
def readFlow : Nat → Str → Option (List Yaml × Str)
  | 0, _ => none
  | fuel + 1, s => do
      let (item, rest) ← readFlowItem s
      match rest with
      | ']' :: after => some ([item], after)
      | ',' :: ' ' :: more => (readFlow fuel more).map fun p => (item :: p.1, p.2)
      | _ => none

/-- **The value behind `key: `** on one line. -/
def readInline (s : Str) : Option Yaml :=
  match s with
  | '"' :: r =>
      match readDq .text r with
      | some (d, []) => some (.str d)
      | _ => none
  | '[' :: r =>
      match readFlow s.length r with
      | some (items, []) => some (.seq items)
      | _ => none
  | _ => if isPlain s then some (resolve s) else none

/-- `t` reads as `v` in front of a comma or a closing bracket. -/
def IsFlowItem (t : Str) (v : Yaml) : Prop :=
  ∀ c rest, c = ',' ∨ c = ']' → readFlowItem (t ++ c :: rest) = some (v, c :: rest)

/-- A plain scalar without flow indicators is an item. -/
theorem isFlowItem_of_isPlain {t : Str} (h : isPlain t = true)
    (hflow : ∀ c ∈ t, isFlowIndicator c = false) : IsFlowItem t (resolve t) := by
  intro c rest hc
  have hstop : isFlowIndicator c = true := by
    rcases hc with rfl | rfl
    · decide
    · decide
  have htake : (t ++ c :: rest).takeWhile (fun d => !isFlowIndicator d) = t := by
    rw [List.takeWhile_append_of_pos (by simpa using hflow)]
    simp [hstop]
  have hdrop : (t ++ c :: rest).dropWhile (fun d => !isFlowIndicator d) = c :: rest := by
    rw [List.dropWhile_append_of_pos (by simpa using hflow)]
    simp [hstop]
  have hquote : ∀ r, t ++ c :: rest ≠ '"' :: r := by
    intro r heq
    cases t with
    | nil => cases h
    | cons d t =>
      rw [List.cons_append, List.cons.injEq] at heq
      rw [heq.1] at h
      exact absurd h (by simp [isPlain, isIndicator])
  unfold readFlowItem
  split
  · rename_i r heq
    exact absurd heq (hquote r)
  · simp only [htake, hdrop, h, if_true]

/-- Items up to the closing bracket. -/
theorem readFlow_intercalate {t : Str} {v : Yaml} {more : List (Str × Yaml)} (h : IsFlowItem t v)
    (hmore : ∀ p ∈ more, IsFlowItem p.1 p.2) (rest : Str) {fuel : Nat}
    (hfuel : more.length < fuel) :
    readFlow fuel ([',', ' '].intercalate (t :: more.map Prod.fst) ++ ']' :: rest) =
      some (v :: more.map Prod.snd, rest) := by
  induction more generalizing t v fuel with
  | nil =>
    obtain ⟨fuel, rfl⟩ : ∃ f, fuel = f + 1 := ⟨fuel - 1, by omega⟩
    rw [List.map_nil, List.intercalate_singleton, readFlow, h ']' rest (.inr rfl)]
    rfl
  | cons p more ih =>
    obtain ⟨fuel, rfl⟩ : ∃ f, fuel = f + 1 := ⟨fuel - 1, by omega⟩
    have hfuel' : more.length < fuel := by
      simp only [List.length_cons] at hfuel
      omega
    have hrest := ih (hmore p List.mem_cons_self) (fun q hq => hmore q (List.mem_cons_of_mem p hq))
      hfuel'
    rw [List.map_cons, List.intercalate_cons_cons, List.append_assoc, List.append_assoc, readFlow]
    simp only [List.cons_append, List.nil_append, h ',' _ (.inl rfl), Option.bind_eq_bind,
      Option.bind_some, hrest, Option.map_some, List.map_cons]

theorem length_le_intercalate (t : Str) (ts : List Str) :
    ts.length ≤ ([',', ' '].intercalate (t :: ts)).length := by
  induction ts generalizing t with
  | nil => exact Nat.zero_le _
  | cons u ts ih =>
    have hu := ih u
    rw [List.intercalate_cons_cons]
    simp only [List.length_append, List.length_cons]
    omega

/-- **A flow sequence of items reads as the sequence of their values.** -/
theorem readInline_flow {t : Str} {v : Yaml} (more : List (Str × Yaml)) (h : IsFlowItem t v)
    (hmore : ∀ p ∈ more, IsFlowItem p.1 p.2) :
    readInline ('[' :: ([',', ' '].intercalate (t :: more.map Prod.fst) ++ [']'])) =
      some (.seq (v :: more.map Prod.snd)) := by
  have hlength := length_le_intercalate t (more.map Prod.fst)
  rw [List.length_map] at hlength
  rw [readInline, readFlow_intercalate h hmore []
    (by simp only [List.length_cons, List.length_append]; omega)]

/-- A plain scalar is read as the core schema says. -/
theorem readInline_of_isPlain {s : Str} (h : isPlain s = true) : readInline s = some (resolve s) := by
  unfold readInline
  split
  · exact absurd h (by simp [isPlain, isIndicator])
  · exact absurd h (by simp [isPlain, isIndicator])
  · rw [if_pos h]

/-- **A text reads as itself exactly when it is a plain string.** -/
theorem readInline_eq_str_self {s : Str} :
    readInline s = some (.str s) ↔ isPlainString s = true := by
  constructor
  · intro h
    unfold readInline at h
    split at h
    · rename_i r
      split at h
      · rename_i d hd
        simp only [Option.some.injEq, str.injEq] at h
        have := length_of_readDq hd
        rw [h] at this
        simp only [List.length_cons, List.length_nil] at this
        omega
      · cases h
    · split at h <;> cases h
    · split at h
      · rename_i hplain
        obtain ⟨_, hnull, hbool, hint, hnum⟩ := resolve_eq_str (Option.some.inj h)
        simp [isPlainString, isText, hplain, hnull, hbool, hint, hnum]
      · cases h
  · intro h
    have hplain : isPlain s = true := by
      simp only [isPlainString, Bool.and_eq_true] at h
      exact h.1
    rw [readInline_of_isPlain hplain, resolve_of_isPlainString h]

/-! ## 5. What a value on one line cannot hold

    No line break, and no key: the keys of a value are listed in the order of their lines. -/

/-- A line break in front of a quoted scalar's end keeps the scalar from being read. -/
theorem newline_of_readDq {mode : DqMode} {s d rest : Str} (h : readDq mode s = some (d, rest))
    (hmem : '\n' ∈ s) : '\n' ∈ rest := by
  induction s generalizing mode d with
  | nil => cases hmem
  | cons c cs ih =>
    have later : ∀ {e : Char}, c ≠ '\n' →
        (readDq .text cs).map (fun r => (e :: r.1, r.2)) = some (d, rest) → '\n' ∈ rest := by
      intro e hc he
      obtain ⟨⟨d', rest'⟩, hd, heq⟩ := Option.map_eq_some_iff.mp he
      simp only [Prod.mk.injEq] at heq
      obtain ⟨rfl, rfl⟩ := heq
      exact ih hd ((List.mem_cons.mp hmem).resolve_left (Ne.symm hc))
    have skip : ∀ {mode' : DqMode} {d' : Str}, c ≠ '\n' → readDq mode' cs = some (d', rest) →
        '\n' ∈ rest :=
      fun hc hd => ih hd ((List.mem_cons.mp hmem).resolve_left (Ne.symm hc))
    cases mode with
    | text =>
      simp only [readDq] at h
      split at h
      · rename_i hquote
        cases h
        exact (List.mem_cons.mp hmem).resolve_left (by rw [hquote]; decide)
      · split at h
        · rename_i hslash
          exact skip (by rw [hslash]; decide) h
        · split at h
          · rename_i hquotable
            exact later (by rintro rfl; exact absurd hquotable (by decide)) h
          · cases h
    | escape =>
      simp only [readDq] at h
      split at h
      · rename_i width hwidth
        exact skip (by rintro rfl; exact absurd hwidth (by simp [hexWidth?])) h
      · obtain ⟨e, hesc, he⟩ := Option.bind_eq_some_iff.mp h
        exact later (by rintro rfl; exact absurd hesc (by simp [escaped?])) he
    | hex left acc =>
      simp only [readDq] at h
      obtain ⟨v, hv, h⟩ := Option.bind_eq_some_iff.mp h
      have hc : c ≠ '\n' := by
        rintro rfl
        exact absurd hv (by simp [hexVal?])
      split at h
      · obtain ⟨e, _, he⟩ := Option.bind_eq_some_iff.mp h
        exact later hc he
      · exact skip hc h

theorem newline_not_mem_plainTail {white : Bool} {s : Str} (h : plainTail white s = true) :
    '\n' ∉ s := by
  induction s generalizing white with
  | nil => exact List.not_mem_nil
  | cons c cs ih =>
    simp only [plainTail] at h
    split at h
    · rename_i hblank
      refine List.not_mem_cons_of_ne_of_not_mem ?_ (ih h)
      rintro rfl
      exact absurd hblank (by decide)
    · simp only [Bool.and_eq_true] at h
      refine List.not_mem_cons_of_ne_of_not_mem ?_ (ih h.2)
      rintro rfl
      exact absurd h.1.1.1 (by decide)

/-- Behind its first character a plain scalar goes on as it starts. -/
theorem plainTail_of_isPlain {s : Str} (h : isPlain s = true) : plainTail false s = true := by
  cases s with
  | nil => cases h
  | cons c cs =>
    simp only [isPlain, Bool.and_eq_true, Bool.or_eq_true] at h
    obtain ⟨⟨hsolid, hfirst⟩, htail⟩ := h
    have hblank : isBlank c = false := by
      simp only [isSolid, Bool.and_eq_true, Bool.not_eq_true'] at hsolid
      exact hsolid.2
    have hcolon : c ≠ ':' ∨ startsSolid cs = true := by
      rcases hfirst with hplain | ⟨_, hnext⟩
      · left
        rintro rfl
        exact absurd hplain (by decide)
      · exact .inr hnext
    simp only [plainTail, hblank, Bool.false_eq_true, if_false, hsolid, htail, Bool.not_false,
      Bool.or_true, Bool.true_and, Bool.and_true, Bool.or_eq_true, decide_eq_true_eq]
    exact hcolon

theorem newline_of_readFlowItem {s rest : Str} {v : Yaml}
    (h : readFlowItem s = some (v, rest)) (hmem : '\n' ∈ s) : '\n' ∈ rest := by
  unfold readFlowItem at h
  split at h
  · obtain ⟨p, hp, heq⟩ := Option.map_eq_some_iff.mp h
    simp only [Prod.mk.injEq] at heq
    rw [← heq.2]
    exact newline_of_readDq hp ((List.mem_cons.mp hmem).resolve_left (by decide))
  · simp only [Option.ite_none_right_eq_some, Option.some.injEq, Prod.mk.injEq] at h
    obtain ⟨hplain, _, rfl⟩ := h
    rw [← List.takeWhile_append_dropWhile (p := fun c => !isFlowIndicator c) (l := s)] at hmem
    exact (List.mem_append.mp hmem).resolve_left
      (newline_not_mem_plainTail (plainTail_of_isPlain hplain))

theorem newline_of_readFlow {fuel : Nat} {s rest : Str} {items : List Yaml}
    (h : readFlow fuel s = some (items, rest)) (hmem : '\n' ∈ s) : '\n' ∈ rest := by
  induction fuel generalizing s items with
  | zero => cases h
  | succ fuel ih =>
    simp only [readFlow, Option.bind_eq_bind, Option.bind_eq_some_iff] at h
    obtain ⟨⟨item, tail⟩, hitem, h⟩ := h
    have htail := newline_of_readFlowItem hitem hmem
    dsimp only at h
    split at h
    · cases h
      exact (List.mem_cons.mp htail).resolve_left (by decide)
    · obtain ⟨⟨items', rest'⟩, hp, heq⟩ := Option.map_eq_some_iff.mp h
      simp only [Prod.mk.injEq] at heq
      obtain ⟨rfl, rfl⟩ := heq
      exact ih hp (((List.mem_cons.mp htail).resolve_left (by decide) |>
        List.mem_cons.mp).resolve_left (by decide))
    · cases h

/-- **A text that reads as a value stands on one line.** -/
theorem newline_not_mem_of_readInline {s : Str} {v : Yaml} (h : readInline s = some v) :
    '\n' ∉ s := by
  intro hmem
  unfold readInline at h
  split at h
  · split at h
    · rename_i hd
      exact absurd (newline_of_readDq hd ((List.mem_cons.mp hmem).resolve_left (by decide)))
        List.not_mem_nil
    · cases h
  · split at h
    · rename_i hitems
      exact absurd (newline_of_readFlow hitems ((List.mem_cons.mp hmem).resolve_left (by decide)))
        List.not_mem_nil
    · cases h
  · simp only [Option.ite_none_right_eq_some] at h
    exact newline_not_mem_plainTail (plainTail_of_isPlain h.1) hmem

mutual

/-- The keys in a value, at any depth, in the order of their lines. -/
def keys : Yaml → List Str
  | .null | .bool _ | .int _ | .num _ | .str _ => []
  | .seq items => itemKeys items
  | .map members => memberKeys members

/-- The keys in the items of a sequence. -/
def itemKeys : List Yaml → List Str
  | [] => []
  | v :: vs => keys v ++ itemKeys vs

/-- The keys of a mapping and below it. -/
def memberKeys : List (Str × Yaml) → List Str
  | [] => []
  | (k, v) :: ms => k :: (keys v ++ memberKeys ms)

end

theorem keys_resolve (s : Str) : (resolve s).keys = [] := by
  unfold resolve
  repeat' split
  all_goals simp only [keys]

theorem keys_of_readFlowItem {s rest : Str} {v : Yaml}
    (h : readFlowItem s = some (v, rest)) : v.keys = [] := by
  unfold readFlowItem at h
  split at h
  · obtain ⟨p, _, heq⟩ := Option.map_eq_some_iff.mp h
    simp only [Prod.mk.injEq] at heq
    rw [← heq.1, keys]
  · simp only [Option.ite_none_right_eq_some, Option.some.injEq, Prod.mk.injEq] at h
    rw [← h.2.1, keys_resolve]

theorem keys_of_readFlow {fuel : Nat} {s rest : Str} {items : List Yaml}
    (h : readFlow fuel s = some (items, rest)) : itemKeys items = [] := by
  induction fuel generalizing s items with
  | zero => cases h
  | succ fuel ih =>
    simp only [readFlow, Option.bind_eq_bind, Option.bind_eq_some_iff] at h
    obtain ⟨⟨item, tail⟩, hitem, h⟩ := h
    have hnone := keys_of_readFlowItem hitem
    dsimp only at h
    split at h
    · cases h
      rw [itemKeys, hnone, itemKeys, List.append_nil]
    · obtain ⟨⟨items', rest'⟩, hp, heq⟩ := Option.map_eq_some_iff.mp h
      simp only [Prod.mk.injEq] at heq
      obtain ⟨rfl, rfl⟩ := heq
      rw [itemKeys, hnone, ih hp, List.append_nil]
    · cases h

/-- A value on one line has no key. -/
theorem keys_of_readInline {s : Str} {v : Yaml} (h : readInline s = some v) : v.keys = [] := by
  unfold readInline at h
  split at h
  · split at h
    · cases h
      rw [keys]
    · cases h
  · split at h
    · rename_i items hitems
      cases h
      rw [keys, keys_of_readFlow hitems]
    · cases h
  · simp only [Option.ite_none_right_eq_some, Option.some.injEq] at h
    rw [← h.2, keys_resolve]

end Yaml
end DeveSub
