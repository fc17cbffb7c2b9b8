/-
  File:      DeveSub/Lib/JsonText.lean
  Subject:   A reader of JSON texts, and the proof that it undoes both writers.

  The reader takes white space between tokens, every escape, and rejects what follows a value.
  How a floating-point number prints is an argument (`float`); the nesting limit of the real
  reader is not modelled. A value is `Canonical` when its numbers are in the case their text is
  read as and the keys of its objects are distinct.

  * `read_text`, `read_pretty` -- a canonical value reads back from its compact and from its
    indented text;
  * `text_injective` -- canonical values with one text are one value.
-/
import DeveSub.Lib.Json

namespace DeveSub.Json

/-! ## 1. The reader -/

/-- JSON white space. -/
def isWs (c : Char) : Bool := c = ' ' || c = '\n' || c = '\t' || c = '\r'

/-- A text from its first character that is not white space. -/
def skipWs (s : Str) : Str := s.dropWhile isWs

/-- The code unit of four hexadecimal digits. -/
def unit4 (a b c d : Char) : Option Nat := do
  let a ← hexVal? a
  let b ← hexVal? b
  let c ← hexVal? c
  let d ← hexVal? d
  return a * 4096 + b * 256 + c * 16 + d

/-- The character of a one-letter escape. -/
def simpleEscape (c : Char) : Option Char :=
  if c = '"' then some '"'
  else if c = '\\' then some '\\'
  else if c = '/' then some '/'
  else if c = 'b' then some (Char.ofNat 8)
  else if c = 'f' then some (Char.ofNat 12)
  else if c = 'n' then some '\n'
  else if c = 'r' then some '\r'
  else if c = 't' then some '\t'
  else none

/-- A character put before what was read. -/
def consChar (c : Char) (r : Option (Str × Str)) : Option (Str × Str) :=
  r.map fun p => (c :: p.1, p.2)

/-- The rest of a string literal, behind its opening quote. -/
def readString : Str → Option (Str × Str)
  | [] => none
  | '"' :: rest => some ([], rest)
  | '\\' :: 'u' :: a :: b :: c :: d :: rest =>
    match unit4 a b c d with
    | none => none
    | some n =>
      if n < 0xD800 || 0xE000 ≤ n then consChar (Char.ofNat n) (readString rest)
      -- a high surrogate stands only before a low one
      else match rest with
        | '\\' :: 'u' :: e :: f :: g :: h :: rest' =>
          match unit4 e f g h with
          | none => none
          | some m =>
            if n < 0xDC00 && 0xDC00 ≤ m && m < 0xE000 then
              consChar (Char.ofNat (0x10000 + (n - 0xD800) * 0x400 + (m - 0xDC00)))
                (readString rest')
            else none
        | _ => none
  | '\\' :: e :: rest =>
    match simpleEscape e with
    | none => none
    | some c => consChar c (readString rest)
  | c :: rest => if c.toNat < 32 || c = '\\' then none else consChar c (readString rest)

/-- The characters of a number. -/
def isNumChar (c : Char) : Bool :=
  c.isDigit || c = '-' || c = '+' || c = '.' || c = 'e' || c = 'E'

/-- Decimal digits without a leading zero. -/
def plainDigits? (s : Str) : Option Nat :=
  if s.head? = some '0' && s.length ≠ 1 then none else digits? s

/-- A number from its text: an integer that fits 64 bits, or else a float. -/
def numberOf (float : Str → Option Str) (s : Str) : Option JsonNumber :=
  match plainDigits? s with
  | some n => if n < 2 ^ 64 then some (.posInt (UInt64.ofNat n)) else (float s).map .float
  | none =>
    match (stripPrefix ['-'] s).bind plainDigits? with
    | some n => if 0 < n ∧ n ≤ 2 ^ 63 then some (.negInt (-n)) else (float s).map .float
    | none => (float s).map .float

section Reader

variable (float : Str → Option Str)

mutual

/-- One value, and what is behind it. -/
def readValue : Nat → Str → Option (Json × Str)
  | 0, _ => none
  | fuel + 1, s =>
    match skipWs s with
    | 'n' :: 'u' :: 'l' :: 'l' :: rest => some (.null, rest)
    | 't' :: 'r' :: 'u' :: 'e' :: rest => some (.bool true, rest)
    | 'f' :: 'a' :: 'l' :: 's' :: 'e' :: rest => some (.bool false, rest)
    | '"' :: rest => (readString rest).map fun p => (.str p.1, p.2)
    | '[' :: rest =>
      match skipWs rest with
      | ']' :: rest' => some (.arr [], rest')
      | _ => (readItems fuel rest).map fun p => (.arr p.1, p.2)
    | '{' :: rest =>
      match skipWs rest with
      | '}' :: rest' => some (.obj [], rest')
      | _ => (readMembers fuel rest).map fun p =>
          (.obj (p.1.foldl (fun ms m => insertMember m.1 m.2 ms) []), p.2)
    | t => (numberOf float (t.takeWhile isNumChar)).map fun n => (.num n, t.dropWhile isNumChar)

/-- Items up to the closing bracket. -/
def readItems : Nat → Str → Option (List Json × Str)
  | 0, _ => none
  | fuel + 1, s =>
    match readValue fuel s with
    | none => none
    | some (v, rest) =>
      match skipWs rest with
      | ',' :: rest' => (readItems fuel rest').map fun p => (v :: p.1, p.2)
      | ']' :: rest' => some ([v], rest')
      | _ => none

/-- Members up to the closing brace. -/
def readMembers : Nat → Str → Option (List (Str × Json) × Str)
  | 0, _ => none
  | fuel + 1, s =>
    match skipWs s with
    | '"' :: rest =>
      match readString rest with
      | none => none
      | some (k, rest') =>
        match skipWs rest' with
        | ':' :: rest'' =>
          match readValue fuel rest'' with
          | none => none
          | some (v, more) =>
            match skipWs more with
            | ',' :: more' => (readMembers fuel more').map fun p => ((k, v) :: p.1, p.2)
            | '}' :: more' => some ([(k, v)], more')
            | _ => none
        | _ => none
    | _ => none

end

/-- `serde_json::from_str`: one value, and nothing but white space behind it. -/
def read (s : Str) : Except Str Json :=
  match readValue float (s.length + 1) s with
  | some (v, rest) => if (skipWs rest).isEmpty then .ok v else .error "trailing characters"
  | none => .error "expected value"

end Reader

/-! ## 2. Strings -/

theorem readString_simple {e c : Char} (he : simpleEscape e = some c) (hu : e ≠ 'u') (rest : Str) :
    readString ('\\' :: e :: rest) = consChar c (readString rest) := by
  rw [readString]
  · rw [he]
  · intro _ _ _ _ _ h _
    exact hu h

theorem unit4_hex4 {n : Nat} (h : n < 65536) :
    unit4 (Nat.digitChar (n / 4096 % 16)) (Nat.digitChar (n / 256 % 16))
      (Nat.digitChar (n / 16 % 16)) (Nat.digitChar (n % 16)) = some n := by
  simp only [unit4, hexVal?_digitChar (Nat.mod_lt _ (by decide : 0 < 16)), Option.bind_eq_bind,
    Option.bind_some, Option.pure_def]
  congr 1
  omega

theorem readString_escapeChar (c : Char) (rest : Str) :
    readString (escapeChar c ++ rest) = consChar c (readString rest) := by
  unfold escapeChar
  split_ifs with h1 h2 h3 h4 h5 h6 h7 h8
  · subst h1
    exact readString_simple rfl (by decide) rest
  · subst h2
    exact readString_simple rfl (by decide) rest
  · have hc : c = Char.ofNat 8 := by rw [← h3, Char.ofNat_toNat]
    rw [hc]
    exact readString_simple rfl (by decide) rest
  · have hc : c = Char.ofNat 12 := by rw [← h4, Char.ofNat_toNat]
    rw [hc]
    exact readString_simple rfl (by decide) rest
  · subst h5
    exact readString_simple rfl (by decide) rest
  · subst h6
    exact readString_simple rfl (by decide) rest
  · subst h7
    exact readString_simple rfl (by decide) rest
  · have hlt : c.toNat < 0xD800 := by omega
    simp only [hex4, List.cons_append, List.nil_append]
    rw [readString, unit4_hex4 (by omega)]
    simp only [hlt, decide_true, Bool.true_or, if_true, Char.ofNat_toNat]
  · show readString (c :: rest) = _
    rw [readString]
    · simp [h8, h2]
    · exact h1
    · rintro a b c' d r rfl
      exact absurd rfl h2
    · intro e r hc _
      exact h2 hc

/-- **A quoted text reads back.** -/
theorem readString_quote (s rest : Str) :
    readString (s.flatMap escapeChar ++ '"' :: rest) = some (s, rest) := by
  induction s with
  | nil => simp [readString]
  | cons c s ih =>
    rw [List.flatMap_cons, List.append_assoc, readString_escapeChar, ih]
    rfl

/-! ## 3. White space and numbers -/

theorem skipWs_append {ws : Str} (h : ∀ c ∈ ws, isWs c = true) (s : Str) :
    skipWs (ws ++ s) = skipWs s := by
  induction ws with
  | nil => rfl
  | cons c ws ih =>
    have hc : isWs c = true := h c List.mem_cons_self
    rw [List.cons_append, skipWs, List.dropWhile_cons_of_pos hc]
    exact ih fun d hd => h d (List.mem_cons_of_mem _ hd)

theorem skipWs_cons {c : Char} (h : isWs c = false) (s : Str) : skipWs (c :: s) = c :: s := by
  rw [skipWs, List.dropWhile_cons_of_neg (by simp [h])]

/-- A number ends where this text starts. -/
def NumEnds (s : Str) : Prop := ∀ c ∈ s.head?, isNumChar c = false

theorem numEnds_nil : NumEnds [] := by simp [NumEnds]

theorem numEnds_cons {c : Char} (h : isNumChar c = false) (s : Str) : NumEnds (c :: s) := by
  simpa [NumEnds] using h

theorem isNumChar_of_isWs {c : Char} (h : isWs c = true) : isNumChar c = false := by
  simp only [isWs, Bool.or_eq_true, decide_eq_true_eq] at h
  rcases h with ((rfl | rfl) | rfl) | rfl <;> decide

theorem numEnds_append {ws : Str} (h : ∀ c ∈ ws, isWs c = true) {s : Str} (hs : NumEnds s) :
    NumEnds (ws ++ s) := by
  cases ws with
  | nil => exact hs
  | cons c ws => exact numEnds_cons (isNumChar_of_isWs (h c List.mem_cons_self)) _

theorem takeWhile_num {t : Str} (h : ∀ c ∈ t, isNumChar c = true) {rest : Str} (hr : NumEnds rest) :
    (t ++ rest).takeWhile isNumChar = t ∧ (t ++ rest).dropWhile isNumChar = rest := by
  have hrest : rest.takeWhile isNumChar = [] ∧ rest.dropWhile isNumChar = rest := by
    cases rest with
    | nil => exact ⟨rfl, rfl⟩
    | cons c rest =>
      have hc : ¬ isNumChar c = true := by simpa using hr c rfl
      exact ⟨List.takeWhile_cons_of_neg hc, List.dropWhile_cons_of_neg hc⟩
  rw [List.takeWhile_append_of_pos h, List.dropWhile_append_of_pos h, hrest.1, hrest.2]
  exact ⟨List.append_nil t, rfl⟩

theorem isNumChar_cases {P : Char → Prop} {c : Char} (h : isNumChar c = true)
    (hall : ∀ d ∈ ['0', '1', '2', '3', '4', '5', '6', '7', '8', '9', '-', '+', '.', 'e', 'E'], P d) :
    P c := by
  refine hall c ?_
  simp only [isNumChar, Bool.or_eq_true, decide_eq_true_eq] at h
  rcases h with ((((h | rfl) | rfl) | rfl) | rfl) | rfl
  · exact forall_digit (P := fun c => c ∈ ['0', '1', '2', '3', '4', '5', '6', '7', '8', '9', '-', '+',
      '.', 'e', 'E']) (by decide) h
  all_goals decide

theorem isWs_of_isNumChar {c : Char} (h : isNumChar c = true) : isWs c = false :=
  isNumChar_cases (P := fun c => isWs c = false) h (forall_mem_of_all (by decide))

/-- A positive number has no leading zero. -/
theorem head_natText {n : Nat} (h : 0 < n) : (natText n).head? ≠ some '0' := by
  induction n using Nat.strongRecOn with
  | ind n ih =>
    rcases Nat.lt_or_ge n 10 with hlt | hge
    · have hsingle : natText n = [Nat.digitChar n] := Nat.toDigits_of_lt_base hlt
      rw [hsingle]
      have : ∀ i : Fin 10, 0 < i.val → ([Nat.digitChar i.val].head? ≠ some '0') := by decide
      exact this ⟨n, hlt⟩ h
    · have hsplit : natText n = natText (n / 10) ++ [Nat.digitChar (n % 10)] :=
        Nat.toDigits_of_base_le (by decide) hge
      have hne := natText_ne_nil (n / 10)
      rw [hsplit, List.head?_append_of_ne_nil _ hne]
      exact ih (n / 10) (by omega) (by omega)

theorem plainDigits?_natText (n : Nat) : plainDigits? (natText n) = some n := by
  unfold plainDigits?
  rcases Nat.eq_zero_or_pos n with rfl | hpos
  · rfl
  · simp [head_natText hpos]

section Numbers

variable (float : Str → Option Str)

/-- A text that starts like a number is read as one. -/
theorem readValue_num {c : Char} (h : isNumChar c = true) (fuel : Nat) (rest : Str) :
    readValue float (fuel + 1) (c :: rest) =
      (numberOf float ((c :: rest).takeWhile isNumChar)).map
        fun n => (.num n, (c :: rest).dropWhile isNumChar) := by
  refine isNumChar_cases (P := fun c => readValue float (fuel + 1) (c :: rest) =
    (numberOf float ((c :: rest).takeWhile isNumChar)).map
      fun n => (.num n, (c :: rest).dropWhile isNumChar)) h ?_
  intro d hd
  simp only [List.mem_cons, List.not_mem_nil, or_false] at hd
  rcases hd with rfl | rfl | rfl | rfl | rfl | rfl | rfl | rfl | rfl | rfl | rfl | rfl | rfl | rfl | rfl
  all_goals rfl

/-- A number in the case its text is read as. -/
def CanonicalNum : JsonNumber → Prop
  | .posInt _ => True
  | .negInt n => -2 ^ 63 ≤ n ∧ n < 0
  | .float r => r ≠ [] ∧ (∀ c ∈ r, isNumChar c = true) ∧ numberOf float r = some (.float r)

theorem isNumChar_of_isDigit {c : Char} (h : c.isDigit = true) : isNumChar c = true := by
  simp [isNumChar, h]

/-- The text of a canonical number is one. -/
theorem numText_num {n : JsonNumber} (h : CanonicalNum float n) :
    numText n ≠ [] ∧ ∀ c ∈ numText n, isNumChar c = true := by
  cases n with
  | posInt n => exact ⟨natText_ne_nil _, fun c hc => isNumChar_of_isDigit (isDigit_of_mem_natText hc)⟩
  | negInt n =>
    refine ⟨List.cons_ne_nil _ _, fun c hc => ?_⟩
    rcases List.mem_cons.1 hc with rfl | hc
    · decide
    · exact isNumChar_of_isDigit (isDigit_of_mem_natText hc)
  | float r => exact ⟨h.1, h.2.1⟩

/-- **A canonical number reads back from its text.** -/
theorem numberOf_numText {n : JsonNumber} (h : CanonicalNum float n) :
    numberOf float (numText n) = some n := by
  cases n with
  | posInt n =>
    have hlt : n.toNat < 2 ^ 64 := n.toNat_lt
    simp only [numText, numberOf, plainDigits?_natText, hlt, if_true, UInt64.ofNat_toNat]
  | negInt n =>
    obtain ⟨hlow, hneg⟩ := h
    have hminus : plainDigits? ('-' :: natText n.natAbs) = none := by
      simp [plainDigits?, digits?, show ('-' : Char).isDigit = false from by decide]
    have hstrip : stripPrefix ['-'] ('-' :: natText n.natAbs) = some (natText n.natAbs) := by
      simp [stripPrefix]
    have hrange : 0 < n.natAbs ∧ n.natAbs ≤ 2 ^ 63 := by omega
    simp only [numText, numberOf, hminus, hstrip, Option.bind_some, plainDigits?_natText, hrange,
      and_self, if_true]
    congr 2
    omega
  | float r => exact h.2.2

end Numbers

/-! ## 4. Layouts -/

/-- What the two writers put between the tokens: line starts, and a gap behind a colon. -/
structure Layout where
  line : Nat → Str
  gap : Str
  line_ws : ∀ n, ∀ c ∈ line n, isWs c = true
  gap_ws : ∀ c ∈ gap, isWs c = true

/-- `to_string`. -/
def Layout.compact : Layout := ⟨fun _ => [], [], by simp, by simp⟩

/-- `to_string_pretty`. -/
def Layout.indented : Layout where
  line := newline
  gap := [' ']
  line_ws n c hc := by
    rcases List.mem_cons.1 hc with rfl | hc
    · rfl
    · rw [List.eq_of_mem_replicate hc]
      rfl
  gap_ws c hc := by
    rw [List.mem_singleton.1 hc]
    rfl

mutual

/-- A value in a layout, inside a block at `indent`. -/
def render (L : Layout) (indent : Nat) : Json → Str
  | .arr [] => ['[', ']']
  | .arr (x :: xs) => '[' :: (renderItems L (indent + 2) (x :: xs) ++ L.line indent ++ [']'])
  | .obj [] => ['{', '}']
  | .obj (m :: ms) => '{' :: (renderMembers L (indent + 2) (m :: ms) ++ L.line indent ++ ['}'])
  | .null => "null".toList
  | .bool true => "true".toList
  | .bool false => "false".toList
  | .num n => numText n
  | .str s => quote s

/-- Items in a layout. -/
def renderItems (L : Layout) (indent : Nat) : List Json → Str
  | [] => []
  | [x] => L.line indent ++ render L indent x
  | x :: y :: xs => L.line indent ++ render L indent x ++ ',' :: renderItems L indent (y :: xs)

/-- Members in a layout. -/
def renderMembers (L : Layout) (indent : Nat) : List (Str × Json) → Str
  | [] => []
  | [(k, v)] => L.line indent ++ quote k ++ ':' :: (L.gap ++ render L indent v)
  | (k, v) :: m :: ms =>
      L.line indent ++ quote k ++ ':' :: (L.gap ++ render L indent v ++
        ',' :: renderMembers L indent (m :: ms))

end

mutual

theorem render_compact (indent : Nat) : ∀ v : Json, render .compact indent v = text v
  | .null => by rw [render, text]
  | .bool true => by rw [render, text]
  | .bool false => by rw [render, text]
  | .num n => by rw [render, text]
  | .str s => by rw [render, text]
  | .arr [] => by rw [render, text, itemsText]; rfl
  | .arr (x :: xs) => by
    rw [render, text, renderItems_compact (indent + 2) (x :: xs)]
    simp [Layout.compact]
  | .obj [] => by rw [render, text, membersText]; rfl
  | .obj (m :: ms) => by
    rw [render, text, renderMembers_compact (indent + 2) (m :: ms)]
    simp [Layout.compact]

theorem renderItems_compact (indent : Nat) :
    ∀ xs : List Json, renderItems .compact indent xs = itemsText xs
  | [] => by rw [renderItems, itemsText]
  | [x] => by
    rw [renderItems, itemsText, render_compact indent x]
    rfl
  | x :: y :: xs => by
    rw [renderItems, itemsText, render_compact indent x, renderItems_compact indent (y :: xs)]
    rfl

theorem renderMembers_compact (indent : Nat) :
    ∀ ms : List (Str × Json), renderMembers .compact indent ms = membersText ms
  | [] => by rw [renderMembers, membersText]
  | [(k, v)] => by
    rw [renderMembers, membersText, render_compact indent v]
    rfl
  | (k, v) :: m :: ms => by
    rw [renderMembers, membersText, render_compact indent v, renderMembers_compact indent (m :: ms)]
    rfl

end

mutual

theorem render_indented (indent : Nat) : ∀ v : Json, render .indented indent v = prettyAt indent v
  | .null => by rw [render, prettyAt]
  | .bool true => by rw [render, prettyAt]
  | .bool false => by rw [render, prettyAt]
  | .num n => by rw [render, prettyAt]
  | .str s => by rw [render, prettyAt]
  | .arr [] => by rw [render, prettyAt]
  | .arr (x :: xs) => by
    rw [render, prettyAt, renderItems_indented (indent + 2) (x :: xs)]
    rfl
  | .obj [] => by rw [render, prettyAt]
  | .obj (m :: ms) => by
    rw [render, prettyAt, renderMembers_indented (indent + 2) (m :: ms)]
    rfl

theorem renderItems_indented (indent : Nat) :
    ∀ xs : List Json, renderItems .indented indent xs = prettyItems indent xs
  | [] => by rw [renderItems, prettyItems]
  | [x] => by
    rw [renderItems, prettyItems, render_indented indent x]
    rfl
  | x :: y :: xs => by
    rw [renderItems, prettyItems, render_indented indent x, renderItems_indented indent (y :: xs)]
    rfl

theorem renderMembers_indented (indent : Nat) :
    ∀ ms : List (Str × Json), renderMembers .indented indent ms = prettyMembers indent ms
  | [] => by rw [renderMembers, prettyMembers]
  | [(k, v)] => by
    rw [renderMembers, prettyMembers, render_indented indent v]
    rfl
  | (k, v) :: m :: ms => by
    rw [renderMembers, prettyMembers, render_indented indent v,
      renderMembers_indented indent (m :: ms)]
    rfl

end

/-! ## 5. The round trip -/

section RoundTrip

variable (float : Str → Option Str)

mutual

/-- Numbers in the case their text is read as, and no key twice. -/
def Canonical : Json → Prop
  | .null | .bool _ | .str _ => True
  | .num n => CanonicalNum float n
  | .arr xs => CanonicalItems xs
  | .obj ms => (ms.map Prod.fst).Nodup ∧ CanonicalMembers ms

def CanonicalItems : List Json → Prop
  | [] => True
  | x :: xs => Canonical x ∧ CanonicalItems xs

def CanonicalMembers : List (Str × Json) → Prop
  | [] => True
  | (_, v) :: ms => Canonical v ∧ CanonicalMembers ms

end

theorem canonicalItems_iff {xs : List Json} :
    CanonicalItems float xs ↔ ∀ x ∈ xs, Canonical float x := by
  induction xs with
  | nil => simp [CanonicalItems]
  | cons x xs ih => simp [CanonicalItems, ih]

theorem canonicalMembers_iff {ms : List (Str × Json)} :
    CanonicalMembers float ms ↔ ∀ m ∈ ms, Canonical float m.2 := by
  induction ms with
  | nil => simp [CanonicalMembers]
  | cons m ms ih => simp [CanonicalMembers, ih]

mutual

/-- The fuel a value takes. -/
def size : Json → Nat
  | .arr xs => 1 + sizeItems xs
  | .obj ms => 1 + sizeMembers ms
  | .null | .bool _ | .num _ | .str _ => 1

def sizeItems : List Json → Nat
  | [] => 0
  | x :: xs => 1 + size x + sizeItems xs

def sizeMembers : List (Str × Json) → Nat
  | [] => 0
  | (_, v) :: ms => 1 + size v + sizeMembers ms

end

/-- White space before a value is skipped. -/
theorem readValue_ws {ws : Str} (h : ∀ c ∈ ws, isWs c = true) (fuel : Nat) (s : Str) :
    readValue float fuel (ws ++ s) = readValue float fuel s := by
  cases fuel with
  | zero => rw [readValue, readValue]
  | succ fuel => rw [readValue, readValue, skipWs_append h]

theorem readMembers_ws {ws : Str} (h : ∀ c ∈ ws, isWs c = true) (fuel : Nat) (s : Str) :
    readMembers float fuel (ws ++ s) = readMembers float fuel s := by
  cases fuel with
  | zero => rw [readMembers, readMembers]
  | succ fuel => rw [readMembers, readMembers, skipWs_append h]

/-- A written value starts with a character of its own, which closes nothing. -/
theorem render_head (L : Layout) (indent : Nat) {v : Json} (hv : Canonical float v) :
    ∃ c t, render L indent v = c :: t ∧ isWs c = false ∧ c ≠ ']' := by
  match v, hv with
  | .null, _ => exact ⟨'n', "ull".toList, by rw [render]; rfl, by decide, by decide⟩
  | .bool true, _ => exact ⟨'t', "rue".toList, by rw [render]; rfl, by decide, by decide⟩
  | .bool false, _ => exact ⟨'f', "alse".toList, by rw [render]; rfl, by decide, by decide⟩
  | .str s, _ => exact ⟨'"', _, by rw [render, quote], by decide, by decide⟩
  | .arr [], _ => exact ⟨'[', _, by rw [render], by decide, by decide⟩
  | .arr (x :: xs), _ => exact ⟨'[', _, by rw [render], by decide, by decide⟩
  | .obj [], _ => exact ⟨'\x7b', _, by rw [render], by decide, by decide⟩
  | .obj (m :: ms), _ => exact ⟨'\x7b', _, by rw [render], by decide, by decide⟩
  | .num n, hv =>
    rw [Canonical] at hv
    obtain ⟨hne, hnum⟩ := numText_num float hv
    obtain ⟨c, t, ht⟩ := List.exists_cons_of_ne_nil hne
    have hc := hnum c (by rw [ht]; exact List.mem_cons_self)
    refine ⟨c, t, by rw [render, ht], isWs_of_isNumChar hc, ?_⟩
    rintro rfl
    exact absurd hc (by decide)

/-- Keys that stand once are inserted in their order. -/
theorem foldl_insertMember {ms : List (Str × Json)} (h : (ms.map Prod.fst).Nodup) :
    ms.foldl (fun acc m => insertMember m.1 m.2 acc) [] = ms := by
  have hsnoc : ∀ (acc : List (Str × Json)) (k : Str) (v : Json), k ∉ acc.map Prod.fst →
      insertMember k v acc = acc ++ [(k, v)] := by
    intro acc k v hk
    induction acc with
    | nil => rfl
    | cons m acc ih =>
      rw [List.map_cons, List.mem_cons, not_or] at hk
      rw [insertMember, if_neg (Ne.symm hk.1), ih hk.2]
      rfl
  have hfold : ∀ (ms acc : List (Str × Json)), ((acc ++ ms).map Prod.fst).Nodup →
      ms.foldl (fun acc m => insertMember m.1 m.2 acc) acc = acc ++ ms := by
    intro ms
    induction ms with
    | nil => exact fun acc _ => (List.append_nil acc).symm
    | cons m ms ih =>
      intro acc hnodup
      have hm : m.1 ∉ acc.map Prod.fst := by
        rw [List.map_append, List.map_cons] at hnodup
        exact fun hmem => (List.nodup_append.1 hnodup).2.2 _ hmem _ List.mem_cons_self rfl
      rw [List.foldl_cons, hsnoc acc m.1 m.2 hm, ih]
      · simp
      · simpa using hnodup
  exact hfold ms [] h

mutual

/-- **A written value reads back**, up to where the next token starts. -/
theorem readValue_render (L : Layout) :
    ∀ (v : Json), Canonical float v → ∀ (indent fuel : Nat), size v ≤ fuel →
      ∀ (rest : Str), NumEnds rest →
      readValue float fuel (render L indent v ++ rest) = some (v, rest)
  | v, _, _, 0, hf, _, _ => by
    exfalso
    cases v <;> simp [size] at hf
  | .null, _, _, fuel + 1, _, rest, _ => by rw [render]; rfl
  | .bool true, _, _, fuel + 1, _, rest, _ => by rw [render]; rfl
  | .bool false, _, _, fuel + 1, _, rest, _ => by rw [render]; rfl
  | .num n, hv, _, fuel + 1, _, rest, hr => by
    rw [Canonical] at hv
    obtain ⟨hne, hnum⟩ := numText_num float hv
    obtain ⟨htake, hdrop⟩ := takeWhile_num hnum hr
    obtain ⟨c, t, ht⟩ := List.exists_cons_of_ne_nil hne
    have hc := hnum c (by rw [ht]; exact List.mem_cons_self)
    have hcons : numText n ++ rest = c :: (t ++ rest) := by rw [ht]; rfl
    rw [render, hcons, readValue_num float hc, ← hcons, htake, hdrop, numberOf_numText float hv]
    rfl
  | .str s, _, indent, fuel + 1, _, rest, _ => by
    have htext : render L indent (.str s) ++ rest = '"' :: (s.flatMap escapeChar ++ '"' :: rest) := by
      rw [render, quote]
      simp
    rw [htext, readValue, skipWs_cons (by decide)]
    simp only [readString_quote, Option.map_some]
  | .arr [], _, _, fuel + 1, _, rest, _ => by rw [render]; rfl
  | .arr (x :: xs), hv, indent, fuel + 1, hf, rest, _ => by
    rw [Canonical] at hv
    rw [size] at hf
    have hitems := readItems_render L (x :: xs) (List.cons_ne_nil _ _) hv (indent + 2) indent fuel
      (by omega) rest
    have htext : render L indent (.arr (x :: xs)) ++ rest =
        '[' :: (renderItems L (indent + 2) (x :: xs) ++ (L.line indent ++ ']' :: rest)) := by
      rw [render]
      simp
    obtain ⟨c, t, hhead, hws, hclose⟩ :
        ∃ c t, skipWs (renderItems L (indent + 2) (x :: xs) ++ (L.line indent ++ ']' :: rest)) =
          c :: t ∧ isWs c = false ∧ c ≠ ']' := by
      rw [CanonicalItems] at hv
      obtain ⟨c, t, hc, hws, hne⟩ := render_head float L (indent + 2) hv.1
      have hstart : ∃ t', renderItems L (indent + 2) (x :: xs) =
          L.line (indent + 2) ++ c :: t' := by
        cases xs with
        | nil => exact ⟨t, by rw [renderItems, hc]⟩
        | cons y ys => exact ⟨t ++ ',' :: renderItems L (indent + 2) (y :: ys), by
            rw [renderItems, hc]; simp⟩
      obtain ⟨t', ht'⟩ := hstart
      refine ⟨c, t' ++ (L.line indent ++ ']' :: rest), ?_, hws, hne⟩
      rw [ht', List.append_assoc, skipWs_append (L.line_ws _), List.cons_append, skipWs_cons hws]
    rw [htext, readValue, skipWs_cons (by decide)]
    simp only [hhead]
    split
    · rename_i heq
      exact absurd (List.cons.inj heq).1 hclose
    · rw [hitems]
      rfl
  | .obj [], _, _, fuel + 1, _, rest, _ => by rw [render]; rfl
  | .obj (m :: ms), hv, indent, fuel + 1, hf, rest, _ => by
    rw [Canonical] at hv
    rw [size] at hf
    have hmembers := readMembers_render L (m :: ms) (List.cons_ne_nil _ _) hv.2 (indent + 2) indent
      fuel (by omega) rest
    have htext : render L indent (.obj (m :: ms)) ++ rest =
        '\x7b' :: (renderMembers L (indent + 2) (m :: ms) ++ (L.line indent ++ '\x7d' :: rest)) := by
      rw [render]
      simp
    obtain ⟨t, hhead⟩ : ∃ t, skipWs (renderMembers L (indent + 2) (m :: ms) ++
        (L.line indent ++ '\x7d' :: rest)) = '"' :: t := by
      obtain ⟨k, v⟩ := m
      have hstart : ∃ t', renderMembers L (indent + 2) ((k, v) :: ms) =
          L.line (indent + 2) ++ '"' :: t' := by
        cases ms with
        | nil => exact ⟨_, by rw [renderMembers, quote, List.append_assoc]; rfl⟩
        | cons n ns => exact ⟨_, by rw [renderMembers, quote, List.append_assoc]; rfl⟩
      obtain ⟨t', ht'⟩ := hstart
      refine ⟨t' ++ (L.line indent ++ '\x7d' :: rest), ?_⟩
      rw [ht', List.append_assoc, skipWs_append (L.line_ws _), List.cons_append,
        skipWs_cons (by decide)]
    rw [htext, readValue, skipWs_cons (by decide)]
    simp only [hhead, hmembers, Option.map_some, foldl_insertMember hv.1]
    rfl

theorem readItems_render (L : Layout) :
    ∀ (xs : List Json), xs ≠ [] → CanonicalItems float xs → ∀ (indent close fuel : Nat),
      sizeItems xs ≤ fuel → ∀ (rest : Str),
      readItems float fuel (renderItems L indent xs ++ (L.line close ++ ']' :: rest)) =
        some (xs, rest)
  | [], h, _, _, _, _, _, _ => absurd rfl h
  | x :: xs, _, _, _, _, 0, hf, _ => by simp [sizeItems] at hf
  | [x], _, hv, indent, close, fuel + 1, hf, rest => by
    rw [CanonicalItems] at hv
    rw [sizeItems] at hf
    have hends : NumEnds (L.line close ++ ']' :: rest) :=
      numEnds_append (L.line_ws _) (numEnds_cons (by decide) _)
    rw [renderItems, readItems, List.append_assoc, readValue_ws float (L.line_ws _),
      readValue_render L x hv.1 indent fuel (by omega) _ hends]
    simp only [skipWs_append (L.line_ws _), skipWs_cons (show isWs ']' = false by decide)]
  | x :: y :: xs, _, hv, indent, close, fuel + 1, hf, rest => by
    rw [CanonicalItems] at hv
    rw [sizeItems] at hf
    have hrest := readItems_render L (y :: xs) (List.cons_ne_nil _ _) hv.2 indent close fuel
      (by omega) rest
    have htext : renderItems L indent (x :: y :: xs) ++ (L.line close ++ ']' :: rest) =
        L.line indent ++ (render L indent x ++
          ',' :: (renderItems L indent (y :: xs) ++ (L.line close ++ ']' :: rest))) := by
      rw [renderItems]
      simp
    rw [htext, readItems, readValue_ws float (L.line_ws _),
      readValue_render L x hv.1 indent fuel (by omega) _ (numEnds_cons (by decide) _)]
    simp only [skipWs_cons (show isWs ',' = false by decide), hrest, Option.map_some]

theorem readMembers_render (L : Layout) :
    ∀ (ms : List (Str × Json)), ms ≠ [] → CanonicalMembers float ms → ∀ (indent close fuel : Nat),
      sizeMembers ms ≤ fuel → ∀ (rest : Str),
      readMembers float fuel (renderMembers L indent ms ++ (L.line close ++ '\x7d' :: rest)) =
        some (ms, rest)
  | [], h, _, _, _, _, _, _ => absurd rfl h
  | m :: ms, _, _, _, _, 0, hf, _ => by
    obtain ⟨k, v⟩ := m
    simp [sizeMembers] at hf
  | [(k, v)], _, hv, indent, close, fuel + 1, hf, rest => by
    rw [CanonicalMembers] at hv
    rw [sizeMembers] at hf
    have hends : NumEnds (L.line close ++ '\x7d' :: rest) :=
      numEnds_append (L.line_ws _) (numEnds_cons (by decide) _)
    have htext : renderMembers L indent [(k, v)] ++ (L.line close ++ '\x7d' :: rest) =
        L.line indent ++ ('"' :: (k.flatMap escapeChar ++ '"' :: ':' ::
          (L.gap ++ (render L indent v ++ (L.line close ++ '\x7d' :: rest))))) := by
      rw [renderMembers, quote]
      simp
    rw [htext, readMembers_ws float (L.line_ws _), readMembers, skipWs_cons (by decide)]
    simp only [readString_quote, skipWs_cons (show isWs ':' = false by decide),
      readValue_ws float L.gap_ws, readValue_render L v hv.1 indent fuel (by omega) _ hends,
      skipWs_append (L.line_ws _), skipWs_cons (show isWs '\x7d' = false by decide)]
  | (k, v) :: m :: ms, _, hv, indent, close, fuel + 1, hf, rest => by
    rw [CanonicalMembers] at hv
    rw [sizeMembers] at hf
    have hrest := readMembers_render L (m :: ms) (List.cons_ne_nil _ _) hv.2 indent close fuel
      (by omega) rest
    have hcomma : NumEnds
        (',' :: (renderMembers L indent (m :: ms) ++ (L.line close ++ '\x7d' :: rest))) :=
      numEnds_cons (by decide) _
    have htext : renderMembers L indent ((k, v) :: m :: ms) ++ (L.line close ++ '\x7d' :: rest) =
        L.line indent ++ ('"' :: (k.flatMap escapeChar ++ '"' :: ':' ::
          (L.gap ++ (render L indent v ++ ',' ::
            (renderMembers L indent (m :: ms) ++ (L.line close ++ '\x7d' :: rest)))))) := by
      rw [renderMembers, quote]
      simp
    rw [htext, readMembers_ws float (L.line_ws _), readMembers, skipWs_cons (by decide)]
    simp only [readString_quote, skipWs_cons (show isWs ':' = false by decide),
      readValue_ws float L.gap_ws, readValue_render L v hv.1 indent fuel (by omega) _ hcomma,
      skipWs_cons (show isWs ',' = false by decide), hrest, Option.map_some]

end

mutual

theorem size_le_length (L : Layout) : ∀ (v : Json), Canonical float v → ∀ indent : Nat,
    size v ≤ (render L indent v).length
  | .null, _, _ => by rw [render, size]; decide
  | .bool true, _, _ => by rw [render, size]; decide
  | .bool false, _, _ => by rw [render, size]; decide
  | .num n, hv, _ => by
    rw [Canonical] at hv
    rw [render, size]
    exact List.length_pos_of_ne_nil (numText_num float hv).1
  | .str s, _, _ => by rw [render, size, quote]; simp
  | .arr [], _, _ => by rw [render, size, sizeItems]; decide
  | .arr (x :: xs), hv, indent => by
    rw [Canonical] at hv
    have h := sizeItems_le_length L (x :: xs) hv (indent + 2)
    rw [render, size]
    simp only [List.length_cons, List.length_append, List.length_nil]
    omega
  | .obj [], _, _ => by rw [render, size, sizeMembers]; decide
  | .obj (m :: ms), hv, indent => by
    rw [Canonical] at hv
    have h := sizeMembers_le_length L (m :: ms) hv.2 (indent + 2)
    rw [render, size]
    simp only [List.length_cons, List.length_append, List.length_nil]
    omega

theorem sizeItems_le_length (L : Layout) : ∀ (xs : List Json), CanonicalItems float xs →
    ∀ indent : Nat, sizeItems xs ≤ (renderItems L indent xs).length + 1
  | [], _, _ => by rw [sizeItems]; omega
  | [x], hv, indent => by
    rw [CanonicalItems] at hv
    have h := size_le_length L x hv.1 indent
    rw [renderItems, sizeItems, sizeItems]
    simp only [List.length_append]
    omega
  | x :: y :: xs, hv, indent => by
    rw [CanonicalItems] at hv
    have hx := size_le_length L x hv.1 indent
    have hxs := sizeItems_le_length L (y :: xs) hv.2 indent
    rw [renderItems, sizeItems]
    simp only [List.length_append, List.length_cons]
    omega

theorem sizeMembers_le_length (L : Layout) : ∀ (ms : List (Str × Json)), CanonicalMembers float ms →
    ∀ indent : Nat, sizeMembers ms ≤ (renderMembers L indent ms).length + 1
  | [], _, _ => by rw [sizeMembers]; omega
  | [(k, v)], hv, indent => by
    rw [CanonicalMembers] at hv
    have h := size_le_length L v hv.1 indent
    rw [renderMembers, sizeMembers, sizeMembers]
    simp only [List.length_append, List.length_cons]
    omega
  | (k, v) :: m :: ms, hv, indent => by
    rw [CanonicalMembers] at hv
    have hx := size_le_length L v hv.1 indent
    have hxs := sizeMembers_le_length L (m :: ms) hv.2 indent
    rw [renderMembers, sizeMembers]
    simp only [List.length_append, List.length_cons]
    omega

end

theorem read_render (L : Layout) {v : Json} (hv : Canonical float v) :
    read float (render L 0 v) = .ok v := by
  have hread := readValue_render float L v hv 0 ((render L 0 v).length + 1)
    (Nat.le_succ_of_le (size_le_length float L v hv 0)) [] numEnds_nil
  rw [List.append_nil] at hread
  rw [read, hread]
  rfl

/-- **A canonical value reads back from its compact text.** -/
theorem read_text {v : Json} (hv : Canonical float v) : read float (text v) = .ok v := by
  rw [← render_compact 0 v]
  exact read_render float .compact hv

/-- **A canonical value reads back from its indented text.** -/
theorem read_pretty {v : Json} (hv : Canonical float v) : read float (pretty v) = .ok v := by
  rw [pretty, ← render_indented 0 v]
  exact read_render float .indented hv

/-- **Canonical values with one text are one value.** -/
theorem text_injective {v w : Json} (hv : Canonical float v) (hw : Canonical float w)
    (h : text v = text w) : v = w := by
  have hread := read_text float hv
  rw [h, read_text float hw] at hread
  exact (Except.ok.inj hread).symm

end RoundTrip

/-- The codec of this reader and the compact writer. -/
def codec (float : Str → Option Str) : JsonCodec where
  read := read float
  write := text
  read_write ms hnodup := by
    refine read_text float ⟨?_, (canonicalMembers_iff float).2 ?_⟩
    · rw [List.map_map]
      exact hnodup
    · intro m hm
      obtain ⟨x, -, rfl⟩ := List.mem_map.1 hm
      trivial

end DeveSub.Json
