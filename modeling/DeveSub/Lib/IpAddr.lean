/-
  File:      DeveSub/Lib/IpAddr.lean
  Subject:   The texts of IPv4 and IPv6 addresses: `Display` and `FromStr` of Rust's
             `std::net::Ipv4Addr` and `std::net::Ipv6Addr`.

  * `Ipv4Addr.text`, `Ipv4Addr.parse` -- four decimal octets, no leading zeros;
  * `Ipv6Addr.text` -- the form of RFC 5952: the first longest run of two or more zero segments
    is written `::`, and an IPv4-mapped address ends in dotted decimal;
  * `Ipv6Addr.parse` -- up to eight groups, at most one `::`, an embedded IPv4 tail;
  * **`Ipv4Addr.parse_text`, `Ipv6Addr.parse_text`** -- every address reads back from its text.
-/
import DeveSub.Lib.Text

namespace DeveSub

/-! ## 1. IPv4 -/

/-- `std::net::Ipv4Addr`. -/
structure Ipv4Addr where
  a : UInt8
  b : UInt8
  c : UInt8
  d : UInt8
  deriving DecidableEq

namespace Ipv4Addr

/-- `Display`. -/
def text (ip : Ipv4Addr) : Str :=
  natText ip.a.toNat ++ '.' :: (natText ip.b.toNat ++ '.' :: (natText ip.c.toNat ++
    '.' :: natText ip.d.toNat))

/-- One octet at the front of a text: at most three digits, no leading zero, below 256. -/
def readOctet (s : Str) : Option (UInt8 × Str) :=
  let ds := s.takeWhile Char.isDigit
  let n := Nat.ofDigitChars 10 ds 0
  if ds = [] ∨ 3 < ds.length ∨ (ds.head? = some '0' ∧ 1 < ds.length) ∨ 256 ≤ n then none
  else some (UInt8.ofNat n, s.dropWhile Char.isDigit)

/-- A given character at the front of a text. -/
def readChar (c : Char) : Str → Option Str
  | [] => none
  | x :: s => if x = c then some s else none

/-- An address at the front of a text. -/
def read (s : Str) : Option (Ipv4Addr × Str) := do
  let (a, s) ← readOctet s
  let s ← readChar '.' s
  let (b, s) ← readOctet s
  let s ← readChar '.' s
  let (c, s) ← readOctet s
  let s ← readChar '.' s
  let (d, s) ← readOctet s
  pure (⟨a, b, c, d⟩, s)

/-- `FromStr`: the address is the whole text. -/
def parse (s : Str) : Option Ipv4Addr :=
  match read s with
  | some (ip, []) => some ip
  | _ => none

/-- The octet texts are short, carry no leading zero and denote their octet. -/
theorem octet_text (n : Fin 256) :
    (natText n.val).length ≤ 3 ∧ ¬ ((natText n.val).head? = some '0' ∧ 1 < (natText n.val).length)
      := by
  revert n
  decide +kernel

theorem readOctet_text (n : UInt8) {rest : Str} (hr : ∀ c s, rest = c :: s → c.isDigit = false) :
    readOctet (natText n.toNat ++ rest) = some (n, rest) := by
  obtain ⟨h1, h2⟩ := takeWhile_append_of_stop (p := Char.isDigit)
    (fun c hc => isDigit_of_mem_natText (n := n.toNat) hc) hr
  obtain ⟨h3, h4⟩ := octet_text ⟨n.toNat, n.toNat_lt⟩
  have h5 : Nat.ofDigitChars 10 (natText n.toNat) 0 = n.toNat := Nat.ofDigitChars_ten_toDigits
  have h6 : n.toNat < 256 := n.toNat_lt
  have hno : ¬ (natText n.toNat = [] ∨ 3 < (natText n.toNat).length ∨
      ((natText n.toNat).head? = some '0' ∧ 1 < (natText n.toNat).length) ∨
      256 ≤ Nat.ofDigitChars 10 (natText n.toNat) 0) := by
    rw [h5]
    simp only at h3 h4
    rintro (h | h | h | h)
    · exact natText_ne_nil _ h
    · omega
    · exact h4 h
    · omega
  simp only [readOctet, h1, h2]
  rw [if_neg hno, h5, UInt8.ofNat_toNat]

theorem read_text (ip : Ipv4Addr) (rest : Str) (hr : ∀ c s, rest = c :: s → c.isDigit = false) :
    read (ip.text ++ rest) = some (ip, rest) := by
  have dot : ∀ t : Str, ∀ c s, '.' :: t = c :: s → c.isDigit = false := by
    intro t c s h
    obtain ⟨rfl, _⟩ := List.cons.inj h
    decide
  simp only [read, text, List.append_assoc, List.cons_append, readOctet_text _ (dot _),
    readOctet_text _ hr, readChar, if_true, Option.bind_eq_bind, Option.bind_some, Option.pure_def]

/-- **An IPv4 address reads back from its text.** -/
theorem parse_text (ip : Ipv4Addr) : parse ip.text = some ip := by
  have h := read_text ip [] (fun c s h => by cases h)
  rw [List.append_nil] at h
  simp [parse, h]

theorem readOctet_eq_some {s s' : Str} {n : UInt8} (h : readOctet s = some (n, s')) :
    ∃ ds : Str, s = ds ++ s' ∧ ∀ c ∈ ds, c.isDigit = true := by
  simp only [readOctet] at h
  split at h
  · cases h
  · simp only [Option.some.injEq, Prod.mk.injEq] at h
    refine ⟨s.takeWhile Char.isDigit, ?_, fun c hc => List.all_eq_true.mp List.all_takeWhile c hc⟩
    rw [← h.2, List.takeWhile_append_dropWhile]

theorem readChar_eq_some {c : Char} {s s' : Str} (h : readChar c s = some s') : s = c :: s' := by
  cases s with
  | nil => cases h
  | cons x s =>
      simp only [readChar] at h
      split at h
      · rename_i hx
        rw [hx, Option.some.inj h]
      · cases h

/-- An address is read from digits and dots. -/
theorem mem_of_parse {s : Str} {ip : Ipv4Addr} (h : parse s = some ip) {c : Char} (hc : c ∈ s) :
    c.isDigit = true ∨ c = '.' := by
  have hread : read s = some (ip, []) := by
    unfold parse at h
    split at h
    · rename_i heq
      rw [heq, Option.some.inj h]
    · cases h
  simp only [read, Option.bind_eq_bind, Option.bind_eq_some_iff, Option.pure_def,
    Option.some.injEq, Prod.mk.injEq] at hread
  obtain ⟨⟨a, s₁⟩, h₁, s₂, h₂, ⟨b, s₃⟩, h₃, s₄, h₄, ⟨d, s₅⟩, h₅, s₆, h₆, ⟨e, s₇⟩, h₇, -, rfl⟩ := hread
  obtain ⟨d₁, rfl, hd₁⟩ := readOctet_eq_some h₁
  obtain rfl := readChar_eq_some h₂
  obtain ⟨d₂, rfl, hd₂⟩ := readOctet_eq_some h₃
  obtain rfl := readChar_eq_some h₄
  obtain ⟨d₃, rfl, hd₃⟩ := readOctet_eq_some h₅
  obtain rfl := readChar_eq_some h₆
  obtain ⟨d₄, rfl, hd₄⟩ := readOctet_eq_some h₇
  simp only [List.mem_append, List.mem_cons, List.not_mem_nil, or_false] at hc
  rcases hc with hc | hc | hc | hc | hc | hc | hc
  · exact .inl (hd₁ c hc)
  · exact .inr hc
  · exact .inl (hd₂ c hc)
  · exact .inr hc
  · exact .inl (hd₃ c hc)
  · exact .inr hc
  · exact .inl (hd₄ c hc)

theorem read_dot {s : Str} (h : '.' ∉ s) : read s = none := by
  cases hr : readOctet s with
  | none => simp [read, hr]
  | some p =>
      obtain ⟨a, s'⟩ := p
      have hs' : '.' ∉ s' := by
        have e : s' = s.dropWhile Char.isDigit := by
          simp only [readOctet] at hr
          split at hr
          · cases hr
          · simp only [Option.some.injEq, Prod.mk.injEq] at hr
            exact hr.2.symm
        rw [e]
        exact fun hm => h (List.dropWhile_subset _ hm)
      cases s' with
      | nil => simp [read, hr, readChar]
      | cons x s' =>
          have hx : x ≠ '.' := fun e => hs' (by simp [e])
          simp [read, hr, readChar, hx]

theorem mem_text {ip : Ipv4Addr} {c : Char} (h : c ∈ ip.text) : c.isDigit = true ∨ c = '.' := by
  simp only [text, List.mem_append, List.mem_cons] at h
  rcases h with h | rfl | h | rfl | h | rfl | h
  · exact .inl (isDigit_of_mem_natText h)
  · exact .inr rfl
  · exact .inl (isDigit_of_mem_natText h)
  · exact .inr rfl
  · exact .inl (isDigit_of_mem_natText h)
  · exact .inr rfl
  · exact .inl (isDigit_of_mem_natText h)

end Ipv4Addr

/-! ## 2. IPv6 -/

/-- `std::net::Ipv6Addr`: eight segments of 16 bits. -/
structure Ipv6Addr where
  segments : List UInt16
  length_segments : segments.length = 8

namespace Ipv6Addr

instance : DecidableEq Ipv6Addr := fun x y =>
  decidable_of_iff (x.segments = y.segments) (by cases x; cases y; simp)

theorem ext' {x y : Ipv6Addr} (h : x.segments = y.segments) : x = y := by
  cases x
  cases y
  cases h
  rfl

/-- A run of zero segments, as the printer tracks it. -/
structure Span where
  start : Nat
  len : Nat

/-- The first longest run of zero segments. -/
def zeroes : List UInt16 → (i : Nat) → (current longest : Span) → Span
  | [], _, _, longest => longest
  | s :: segs, i, current, longest =>
      if s = 0 then
        let current := ⟨if current.len = 0 then i else current.start, current.len + 1⟩
        zeroes segs (i + 1) current (if longest.len < current.len then current else longest)
      else zeroes segs (i + 1) ⟨0, 0⟩ longest

/-- Segments in hexadecimal, separated by colons. -/
def fmtSubslice (segs : List UInt16) : Str := [':'].intercalate (segs.map fun s => hexText s.toNat)

/-- The IPv4 address an IPv4-mapped address carries (`to_ipv4_mapped`). -/
def toIpv4Mapped (segs : List UInt16) : Option Ipv4Addr :=
  match segs with
  | [0, 0, 0, 0, 0, 0xFFFF, x, y] =>
      some ⟨UInt8.ofNat (x.toNat / 256), UInt8.ofNat x.toNat, UInt8.ofNat (y.toNat / 256),
        UInt8.ofNat y.toNat⟩
  | _ => none

/-- `Display`. -/
def text (ip : Ipv6Addr) : Str :=
  match toIpv4Mapped ip.segments with
  | some v4 => "::ffff:".toList ++ v4.text
  | none =>
      let z := zeroes ip.segments 0 ⟨0, 0⟩ ⟨0, 0⟩
      if 1 < z.len then
        fmtSubslice (ip.segments.take z.start) ++ ':' :: ':' ::
          fmtSubslice (ip.segments.drop (z.start + z.len))
      else fmtSubslice ip.segments

/-- One group at the front of a text: one to four hexadecimal digits. -/
def readGroup (s : Str) : Option (UInt16 × Str) :=
  let ds := s.takeWhile isHexDigit
  if ds = [] ∨ 4 < ds.length then none
  else some (UInt16.ofNat (hexNat ds), s.dropWhile isHexDigit)

/-- What follows the separator: every group but the first is preceded by a colon. -/
def readSeparator (i : Nat) (s : Str) : Option Str :=
  if i = 0 then some s else Ipv4Addr.readChar ':' s

/-- The two segments of an embedded IPv4 address. -/
def ofIpv4 (v4 : Ipv4Addr) : List UInt16 :=
  [UInt16.ofNat (256 * v4.a.toNat + v4.b.toNat), UInt16.ofNat (256 * v4.c.toNat + v4.d.toNat)]

/-- Up to `k` further groups, the next one being group `i`; the flag says that the last two came
    from an embedded IPv4 address, for which two groups must be left. -/
def readGroups : (k : Nat) → (i : Nat) → Str → List UInt16 × Bool × Str
  | 0, _, s => ([], false, s)
  | k + 1, i, s =>
      match (if 0 < k then (readSeparator i s).bind Ipv4Addr.read else none) with
      | some (v4, s') => (ofIpv4 v4, true, s')
      | none =>
          match (readSeparator i s).bind readGroup with
          | none => ([], false, s)
          | some (g, s') =>
              let r := readGroups k (i + 1) s'
              (g :: r.1, r.2)

/-- Eight segments from a head and a tail around `::`. -/
def ofParts (head tail : List UInt16) : Option Ipv6Addr :=
  let segs := head ++ List.replicate (8 - head.length - tail.length) 0 ++ tail
  if h : segs.length = 8 then some ⟨segs, h⟩ else none

/-- `FromStr`. -/
def parse (s : Str) : Option Ipv6Addr :=
  let (head, v4, s) := readGroups 8 0 s
  if head.length = 8 then
    if s = [] then ofParts head [] else none
  else if v4 then none
  else do
    let s ← Ipv4Addr.readChar ':' s
    let s ← Ipv4Addr.readChar ':' s
    let (tail, _, s) := readGroups (8 - (head.length + 1)) 0 s
    if s = [] then ofParts head tail else none

/-! ### Groups read back -/

theorem length_hexText_le {n : Nat} (h : n < 65536) : (hexText n).length ≤ 4 :=
  (Nat.length_toDigits_le_iff (by decide) (by decide)).mpr (by simpa using h)

theorem readGroup_text (g : UInt16) {rest : Str} (hr : ∀ c s, rest = c :: s → isHexDigit c = false) :
    readGroup (hexText g.toNat ++ rest) = some (g, rest) := by
  obtain ⟨h1, h2⟩ := takeWhile_append_of_stop (p := isHexDigit)
    (fun c hc => isHexDigit_of_mem_hexText (n := g.toNat) hc) hr
  have h3 : ¬ (hexText g.toNat = [] ∨ 4 < (hexText g.toNat).length) := by
    have := length_hexText_le g.toNat_lt
    rintro (h | h)
    · exact hexText_ne_nil _ h
    · omega
  simp only [readGroup, h1, h2, if_neg h3, hexNat_hexText, UInt16.ofNat_toNat]

/-- The text of groups `i, i+1, …`: every group but group 0 after a colon. -/
def groupsFrom (i : Nat) : List UInt16 → Str
  | [] => []
  | g :: gs => (if i = 0 then [] else [':']) ++ hexText g.toNat ++ groupsFrom (i + 1) gs

theorem groupsFrom_succ (i j : Nat) (gs : List UInt16) :
    groupsFrom (i + 1) gs = groupsFrom (j + 1) gs := by
  induction gs generalizing i j with
  | nil => rfl
  | cons g gs ih => simp only [groupsFrom, Nat.succ_ne_zero, if_false, ih (i + 1) (j + 1)]

theorem fmtSubslice_eq (gs : List UInt16) : fmtSubslice gs = groupsFrom 0 gs := by
  unfold fmtSubslice
  induction gs with
  | nil => rfl
  | cons g gs ih =>
      cases gs with
      | nil => simp [groupsFrom]
      | cons g' gs =>
          have e : groupsFrom 1 (g' :: gs) = ':' :: groupsFrom 0 (g' :: gs) := by
            simp [groupsFrom, groupsFrom_succ 1 0]
          have hg : groupsFrom 0 (g :: g' :: gs) = hexText g.toNat ++ groupsFrom 1 (g' :: gs) := rfl
          rw [hg, e, ← ih]
          simp [List.intercalate]

theorem isHexDigit_colon : isHexDigit ':' = false := by decide

theorem not_dot_groupsFrom (i : Nat) (gs : List UInt16) : '.' ∉ groupsFrom i gs := by
  induction gs generalizing i with
  | nil => simp [groupsFrom]
  | cons g gs ih =>
      have hh : '.' ∉ hexText g.toNat := fun h =>
        absurd (isHexDigit_of_mem_hexText h) (by decide)
      have hs : '.' ∉ (if i = 0 then ([] : Str) else [':']) := by
        split <;> simp
      simp [groupsFrom, hs, hh, ih]

/-- A text that goes on with no further group: it is at its end, or at `::`. -/
def Stops (rest : Str) : Prop := rest = [] ∨ ∃ s, rest = ':' :: ':' :: s

theorem readGroup_colon (s : Str) : readGroup (':' :: s) = none := by
  simp [readGroup, isHexDigit_colon]

/-- **The reader takes exactly the groups that are written** and stops before `::`. -/
theorem readGroups_text (gs : List UInt16) {k i : Nat} (rest : Str) (hk : gs.length ≤ k)
    (hdot : '.' ∉ rest) (hr : Stops rest) :
    readGroups k i (groupsFrom i gs ++ rest) = (gs, false, rest) := by
  induction gs generalizing k i with
  | nil =>
      cases k with
      | zero => rfl
      | succ k =>
          have hv : (readSeparator i rest).bind Ipv4Addr.read = none := by
            cases hs : readSeparator i rest with
            | none => rfl
            | some t =>
                refine Ipv4Addr.read_dot fun ht => hdot ?_
                unfold readSeparator at hs
                split at hs
                · cases hs; exact ht
                · cases rest with
                  | nil => simp [Ipv4Addr.readChar] at hs
                  | cons c r =>
                      simp only [Ipv4Addr.readChar] at hs
                      split at hs
                      · cases hs; exact List.mem_cons_of_mem _ ht
                      · cases hs
          have hg : (readSeparator i rest).bind readGroup = none := by
            rcases hr with rfl | ⟨s, rfl⟩
            · unfold readSeparator
              split <;> simp [Ipv4Addr.readChar, readGroup]
            · unfold readSeparator
              split <;> simp [Ipv4Addr.readChar, readGroup_colon]
          simp [readGroups, groupsFrom, hv, hg]
  | cons g gs ih =>
      cases k with
      | zero => simp at hk
      | succ k =>
          have hsep : readSeparator i (groupsFrom i (g :: gs) ++ rest) =
              some (hexText g.toNat ++ (groupsFrom (i + 1) gs ++ rest)) := by
            by_cases hi : i = 0
            · simp [readSeparator, groupsFrom, hi]
            · simp [readSeparator, groupsFrom, hi, Ipv4Addr.readChar]
          have hv : Ipv4Addr.read (hexText g.toNat ++ (groupsFrom (i + 1) gs ++ rest)) = none := by
            refine Ipv4Addr.read_dot ?_
            have hh : '.' ∉ hexText g.toNat := fun h =>
              absurd (isHexDigit_of_mem_hexText h) (by decide)
            simp [hh, not_dot_groupsFrom, hdot]
          have hstop : ∀ c s, groupsFrom (i + 1) gs ++ rest = c :: s → isHexDigit c = false := by
            intro c s h
            have hc : c = ':' := by
              cases gs with
              | nil =>
                  rcases hr with rfl | ⟨t, rfl⟩
                  · simp [groupsFrom] at h
                  · exact (List.cons.inj h).1.symm
              | cons g' gs =>
                  simp only [groupsFrom, Nat.succ_ne_zero, if_false, List.append_assoc,
                    List.cons_append, List.nil_append] at h
                  exact (List.cons.inj h).1.symm
            rw [hc]
            exact isHexDigit_colon
          have hrec := ih (k := k) (i := i + 1) (by simpa using hk)
          simp only [readGroups, hsep, Option.bind_some, hv, ite_self,
            readGroup_text g hstop, hrec]

/-! ### The zero run -/

/-- `z` is a run of zeros in `pre`. -/
def IsRun (pre : List UInt16) (z : Span) : Prop :=
  ∃ a b, pre = a ++ List.replicate z.len 0 ++ b ∧ (0 < z.len → a.length = z.start)

/-- `z` is a run of zeros at the end of `pre`. -/
def IsTail (pre : List UInt16) (z : Span) : Prop :=
  ∃ a, pre = a ++ List.replicate z.len 0 ∧ (0 < z.len → a.length = z.start)

theorem IsTail.isRun {pre : List UInt16} {z : Span} (h : IsTail pre z) : IsRun pre z := by
  obtain ⟨a, h1, h2⟩ := h
  exact ⟨a, [], by simpa using h1, h2⟩

theorem IsRun.snoc {pre : List UInt16} {z : Span} (h : IsRun pre z) (s : UInt16) :
    IsRun (pre ++ [s]) z := by
  obtain ⟨a, b, h1, h2⟩ := h
  exact ⟨a, b ++ [s], by simp [h1], h2⟩

/-- The tracker's invariant: `pre` is what it has read, `current` ends it, `longest` lies in it. -/
theorem zeroes_isRun (segs pre : List UInt16) {i : Nat} {current longest : Span}
    (hi : i = pre.length) (hc : IsTail pre current) (hl : IsRun pre longest) :
    IsRun (pre ++ segs) (zeroes segs i current longest) := by
  induction segs generalizing pre i current longest with
  | nil => simpa [zeroes] using hl
  | cons s segs ih =>
      rw [show pre ++ s :: segs = (pre ++ [s]) ++ segs by simp]
      unfold zeroes
      split
      · rename_i hs
        have hc' : IsTail (pre ++ [s])
            ⟨if current.len = 0 then i else current.start, current.len + 1⟩ := by
          obtain ⟨a, h1, h2⟩ := hc
          refine ⟨a, ?_, fun _ => ?_⟩
          · rw [h1, hs, List.append_assoc, List.replicate_succ']
          · by_cases h0 : current.len = 0
            · simp only [h0, if_true, hi, h1, List.replicate_zero, List.append_nil]
            · simp only [h0, if_false]
              exact h2 (Nat.pos_of_ne_zero h0)
        refine ih (pre ++ [s]) (by simp [hi]) hc' ?_
        rcases Nat.lt_or_ge longest.len (current.len + 1) with hlt | hge
        · rw [if_pos hlt]
          exact hc'.isRun
        · rw [if_neg (Nat.not_lt.mpr hge)]
          exact hl.snoc s
      · exact ih (pre ++ [s]) (by simp [hi]) ⟨pre ++ [s], by simp, fun h => absurd h (by simp)⟩
          (hl.snoc s)

theorem take_drop_of_isRun {segs : List UInt16} {z : Span} (h : IsRun segs z) (hz : 0 < z.len) :
    segs = segs.take z.start ++ List.replicate z.len 0 ++ segs.drop (z.start + z.len) ∧
      (segs.take z.start).length = z.start := by
  obtain ⟨a, b, h1, h2⟩ := h
  have ha := h2 hz
  have ht : segs.take z.start = a := by rw [h1, ← ha]; simp
  have hd : segs.drop (z.start + z.len) = b := by
    rw [h1, ← ha]
    have : a.length + z.len = (a ++ List.replicate z.len (0 : UInt16)).length := by simp
    rw [this, List.drop_left]
  rw [ht, hd]
  exact ⟨h1, ha⟩

/-! ### Addresses read back -/

theorem ofParts_eq {head tail : List UInt16} (ip : Ipv6Addr)
    (h : ip.segments = head ++ List.replicate (8 - head.length - tail.length) 0 ++ tail) :
    ofParts head tail = some ip := by
  have hl := ip.length_segments
  unfold ofParts
  rw [h] at hl
  rw [dif_pos hl]
  exact congrArg some (ext' h.symm)

theorem parse_fmtSubslice (ip : Ipv6Addr) : parse (fmtSubslice ip.segments) = some ip := by
  have h := readGroups_text ip.segments (k := 8) (i := 0) []
    (by rw [ip.length_segments]) (by simp) (.inl rfl)
  rw [List.append_nil, ← fmtSubslice_eq] at h
  simp only [parse, h, ip.length_segments, if_true]
  exact ofParts_eq ip (by simp [ip.length_segments])

/-- What `::` between a head and a tail of groups reads as. -/
theorem parse_compressed (ip : Ipv6Addr) {head tail : List UInt16} {n : Nat} (hn : 0 < n)
    (h : ip.segments = head ++ List.replicate n 0 ++ tail) :
    parse (fmtSubslice head ++ ':' :: ':' :: fmtSubslice tail) = some ip := by
  have hlen : head.length + n + tail.length = 8 := by
    have := congrArg List.length h
    rw [ip.length_segments] at this
    simp at this
    omega
  have hh := readGroups_text head (k := 8) (i := 0) (':' :: ':' :: fmtSubslice tail)
    (by omega) (by simp [fmtSubslice_eq, not_dot_groupsFrom]) (.inr ⟨_, rfl⟩)
  have ht := readGroups_text tail (k := 8 - (head.length + 1)) (i := 0) []
    (by omega) (by simp) (.inl rfl)
  rw [← fmtSubslice_eq] at hh ht
  rw [List.append_nil] at ht
  have hne : head.length ≠ 8 := by omega
  simp only [parse, hh, hne, if_false, Bool.false_eq_true, Ipv4Addr.readChar, if_true, ht,
    Option.bind_eq_bind, Option.bind_some]
  refine ofParts_eq ip ?_
  rw [show 8 - head.length - tail.length = n by omega]
  exact h

theorem toIpv4Mapped_some {segs : List UInt16} {v4 : Ipv4Addr} (h : toIpv4Mapped segs = some v4) :
    segs = [0, 0, 0, 0, 0, 0xFFFF] ++ ofIpv4 v4 := by
  unfold toIpv4Mapped at h
  split at h
  · rename_i x y
    cases h
    have hx : x.toNat < 65536 := x.toNat_lt
    have hy : y.toNat < 65536 := y.toNat_lt
    have e : ∀ u : UInt16, UInt16.ofNat (256 * (u.toNat / 256 % 256) + u.toNat % 256) = u := by
      intro u
      have hu : u.toNat < 65536 := u.toNat_lt
      rw [show 256 * (u.toNat / 256 % 256) + u.toNat % 256 = u.toNat by omega, UInt16.ofNat_toNat]
    simp [ofIpv4, e]
  · cases h

theorem parse_mapped (ip : Ipv6Addr) {v4 : Ipv4Addr}
    (h : ip.segments = [0, 0, 0, 0, 0, 0xFFFF] ++ ofIpv4 v4) :
    parse ("::ffff:".toList ++ v4.text) = some ip := by
  have hv : Ipv4Addr.read v4.text = some (v4, []) := by
    have := Ipv4Addr.read_text v4 [] (fun c s h => by cases h)
    rwa [List.append_nil] at this
  -- the tail group `ffff` is no octet, so the reader takes it as a group
  have hg : readGroup ('f' :: 'f' :: 'f' :: 'f' :: ':' :: v4.text) =
      some (0xFFFF, ':' :: v4.text) :=
    readGroup_text 0xFFFF fun c s h => by
      obtain ⟨rfl, _⟩ := List.cons.inj h
      exact isHexDigit_colon
  have hno : Ipv4Addr.read ('f' :: 'f' :: 'f' :: 'f' :: ':' :: v4.text) = none := by
    simp [Ipv4Addr.read, Ipv4Addr.readOctet, show Char.isDigit 'f' = false by decide]
  have hhead : ∀ s, readGroups 8 0 (':' :: s) = ([], false, ':' :: s) := by
    intro s
    have hr : Ipv4Addr.read (':' :: s) = none := by
      simp [Ipv4Addr.read, Ipv4Addr.readOctet, show Char.isDigit ':' = false by decide]
    simp [readGroups, readSeparator, hr, readGroup_colon]
  have htail : readGroups 7 0 ('f' :: 'f' :: 'f' :: 'f' :: ':' :: v4.text) =
      (0xFFFF :: ofIpv4 v4, true, []) := by
    simp [readGroups, readSeparator, hno, hg, Ipv4Addr.readChar, hv]
  have e : "::ffff:".toList ++ v4.text =
      ':' :: ':' :: 'f' :: 'f' :: 'f' :: 'f' :: ':' :: v4.text := rfl
  rw [e]
  simp only [parse, hhead, List.length_nil, if_false, Bool.false_eq_true, Ipv4Addr.readChar,
    if_true, Option.bind_eq_bind, Option.bind_some, htail, Nat.zero_add,
    show (0 : Nat) = 8 ↔ False by decide, show 8 - 1 = 7 by decide]
  exact ofParts_eq ip (by rw [h]; rfl)

/-- **An IPv6 address reads back from its text.** -/
theorem parse_text (ip : Ipv6Addr) : parse ip.text = some ip := by
  unfold text
  split
  · rename_i v4 hv
    exact parse_mapped ip (toIpv4Mapped_some hv)
  · have hrun : IsRun ip.segments (zeroes ip.segments 0 ⟨0, 0⟩ ⟨0, 0⟩) := by
      have h0 : IsTail [] ⟨0, 0⟩ := ⟨[], rfl, fun h => absurd h (by simp)⟩
      simpa using zeroes_isRun ip.segments [] rfl h0 h0.isRun
    dsimp only
    split
    · rename_i hz
      have hz' : 0 < (zeroes ip.segments 0 ⟨0, 0⟩ ⟨0, 0⟩).len := by omega
      exact parse_compressed ip hz' (take_drop_of_isRun hrun hz').1
    · exact parse_fmtSubslice ip

theorem mem_groupsFrom {gs : List UInt16} {i : Nat} {c : Char} (h : c ∈ groupsFrom i gs) :
    isHexDigit c = true ∨ c = ':' := by
  induction gs generalizing i with
  | nil => simp [groupsFrom] at h
  | cons g gs ih =>
      simp only [groupsFrom, List.mem_append] at h
      rcases h with (h | h) | h
      · split at h
        · cases h
        · exact .inr (List.mem_singleton.mp h)
      · exact .inl (isHexDigit_of_mem_hexText h)
      · exact ih h

theorem mem_fmtSubslice {segs : List UInt16} {c : Char} (h : c ∈ fmtSubslice segs) :
    isHexDigit c = true ∨ c = ':' :=
  mem_groupsFrom (fmtSubslice_eq segs ▸ h)

/-- The text of an address is written in hexadecimal digits, colons and dots. -/
theorem mem_text {ip : Ipv6Addr} {c : Char} (h : c ∈ ip.text) :
    isHexDigit c = true ∨ c = ':' ∨ c = '.' := by
  have hsub : ∀ {segs : List UInt16}, c ∈ fmtSubslice segs →
      isHexDigit c = true ∨ c = ':' ∨ c = '.' := fun h => (mem_fmtSubslice h).imp_right .inl
  unfold text at h
  split at h
  · rcases List.mem_append.mp h with h | h
    · have hall : ("::ffff:".toList).all (fun c => isHexDigit c || c = ':') = true := by decide
      have hc := List.all_eq_true.mp hall c h
      rw [Bool.or_eq_true, decide_eq_true_eq] at hc
      exact hc.imp_right .inl
    · rcases Ipv4Addr.mem_text h with hd | hd
      · exact .inl (forall_digit (P := fun c => isHexDigit c = true) (by decide) hd)
      · exact .inr (.inr hd)
  · simp only at h
    split at h
    · simp only [List.mem_append, List.mem_cons] at h
      rcases h with h | h | h | h
      · exact hsub h
      · exact .inr (.inl h)
      · exact .inr (.inl h)
      · exact hsub h
    · exact hsub h

theorem colon_mem_text (ip : Ipv6Addr) : ':' ∈ ip.text := by
  unfold text
  split
  · exact List.mem_append_left _ (by decide)
  · simp only
    split
    · simp
    · -- eight groups are joined by colons
      obtain ⟨segs, hlen⟩ := ip
      match segs, hlen with
      | a :: b :: rest, _ => simp [fmtSubslice_eq, groupsFrom]

/-- An IPv6 address is no IPv4 address. -/
theorem ipv4_parse_text (ip : Ipv6Addr) : Ipv4Addr.parse ip.text = none := by
  cases h : Ipv4Addr.parse ip.text with
  | none => rfl
  | some v4 =>
      rcases Ipv4Addr.mem_of_parse h ip.colon_mem_text with hc | hc
      · exact absurd hc (by decide)
      · exact absurd hc (by decide)

end Ipv6Addr

end DeveSub
