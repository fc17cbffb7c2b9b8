/-
  File:      DeveSub/Lib/Calendar.lean
  Subject:   Dates of the Gregorian calendar up to the year 9999, and their texts `YYYY-MM-DD`.

  A date carries that its day exists. Dates are ordered by year, month and day; the texts of two
  dates are ordered as the dates are, since their numbers are padded with zeros.

  * `parseUnsigned_padded` -- a padded number is read as the number;
  * `Date.next?`, `Date.lt_iff_next_le` -- the next day, and that there is none in between;
  * `Date.text_lt_text`, `Date.text_injective` -- texts and their order;
  * `Days` -- the days of a range; they exist (`exists_days`), they are all there (`Days.mem_iff`)
    and in order (`Days.pairwise`).
-/
import Mathlib.Data.List.Lex
import Mathlib.Tactic.Ring
import DeveSub.Lib.Text

namespace DeveSub

/-! ## 1. Padded numbers -/

/-- `{:0w}`: a number with at least `w` digits. -/
def padded (w n : Nat) : Str := List.leftpad w '0' (natText n)

theorem isDigit_of_mem_padded {w n : Nat} {c : Char} (h : c ∈ padded w n) : c.isDigit = true := by
  rw [padded, List.leftpad, List.mem_append, List.mem_replicate] at h
  rcases h with ⟨-, rfl⟩ | h
  · decide
  · exact isDigit_of_mem_natText h

theorem not_mem_padded {w n : Nat} {c : Char} (hc : c.isDigit = false) : c ∉ padded w n := by
  intro h
  rw [isDigit_of_mem_padded h] at hc
  cases hc

theorem length_padded {w n : Nat} (hw : 0 < w) (h : n < 10 ^ w) : (padded w n).length = w := by
  have hlen : (natText n).length ≤ w := (Nat.length_toDigits_le_iff (by decide) hw).2 h
  rw [padded, List.leftpad, List.length_append, List.length_replicate]
  omega

theorem ofDigitChars_padded (w n : Nat) : Nat.ofDigitChars 10 (padded w n) 0 = n := by
  rw [padded, List.leftpad, Nat.ofDigitChars_append, Nat.ofDigitChars_replicate_zero, Nat.mul_zero]
  exact Nat.ofDigitChars_ten_toDigits

/-- **A padded number is read as the number.** -/
theorem parseUnsigned_padded {bound w n : Nat} (h : n < bound) :
    parseUnsigned bound (padded w n) = some n := by
  have hne : padded w n ≠ [] := by
    rw [padded, List.leftpad]
    exact List.append_ne_nil_of_right_ne_nil _ (natText_ne_nil n)
  have hall : (padded w n).all Char.isDigit = true :=
    List.all_eq_true.2 fun c hc => isDigit_of_mem_padded hc
  have hhead : ∀ r, padded w n ≠ '+' :: r := by
    intro r hr
    exact not_mem_padded (w := w) (n := n) (c := '+') (by decide) (hr ▸ List.mem_cons_self)
  rw [parseUnsigned_of_head hhead, digits?, if_pos ⟨hne, hall⟩, ofDigitChars_padded]
  simp [Option.filter, h]

/-! ## 2. The order of texts -/

/-- What `n` digits behind `i` can be worth. -/
theorem ofDigitChars_lt {s : Str} (h : ∀ c ∈ s, c.isDigit = true) (i : Nat) :
    i * 10 ^ s.length ≤ Nat.ofDigitChars 10 s i ∧
      Nat.ofDigitChars 10 s i < (i + 1) * 10 ^ s.length := by
  induction s generalizing i with
  | nil => simp [Nat.ofDigitChars_nil]
  | cons c s ih =>
    have hc : c.toNat - '0'.toNat < 10 :=
      forall_digit (P := fun c => c.toNat - '0'.toNat < 10) (by decide) (h c List.mem_cons_self)
    have hs := ih (fun d hd => h d (List.mem_cons_of_mem _ hd)) (10 * i + (c.toNat - '0'.toNat))
    rw [Nat.ofDigitChars_cons, List.length_cons, Nat.pow_succ]
    generalize c.toNat - '0'.toNat = v at hc hs
    generalize 10 ^ s.length = p at hs
    constructor
    · calc i * (p * 10) = 10 * i * p := by ring
        _ ≤ (10 * i + v) * p := Nat.mul_le_mul_right _ (Nat.le_add_right _ _)
        _ ≤ _ := hs.1
    · calc _ < (10 * i + v + 1) * p := hs.2
        _ ≤ (10 * i + 10) * p := Nat.mul_le_mul_right _ (by omega)
        _ = (i + 1) * (p * 10) := by ring

/-- Digit strings of one length are ordered as their numbers are. -/
theorem lt_of_ofDigitChars_lt {s t : Str} (hs : ∀ c ∈ s, c.isDigit = true)
    (ht : ∀ c ∈ t, c.isDigit = true) (hlen : s.length = t.length) {i : Nat}
    (h : Nat.ofDigitChars 10 s i < Nat.ofDigitChars 10 t i) : s < t := by
  induction s generalizing t i with
  | nil =>
    cases t with
    | nil => exact absurd h (Nat.lt_irrefl _)
    | cons d t => cases hlen
  | cons c s ih =>
    cases t with
    | nil => cases hlen
    | cons d t =>
      have hst : s.length = t.length := Nat.succ.inj hlen
      have hs' : ∀ c ∈ s, c.isDigit = true := fun c hc => hs c (List.mem_cons_of_mem _ hc)
      have ht' : ∀ c ∈ t, c.isDigit = true := fun c hc => ht c (List.mem_cons_of_mem _ hc)
      rw [Nat.ofDigitChars_cons, Nat.ofDigitChars_cons] at h
      by_cases hcd : c = d
      · subst hcd
        exact List.cons_lt_cons_iff.2 (.inr ⟨rfl, ih hs' ht' hst h⟩)
      · have hlow := (ofDigitChars_lt hs' (10 * i + (c.toNat - '0'.toNat))).1
        have hhigh := (ofDigitChars_lt ht' (10 * i + (d.toNat - '0'.toNat))).2
        rw [hst] at hlow
        have hpow : 0 < 10 ^ t.length := Nat.pow_pos (by decide)
        have hvalue : c.toNat - '0'.toNat < d.toNat - '0'.toNat + 1 := by
          have hmul := Nat.lt_of_le_of_lt hlow (Nat.lt_trans h hhigh)
          have := Nat.lt_of_mul_lt_mul_right hmul
          omega
        have hcpos : '0'.toNat ≤ c.toNat :=
          forall_digit (P := fun c => '0'.toNat ≤ c.toNat) (by decide) (hs c List.mem_cons_self)
        have hdpos : '0'.toNat ≤ d.toNat :=
          forall_digit (P := fun c => '0'.toNat ≤ c.toNat) (by decide) (ht d List.mem_cons_self)
        have hne : c.toNat ≠ d.toNat := by
          intro he
          exact hcd (by rw [← Char.ofNat_toNat c, he, Char.ofNat_toNat])
        have hlt : c < d := by
          show c.toNat < d.toNat
          omega
        exact List.cons_lt_cons_iff.2 (.inl hlt)

theorem padded_lt_padded {w m n : Nat} (hw : 0 < w) (hn : n < 10 ^ w) (h : m < n) :
    padded w m < padded w n := by
  have hm : m < 10 ^ w := Nat.lt_trans h hn
  apply lt_of_ofDigitChars_lt (i := 0) (fun c => isDigit_of_mem_padded) (fun c => isDigit_of_mem_padded)
  · rw [length_padded hw hm, length_padded hw hn]
  · rw [ofDigitChars_padded, ofDigitChars_padded]
    exact h

/-- Texts that differ in a front part of one length. -/
theorem append_lt_append {a b : Str} (hlen : a.length = b.length) (h : a < b) (x y : Str) :
    a ++ x < b ++ y := by
  induction a generalizing b with
  | nil =>
    cases b with
    | nil => exact absurd h (List.lt_irrefl [])
    | cons d b => cases hlen
  | cons c a ih =>
    cases b with
    | nil => cases hlen
    | cons d b =>
      rcases List.cons_lt_cons_iff.1 h with hcd | ⟨rfl, hab⟩
      · exact List.cons_lt_cons_iff.2 (.inl hcd)
      · exact List.cons_lt_cons_iff.2 (.inr ⟨rfl, ih (Nat.succ.inj hlen) hab⟩)

/-! ## 3. Dates -/

/-- A leap year of the Gregorian calendar. -/
def isLeapYear (year : Nat) : Bool := (year % 4 = 0 && year % 100 ≠ 0) || year % 400 = 0

/-- The number of days of a month. -/
def daysInMonth (year month : Nat) : Nat :=
  if month = 2 then (if isLeapYear year then 29 else 28)
  else if month = 4 ∨ month = 6 ∨ month = 9 ∨ month = 11 then 30
  else 31

theorem daysInMonth_bounds (year month : Nat) :
    28 ≤ daysInMonth year month ∧ daysInMonth year month ≤ 31 := by
  unfold daysInMonth
  split
  · split <;> decide
  · split <;> decide

theorem one_le_daysInMonth (year month : Nat) : 1 ≤ daysInMonth year month :=
  Nat.le_trans (by decide) (daysInMonth_bounds year month).1

/-- **A date of the calendar**, up to the year 9999. -/
@[ext] structure Date where
  year : Nat
  month : Nat
  day : Nat
  year_le : year ≤ 9999
  month_mem : 1 ≤ month ∧ month ≤ 12
  day_mem : 1 ≤ day ∧ day ≤ daysInMonth year month

namespace Date

/-- Dates are ordered by year, then month, then day. -/
instance : LT Date := ⟨fun a b => a.year < b.year ∨ a.year = b.year ∧
  (a.month < b.month ∨ a.month = b.month ∧ a.day < b.day)⟩

instance : LE Date := ⟨fun a b => a < b ∨ a = b⟩

theorem lt_def {a b : Date} : a < b ↔ a.year < b.year ∨ a.year = b.year ∧
    (a.month < b.month ∨ a.month = b.month ∧ a.day < b.day) := Iff.rfl

theorem le_def {a b : Date} : a ≤ b ↔ a < b ∨ a = b := Iff.rfl

/-- A number that orders dates as they are ordered. -/
def rank (d : Date) : Nat := (d.year * 12 + d.month) * 32 + d.day

theorem day_lt (d : Date) : d.day < 32 := by
  have := d.day_mem
  have := daysInMonth_bounds d.year d.month
  omega

theorem lt_iff_rank {a b : Date} : a < b ↔ a.rank < b.rank := by
  have ha := a.day_lt
  have hb := b.day_lt
  have hma := a.month_mem
  have hmb := b.month_mem
  rw [lt_def, rank, rank]
  omega

theorem eq_iff_rank {a b : Date} : a = b ↔ a.rank = b.rank := by
  have ha := a.day_lt
  have hb := b.day_lt
  have hma := a.month_mem
  have hmb := b.month_mem
  rw [Date.ext_iff, rank, rank]
  omega

theorem le_iff_rank {a b : Date} : a ≤ b ↔ a.rank ≤ b.rank := by
  rw [le_def, lt_iff_rank, eq_iff_rank]
  omega

/-- The next day, if it is before the year 10000. -/
def next? (d : Date) : Option Date :=
  if h : d.day < daysInMonth d.year d.month then
    some ⟨d.year, d.month, d.day + 1, d.year_le, d.month_mem, by omega, h⟩
  else if h : d.month < 12 then
    some ⟨d.year, d.month + 1, 1, d.year_le, by omega, by decide, one_le_daysInMonth _ _⟩
  else if h : d.year < 9999 then
    some ⟨d.year + 1, 1, 1, h, by decide, by decide, one_le_daysInMonth _ _⟩
  else none

/-- **There is no date between a day and the next one.** -/
theorem lt_iff_next_le {d n : Date} (h : d.next? = some n) (x : Date) : d < x ↔ n ≤ x := by
  have hx := x.day_mem
  have hxm := x.month_mem
  rw [le_def, lt_def, lt_def, Date.ext_iff]
  unfold next? at h
  split at h
  · cases h
    dsimp only
    omega
  rename_i hday
  have hsame : x.year = d.year → x.month = d.month → x.day ≤ d.day := by
    intro hy hm
    rw [hy, hm] at hx
    omega
  split at h
  · cases h
    dsimp only
    omega
  · split at h
    · cases h
      dsimp only
      omega
    · cases h

/-- A day before another has a next one. -/
theorem exists_next {d x : Date} (h : d < x) : ∃ n, d.next? = some n := by
  have hx := x.day_mem
  have hxm := x.month_mem
  have hxy := x.year_le
  unfold next?
  split
  · exact ⟨_, rfl⟩
  rename_i hday
  split
  · exact ⟨_, rfl⟩
  split
  · exact ⟨_, rfl⟩
  · rw [lt_def] at h
    have hsame : x.year = d.year → x.month = d.month → x.day ≤ d.day := by
      intro hy hm
      rw [hy, hm] at hx
      omega
    have := d.year_le
    omega

/-! ## 4. Texts -/

/-- `YYYY-MM-DD`. -/
def text (d : Date) : Str :=
  ['-'].intercalate [padded 4 d.year, padded 2 d.month, padded 2 d.day]

theorem text_eq (d : Date) :
    d.text = padded 4 d.year ++ '-' :: (padded 2 d.month ++ '-' :: padded 2 d.day) := by
  simp [text, List.intercalate]

/-- **Texts are ordered as the dates are.** -/
theorem text_lt_text {a b : Date} (h : a < b) : a.text < b.text := by
  have hyear : ∀ d : Date, d.year < 10 ^ 4 := fun d => Nat.lt_succ_of_le d.year_le
  have hmonth : ∀ d : Date, d.month < 10 ^ 2 := fun d => by have := d.month_mem; omega
  have hday : ∀ d : Date, d.day < 10 ^ 2 := fun d => by have := d.day_lt; omega
  rw [text_eq, text_eq]
  rcases lt_def.1 h with hy | ⟨hy, hm | ⟨hm, hd⟩⟩
  · apply append_lt_append
    · rw [length_padded (by decide) (hyear a), length_padded (by decide) (hyear b)]
    · exact padded_lt_padded (by decide) (hyear b) hy
  · rw [hy]
    apply List.Lex.append_left
    refine List.cons_lt_cons_iff.2 (.inr ⟨rfl, append_lt_append ?_ ?_ _ _⟩)
    · rw [length_padded (by decide) (hmonth a), length_padded (by decide) (hmonth b)]
    · exact padded_lt_padded (by decide) (hmonth b) hm
  · rw [hy, hm]
    apply List.Lex.append_left
    refine List.cons_lt_cons_iff.2 (.inr ⟨rfl, ?_⟩)
    apply List.Lex.append_left
    exact List.cons_lt_cons_iff.2 (.inr ⟨rfl, padded_lt_padded (by decide) (hday b) hd⟩)

theorem text_injective {a b : Date} (h : a.text = b.text) : a = b := by
  rw [eq_iff_rank]
  rcases Nat.lt_trichotomy a.rank b.rank with hlt | heq | hgt
  · have hlt := text_lt_text (lt_iff_rank.2 hlt)
    rw [h] at hlt
    exact absurd hlt (List.lt_irrefl _)
  · exact heq
  · have hgt := text_lt_text (lt_iff_rank.2 hgt)
    rw [h] at hgt
    exact absurd hgt (List.lt_irrefl _)

end Date

/-! ## 5. The days of a range -/

/-- The days from `a` to `b`, one by one. -/
inductive Days : Date → Date → List Date → Prop
  | last (a : Date) : Days a a [a]
  | step {a n b : Date} {ds : List Date} (hlt : a < b) (hnext : a.next? = some n)
      (rest : Days n b ds) : Days a b (a :: ds)

/-- **Every range has its days.** -/
theorem exists_days {a b : Date} (h : a ≤ b) : ∃ ds, Days a b ds := by
  -- the induction is on how far `a` is from `b`
  obtain ⟨k, hk⟩ : ∃ k, k = b.rank - a.rank := ⟨_, rfl⟩
  induction k using Nat.strong_induction_on generalizing a with
  | _ k ih =>
    rcases Date.le_def.1 h with hlt | rfl
    · obtain ⟨n, hnext⟩ := Date.exists_next hlt
      have hn : n ≤ b := (Date.lt_iff_next_le hnext b).1 hlt
      have han : a < n := (Date.lt_iff_next_le hnext n).2 (.inr rfl)
      rw [Date.le_iff_rank] at hn
      rw [Date.lt_iff_rank] at han
      obtain ⟨ds, hds⟩ := ih (b.rank - n.rank) (by omega) (Date.le_iff_rank.2 hn) rfl
      exact ⟨_, .step hlt hnext hds⟩
    · exact ⟨_, .last a⟩

/-- **A range has exactly the days from its first to its last.** -/
theorem Days.mem_iff {a b : Date} {ds : List Date} (h : Days a b ds) (x : Date) :
    x ∈ ds ↔ a ≤ x ∧ x ≤ b := by
  induction h with
  | last a =>
    rw [List.mem_singleton, Date.le_iff_rank, Date.le_iff_rank, Date.eq_iff_rank]
    omega
  | step hlt hnext rest ih =>
    rw [List.mem_cons, ih, ← Date.lt_iff_next_le hnext]
    rw [Date.lt_iff_rank] at hlt
    rw [Date.lt_iff_rank, Date.le_iff_rank, Date.le_iff_rank, Date.eq_iff_rank]
    omega

/-- The days of a range are in order. -/
theorem Days.pairwise {a b : Date} {ds : List Date} (h : Days a b ds) : ds.Pairwise (· < ·) := by
  induction h with
  | last a => exact List.pairwise_singleton _ _
  | step hlt hnext rest ih =>
    refine List.pairwise_cons.2 ⟨fun x hx => ?_, ih⟩
    exact (Date.lt_iff_next_le hnext x).2 ((rest.mem_iff x).1 hx).1

end DeveSub
