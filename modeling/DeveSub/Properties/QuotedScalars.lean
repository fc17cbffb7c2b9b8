/-
  File:      DeveSub/Properties/QuotedScalars.lean
  Subject:   `yaml_dq`: one scalar, on one line, whatever the text.

  The project's own reader refuses a text that holds a line break of YAML 1.1
  (`check_legacy_line_breaks`), so that the quoting has to escape those, too.

  * `escape_plain` -- nothing the quoting writes is a control character or a line separator;
  * `closingQuote_escaped` -- the first quote that is not escaped is the last one written;
  * `yamlDq_single_scalar` -- the scalar, its decoding and its line.
-/
import DeveSub.Properties.MihomoYaml
import DeveSub.Yaml.Parser

namespace DeveSub.Mihomo

open Yaml (readDq)
open BoundedYaml (checkLegacyLineBreaks)

/-! ## 1. What the quoting writes -/

/-- A character that may stand on a line: no control character and no line separator. -/
def isInline (c : Char) : Bool := !isControl c && c.toNat ≠ 0x2028 && c.toNat ≠ 0x2029

/-- A line break of YAML 1.1. -/
def isLineBreak (c : Char) : Bool :=
  c = '\n' || c = '\r' || c.toNat = 0x85 || c.toNat = 0x2028 || c.toNat = 0x2029

theorem isLineBreak_of_isInline {c : Char} (h : isInline c = true) : isLineBreak c = false := by
  have hn : c ≠ '\n' := by
    intro he
    rw [he] at h
    exact absurd h (by decide)
  have hr : c ≠ '\r' := by
    intro he
    rw [he] at h
    exact absurd h (by decide)
  have hnext : c.toNat ≠ 0x85 := by
    intro he
    rw [isInline, isControl, he] at h
    exact absurd h (by decide)
  simp only [isInline, Bool.and_eq_true, decide_eq_true_eq] at h
  simp only [isLineBreak, hn, hr, hnext, h.1.2, h.2, decide_false, Bool.or_false]

theorem upperHex4_inline {n : Nat} {c : Char} (hc : c ∈ upperHex4 n) : isInline c = true := by
  have hdigit : ∀ d : Fin 16, isInline (upperHex d.val) = true := by decide
  have hmod : ∀ m : Nat, isInline (upperHex (m % 16)) = true :=
    fun m => hdigit ⟨m % 16, Nat.mod_lt _ (by decide)⟩
  simp only [upperHex4, List.mem_cons, List.not_mem_nil, or_false] at hc
  rcases hc with rfl | rfl | rfl | rfl
  · exact hmod _
  · exact hmod _
  · exact hmod _
  · exact hmod _

/-- An escape of two characters. -/
theorem pair_inline {a b c : Char} (hc : c ∈ [a, b]) (ha : isInline a = true)
    (hb : isInline b = true) : isInline c = true := by
  simp only [List.mem_cons, List.not_mem_nil, or_false] at hc
  rcases hc with rfl | rfl
  · exact ha
  · exact hb

/-- **Every character that is written may stand on the line.** -/
theorem escape_plain {c d : Char} (h : d ∈ yamlEscape c) : isInline d = true := by
  unfold yamlEscape at h
  split at h
  · exact pair_inline h (by decide) (by decide)
  split at h
  · exact pair_inline h (by decide) (by decide)
  split at h
  · exact pair_inline h (by decide) (by decide)
  split at h
  · exact pair_inline h (by decide) (by decide)
  split at h
  · exact pair_inline h (by decide) (by decide)
  split at h
  · exact pair_inline h (by decide) (by decide)
  split at h
  · rw [List.mem_cons, List.mem_cons] at h
    rcases h with rfl | rfl | h
    · decide
    · decide
    · exact upperHex4_inline h
  · rename_i hplain
    rw [List.mem_singleton] at h
    subst h
    simpa [isInline] using hplain

/-! ## 2. Where the scalar ends -/

/-- The place of the first quote that no backslash escapes; the flag says that a backslash has
    just been read. -/
def closingQuote : Bool → Str → Option Nat
  | _, [] => none
  | true, _ :: r => (closingQuote false r).map (· + 1)
  | false, c :: r =>
    if c = '"' then some 0
    else (closingQuote (c = '\\') r).map (· + 1)

/-- A text the scan passes over, quotes and backslashes being escaped in it. -/
def Passed (t : Str) : Prop :=
  ∀ rest, closingQuote false (t ++ rest) = (closingQuote false rest).map (· + t.length)

theorem Passed.nil : Passed [] := by
  intro rest
  simp

theorem Passed.append {t u : Str} (ht : Passed t) (hu : Passed u) : Passed (t ++ u) := by
  intro rest
  rw [List.append_assoc, ht, hu, Option.map_map, List.length_append]
  congr 1
  funext n
  simp only [Function.comp_apply]
  omega

/-- A character that is neither a quote nor a backslash. -/
theorem Passed.single {c : Char} (hq : c ≠ '"') (hs : c ≠ '\\') : Passed [c] := by
  intro rest
  simp [closingQuote, hq, hs]

/-- A backslash with the character it escapes. -/
theorem Passed.escape (c : Char) : Passed ['\\', c] := by
  intro rest
  have hscan : closingQuote false ('\\' :: c :: rest) =
      ((closingQuote false rest).map (· + 1)).map (· + 1) := by
    simp [closingQuote]
  rw [List.cons_append, List.cons_append, List.nil_append, hscan, Option.map_map]
  rfl

theorem passed_upperHex4 (n : Nat) : Passed (upperHex4 n) := by
  have hdigit : ∀ d : Fin 16, upperHex d.val ≠ '"' ∧ upperHex d.val ≠ '\\' := by decide
  have hmod : ∀ m : Nat, Passed [upperHex (m % 16)] := by
    intro m
    have h := hdigit ⟨m % 16, Nat.mod_lt _ (by decide)⟩
    exact .single h.1 h.2
  exact (hmod _).append ((hmod _).append ((hmod _).append (hmod _)))

theorem passed_yamlEscape (c : Char) : Passed (yamlEscape c) := by
  unfold yamlEscape
  split
  · exact .escape _
  rename_i hq
  split
  · exact .escape _
  rename_i hs
  split
  · exact .escape _
  split
  · exact .escape _
  split
  · exact .escape _
  split
  · exact .escape _
  split
  · exact (Passed.escape 'u').append (passed_upperHex4 _)
  · exact .single hq hs

/-- **The quoted body holds no open quote.** -/
theorem closingQuote_escaped (s rest : Str) :
    closingQuote false (s.flatMap yamlEscape ++ '"' :: rest) = some (s.flatMap yamlEscape).length := by
  have hpassed : Passed (s.flatMap yamlEscape) := by
    induction s with
    | nil => exact .nil
    | cons c s ih => exact (passed_yamlEscape c).append ih
  rw [hpassed]
  simp [closingQuote]

/-! ## 3. The scalar -/

/-- **`yaml_dq` is one scalar on one line, and reads as its text**: it is a quote, a body and a
    quote; the scan from the opening quote ends at the closing one, whatever follows; the body
    decodes to the text there; no character breaks the line; and the reader's own check passes. -/
theorem yamlDq_single_scalar (s : Str) :
    ∃ body, yamlDq s = '"' :: (body ++ ['"']) ∧
      (∀ rest, closingQuote false (body ++ '"' :: rest) = some body.length ∧
        readDq .text (body ++ '"' :: rest) = some (s, rest)) ∧
      (∀ c ∈ yamlDq s, isLineBreak c = false) ∧
      checkLegacyLineBreaks (yamlDq s) = .ok () := by
  have hbreaks : ∀ c ∈ yamlDq s, isLineBreak c = false := by
    intro c hc
    simp only [yamlDq, List.mem_cons, List.mem_append, List.mem_flatMap, List.not_mem_nil,
      or_false] at hc
    rcases hc with rfl | ⟨d, -, hd⟩ | rfl
    · decide
    · exact isLineBreak_of_isInline (escape_plain hd)
    · decide
  refine ⟨_, rfl, ?_, hbreaks, ?_⟩
  · intro rest
    exact ⟨closingQuote_escaped s rest, readDq_yamlDq s rest⟩
  · have hnone : (yamlDq s).any (fun c => c.toNat = 0x85 || c.toNat = 0x2028 || c.toNat = 0x2029) =
        false := by
      rw [List.any_eq_false]
      intro c hc
      have hc := hbreaks c hc
      simp only [isLineBreak, Bool.or_eq_false_iff] at hc
      simp [hc.1.1.2, hc.1.2, hc.2]
    rw [checkLegacyLineBreaks, hnone]
    rfl

end DeveSub.Mihomo
