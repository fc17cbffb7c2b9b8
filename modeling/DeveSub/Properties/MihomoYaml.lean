/-
  File:      DeveSub/Properties/MihomoYaml.lean
  Subject:   What a Mihomo document reads as: the entries of its nodes, key by key.

  A value that goes through `yaml_dq` reads back as itself, whatever its text. A value written
  as it is does so only when it is a plain string; the keys of the plugin options are written as
  they are, too; and a Shadowsocks plugin inside a ShadowTLS layer gives the key `plugin` twice.

  * **`readInline_yamlDq`** -- quoted values, for every text;
  * `entrySound_iff` -- which values and keys of an entry can go wrong;
  * **`emit_reads_back_iff`** -- a document reads as the entries of its nodes exactly when every
    node writes plainly;
  * `emit_injects_proxy` -- a cipher with line breaks adds a proxy.
-/
import DeveSub.Properties.MihomoLayout

namespace DeveSub.Mihomo

open Yaml (Block Line DqMode readDq readInline readFlow readFlowItem isKey isPlain isPlainString)

/-! ## 1. Values on one line -/

theorem hexVal?_upperHex {n : Nat} (h : n < 16) : hexVal? (upperHex n) = some n := by
  have all : ∀ i : Fin 16, hexVal? (upperHex i.val) = some i.val := by decide
  exact all ⟨n, h⟩

/-- Four digits of a code point are read as that code point. -/
theorem readDq_upperHex4 {n : Nat} (h : n < 65536) (hv : n.isValidChar) (rest : Str) :
    readDq (.hex 4 0) (upperHex4 n ++ rest) =
      (readDq .text rest).map fun r => (Char.ofNat n :: r.1, r.2) := by
  have hdigits : 16 * (16 * (16 * (n / 4096 % 16) + n / 256 % 16) + n / 16 % 16) + n % 16 = n := by
    omega
  have hchar : Yaml.charOf? n = some (Char.ofNat n) := by simp [Yaml.charOf?, hv]
  simp [upperHex4, readDq, hexVal?_upperHex (Nat.mod_lt _ (by decide)), hdigits, hchar]

/-- **Each character the quoting writes is read as that character.** -/
theorem readDq_yamlEscape (c : Char) (rest : Str) :
    readDq .text (yamlEscape c ++ rest) = (readDq .text rest).map fun r => (c :: r.1, r.2) := by
  unfold yamlEscape
  by_cases hq : c = '"'
  · subst hq; rfl
  by_cases hs : c = '\\'
  · subst hs; rfl
  by_cases hn : c = '\n'
  · subst hn; rfl
  by_cases hr : c = '\r'
  · subst hr; rfl
  by_cases ht : c = '\t'
  · subst ht; rfl
  rw [if_neg hq, if_neg hs, if_neg hn, if_neg hr, if_neg ht]
  split
  · rename_i hzero
    have : c = Char.ofNat 0 := by rw [← hzero, Char.ofNat_toNat]
    subst this
    rfl
  · rename_i hzero
    split
    · rename_i hcontrol
      have hlow : c.toNat < 65536 := by
        simp only [isControl, Bool.or_eq_true, Bool.and_eq_true, decide_eq_true_eq] at hcontrol
        omega
      have hread := readDq_upperHex4 hlow c.valid rest
      rw [Char.ofNat_toNat] at hread
      exact hread
    · rename_i hplain
      have hquotable : Yaml.isQuotable c = true := by
        simp only [isControl, Bool.or_eq_true, Bool.and_eq_true, decide_eq_true_eq, not_or,
          not_and, not_lt] at hplain
        simp only [Yaml.isQuotable, Bool.or_eq_true, Bool.and_eq_true, decide_eq_true_eq, ne_eq,
          decide_not, Bool.not_eq_true', decide_eq_false_iff_not]
        omega
      simp [readDq, hq, hs, hquotable]

theorem readDq_yamlDq (s rest : Str) :
    readDq .text (s.flatMap yamlEscape ++ '"' :: rest) = some (s, rest) := by
  induction s with
  | nil => rfl
  | cons c s ih =>
    rw [List.flatMap_cons, List.append_assoc, readDq_yamlEscape, ih]
    rfl

/-- **A quoted value reads back as itself.** -/
theorem readInline_yamlDq (s : Str) : readInline (yamlDq s) = some (.str s) := by
  simp only [yamlDq, readInline, readDq_yamlDq s []]

theorem readFlowItem_yamlDq (s rest : Str) :
    readFlowItem (yamlDq s ++ rest) = some (.str s, rest) := by
  simp only [yamlDq, List.cons_append, List.append_assoc, List.nil_append, readFlowItem,
    readDq_yamlDq s rest, Option.map_some]

theorem isFlowItem_yamlDq (s : Str) : Yaml.IsFlowItem (yamlDq s) (.str s) :=
  fun c rest _ => readFlowItem_yamlDq s (c :: rest)

theorem readInline_yamlList (first : Str) (more : List Str) :
    readInline (yamlList (first :: more)) = some (.seq ((first :: more).map .str)) := by
  have hcomma : ", ".toList = [',', ' '] := by decide
  have hread := Yaml.readInline_flow (more.map fun s => (yamlDq s, .str s))
    (isFlowItem_yamlDq first) (fun p hp => by
      obtain ⟨s, _, rfl⟩ := List.mem_map.mp hp
      exact isFlowItem_yamlDq s)
  rw [List.map_map, List.map_map] at hread
  rw [yamlList, hcomma]
  exact hread

theorem readInline_intText (n : Int) : readInline (intText n) = some (.int n) := by
  unfold intText
  split
  · rename_i hneg
    obtain ⟨hplain, hresolve⟩ := Yaml.isPlain_neg_natText n.natAbs
    rw [Yaml.readInline_of_isPlain hplain, hresolve]
    congr 2
    omega
  · rename_i hpos
    obtain ⟨hplain, hresolve⟩ := Yaml.isPlain_natText n.toNat
    rw [Yaml.readInline_of_isPlain hplain, hresolve]
    congr 2
    omega

theorem isFlowItem_natText (n : Nat) : Yaml.IsFlowItem (natText n) (.int n) := by
  obtain ⟨hplain, hresolve⟩ := Yaml.isPlain_natText n
  rw [← hresolve]
  refine Yaml.isFlowItem_of_isPlain hplain fun c hc => ?_
  exact forall_digit (P := fun c => Yaml.isFlowIndicator c = false) (by decide)
    (isDigit_of_mem_natText hc)

theorem readInline_boolText (b : Bool) : readInline (boolText b) = some (.bool b) := by
  cases b with
  | false => exact Yaml.readInline_of_isPlain (by decide)
  | true => exact Yaml.readInline_of_isPlain (by decide)

/-- Whether what is written for a scalar reads as that scalar. -/
def Scalar.Reads (s : Scalar) : Prop := readInline s.text = some s.value

namespace Scalar

@[simp] theorem reads_quoted (s : Str) : (quoted s).Reads := readInline_yamlDq s

/-- **A value written as it is reads back exactly when it is a plain string.** -/
@[simp] theorem reads_plain (s : Str) : (plain s).Reads ↔ isPlainString s = true :=
  Yaml.readInline_eq_str_self

@[simp] theorem reads_int (n : Int) : (int n).Reads := readInline_intText n

@[simp] theorem reads_nat (n : Nat) : (nat n).Reads := reads_int n

@[simp] theorem reads_flag (b : Bool) : (flag b).Reads := readInline_boolText b

@[simp] theorem reads_list (first : Str) (more : List Str) : (list first more).Reads :=
  readInline_yamlList first more

@[simp] theorem reads_bytes (a b c : UInt8) : (bytes a b c).Reads := by
  have hcomma : ", ".toList = [',', ' '] := by decide
  have hread := Yaml.readInline_flow
    [(natText b.toNat, .int b.toNat), (natText c.toNat, .int c.toNat)]
    (isFlowItem_natText a.toNat) (by
      intro p hp
      rcases List.mem_cons.mp hp with rfl | hp
      · exact isFlowItem_natText b.toNat
      · rcases List.mem_singleton.mp hp with rfl
        exact isFlowItem_natText c.toNat)
  rw [List.map_cons, List.map_cons, List.map_nil, List.intercalate_cons_cons,
    List.intercalate_cons_cons, List.intercalate_singleton] at hread
  rw [Reads, text_bytes, hcomma]
  simp only [List.append_assoc] at hread ⊢
  exact hread

theorem keys_value (s : Scalar) : s.value.keys = [] := by
  cases s with
  | list first more =>
    have hitems : ∀ l : List Str, Yaml.itemKeys (l.map .str) = [] := by
      intro l
      induction l with
      | nil => rw [List.map_nil, Yaml.itemKeys]
      | cons t l ih => rw [List.map_cons, Yaml.itemKeys, Yaml.keys, ih]; rfl
    rw [value, Yaml.keys, hitems]
  | bytes a b c => simp [value, Yaml.keys, Yaml.itemKeys]
  | _ => rw [value, Yaml.keys]

end Scalar

/-! ## 2. Sound layouts -/

/-- Plain keys, none twice in one mapping, and scalars that read back. -/
structure Sound (b : Block Scalar) : Prop where
  keys : ∀ k ∈ b.layoutKeys, isKey k = true
  distinct : b.distinct = true
  scalars : ∀ s ∈ b.scalars, s.Reads

/-- The same for the members of a mapping, but for a key twice among themselves. -/
structure MembersSound (ms : List (Str × Block Scalar)) : Prop where
  keys : ∀ k ∈ Block.memberLayoutKeys ms, isKey k = true
  distinct : Block.membersDistinct ms = true
  scalars : ∀ s ∈ Block.memberScalars ms, s.Reads

theorem sound_scalar (s : Scalar) : Sound (.scalar s) ↔ s.Reads := by
  constructor
  · intro h
    exact h.scalars s (by simp [Block.scalars])
  · intro h
    exact ⟨by simp [Block.layoutKeys], by simp [Block.distinct], by simpa [Block.scalars] using h⟩

theorem membersSound_iff (ms : List (Str × Block Scalar)) :
    MembersSound ms ↔ ∀ m ∈ ms, isKey m.1 = true ∧ Sound m.2 := by
  induction ms with
  | nil =>
    exact iff_of_true ⟨by simp [Block.memberLayoutKeys], by simp [Block.membersDistinct],
      by simp [Block.memberScalars]⟩ (by simp)
  | cons m ms ih =>
    obtain ⟨k, b⟩ := m
    rw [List.forall_mem_cons, ← ih]
    constructor
    · rintro ⟨hkeys, hdistinct, hscalars⟩
      rw [Block.memberLayoutKeys, List.forall_mem_cons, List.forall_mem_append] at hkeys
      rw [Block.membersDistinct, Bool.and_eq_true] at hdistinct
      rw [Block.memberScalars, List.forall_mem_append] at hscalars
      exact ⟨⟨hkeys.1, hkeys.2.1, hdistinct.1, hscalars.1⟩, hkeys.2.2, hdistinct.2, hscalars.2⟩
    · rintro ⟨⟨hkey, hb⟩, hms⟩
      refine ⟨?_, ?_, ?_⟩
      · rw [Block.memberLayoutKeys, List.forall_mem_cons, List.forall_mem_append]
        exact ⟨hkey, hb.keys, hms.keys⟩
      · rw [Block.membersDistinct, Bool.and_eq_true]
        exact ⟨hb.distinct, hms.distinct⟩
      · rw [Block.memberScalars, List.forall_mem_append]
        exact ⟨hb.scalars, hms.scalars⟩

theorem sound_map (ms : List (Str × Block Scalar)) :
    Sound (.map ms) ↔ MembersSound ms ∧ (ms.map Prod.fst).Nodup := by
  constructor
  · rintro ⟨hkeys, hdistinct, hscalars⟩
    rw [Block.layoutKeys] at hkeys
    rw [Block.distinct, Bool.and_eq_true, decide_eq_true_eq] at hdistinct
    rw [Block.scalars] at hscalars
    exact ⟨⟨hkeys, hdistinct.2, hscalars⟩, hdistinct.1⟩
  · rintro ⟨hms, hnodup⟩
    refine ⟨?_, ?_, ?_⟩
    · rw [Block.layoutKeys]
      exact hms.keys
    · rw [Block.distinct, Bool.and_eq_true, decide_eq_true_eq]
      exact ⟨hnodup, hms.distinct⟩
    · rw [Block.scalars]
      exact hms.scalars

/-- An item whose first member is a scalar. -/
def ItemSound (first : Str) (s : Scalar) (ms : List (Str × Block Scalar)) : Prop :=
  isKey first = true ∧ s.Reads ∧ MembersSound ms ∧ (first :: ms.map Prod.fst).Nodup

/-- A sequence is sound when its items are. -/
theorem itemsSound_iff {α : Type} (first : Str) (s : α → Scalar)
    (ms : α → List (Str × Block Scalar)) (xs : List α) :
    Sound (.seq (xs.map fun x => (first, .scalar (s x), ms x))) ↔
      ∀ x ∈ xs, ItemSound first (s x) (ms x) := by
  induction xs with
  | nil =>
    exact iff_of_true ⟨by simp [Block.layoutKeys, Block.itemLayoutKeys],
      by simp [Block.distinct, Block.itemsDistinct],
      by simp [Block.scalars, Block.itemScalars]⟩ (by simp)
  | cons x xs ih =>
    rw [List.forall_mem_cons, ← ih, List.map_cons]
    constructor
    · rintro ⟨hkeys, hdistinct, hscalars⟩
      rw [Block.layoutKeys, Block.itemLayoutKeys, List.forall_mem_cons, List.forall_mem_append,
        List.forall_mem_append] at hkeys
      rw [Block.distinct, Block.itemsDistinct, Bool.and_eq_true, Bool.and_eq_true,
        Bool.and_eq_true, decide_eq_true_eq] at hdistinct
      rw [Block.scalars, Block.itemScalars, List.forall_mem_append, List.forall_mem_append]
        at hscalars
      refine ⟨⟨hkeys.1, ?_, ⟨hkeys.2.2.1, hdistinct.1.2, hscalars.2.1⟩, hdistinct.1.1.1⟩, ?_⟩
      · exact hscalars.1 (s x) (by simp [Block.scalars])
      · refine ⟨?_, ?_, ?_⟩
        · rw [Block.layoutKeys]
          exact hkeys.2.2.2
        · rw [Block.distinct]
          exact hdistinct.2
        · rw [Block.scalars]
          exact hscalars.2.2
    · rintro ⟨⟨hkey, hs, hms, hnodup⟩, ⟨hkeys, hdistinct, hscalars⟩⟩
      rw [Block.layoutKeys] at hkeys
      rw [Block.distinct] at hdistinct
      rw [Block.scalars] at hscalars
      refine ⟨?_, ?_, ?_⟩
      · rw [Block.layoutKeys, Block.itemLayoutKeys, List.forall_mem_cons, List.forall_mem_append,
          List.forall_mem_append]
        exact ⟨hkey, by simp [Block.layoutKeys], hms.keys, hkeys⟩
      · rw [Block.distinct, Block.itemsDistinct, Bool.and_eq_true, Bool.and_eq_true,
          Bool.and_eq_true, decide_eq_true_eq]
        exact ⟨⟨⟨hnodup, by simp [Block.distinct]⟩, hms.distinct⟩, hdistinct⟩
      · rw [Block.scalars, Block.itemScalars, List.forall_mem_append, List.forall_mem_append]
        exact ⟨by simpa [Block.scalars] using hs, hms.scalars, hscalars⟩

/-! ## 3. Sound rows -/

/-- What stands behind or below a key, if anything, is sound. -/
def OptSound (o : Option (Block Scalar)) : Prop := ∀ b ∈ o, Sound b

/-- What stands behind or below the keys of the rows is sound. -/
def RowsSound (rows : List Row) : Prop := ∀ r ∈ rows, OptSound r.2

@[simp] theorem rowsSound_nil : RowsSound [] := fun _ hr => absurd hr List.not_mem_nil

@[simp] theorem rowsSound_cons (r : Row) (rows : List Row) :
    RowsSound (r :: rows) ↔ OptSound r.2 ∧ RowsSound rows := List.forall_mem_cons

@[simp] theorem rowsSound_append (a b : List Row) :
    RowsSound (a ++ b) ↔ RowsSound a ∧ RowsSound b := List.forall_mem_append

@[simp] theorem optSound_none : OptSound none := fun _ hb => absurd hb (by simp)

@[simp] theorem optSound_some (b : Block Scalar) : OptSound (some b) ↔ Sound b := by
  simp [OptSound]

@[simp] theorem optSound_given (s : Scalar) : OptSound (given s) ↔ s.Reads :=
  (optSound_some _).trans (sound_scalar s)

@[simp] theorem optSound_perhaps {α : Type} (scalar : α → Scalar) (o : Option α) :
    OptSound (perhaps scalar o) ↔ ∀ a ∈ o, (scalar a).Reads := by
  cases o with
  | none => simp [perhaps]
  | some a => simp [perhaps, sound_scalar]

@[simp] theorem optSound_ite {c : Prop} [Decidable c] (o o' : Option (Block Scalar)) :
    OptSound (if c then o else o') ↔ (c → OptSound o) ∧ (¬c → OptSound o') := by
  split <;> simp [*]

@[simp] theorem optSound_map {α : Type} (f : α → Block Scalar) (o : Option α) :
    OptSound (o.map f) ↔ ∀ a ∈ o, Sound (f a) := by
  cases o <;> simp

@[simp] theorem optSound_bind {α : Type} (f : α → Option (Block Scalar)) (o : Option α) :
    OptSound (o.bind f) ↔ ∀ a ∈ o, OptSound (f a) := by
  cases o <;> simp

@[simp] theorem optSound_listed (items : List Str) : OptSound (listed items) := by
  cases items <;> simp [listed]

@[simp] theorem optSound_unlessEmpty (s : Str) : OptSound (unlessEmpty s) := by
  simp [unlessEmpty]

@[simp] theorem optSound_secondsOf (d : Duration) : OptSound (secondsOf d) := by
  simp [secondsOf]

theorem present_append (a b : List Row) : present (a ++ b) = present a ++ present b :=
  List.filterMap_append

theorem mem_present {rows : List Row} {k : Str} {b : Block Scalar} :
    (k, b) ∈ present rows ↔ (k, some b) ∈ rows := by
  constructor
  · intro h
    obtain ⟨⟨k', o⟩, hr, ho⟩ := List.mem_filterMap.mp h
    obtain ⟨b', rfl, heq⟩ := Option.map_eq_some_iff.mp ho
    cases heq
    exact hr
  · intro h
    exact List.mem_filterMap.mpr ⟨(k, some b), h, rfl⟩

theorem keys_present_sublist (rows : List Row) :
    ((present rows).map Prod.fst).Sublist (rows.map Prod.fst) := by
  induction rows with
  | nil => exact List.Sublist.refl _
  | cons r rows ih =>
    obtain ⟨k, o⟩ := r
    cases o with
    | none => exact ih.cons k
    | some b => exact ih.cons_cons k

/-- **With plain keys, the members of rows are sound when the rows are.** -/
theorem membersSound_present {rows : List Row} (hkeys : ∀ k ∈ rows.map Prod.fst, isKey k = true) :
    MembersSound (present rows) ↔ RowsSound rows := by
  rw [membersSound_iff]
  constructor
  · rintro h ⟨k, o⟩ hr b hb
    cases hb
    exact (h (k, b) (mem_present.mpr hr)).2
  · rintro h ⟨k, b⟩ hm
    have hr := mem_present.mp hm
    exact ⟨hkeys k (List.mem_map_of_mem hr), h _ hr b rfl⟩

/-- A mapping below a key whose keys are `ks`. -/
theorem sound_nested {rows : List Row} (ks : List Str) (h : rows.map Prod.fst = ks)
    (hkeys : ∀ k ∈ ks, isKey k = true) (hnodup : ks.Nodup) :
    Sound (nested rows) ↔ RowsSound rows := by
  subst h
  rw [nested, sound_map, membersSound_present hkeys]
  exact and_iff_left (hnodup.sublist (keys_present_sublist rows))

/-! ## 4. The rows of each protocol -/

theorem rowsSound_headRows (node : Node) (ptype : Str) :
    RowsSound (headRows node ptype) ↔ isPlainString ptype = true := by
  simp [headRows]

@[simp] theorem rowsSound_tlsRows (tls : Option TlsConfig) : RowsSound (tlsRows tls) := by
  have hreality : ∀ r : RealityConfig, Sound (nested
      [("public-key".toList, unlessEmpty r.publicKey), ("short-id".toList, unlessEmpty r.shortId)]) := by
    intro r
    rw [sound_nested ["public-key", "short-id"] rfl (by decide) (by decide)]
    simp
  simp only [tlsRows, rowsSound_cons, optSound_ite, optSound_given, optSound_perhaps, optSound_map,
    optSound_bind, optSound_listed, optSound_none, rowsSound_nil, Scalar.reads_flag,
    Scalar.reads_quoted, hreality, implies_true, and_self]

@[simp] theorem isPlainString_transport (k : TransportKind) : isPlainString k.text = true := by
  cases k <;> decide

@[simp] theorem isPlainString_xhttpMode (m : XhttpMode) : isPlainString m.asStr = true := by
  cases m <;> decide

@[simp] theorem isPlainString_udpRelayMode (m : UdpRelayMode) : isPlainString m.name = true := by
  cases m <;> decide

@[simp] theorem isPlainString_snellObfsMode (m : SnellObfsMode) : isPlainString m.name = true := by
  cases m <;> decide

@[simp] theorem optSound_hostHeader (host : Option Str) : OptSound (hostHeader host) := by
  simp only [hostHeader, optSound_map]
  intro h _
  rw [sound_nested ["Host"] rfl (by decide) (by decide)]
  simp

@[simp] theorem optSound_wsOpts (t : Transport) : OptSound (wsOpts t) := by
  simp only [wsOpts, optSound_ite, optSound_some, optSound_none, implies_true, and_true]
  intro _
  rw [sound_nested ["path", "headers", "v2ray-http-upgrade"] rfl (by decide)
    (by decide)]
  simp

@[simp] theorem optSound_grpcOpts (t : Transport) : OptSound (grpcOpts t) := by
  simp only [grpcOpts, optSound_ite, optSound_map, optSound_none, implies_true, and_true]
  intro _ path _
  rw [sound_nested ["grpc-service-name"] rfl (by decide) (by decide)]
  simp

@[simp] theorem optSound_h2Opts (t : Transport) : OptSound (h2Opts t) := by
  simp only [h2Opts, optSound_ite, optSound_some, optSound_none, implies_true, and_true]
  intro _
  rw [sound_nested ["path", "host"] rfl (by decide) (by decide)]
  simp

@[simp] theorem optSound_xhttpOpts (t : Transport) : OptSound (xhttpOpts t) := by
  simp only [xhttpOpts, optSound_ite, optSound_some, optSound_none, implies_true, and_true]
  intro _
  rw [sound_nested ["path", "host", "mode"] rfl (by decide) (by decide)]
  simp

theorem rowsSound_networkRows (transport : Option Transport) :
    RowsSound (networkRows transport) := by
  simp [networkRows]

theorem rowsSound_trojanRows (node : Node) : RowsSound (trojanRows node) := by
  simp [trojanRows]

/-- The keys of the SIP003 options. -/
def optionKeys (opts : Str) : List Str := (pluginPairs opts).map fun pair => (optionMember pair).1

/-- **Options whose keys are plain strings and stand once.** -/
def PlainOptions (opts : Str) : Prop := (∀ k ∈ optionKeys opts, isKey k = true) ∧ (optionKeys opts).Nodup

theorem sound_optionMember (pair : Str) : Sound (optionMember pair).2 := by
  unfold optionMember
  split
  · rw [sound_scalar]
    split
    · exact Scalar.reads_flag true
    · split
      · exact Scalar.reads_flag false
      · exact Scalar.reads_quoted _
  · exact (sound_scalar _).mpr (Scalar.reads_flag true)

theorem sound_options (opts : Str) :
    Sound (.map ((pluginPairs opts).map optionMember)) ↔ PlainOptions opts := by
  rw [sound_map, membersSound_iff, List.map_map, PlainOptions, optionKeys]
  refine and_congr ?_ Iff.rfl
  constructor
  · intro h k hk
    obtain ⟨pair, hpair, rfl⟩ := List.mem_map.mp hk
    exact (h _ (List.mem_map_of_mem hpair)).1
  · intro h m hm
    obtain ⟨pair, hpair, rfl⟩ := List.mem_map.mp hm
    exact ⟨h _ (List.mem_map_of_mem hpair), sound_optionMember pair⟩

/-- What a Shadowsocks entry writes as it is: the cipher, and the keys of the options of a
    plugin. -/
def PlainSs (cfg : ShadowsocksConfig) : Prop :=
  isPlainString cfg.method = true ∧
    (cfg.plugin.isSome → ∀ opts ∈ cfg.pluginOpts, PlainOptions opts)

theorem rowsSound_ssRows (node : Node) (cfg : ShadowsocksConfig) :
    RowsSound (ssRows node cfg) ↔ PlainSs cfg := by
  simp only [ssRows, rowsSound_cons, optSound_given, optSound_perhaps, optSound_bind, optSound_map,
    rowsSound_nil, Scalar.reads_plain, Scalar.reads_quoted, sound_options, implies_true, true_and,
    and_true, PlainSs]
  cases cfg.plugin <;> simp

theorem rowsSound_vmessRows (node : Node) :
    RowsSound (vmessRows node) ↔
      ∀ cfg ∈ vmessOf node.config, isPlainString (cfg.security.getD "auto") = true := by
  simp [vmessRows]

theorem rowsSound_vlessRows (node : Node) :
    RowsSound (vlessRows node) ↔
      ∀ flow ∈ (vlessOf node.config).bind VlessRealityConfig.flow, isPlainString flow = true := by
  simp [vlessRows]

/-- A congestion controller whose name is a plain string. -/
def PlainCongestion (node : Node) : Prop :=
  ∀ c ∈ node.congestion, isPlainString c.controller.name = true

/-- An obfuscation whose kind is a plain string. -/
def PlainObfuscation (node : Node) : Prop := ∀ o ∈ node.obfuscation, isPlainString o.kind = true

theorem rowsSound_hysteria2Rows (node : Node) (cfg : Hysteria2Config) :
    RowsSound (hysteria2Rows node cfg) ↔ PlainCongestion node ∧ PlainObfuscation node := by
  simp [hysteria2Rows, PlainCongestion, PlainObfuscation]

theorem rowsSound_tuicRows (node : Node) (cfg : TuicV5Config) :
    RowsSound (tuicRows node cfg) ↔ PlainCongestion node := by
  simp [tuicRows, PlainCongestion]

theorem rowsSound_wireGuardRows (node : Node) (cfg : WireGuardConfig) :
    RowsSound (wireGuardRows node cfg) := by
  have hpeer : ∀ peer : WireGuardPeer, Sound (peerBlock node peer) := by
    intro peer
    have hkeys : (peerRows node peer).map Prod.fst = ["port".toList, "public-key".toList,
        "pre-shared-key".toList, "allowed-ips".toList, "reserved".toList,
        "persistent-keepalive".toList] := rfl
    have hitem : ItemSound "server" (.quoted node.endpoint.host.uriHost)
        (present (peerRows node peer)) := by
      refine ⟨by decide, Scalar.reads_quoted _, ?_, ?_⟩
      · rw [membersSound_present (by rw [hkeys]; decide)]
        simp [peerRows]
      · have hsub := keys_present_sublist (peerRows node peer)
        rw [hkeys] at hsub
        exact List.Nodup.sublist (hsub.cons_cons _) (by decide)
    exact (itemsSound_iff "server" (fun _ : Unit => .quoted node.endpoint.host.uriHost)
      (fun _ => present (peerRows node peer)) [()]).mpr (by simpa using hitem)
  simp [wireGuardRows, hpeer]

theorem rowsSound_anyTlsRows (node : Node) (cfg : AnyTlsConfig) :
    RowsSound (anyTlsAuthRows node) ∧ RowsSound (anyTlsRows cfg) := by
  simp [anyTlsAuthRows, anyTlsRows]

theorem rowsSound_snellRows (node : Node) (cfg : SnellConfig) : RowsSound (snellRows node cfg) := by
  have hobfs : ∀ obfs : SnellObfs, Sound (obfsBlock obfs) := by
    intro obfs
    rw [obfsBlock, sound_nested ["mode", "host", "password", "version", "alpn"] rfl
      (by decide) (by decide)]
    simp
  simp [snellRows, hobfs]

/-! ## 5. The entry of a node -/

/-- **What an entry writes as it is, is plain**: cipher, flow, congestion controller, kind of
    obfuscation and the keys of the plugin options. -/
def RawPlain (node : Node) (p : ProtocolKind) (c : ProtocolConfig) : Prop :=
  match p, c with
  | .shadowsocks, .shadowsocks cfg => PlainSs cfg
  | .vmess, .vmess cfg => isPlainString (cfg.security.getD "auto") = true
  | .vless, .vlessReality cfg => ∀ flow ∈ cfg.flow, isPlainString flow = true
  | .hysteria2, .hysteria2 _ => PlainCongestion node ∧ PlainObfuscation node
  | .tuicV5, .tuicV5 _ => PlainCongestion node
  | _, _ => True

theorem rowsSound_directRows (node : Node) :
    RowsSound (directRows node) ↔ RawPlain node node.protocol node.config := by
  unfold directRows
  split
  case h_1 hp =>
    simp only [hp, RawPlain, rowsSound_append, rowsSound_headRows, rowsSound_trojanRows,
      rowsSound_tlsRows, rowsSound_networkRows, and_true, iff_true]
    decide
  case h_2 cfg hp hc =>
    have htype : isPlainString "ss".toList = true := by decide
    simp only [hp, hc, RawPlain, rowsSound_append, rowsSound_headRows, rowsSound_ssRows, htype,
      true_and]
  case h_3 hp =>
    have htype : isPlainString "vmess".toList = true := by decide
    simp only [hp, rowsSound_append, rowsSound_headRows, rowsSound_vmessRows, htype,
      rowsSound_tlsRows, rowsSound_networkRows, and_true, true_and]
    cases node.config <;> simp [vmessOf, RawPlain]
  case h_4 hp =>
    have htype : isPlainString "vless".toList = true := by decide
    simp only [hp, rowsSound_append, rowsSound_headRows, rowsSound_vlessRows, htype,
      rowsSound_tlsRows, rowsSound_networkRows, and_true, true_and]
    cases node.config <;> simp [vlessOf, RawPlain]
  case h_5 cfg hp hc =>
    have htype : isPlainString "hysteria2".toList = true := by decide
    simp only [hp, hc, RawPlain, rowsSound_append, rowsSound_headRows, rowsSound_hysteria2Rows,
      htype, rowsSound_tlsRows, and_true, true_and]
  case h_6 cfg hp hc =>
    have htype : isPlainString "tuic".toList = true := by decide
    simp only [hp, hc, RawPlain, rowsSound_append, rowsSound_headRows, rowsSound_tuicRows,
      htype, rowsSound_tlsRows, and_true, true_and]
  case h_7 cfg hp hc =>
    simp only [hp, hc, RawPlain, rowsSound_append, rowsSound_headRows, rowsSound_wireGuardRows,
      and_true, iff_true]
    decide
  case h_8 cfg hp hc =>
    simp only [hp, hc, RawPlain, rowsSound_append, rowsSound_headRows, rowsSound_anyTlsRows node cfg,
      rowsSound_tlsRows, and_true, iff_true]
    decide
  case h_9 cfg hp hc =>
    simp only [hp, hc, RawPlain, rowsSound_append, rowsSound_headRows, rowsSound_snellRows,
      rowsSound_tlsRows, and_true, iff_true]
    decide
  case h_10 _ hvmess hvless hss hhysteria2 htuic _ _ _ =>
    simp only [rowsSound_nil, true_iff]
    unfold RawPlain
    split
    · exact absurd ‹_› (hss _ ‹_›)
    · exact absurd ‹_› hvmess
    · exact absurd ‹_› hvless
    · exact absurd ‹_› (hhysteria2 _ ‹_›)
    · exact absurd ‹_› (htuic _ ‹_›)
    · trivial

/-- The keys `yaml_entry` writes behind the name. -/
def headKeys : List Str := ["type", "server", "port"]

/-- The keys `push_tls` writes. -/
def tlsKeys : List Str :=
  ["tls", "sni", "skip-cert-verify", "alpn", "client-fingerprint", "reality-opts"]

/-- The keys `push_network` writes. -/
def networkKeys : List Str := ["network", "ws-opts", "grpc-opts", "h2-opts", "xhttp-opts"]

/-- The keys an entry of a protocol writes between its head and its TLS settings. -/
def ownKeys : ProtocolKind → List Str
  | .trojan => ["password", "packet-encoding"]
  | .shadowsocks => ["cipher", "password"]
  | .vmess => ["uuid", "alterId", "cipher", "packet-encoding"]
  | .vless => ["uuid", "flow", "packet-encoding"]
  | .hysteria2 =>
      ["password", "congestion-controller", "up", "down", "ports", "hop-interval", "obfs",
        "obfs-password", "fast-open", "lazy"]
  | .tuicV5 =>
      ["uuid", "password", "congestion-controller", "udp-relay-mode", "reduce-rtt",
        "heartbeat-interval", "disable-sni"]
  | .wireGuard => ["private-key", "ip", "ipv6", "mtu", "workers", "dns", "peers"]
  | .anyTls => ["password"]
  | .snell => ["psk", "version", "udp", "reuse"]
  | _ => []

/-- The keys it writes behind them. -/
def lateKeys : ProtocolKind → List Str
  | .trojan | .vmess | .vless => networkKeys
  | .anyTls => ["idle-session-check-interval", "idle-session-timeout", "min-idle-session"]
  | _ => []

/-- Where a ShadowTLS layer stands, the keys of an entry that it leaves out. -/
def replacedKeys : ProtocolKind → List Str
  | .trojan | .vmess | .vless | .hysteria2 | .tuicV5 | .anyTls => tlsKeys
  | .shadowsocks => ["plugin", "plugin-opts"]
  | .snell => "obfs-opts" :: tlsKeys
  | _ => []

/-- **The keys an entry of a protocol can have**, behind its name. -/
def directKeys (p : ProtocolKind) : List Str :=
  headKeys ++ ownKeys p ++ replacedKeys p ++ lateKeys p

/-- The keys a ShadowTLS layer writes. -/
def layerKeys : ProtocolKind → List Str
  | .shadowsocks => ["plugin", "plugin-opts"]
  | .snell => ["obfs-opts"]
  | .vless | .trojan | .vmess | .anyTls => "shadow-tls-opts" :: tlsKeys
  | _ => []

theorem keys_directRows (node : Node) :
    directRows node = [] ∨ (directRows node).map Prod.fst = directKeys node.protocol := by
  unfold directRows
  split
  case h_10 => exact .inl rfl
  all_goals
    simp only [*]
    exact .inr rfl

theorem keys_layerRows (node : Node) (version : ShadowTlsVersion) (password : Option Str)
    (p : ProtocolKind) : (layerRows node version password p).map Prod.fst = layerKeys p := by
  cases p <;> rfl

/-- Every key the emitter names is plain and stands once in an entry. -/
theorem directKeys_plain (p : ProtocolKind) :
    (∀ k ∈ directKeys p, isKey k = true) ∧ ("name".toList :: directKeys p).Nodup := by
  cases p with
  | unknown name =>
    show (∀ k ∈ headKeys, isKey k = true) ∧ ("name".toList :: headKeys).Nodup
    decide
  | _ => decide

theorem layeredKeys_plain (p : ProtocolKind) :
    (∀ k ∈ layerKeys p, isKey k = true) ∧
      ("name".toList :: (headKeys ++ ownKeys p ++ lateKeys p ++ layerKeys p)).Nodup := by
  cases p with
  | unknown name =>
    show (∀ k ∈ ([] : List Str), isKey k = true) ∧ ("name".toList :: headKeys).Nodup
    decide
  | _ => decide

theorem rowsSound_layerRows (node : Node) (version : ShadowTlsVersion) (password : Option Str)
    (p : ProtocolKind) : RowsSound (layerRows node version password p) := by
  have hfields : ∀ key, RowsSound (shadowTlsRows node version password key) := by
    intro key
    simp [shadowTlsRows]
  have hplugin : isPlainString "shadow-tls".toList = true := by decide
  have hhost : Sound (nested (shadowTlsRows node version password "host")) :=
    (sound_nested ["version", "password", "host"] rfl (by decide) (by decide)).mpr
      (hfields "host")
  have hsni : Sound (nested (shadowTlsRows node version password "sni")) :=
    (sound_nested ["version", "password", "sni"] rfl (by decide) (by decide)).mpr
      (hfields "sni")
  have hmode : Sound (nested (("mode".toList, given (.plain "shadow-tls")) ::
      shadowTlsRows node version password "host")) := by
    rw [sound_nested ["mode", "version", "password", "host"] rfl (by decide)
      (by decide)]
    simp only [rowsSound_cons, optSound_given, Scalar.reads_plain, hplugin, hfields, and_self]
  unfold layerRows
  cases p <;>
    simp only [rowsSound_cons, rowsSound_nil, optSound_given, optSound_some, Scalar.reads_plain,
      hplugin, hhost, hsni, hmode, rowsSound_tlsRows, and_self]

/-- A Shadowsocks configuration inside a ShadowTLS layer has no plugin of its own. -/
def NoPlugin (p : ProtocolKind) (c : ProtocolConfig) : Prop :=
  match p, c with
  | .shadowsocks, .shadowsocks cfg => cfg.plugin = none
  | _, _ => True

/-- Rows that are not there do not count. -/
theorem keys_present_drop {a r b : List Row} (hr : present r = []) :
    ((present (a ++ r ++ b)).map Prod.fst).Sublist (a.map Prod.fst ++ b.map Prod.fst) := by
  have h : present (a ++ r ++ b) = present (a ++ b) := by
    rw [present_append, present_append, present_append, hr, List.append_nil]
  rw [h, ← List.map_append]
  exact keys_present_sublist _

theorem keys_present_drop_last {a r : List Row} (hr : present r = []) :
    ((present (a ++ r)).map Prod.fst).Sublist (a.map Prod.fst) := by
  rw [present_append, hr, List.append_nil]
  exact keys_present_sublist _

theorem present_tlsRows_none : present (tlsRows none) = [] := rfl

/-- Inside a layer an entry has only keys of its own. -/
theorem keys_innerRows (node : Node) (p : ProtocolKind) (c : ProtocolConfig)
    (hplugin : NoPlugin p c) :
    ((present (directRows (innerNode node p c))).map Prod.fst).Sublist
      (headKeys ++ ownKeys p ++ lateKeys p) := by
  unfold directRows innerNode
  split
  case h_1 hp | h_3 hp | h_4 hp =>
    dsimp only at hp
    subst hp
    exact keys_present_drop present_tlsRows_none
  case h_2 cfg hp hc =>
    dsimp only at hp hc
    subst hp
    have hcfg : c = .shadowsocks cfg := by
      cases c <;> first | exact hc | cases hc
    subst hcfg
    have hnone : cfg.plugin = none := hplugin
    have hrows : ∀ n : Node, ssRows n cfg =
        [("cipher".toList, given (.plain cfg.method)),
          ("password".toList, perhaps .quoted (passwordOf n.authentication))] ++
        [("plugin".toList, none), ("plugin-opts".toList, none)] := by
      intro n
      simp only [ssRows, hnone]
      rfl
    rw [hrows, ← List.append_assoc]
    exact keys_present_drop_last rfl
  case h_5 cfg hp hc | h_6 cfg hp hc =>
    dsimp only at hp
    subst hp
    exact keys_present_drop_last present_tlsRows_none
  case h_7 cfg hp hc =>
    dsimp only at hp
    subst hp
    exact keys_present_sublist _
  case h_8 cfg hp hc =>
    dsimp only at hp
    subst hp
    exact keys_present_drop present_tlsRows_none
  case h_9 cfg hp hc =>
    dsimp only at hp hc
    subst hp
    have hnone : cfg.obfs = none := by
      cases c <;> cases hc
      rfl
    have hrows : ∀ n : Node, snellRows n cfg ++ tlsRows (snellObfsTls n cfg) =
        [("psk".toList, perhaps .quoted (passwordOf n.authentication)),
          ("version".toList, given (.nat cfg.version.asU32)),
          ("udp".toList, perhaps .flag n.udp.supported), ("reuse".toList, perhaps .flag cfg.reuse)] ++
        (("obfs-opts".toList, none) :: tlsRows none) := by
      intro n
      simp only [snellRows, snellObfsTls, hnone]
      rfl
    rw [List.append_assoc, hrows, ← List.append_assoc]
    exact keys_present_drop_last rfl
  case h_10 => exact List.nil_sublist _

/-- **A node writes plainly**: what its entry writes as it is, is plain, and a ShadowTLS layer
    stands over no plugin. -/
def WritesPlain (node : Node) : Prop :=
  match node.protocol, node.config with
  | .shadowTls, .shadowTls _ _ p c => RawPlain node p c ∧ NoPlugin p c
  | p, c => RawPlain node p c

/-- The layout of a node's entry is sound. -/
def EntrySound (node : Node) : Prop :=
  ItemSound "name" (.quoted node.displayName) (present (proxyRows node))

theorem entrySound_iff_of_keys {node : Node}
    (hkeys : ∀ k ∈ (proxyRows node).map Prod.fst, isKey k = true) :
    EntrySound node ↔ RowsSound (proxyRows node) ∧
      ("name".toList :: (present (proxyRows node)).map Prod.fst).Nodup := by
  have hname : isKey "name".toList = true := by decide
  unfold EntrySound ItemSound
  rw [membersSound_present hkeys]
  exact ⟨fun h => h.2.2, fun h => ⟨hname, Scalar.reads_quoted _, h⟩⟩

theorem rawPlain_innerNode (node : Node) (p : ProtocolKind) (c : ProtocolConfig) :
    RawPlain (innerNode node p c) p (withoutObfs c) ↔ RawPlain node p c := by
  unfold RawPlain withoutObfs
  cases p <;> cases c <;> rfl

theorem isKey_of_directRows (node : Node) :
    ∀ k ∈ (directRows node).map Prod.fst, isKey k = true := by
  rcases keys_directRows node with h | h
  · rw [h]
    exact fun k hk => absurd hk List.not_mem_nil
  · rw [h]
    exact (directKeys_plain node.protocol).1

theorem nodup_directRows (node : Node) :
    ("name".toList :: (present (directRows node)).map Prod.fst).Nodup := by
  have hsub := keys_present_sublist (directRows node)
  rcases keys_directRows node with h | h
  · rw [h]
    exact List.nodup_cons.mpr ⟨List.not_mem_nil, List.nodup_nil⟩
  · rw [h] at hsub
    exact (directKeys_plain node.protocol).2.sublist (hsub.cons_cons _)

theorem directRows_ss {cfg : ShadowsocksConfig} (node : Node) (hp : node.protocol = .shadowsocks)
    (hc : node.config = .shadowsocks cfg) :
    directRows node = headRows node "ss" ++ ssRows node cfg := by
  simp only [directRows, hp, hc]

/-- A Shadowsocks entry with a plugin has the key `plugin`. -/
theorem plugin_mem_ss {cfg : ShadowsocksConfig} {plugin : Str} (node : Node)
    (hp : node.protocol = .shadowsocks) (hc : node.config = .shadowsocks cfg)
    (h : cfg.plugin = some plugin) :
    "plugin".toList ∈ (present (directRows node)).map Prod.fst := by
  have hrow : ("plugin".toList, perhaps .quoted cfg.plugin) ∈ ssRows node cfg :=
    .tail _ (.tail _ (.head _))
  rw [h] at hrow
  refine List.mem_map.mpr ⟨("plugin".toList, .scalar (.quoted plugin)), mem_present.mpr ?_, rfl⟩
  rw [directRows_ss node hp hc]
  exact List.mem_append_right _ hrow

/-- So has the ShadowTLS layer over a Shadowsocks entry. -/
theorem plugin_mem_layer (node : Node) (version : ShadowTlsVersion) (password : Option Str) :
    "plugin".toList ∈ (present (layerRows node version password .shadowsocks)).map Prod.fst := by
  have hrow : ("plugin".toList, given (.plain "shadow-tls")) ∈
      layerRows node version password .shadowsocks := by
    rw [layerRows]
    exact List.mem_cons_self
  exact List.mem_map.mpr
    ⟨("plugin".toList, .scalar (.plain "shadow-tls")), mem_present.mpr hrow, rfl⟩

/-- **Inside a layer the keys stand once exactly when there is no inner plugin.** -/
theorem nodup_layered (node : Node) (version : ShadowTlsVersion) (password : Option Str)
    (p : ProtocolKind) (c : ProtocolConfig) :
    ("name".toList :: (present (directRows (innerNode node p c) ++
      layerRows node version password p)).map Prod.fst).Nodup ↔ NoPlugin p c := by
  rw [present_append, List.map_append]
  constructor
  · intro h
    unfold NoPlugin
    split
    · rename_i cfg
      cases hplugin : cfg.plugin with
      | none => rfl
      | some plugin =>
        have hdisjoint := (List.nodup_append.mp (List.nodup_cons.mp h).2).2.2
        exact (hdisjoint _ (plugin_mem_ss (innerNode node .shadowsocks (.shadowsocks cfg)) rfl rfl
          hplugin) _ (plugin_mem_layer node version password) rfl).elim
    · trivial
  · intro h
    have hinner := keys_innerRows node p c h
    have hlayer := keys_present_sublist (layerRows node version password p)
    rw [keys_layerRows] at hlayer
    exact (layeredKeys_plain p).2.sublist ((hinner.append hlayer).cons_cons _)

/-- The keys the emitter names for the protocol of a node. -/
def namedKeys (node : Node) : List Str :=
  match node.protocol, node.config with
  | .shadowTls, .shadowTls _ _ p _ => "name" :: (directKeys p ++ layerKeys p)
  | p, _ => "name" :: directKeys p

/-- A node stands inside a ShadowTLS layer or not. -/
theorem layered_or_direct (node : Node) :
    (∃ version password p c,
      proxyRows node = directRows (innerNode node p c) ++ layerRows node version password p ∧
      namedKeys node = "name".toList :: (directKeys p ++ layerKeys p) ∧
      (WritesPlain node ↔ RawPlain node p c ∧ NoPlugin p c)) ∨
    (proxyRows node = directRows node ∧
      namedKeys node = "name".toList :: directKeys node.protocol ∧
      (WritesPlain node ↔ RawPlain node node.protocol node.config)) := by
  by_cases h : ∃ version password p c,
      node.protocol = .shadowTls ∧ node.config = .shadowTls version password p c
  · obtain ⟨version, password, p, c, hp, hc⟩ := h
    refine .inl ⟨version, password, p, c, ?_, ?_, ?_⟩
    · simp only [proxyRows, hp, hc]
    · simp only [namedKeys, hp, hc]
    · simp only [WritesPlain, hp, hc]
  · refine .inr ⟨?_, ?_, ?_⟩
    · unfold proxyRows
      split
      · exact absurd ⟨_, _, _, _, ‹_›, ‹_›⟩ h
      · rfl
    · unfold namedKeys
      split
      · exact absurd ⟨_, _, _, _, ‹_›, ‹_›⟩ h
      · rfl
    · unfold WritesPlain
      split
      · exact absurd ⟨_, _, _, _, ‹_›, ‹_›⟩ h
      · exact Iff.rfl

/-- **The layout of an entry is sound exactly when its node writes plainly.** -/
theorem entrySound_iff (node : Node) : EntrySound node ↔ WritesPlain node := by
  rcases layered_or_direct node with ⟨version, password, p, c, hrows, _, hplain⟩ |
    ⟨hrows, _, hplain⟩
  · have hkeys : ∀ k ∈ (proxyRows node).map Prod.fst, isKey k = true := by
      rw [hrows, List.map_append, List.forall_mem_append, keys_layerRows]
      exact ⟨isKey_of_directRows _, (layeredKeys_plain p).1⟩
    rw [entrySound_iff_of_keys hkeys, hrows, nodup_layered, rowsSound_append,
      rowsSound_directRows, hplain]
    simp only [rowsSound_layerRows, and_true]
    exact and_congr (rawPlain_innerNode node p c) Iff.rfl
  · rw [entrySound_iff_of_keys (hrows ▸ isKey_of_directRows node), hrows, hplain,
      rowsSound_directRows]
    exact and_iff_left (nodup_directRows node)

/-! ## 6. The document -/

/-- **What the entry of a node stands for**: its name and, key by key, its fields. -/
def proxyValue (node : Node) : Yaml :=
  .map (("name", .str node.displayName) ::
    Block.memberValues Scalar.value (present (proxyRows node)))

/-- The entries of the one sequence `proxies` a document consists of. -/
def proxiesOf : Yaml → Option (List Yaml)
  | .map [(k, .seq items)] => if k = "proxies" then some items else none
  | .map [(k, .null)] => if k = "proxies" then some [] else none
  | _ => none

/-- The entries of a document, read as YAML. -/
def readProxies (text : Str) : Option (List Yaml) := (Yaml.read text).bind proxiesOf

/-- **A document keeps the structure of its nodes**: read as YAML it has one entry for each node,
    in their order, each with the node's fields under keys the emitter names. -/
structure StructurePreserved (nodes : List Node) (text : Str) : Prop where
  entries : readProxies text = some (nodes.map proxyValue)
  named : ∀ n ∈ nodes, ∃ members, proxyValue n = .map members ∧
    ∀ k ∈ members.map Prod.fst, k ∈ namedKeys n

theorem keys_proxyRows_subset (node : Node) :
    ∀ k ∈ "name".toList :: (proxyRows node).map Prod.fst, k ∈ namedKeys node := by
  have hdirect : ∀ n : Node, ∀ k ∈ (directRows n).map Prod.fst, k ∈ directKeys n.protocol := by
    intro n k hk
    rcases keys_directRows n with h | h
    · rw [h] at hk
      exact absurd hk List.not_mem_nil
    · rwa [h] at hk
  intro k hk
  rcases layered_or_direct node with ⟨version, password, p, c, hrows, hnamed, _⟩ |
    ⟨hrows, hnamed, _⟩
  · rw [hrows, List.map_append, keys_layerRows] at hk
    rw [hnamed]
    rcases List.mem_cons.mp hk with rfl | hk
    · exact List.mem_cons_self
    · refine List.mem_cons_of_mem _ (List.mem_append.mpr ?_)
      exact (List.mem_append.mp hk).imp (hdirect (innerNode node p c) k) id
  · rw [hrows] at hk
    rw [hnamed]
    rcases List.mem_cons.mp hk with rfl | hk
    · exact List.mem_cons_self
    · exact List.mem_cons_of_mem _ (hdirect node k hk)

theorem proxyValue_named (node : Node) : ∃ members, proxyValue node = .map members ∧
    ∀ k ∈ members.map Prod.fst, k ∈ namedKeys node := by
  refine ⟨_, rfl, fun k hk => keys_proxyRows_subset node k ?_⟩
  rw [List.map_cons, Block.map_fst_memberValues] at hk
  exact List.Sublist.subset ((keys_present_sublist (proxyRows node)).cons_cons _) hk

theorem sound_documentLayout (nodes : List Node) :
    Sound (.seq (nodes.map proxyItem)) ↔ ∀ n ∈ nodes, WritesPlain n := by
  have h := itemsSound_iff "name" (fun n : Node => .quoted n.displayName)
    (fun n => present (proxyRows n)) nodes
  refine h.trans (forall₂_congr fun n _ => ?_)
  exact entrySound_iff n

theorem itemValues_eq (nodes : List Node) :
    Block.itemValues Scalar.value (nodes.map proxyItem) = nodes.map proxyValue := by
  induction nodes with
  | nil => rw [List.map_nil, Block.itemValues, List.map_nil]
  | cons n nodes ih =>
    rw [List.map_cons, proxyItem, Block.itemValues, ih, List.map_cons, proxyValue, Block.value]
    rfl

/-- The layout of a document reads back exactly when the layout of the sequence is sound. -/
theorem read_documentLayout_iff (nodes : List Node) :
    Yaml.read (Yaml.render Scalar.text (documentLayout nodes)) =
        some (.map (Block.memberValues Scalar.value (documentLayout nodes))) ↔
      ∀ n ∈ nodes, WritesPlain n := by
  have hkey : isKey "proxies".toList = true := by decide
  have hne : documentLayout nodes ≠ [] := List.cons_ne_nil _ _
  rw [Yaml.read_render_iff hne (fun s _ => s.keys_value), ← sound_documentLayout]
  have hmembers := membersSound_iff (documentLayout nodes)
  constructor
  · rintro ⟨hkeys, _, hdistinct, hscalars⟩
    exact (hmembers.mp ⟨hkeys, hdistinct, hscalars⟩ _ List.mem_cons_self).2
  · intro h
    have hsound : MembersSound (documentLayout nodes) := by
      refine hmembers.mpr fun m hm => ?_
      rcases List.mem_singleton.mp hm with rfl
      exact ⟨hkey, h⟩
    exact ⟨hsound.keys, by simp [documentLayout], hsound.distinct, hsound.scalars⟩

theorem documentValue_cons (n : Node) (nodes : List Node) :
    Block.memberValues Scalar.value (documentLayout (n :: nodes)) =
      [("proxies".toList, .seq ((n :: nodes).map proxyValue))] := by
  rw [← itemValues_eq]
  simp only [documentLayout, Block.memberValues, List.map_cons, Block.value]

theorem documentValue_nil :
    Block.memberValues Scalar.value (documentLayout []) = [("proxies".toList, .null)] := by
  simp only [documentLayout, Block.memberValues, List.map_nil, Block.value]

/-- A document with entries is the mapping of `proxies` to their sequence. -/
theorem of_proxiesOf_cons {v : Yaml} {x : Yaml} {xs : List Yaml}
    (h : proxiesOf v = some (x :: xs)) : v = .map [("proxies".toList, .seq (x :: xs))] := by
  unfold proxiesOf at h
  split at h
  · rename_i k items
    simp only [Option.ite_none_right_eq_some, Option.some.injEq] at h
    rw [h.1, h.2]
  · simp only [Option.ite_none_right_eq_some, Option.some.injEq, List.nil_eq, reduceCtorEq,
      and_false] at h
  · cases h

/-- **A Mihomo document keeps the structure of its nodes exactly when every node writes
    plainly.** -/
theorem emit_reads_back_iff {nodes : List Node} {text : Str} (h : emit nodes = .ok text) :
    StructurePreserved nodes text ↔ ∀ n ∈ nodes, WritesPlain n := by
  have hread := read_documentLayout_iff nodes
  rw [← emit_eq_render h] at hread
  constructor
  · intro hkept
    rw [← hread]
    cases nodes with
    | nil => exact hread.mpr fun n hn => absurd hn List.not_mem_nil
    | cons n nodes =>
      obtain ⟨v, hv, hproxies⟩ := Option.bind_eq_some_iff.mp hkept.entries
      rw [hv, documentValue_cons, of_proxiesOf_cons hproxies]
      rfl
  · intro hplain
    refine ⟨?_, fun n _ => proxyValue_named n⟩
    rw [readProxies, hread.mpr hplain]
    cases nodes with
    | nil => rw [documentValue_nil]; rfl
    | cons n nodes =>
      rw [documentValue_cons]
      simp only [Option.bind_some, proxiesOf, if_true]

/-- A Shadowsocks node without a plugin. -/
def ssNode (method : Str) : Node where
  displayName := "node"
  protocol := .shadowsocks
  config := .shadowsocks ⟨method, none, none⟩
  endpoint := ⟨.domain "example.com", 443⟩
  authentication := .password "secret"
  transport := none
  tls := none
  udp := ⟨none, none⟩
  multiplex := none
  obfuscation := none
  congestion := none
  extras := []

/-- The entry of a node with a cipher of this name reads back. -/
theorem emit_reads_back_ss : ∃ text, emit [ssNode "aes-256-gcm"] = .ok text ∧
    StructurePreserved [ssNode "aes-256-gcm"] text := by
  refine ⟨_, rfl, (emit_reads_back_iff rfl).mpr ?_⟩
  intro n hn
  rcases List.mem_singleton.mp hn with rfl
  exact ⟨by decide, fun h => absurd h (by decide)⟩

/-- A cipher with line breaks that reads as the start of another entry. -/
def injectedCipher : Str := "aes-256-gcm\n  - name: injected\n    type: direct"

/-- **A cipher can add a proxy**: one node is emitted, two entries are read. -/
theorem emit_injects_proxy : ∃ text, emit [ssNode injectedCipher] = .ok text ∧
    (readProxies text).map List.length = some 2 ∧
    ¬ StructurePreserved [ssNode injectedCipher] text := by
  have htwo : (match emit [ssNode injectedCipher] with
      | .ok text => decide ((readProxies text).map List.length = some 2)
      | .error _ => false) = true := by decide +kernel
  cases h : emit [ssNode injectedCipher] with
  | error e => rw [h] at htwo; cases htwo
  | ok text =>
    rw [h, decide_eq_true_eq] at htwo
    refine ⟨text, rfl, htwo, fun hkept => ?_⟩
    rw [hkept.entries] at htwo
    cases htwo

end DeveSub.Mihomo
