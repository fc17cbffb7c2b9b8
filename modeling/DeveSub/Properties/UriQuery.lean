/-
  File:      DeveSub/Properties/UriQuery.lean
  Subject:   What the parsers read from the query of an emitted URI: booleans, lists, durations,
             TLS settings, the transport.

  An emitter pushes the fields it has as parameters; `Query.get` on the result gives each field
  back (`get_append`, `get_param` and so on compute it). The rest of the file says, for each reader
  of `Protocol/Common` and `Protocol/Uri`, what it makes of the values an emitter writes:

  * `queryBool_of_digit`, `queryInsecure_of_digit`, `parseAlpn_listValue`, `transpose_secs` -- single
    values;
  * **`buildCommonTls_carried`** -- the TLS settings of a parsed node are read back;
  * **`queryTransport_carried`** -- the transport is, unless it is XHTTP with an unknown mode.
-/
import DeveSub.Properties.EmittedUri

namespace DeveSub

/-! ## 1. Looking up a parameter -/

namespace Query

@[simp] theorem get_append (p q : Query) (key : Str) :
    Query.get (p ++ q) key = (q.get key).or (p.get key) := by
  rw [Query.get, List.reverse_append, List.find?_append]
  unfold Query.get
  cases List.find? (fun p => decide (p.1 = key)) q.reverse <;> rfl

@[simp] theorem get_nil (key : Str) : Query.get [] key = none := rfl

@[simp] theorem get_cons (k v : Str) (q : Query) (key : Str) :
    Query.get ((k, v) :: q) key = (q.get key).or (if k = key then some v else none) := by
  have hsplit : (k, v) :: q = [(k, v)] ++ q := rfl
  rw [hsplit, get_append]
  congr 1
  by_cases h : k = key <;> simp [Query.get, h]

@[simp] theorem get_param (k : Str) (v : Option Str) (key : Str) :
    Query.get (Uri.param k v) key = if k = key then v else none := by
  cases v with
  | none => simp [Uri.param, get_nil]
  | some v => simp [Uri.param, get_cons, get_nil]

end Query

/-- The value of a list parameter. -/
def listValue (items : List Str) : Option Str :=
  if items.isEmpty then none else some (commaJoin items)

/-- The value of a parameter for a number of whole units. -/
def countValue (n : Option Int) : Option Str :=
  n.bind fun n => if n ≥ 0 then some (natText n.toNat) else none

/-- The value of the parameter for certificate pins. -/
def pinsValue (pins : List Str) : Option Str :=
  if pins.isEmpty then none else some (formatPins pins)

namespace Uri

@[simp] theorem listParam_eq (k : Str) (items : List Str) :
    listParam k items = param k (listValue items) := by
  unfold listParam listValue
  split <;> rfl

@[simp] theorem durationParam_eq (k : Str) (n : Option Int) :
    durationParam k n = param k (countValue n) := by
  cases n with
  | none => rfl
  | some n =>
      show (if n ≥ 0 then _ else _) = param k (if n ≥ 0 then _ else _)
      split <;> rfl

theorem pinsParam_eq (k : Str) (pins : List Str) :
    (if pins.isEmpty then [] else [(k, formatPins pins)]) = param k (pinsValue pins) := by
  unfold pinsValue
  split <;> rfl

end Uri

@[simp] theorem plainKeys_append {p q : List (Str × Str)} :
    PlainKeys (p ++ q) ↔ PlainKeys p ∧ PlainKeys q := by
  simp only [PlainKeys, List.mem_append]
  exact ⟨fun h => ⟨fun x hx => h x (.inl hx), fun x hx => h x (.inr hx)⟩,
    fun h x hx => hx.elim (h.1 x) (h.2 x)⟩

@[simp] theorem plainKeys_cons {k v : Str} {q : List (Str × Str)} :
    PlainKeys ((k, v) :: q) ↔ k.all isKeyChar = true ∧ PlainKeys q := by
  simp [PlainKeys]

@[simp] theorem plainKeys_nil : PlainKeys [] := by simp [PlainKeys]

theorem plainKeys_param {k : Str} (h : k.all isKeyChar = true) (v : Option Str) :
    PlainKeys (Uri.param k v) := by
  cases v with
  | none => exact plainKeys_nil
  | some v => exact plainKeys_cons.mpr ⟨h, plainKeys_nil⟩

/-! ## 2. Single values -/

theorem queryInsecure_of_digit {q : Query} {key : Str} {keys : List Str} {b : Option Bool}
    (h : q.get key = b.map boolDigit) (hrest : ∀ k ∈ keys, q.get k = none) :
    queryInsecure q (key :: keys) = .ok b := by
  have hnone : queryInsecure q keys = .ok none := by
    induction keys with
    | nil => rfl
    | cons k ks ih =>
        rw [queryInsecure, hrest k List.mem_cons_self]
        exact ih fun k' hk' => hrest k' (List.mem_cons_of_mem _ hk')
  rw [queryInsecure, h]
  match b with
  | none => exact hnone
  | some true => rfl
  | some false => rfl

namespace Uri

theorem queryBool_of_digit {q : Query} {key : Str} {b : Option Bool}
    (h : q.get key = b.map boolDigit) : queryBool q key = .ok b := by
  rw [queryBool, h]
  match b with
  | none => rfl
  | some true => rfl
  | some false => rfl

theorem queryBool_of_text {q : Query} {key : Str} {b : Option Bool}
    (h : q.get key = b.map boolText) : queryBool q key = .ok b := by
  rw [queryBool, h]
  match b with
  | none => rfl
  | some true => rfl
  | some false => rfl

end Uri

/-- Splitting a joined list that came from splitting gives it back. -/
theorem parseAlpn_listValue (v : Str) :
    ((listValue (parseAlpn v)).map parseAlpn).getD [] = parseAlpn v := by
  by_cases hv : v = []
  · subst hv
    rfl
  · have hsplit : parseAlpn v = v.splitOn ',' := if_neg hv
    have hne : (v.splitOn ',').isEmpty = false := by
      simp
    rw [hsplit, listValue, hne, commaJoin, join_split]
    exact hsplit

theorem formatPins_parsePins {v : Str} (hv : v ≠ []) : formatPins (parsePins v) = v := by
  have hstrip : ∀ pin : Str,
      (stripPrefix "pinSHA256:" ("pinSHA256:".toList ++ pin)).getD ("pinSHA256:".toList ++ pin) = pin :=
    fun pin => by rw [stripPrefix_append "pinSHA256:".toList pin]; rfl
  rw [formatPins, parsePins, if_neg hv, List.map_map]
  have hmap : ((v.splitOn ',').map
      ((fun pin => (stripPrefix "pinSHA256:" pin).getD pin) ∘ fun pin => "pinSHA256:".toList ++ pin)) =
      v.splitOn ',' := by
    conv_rhs => rw [← List.map_id (v.splitOn ',')]
    exact List.map_congr_left fun pin _ => hstrip pin
  rw [hmap, join_split]

theorem parsePins_pinsValue (v : Str) :
    ((pinsValue (parsePins v)).map parsePins).getD [] = parsePins v := by
  by_cases hv : v = []
  · subst hv
    rfl
  · have hne : (parsePins v).isEmpty = false := by
      rw [parsePins, if_neg hv]
      simp
    rw [pinsValue, hne, formatPins_parsePins hv]
    rfl

/-- The name of a controller that came from a name stands for it. -/
theorem congestionController_name (v : Str) :
    congestionController (congestionController v).name = congestionController v := by
  by_cases hb : v = "bbr"
  · subst hb; rfl
  by_cases hc : v = "cubic"
  · subst hc; rfl
  by_cases hn : v = "new_reno"
  · subst hn; rfl
  have hother : congestionController v = .other v := by
    rw [congestionController, if_neg hb, if_neg hc, if_neg hn]
  rw [hother]
  exact hother

theorem eq_bbr_of_congestionController {v : Str} (h : congestionController v = .bbr) : v = "bbr" := by
  by_contra hne
  rw [congestionController, if_neg hne] at h
  split at h
  · cases h
  · split at h <;> cases h

/-- Congestion settings without bandwidths. -/
def controllerOnly (c : CongestionController) : CongestionConfig := ⟨c, none, none⟩

theorem parseU8_natText (n : UInt8) : parseU8 (natText n.toNat) = some n := by
  rw [parseU8, parseUnsigned_natText n.toNat_lt, Option.map_some, UInt8.ofNat_toNat]

theorem parseU32_natText (n : UInt32) : parseU32 (natText n.toNat) = some n := by
  rw [parseU32, parseUnsigned_natText n.toNat_lt, Option.map_some, UInt32.ofNat_toNat]

/-! ## 3. Durations -/

theorem parseI64_lt {v : Str} {n : Int} (h : parseI64 v = some n) : n < 2 ^ 63 := by
  unfold parseI64 at h
  split at h
  · obtain ⟨_, hm, rfl⟩ := Option.map_eq_some_iff.mp h
    obtain ⟨m, -, hm⟩ := Option.bind_eq_some_iff.mp hm
    cases hm
    have hnonneg : 0 ≤ (m : Int) := Int.natCast_nonneg m
    omega
  · obtain ⟨_, hm, rfl⟩ := Option.map_eq_some_iff.mp h
    obtain ⟨m, hread, hm⟩ := Option.bind_eq_some_iff.mp hm
    cases hm
    have hlt : m < 2 ^ 63 := by simpa using (Option.filter_eq_some_iff.mp hread).2
    exact_mod_cast hlt

theorem parseI64_natText {n : Nat} (h : n < 2 ^ 63) : parseI64 (natText n) = some (n : Int) := by
  unfold parseI64
  split
  · rename_i r hr
    have hmem : '-' ∈ natText n := hr ▸ List.mem_cons_self
    exact absurd hmem (UriText.not_mem_natText (by decide))
  · rw [parseUnsigned_natText h]
    rfl

/-- The duration a unit makes of the count a parser read is written and read back. -/
theorem parseI64_countValue {v : Str} {n : Int} (hv : parseI64 v = some n) (hn : 0 ≤ n) :
    ∃ w, countValue (some n) = some w ∧ parseI64 w = some n := by
  have hlt : n < 2 ^ 63 := parseI64_lt hv
  refine ⟨natText n.toNat, if_pos hn, ?_⟩
  rw [parseI64_natText (by omega), Int.toNat_of_nonneg hn]

section Durations

variable {unit : Int → Duration}

/-- What a count in some unit is read as. -/
theorem count_eq_ok {err : ParseError} {v : Str} {d : Duration} :
    (okOr (parseI64 v) err >>= fun n => if n < 0 then .error err else .ok (unit n)) = .ok d ↔
      ∃ n, parseI64 v = some n ∧ 0 ≤ n ∧ d = unit n := by
  rw [bind_eq_ok]
  simp only [okOr_eq_ok]
  refine exists_congr fun n => and_congr_right fun _ => ?_
  by_cases hn : n < 0
  · simp [hn, Int.not_le.mpr hn]
  · simp [hn, eq_comm, Int.not_lt.mp hn]

/-- A duration that is read as a count of its unit is read back from that count. -/
theorem transpose_count {parse : Str → Except ParseError Duration} {whole : Duration → Int}
    (hwhole : ∀ n, whole (unit n) = n) {v : Option Str} {d : Option Duration}
    (h : transpose (v.map parse) = .ok d)
    (hparse : ∀ v d, parse v = .ok d ↔ ∃ n, parseI64 v = some n ∧ 0 ≤ n ∧ d = unit n) :
    transpose ((countValue (d.map whole)).map parse) = .ok d := by
  obtain ⟨rfl, -⟩ | ⟨w, d', -, hd, rfl⟩ := transpose_map_eq_ok h
  · rfl
  · obtain ⟨n, hw, hn, rfl⟩ := (hparse _ _).mp hd
    obtain ⟨w', hval, hw'⟩ := parseI64_countValue hw hn
    rw [Option.map_some, hwhole, hval, Option.map_some, (hparse _ _).mpr ⟨n, hw', hn, rfl⟩]
    rfl

end Durations

/-- **A duration in seconds is read back.** -/
theorem transpose_secs {v : Option Str} {d : Option Duration}
    (h : transpose (v.map parseDurationSecs) = .ok d) :
    transpose ((countValue (d.map Duration.wholeSeconds)).map parseDurationSecs) = .ok d :=
  transpose_count Duration.wholeSeconds_seconds h fun _ _ => count_eq_ok

/-- **A duration in milliseconds is read back.** -/
theorem transpose_millis {v : Option Str} {d : Option Duration}
    (h : transpose (v.map parseDurationMillis) = .ok d) :
    transpose ((countValue (d.map Duration.wholeMilliseconds)).map parseDurationMillis) = .ok d :=
  transpose_count Duration.wholeMilliseconds_milliseconds h fun _ _ => count_eq_ok

/-! ## 4. TLS settings -/

/-- TLS settings as `buildCommonTls` makes them, or the default. -/
structure CommonTls (pin : Option Str) (tls : TlsConfig) : Prop where
  enabled : tls.enabled = true
  fingerprint : tls.clientFingerprint = none
  reality : tls.reality = none
  alpn : ∃ v, tls.alpn = parseAlpn v
  pins : ∃ v, tls.certificatePins = parsePins v
  noPins : pin = none → tls.certificatePins = []

/-- A query that holds the TLS settings: the first of the names for `skipCertVerify` is used. -/
structure CarriesTls (q : Query) (key : Str) (keys : List Str) (pin : Option Str)
    (tls : TlsConfig) : Prop where
  sni : q.get "sni" = tls.serverName
  alpn : q.get "alpn" = listValue tls.alpn
  insecure : q.get key = tls.skipCertVerify.map boolDigit
  others : ∀ k ∈ keys, q.get k = none
  pins : ∀ p, pin = some p → q.get p = pinsValue tls.certificatePins

theorem exists_parseAlpn (o : Option Str) : ∃ v, (o.map parseAlpn).getD [] = parseAlpn v := by
  cases o with
  | none => exact ⟨[], rfl⟩
  | some v => exact ⟨v, rfl⟩

theorem exists_parsePins (o : Option Str) : ∃ v, (o.map parsePins).getD [] = parsePins v := by
  cases o with
  | none => exact ⟨[], rfl⟩
  | some v => exact ⟨v, rfl⟩

theorem defaultTlsEnabled_common (pin : Option Str) : CommonTls pin defaultTlsEnabled where
  enabled := rfl
  fingerprint := rfl
  reality := rfl
  alpn := ⟨[], rfl⟩
  pins := ⟨[], rfl⟩
  noPins _ := rfl

theorem buildCommonTls_common {q : Query} {keys : List Str} {pin : Option Str}
    {t : Option TlsConfig} (h : buildCommonTls q keys pin = .ok t) :
    CommonTls pin (t.getD defaultTlsEnabled) := by
  unfold buildCommonTls at h
  split at h
  · obtain ⟨skip, -, h⟩ := bind_eq_ok.mp h
    cases h
    exact
      { enabled := rfl
        fingerprint := rfl
        reality := rfl
        alpn := exists_parseAlpn _
        pins := exists_parsePins _
        noPins := fun hpin => by subst hpin; rfl }
  · cases h
    exact defaultTlsEnabled_common pin

theorem listValue_eq_none {items : List Str} (h : listValue items = none) : items = [] := by
  unfold listValue at h
  split at h
  · rename_i he
    exact List.isEmpty_iff.mp he
  · cases h

theorem pinsValue_eq_none {pins : List Str} (h : pinsValue pins = none) : pins = [] := by
  unfold pinsValue at h
  split at h
  · rename_i he
    exact List.isEmpty_iff.mp he
  · cases h

/-- **The TLS settings of a parsed node are read back** from a query that carries them. -/
theorem buildCommonTls_carried {q : Query} {key : Str} {keys : List Str} {pin : Option Str}
    {tls : TlsConfig} (hc : CarriesTls q key keys pin tls) (ht : CommonTls pin tls) :
    ∃ t, buildCommonTls q (key :: keys) pin = .ok t ∧ t.getD defaultTlsEnabled = tls := by
  obtain ⟨enabled, serverName, skip, alpn, fingerprint, pins, reality⟩ := tls
  obtain ⟨rfl, rfl, rfl, ⟨va, rfl⟩, ⟨vp, hvp⟩, hno⟩ := ht
  obtain ⟨hsni, halpn, hinsecure, hothers, hpins⟩ := hc
  have hpinList : ((pin.bind q.get).map parsePins).getD [] = pins := by
    cases pin with
    | none => exact (hno rfl).symm
    | some p =>
        rw [Option.bind_some, hpins p rfl]
        dsimp only at hvp ⊢
        rw [hvp, parsePins_pinsValue]
  unfold buildCommonTls
  split
  · refine ⟨_, by rw [queryInsecure_of_digit hinsecure hothers]; rfl, ?_⟩
    rw [Option.getD_some, hsni, halpn, hpinList, parseAlpn_listValue]
  · -- no parameter at all: the settings were the default ones
    rename_i hnone
    simp only [Query.containsKey, List.any_cons, Bool.or_eq_true, not_or, Bool.not_eq_true,
      Option.isSome_eq_false_iff, Option.isNone_iff_eq_none] at hnone
    obtain ⟨⟨⟨hs, ha⟩, hi, -⟩, hp⟩ := hnone
    refine ⟨none, rfl, ?_⟩
    have hskip : skip = none := by
      rw [hinsecure] at hi
      simpa using hi
    have hpnil : pins = [] := by
      cases pin with
      | none => exact hno rfl
      | some p =>
          have hget : q.get p = none := by simpa [Option.any, Query.containsKey] using hp
          exact pinsValue_eq_none (hpins p rfl ▸ hget)
    have hanil : parseAlpn va = [] := listValue_eq_none (halpn ▸ ha)
    have hsnil : serverName = none := hsni.symm.trans hs
    rw [hskip, hpnil, hanil, hsnil]
    rfl

/-! ## 5. Transport -/

/-- A query with `type=xhttp` has no `mode`, or one of the four. -/
def Query.ModeKnown (q : Query) : Prop :=
  q.get "type" = some "xhttp" → ∀ mode, q.get "mode" = some mode →
    mode ∈ (["auto", "stream-one", "stream-up", "packet-up"] : List Str)

/-- A query that holds the transport. -/
structure CarriesTransport (q : Query) (t : Transport) : Prop where
  kind : q.get "type" = some t.kind.text
  path : q.get "path" = t.path
  host : q.get "host" = t.host
  mode : q.get "mode" = t.xhttpMode.map XhttpMode.asStr

namespace Uri

theorem queryTransportKind_carried {q : Query} {t : Transport} (h : CarriesTransport q t) :
    queryTransportKind q = .ok t.kind := by
  rw [queryTransportKind, h.kind, Option.map_some, mapTransportKind_text]
  rfl

theorem xhttpMode_carried {q : Query} {t : Transport} (h : CarriesTransport q t) :
    xhttpMode q t.kind =
      if t.kind = .xhttp then (match t.xhttpMode with | some m => some m | none => some .auto)
      else none := by
  rw [xhttpMode, h.mode]
  cases t.xhttpMode with
  | none => rfl
  | some m => simp

theorem eq_text_of_mapTransportKind {v : Str} {kind : TransportKind}
    (h : mapTransportKind v = .ok kind) : v = kind.text := by
  unfold mapTransportKind at h
  split_ifs at h <;> cases h <;> assumption

theorem queryTransportKind_xhttp_iff {q : Query} {kind : TransportKind}
    (h : queryTransportKind q = .ok kind) : kind = .xhttp ↔ q.get "type" = some "xhttp" := by
  obtain ⟨k, hk, h⟩ := bind_eq_ok.mp h
  cases h
  obtain ⟨rfl, hq⟩ | ⟨v, kind, hq, hv, rfl⟩ := transpose_map_eq_ok hk
  · rw [hq]
    simp
  · rw [hq, Option.getD_some, eq_text_of_mapTransportKind hv]
    cases kind <;> decide

theorem fromStrLossy_eq_none_iff (s : Str) :
    XhttpMode.fromStrLossy s = none ↔
      s ∉ (["auto", "stream-one", "stream-up", "packet-up"] : List Str) := by
  unfold XhttpMode.fromStrLossy
  simp only [List.mem_cons, List.not_mem_nil, or_false]
  split_ifs with h₁ h₂ h₃ h₄ <;> simp only [*, true_or, or_true, not_true, not_false_iff, or_self]

/-- The mode of a parsed XHTTP transport is known exactly when that of the query is. -/
theorem queryTransport_mode_iff {q : Query} {kind : TransportKind}
    (h : queryTransportKind q = .ok kind) :
    (kind = .xhttp → xhttpMode q kind ≠ none) ↔ q.ModeKnown := by
  rw [Query.ModeKnown, ← queryTransportKind_xhttp_iff h]
  refine imp_congr_right fun hk => ?_
  rw [xhttpMode, if_pos hk]
  cases q.get "mode" with
  | none => simp
  | some mode =>
    rw [Option.map_some, Option.getD_some, Ne, fromStrLossy_eq_none_iff, not_not]
    exact ⟨fun hmem _ heq => Option.some.inj heq ▸ hmem, fun hmem => hmem mode rfl⟩

/-- **The transport is read back exactly when the mode of the first query is known**: an
    unknown mode is not written, and an absent one is read as `auto`. -/
theorem queryTransport_carried {q q' : Query} {t : Transport} (h : CarriesTransport q' t)
    (hkind : queryTransportKind q = .ok t.kind) (ht : t = queryTransport q t.kind) :
    queryTransport q' t.kind = t ↔ q.ModeKnown := by
  have hother : t.kind ≠ .xhttp → t.xhttpMode = none := by
    intro hk
    rw [ht]
    exact if_neg hk
  have hrecord : queryTransport q' t.kind = t ↔ xhttpMode q' t.kind = t.xhttpMode := by
    obtain ⟨kind, path, host, mode⟩ := t
    simp only [queryTransport, Transport.mk.injEq, h.path, h.host, true_and]
  have hmode : xhttpMode q t.kind = t.xhttpMode := (congrArg Transport.xhttpMode ht).symm
  rw [hrecord, xhttpMode_carried h, ← queryTransport_mode_iff hkind, hmode]
  by_cases hk : t.kind = .xhttp
  · cases hm : t.xhttpMode <;> simp [hk]
  · simp [hk, hother hk]

end Uri

end DeveSub
