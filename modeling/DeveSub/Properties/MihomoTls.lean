/-
  File:      DeveSub/Properties/MihomoTls.lean
  Subject:   TLS of the nodes a Mihomo document gives, for the protocols that mandate TLS, and
             the security mode the Xray and V2Ray emitters write for them.

  The enabled flag comes from a shared extractor that sees only the entry's TLS fields: an entry
  that names a server but does not spell out `tls: true` gets the flag off. Only the AnyTLS parser
  sets it back.

  * **`enabled_iff_tlsStated`** -- what the extractor's flag depends on;
  * **`not_writesSecurityNone`** -- the emitters keep the flag;
  * **`mihomo_tls_enabled_iff`** -- all TLS-mandating nodes of a document have TLS on, and no
    plaintext stream settings, exactly when every entry states its TLS;
  * `mihomo_tls_lost` -- a Trojan entry with `sni` alone becomes a plaintext outbound.
-/
import DeveSub.Protocol.Mihomo
import DeveSub.Emitter.V2Ray

namespace DeveSub.Mihomo

/-! ## 1. The extractor -/

/-- The entry mentions no TLS setting. -/
def tlsUnmentioned (e : Json) : Bool :=
  (getStr e "servername").isNone && (getStr e "sni").isNone &&
    (getBool e "skip-cert-verify").isNone && (getStrArray e "alpn").isEmpty &&
    (getStr e "client-fingerprint").isNone

/-- The entry turns TLS on, has Reality settings, or mentions no TLS setting at all. -/
def tlsStated (e : Json) : Bool :=
  (getBool e "tls").getD false || (e.get "reality-opts").isSome || tlsUnmentioned e

/-- The TLS settings of a parser that falls back on the default. -/
def tlsOrDefault (e : Json) : TlsConfig := (extractTls e).getD defaultTlsEnabled

theorem enabled_getD_ite (c : Bool) (tls : TlsConfig) :
    ((if c = true then none else some tls).getD defaultTlsEnabled).enabled = (c || tls.enabled) := by
  cases c <;> rfl

/-- **The flag is on exactly when the entry states its TLS.** -/
theorem enabled_iff_tlsStated (e : Json) : (tlsOrDefault e).enabled = tlsStated e := by
  have hr : (extractReality e).isSome = (e.get "reality-opts").isSome := by
    simp [extractReality]
  have hr' : (extractReality e).isNone = !(e.get "reality-opts").isSome := by
    rw [← hr]
    cases extractReality e <;> rfl
  have hs : ((getStr e "servername").or (getStr e "sni")).isNone =
      ((getStr e "servername").isNone && (getStr e "sni").isNone) := by
    cases getStr e "servername" <;> rfl
  simp only [tlsOrDefault, extractTls, tlsStated, tlsUnmentioned, enabled_getD_ite, hr, hr', hs]
  -- what is left is an identity between the seven tests
  generalize (getBool e "tls").getD false = a
  generalize (e.get "reality-opts").isSome = r
  cases a <;> cases r <;> simp

/-! ## 2. The parsers -/

/-- The protocols that mandate TLS. -/
def mandatesTls (p : ProtocolKind) : Bool :=
  p ∈ [.trojan, .hysteria2, .tuicV5, .naiveProxy, .anyTls]

/-- The TLS settings a parser gives a node of a protocol that mandates TLS. -/
def TlsAsExtracted (e : Json) (n : Node) : Prop :=
  mandatesTls n.protocol = true →
    (n.protocol ≠ .anyTls ∧ n.tls = some (tlsOrDefault e)) ∨
      (n.protocol = .anyTls ∧ n.tls = some { tlsOrDefault e with enabled := true })

theorem parseTyped_tls (ty : Str) (e : Json) : Yields (TlsAsExtracted e) (parseTyped ty e) := by
  refine .ite ?vless <| .ite ?vmess <| .ite ?trojan <| .ite ?ss <| .ite ?hysteria2 <|
    .ite ?tuic <| .ite ?naive <| .ite ?wireguard <| .ite ?anytls <| .ite ?snell <| .error _
  case vless => exact .bind fun _ => .bind fun _ => .ok fun h => absurd h (by simp [mandatesTls])
  case vmess => exact .bind fun _ => .bind fun _ => .ok fun h => absurd h (by simp [mandatesTls])
  case ss => exact .bind fun _ => .bind fun _ => .bind fun _ => .ok fun h => absurd h (by simp [mandatesTls])
  case wireguard =>
    exact .bind fun _ => .bind fun _ => .bind fun _ => .ok fun h => absurd h (by simp [mandatesTls])
  case snell =>
    exact .bind fun _ => .bind fun _ => .bind fun _ => .bind fun _ => .ok fun h =>
      absurd h (by simp [mandatesTls])
  case trojan => exact .bind fun _ => .bind fun _ => .ok fun _ => .inl ⟨by simp, rfl⟩
  case hysteria2 => exact .bind fun _ => .bind fun _ => .ok fun _ => .inl ⟨by simp, rfl⟩
  case tuic =>
    exact .bind fun _ => .bind fun _ => .bind fun _ => .ok fun _ => .inl ⟨by simp, rfl⟩
  case naive =>
    exact .bind fun _ => .bind fun _ => .bind fun _ => .ok fun _ => .inl ⟨by simp, rfl⟩
  case anytls => exact .bind fun _ => .bind fun _ => .ok fun _ => .inr ⟨rfl, rfl⟩

theorem parseProxyEntry_tls (e : Json) : TlsAsExtracted e (parseProxyEntry e) := by
  unfold parseProxyEntry
  split
  · exact fun h => absurd h (by simp [unsupportedEntry, mandatesTls])
  · rename_i ty _
    split
    · rename_i node hn
      cases hp : tryParseShadowTlsProjection e node with
      | none => exact parseTyped_tls ty e node hn
      | some n =>
          -- a projection is a ShadowTLS node, whatever its inner protocol
          obtain ⟨⟨version, password, sni⟩, -, hb⟩ := Option.bind_eq_some_iff.mp hp
          dsimp only at hb
          split at hb
          · cases hb
          · cases hb
            exact fun h => absurd h (by simp [mandatesTls])
    · exact fun h => absurd h (by simp [unsupportedEntry, mandatesTls])

/-! ## 3. The emitter -/

/-- The node carries TLS settings with the flag on. -/
def TlsEnabled (n : Node) : Prop := ∃ tls, n.tls = some tls ∧ tls.enabled = true

/-- The Xray and V2Ray emitters write stream settings without security for the node. -/
def WritesSecurityNone (n : Node) : Prop :=
  ∃ out stream, V2Ray.emitOutbound n = .ok out ∧ out.get "streamSettings" = some stream ∧
    stream.get "security" = some (.str "none")

theorem streamSettings_security (n : Node) :
    (V2Ray.streamSettings n).get "security" = some (.str (V2Ray.securityMode n.tls)) := by
  have hnet : "network".toList ≠ "security".toList := by decide
  rw [V2Ray.streamSettings, List.append_assoc, List.cons_append, Json.get_obj_cons, if_neg hnet,
    List.cons_append, Json.get_obj_cons, if_pos rfl]

theorem securityMode_none_iff (tls : Option TlsConfig) :
    V2Ray.securityMode tls = "none" ↔
      ∀ t, tls = some t → t.enabled = false ∧ t.reality = none := by
  cases tls with
  | none => simp [V2Ray.securityMode]
  | some t => cases hr : t.reality <;> cases he : t.enabled <;> simp [V2Ray.securityMode, hr, he]

theorem outboundParts_stream (n : Node) :
    Yields (fun r => r.2.2 = none ∨ r.2.2 = some (V2Ray.streamSettings n))
      (V2Ray.outboundParts n) := by
  unfold V2Ray.outboundParts
  split
  case h_1 => exact .bind fun _ => .ok (.inr rfl)
  case h_2 =>
    refine .bind fun _ => ?_
    split
    · exact .ok (.inl rfl)
    · exact .error _
  case h_3 => exact .bind fun _ => .ok (.inr rfl)
  case h_4 => exact .bind fun _ => .ok (.inr rfl)
  case h_5 => exact .error _

/-- Below `tag`, `protocol` and `settings` an outbound holds its stream settings, if any. -/
theorem get_streamSettings (tag protocol settings : Json) (rest : List (Str × Json)) :
    (Json.obj (("tag".toList, tag) :: ("protocol".toList, protocol) ::
      ("settings".toList, settings) :: rest)).get "streamSettings" =
      (Json.obj rest).get "streamSettings" := by
  rw [Json.get_obj_cons, if_neg (by decide), Json.get_obj_cons, if_neg (by decide),
    Json.get_obj_cons, if_neg (by decide)]

/-- The stream settings of an outbound are the node's, if it has any. -/
theorem emitOutbound_stream (n : Node) :
    Yields (fun out => ∀ stream, out.get "streamSettings" = some stream →
      stream = V2Ray.streamSettings n) (V2Ray.emitOutbound n) := by
  unfold V2Ray.emitOutbound
  refine .ite ?wireGuard ?other
  case wireGuard =>
    unfold V2Ray.emitWireGuard
    split
    · refine .ok fun stream h => ?_
      rw [get_streamSettings] at h
      cases h
    · exact .error _
  case other =>
    intro out ho
    obtain ⟨⟨protocol, settings, stream'⟩, hparts, ho⟩ := bind_eq_ok.mp ho
    cases ho
    intro stream h
    rw [List.cons_append, List.cons_append, List.singleton_append, get_streamSettings] at h
    rcases outboundParts_stream n _ hparts with hs | hs <;> dsimp only at hs <;> subst hs
    · cases h
    · rw [member, Json.get_obj_cons, if_pos rfl] at h
      exact (Option.some.inj h).symm

/-- **Enabled TLS never becomes plaintext.** -/
theorem not_writesSecurityNone {n : Node} (h : TlsEnabled n) : ¬ WritesSecurityNone n := by
  rintro ⟨out, stream, ho, hs, hn⟩
  obtain ⟨tls, ht, he⟩ := h
  rw [emitOutbound_stream n out ho stream hs, streamSettings_security, ht] at hn
  have hmode : V2Ray.securityMode (some tls) = "none" := by
    simpa using hn
  have := ((securityMode_none_iff _).mp hmode tls rfl).1
  rw [he] at this
  cases this

/-! ## 4. Documents -/

/-- What is promised of the node of an entry: if its protocol mandates TLS, TLS is on and no
    plaintext stream settings are written. -/
def KeepsTls (n : Node) : Prop :=
  mandatesTls n.protocol = true → TlsEnabled n ∧ ¬ WritesSecurityNone n

/-- **An entry's node keeps TLS exactly when the entry states its TLS**, unless the protocol does
    not mandate TLS or is AnyTLS, whose parser sets the flag itself. -/
theorem keepsTls_iff (e : Json) :
    KeepsTls (parseProxyEntry e) ↔
      (mandatesTls (parseProxyEntry e).protocol = true → (parseProxyEntry e).protocol ≠ .anyTls →
        tlsStated e = true) := by
  constructor
  · intro h hm ha
    obtain ⟨⟨tls, ht, he⟩, -⟩ := h hm
    rcases parseProxyEntry_tls e hm with ⟨-, htls⟩ | ⟨hany, -⟩
    · rw [htls] at ht
      cases ht
      rwa [← enabled_iff_tlsStated]
    · exact absurd hany ha
  · intro h hm
    have hon : TlsEnabled (parseProxyEntry e) := by
      rcases parseProxyEntry_tls e hm with ⟨hany, htls⟩ | ⟨-, htls⟩
      · exact ⟨_, htls, by rw [enabled_iff_tlsStated, h hm hany]⟩
      · exact ⟨_, htls, rfl⟩
    exact ⟨hon, not_writesSecurityNone hon⟩

/-- The nodes of a document are the nodes of its entries. -/
theorem parseMihomoYaml_nodes {load : Str → Except Str Json} {text : Str} {value : Json}
    {entries : List Json} {nodes : List Node} (hl : load text = .ok value)
    (he : (value.get "proxies").bind Json.asArray = some entries)
    (h : parseMihomoYaml load text = .ok nodes) : nodes = entries.map parseProxyEntry := by
  obtain ⟨v, hv, ha⟩ := Option.bind_eq_some_iff.mp he
  simp only [parseMihomoYaml, hl, Except.mapError, ok_bind, hv, okOr_some, ha] at h
  obtain ⟨_, -, hn⟩ := bind_eq_ok.mp h
  cases hn
  rfl

/-- **The TLS-mandating nodes of a document keep TLS exactly when every entry that gives one, apart
    from AnyTLS, states its TLS.** -/
theorem mihomo_tls_enabled_iff {load : Str → Except Str Json} {text : Str} {value : Json}
    {entries : List Json} {nodes : List Node} (hl : load text = .ok value)
    (he : (value.get "proxies").bind Json.asArray = some entries)
    (h : parseMihomoYaml load text = .ok nodes) :
    (∀ n ∈ nodes, mandatesTls n.protocol = true → TlsEnabled n ∧ ¬ WritesSecurityNone n) ↔
      ∀ e ∈ entries, mandatesTls (parseProxyEntry e).protocol = true →
        (parseProxyEntry e).protocol ≠ .anyTls → tlsStated e = true := by
  rw [parseMihomoYaml_nodes hl he h, List.forall_mem_map]
  exact forall₂_congr fun e _ => keepsTls_iff e

/-- A document with one Trojan entry that has one more field. -/
def trojanEntry (key : Str) (v : Json) : Json :=
  .obj [("name", .str "a"), ("type", .str "trojan"), ("server", .str "h"),
    ("port", Json.ofNat 443), ("password", .str "p"), (key, v)]

/-- The text of such a document, with the field as YAML writes it. -/
def trojanText (lastField : Str) : Str :=
  "proxies:\n  - name: a\n    type: trojan\n    server: h\n    port: 443\n    password: p\n    ".toList
    ++ lastField

/-- A loader that knows the one document. -/
def trojanLoad (lastField : Str) (entry : Json) (text : Str) : Except Str Json :=
  if text = trojanText lastField then .ok (.obj [("proxies", .arr [entry])])
  else .error "unknown document"

/-- The theorem at an entry that spells out `tls: true`. -/
theorem mihomo_tls_enabled_trojan :
    ∃ nodes, parseMihomoYaml (trojanLoad "tls: true" (trojanEntry "tls" (.bool true)))
        (trojanText "tls: true") = .ok nodes ∧
      ∀ n ∈ nodes, mandatesTls n.protocol = true → TlsEnabled n ∧ ¬ WritesSecurityNone n := by
  have hl : trojanLoad "tls: true" (trojanEntry "tls" (.bool true)) (trojanText "tls: true") =
      .ok (.obj [("proxies", .arr [trojanEntry "tls" (.bool true)])]) := if_pos rfl
  have hp : parseMihomoYaml (trojanLoad "tls: true" (trojanEntry "tls" (.bool true)))
      (trojanText "tls: true") = .ok [parseProxyEntry (trojanEntry "tls" (.bool true))] := by
    rw [parseMihomoYaml, hl]
    rfl
  refine ⟨_, hp, (mihomo_tls_enabled_iff hl rfl hp).mpr ?_⟩
  intro e he _ _
  rw [List.mem_singleton.mp he]
  decide +kernel

/-- Whether stream settings without security are written, as a test. -/
def writesSecurityNoneTest (n : Node) : Bool :=
  match V2Ray.emitOutbound n with
  | .ok out => (out.get "streamSettings").any fun s =>
      (s.get "security").any fun v => v.asStr = some "none".toList
  | .error _ => false

theorem writesSecurityNone_of_test {n : Node} (h : writesSecurityNoneTest n = true) :
    WritesSecurityNone n := by
  unfold writesSecurityNoneTest at h
  split at h
  · rename_i out ho
    simp only [Option.any_eq_true, decide_eq_true_eq] at h
    obtain ⟨s, hs, v, hv, hn⟩ := h
    exact ⟨out, s, ho, hs, by rw [hv, Json.asStr_some hn]⟩
  · cases h

/-- A Trojan entry that names its server but does not spell out `tls: true` gives a node with TLS
    off, and the emitter writes it without security. -/
theorem mihomo_tls_lost :
    ∃ nodes, parseMihomoYaml (trojanLoad "sni: s" (trojanEntry "sni" (.str "s")))
        (trojanText "sni: s") = .ok nodes ∧
      ∃ n ∈ nodes, mandatesTls n.protocol = true ∧ ¬ TlsEnabled n ∧ WritesSecurityNone n := by
  have hl : trojanLoad "sni: s" (trojanEntry "sni" (.str "s")) (trojanText "sni: s") =
      .ok (.obj [("proxies", .arr [trojanEntry "sni" (.str "s")])]) := if_pos rfl
  have hw : WritesSecurityNone (parseProxyEntry (trojanEntry "sni" (.str "s"))) :=
    writesSecurityNone_of_test (by decide +kernel)
  refine ⟨[parseProxyEntry (trojanEntry "sni" (.str "s"))], ?_, _, List.mem_singleton_self _, ?_,
    fun h => not_writesSecurityNone h hw, hw⟩
  · rw [parseMihomoYaml, hl]
    rfl
  · decide +kernel

end DeveSub.Mihomo
