/-
  File:      DeveSub/Properties/AddressTexts.lean
  Subject:   The text of an IPv6 address in the container documents.

  An IPv6 literal stands in brackets where a port follows it, and without them in a field of its
  own. The emitters take the text from `uri_host`, which is made for URIs; only the WireGuard
  endpoint of sing-box takes the address itself.

  * `addressTexts`, `sharedTexts` -- the fields of a document that hold the address alone, and
    those that hold address and port;
  * **`plain_addresses_iff`** -- the fields are as they should be exactly for WireGuard nodes
    outside Mihomo;
  * `outbound_server_bracketed` -- a Trojan outbound for sing-box with a bracketed server.
-/
import DeveSub.Emitter.SingBox
import DeveSub.Emitter.V2Ray
import DeveSub.Properties.MihomoRows

namespace DeveSub

/-! ## 1. The documents -/

/-- The containers. -/
inductive Container where
  | mihomo
  | singBox
  | xray
  | v2ray

/-- The document a container has for one node, as a tree. For Mihomo it is the tree the text is
    written for. -/
def Container.document : Container → Node → Except EmitError Json
  | .mihomo, n => (Mihomo.emit [n]).map fun _ =>
      Yaml.toJson (.map [("proxies", .seq [Mihomo.proxyValue n])])
  | .singBox, n => SingBox.document [n]
  | .xray, n => V2Ray.document [n]
  | .v2ray, n => do
      V2Ray.refuse [n]
      V2Ray.document [n]

/-- The text a container emits for one node. -/
def Container.emit : Container → Node → Except EmitError Str
  | .mihomo, n => Mihomo.emit [n]
  | .singBox, n => SingBox.emit [n]
  | .xray, n => V2Ray.emitXrayCompatible [n]
  | .v2ray, n => V2Ray.emit [n]

/-- A text is written for a tree: for Mihomo it renders a layout that stands for the tree. -/
def Container.Writes : Container → Str → Json → Prop
  | .mihomo, text, doc => ∃ layout, text = Yaml.render Mihomo.Scalar.text layout ∧
      doc = Yaml.toJson (.map (Yaml.Block.memberValues Mihomo.Scalar.value layout))
  | _, text, doc => text = doc.pretty

/-- **What is emitted is written for the document.** -/
theorem Container.writes_of_emit {c : Container} {node : Node} {text : Str}
    (h : c.emit node = .ok text) : ∃ doc, c.document node = .ok doc ∧ c.Writes text doc := by
  cases c with
  | mihomo =>
    refine ⟨_, map_eq_ok.2 ⟨text, h, rfl⟩, _, Mihomo.emit_eq_render h, ?_⟩
    rw [Mihomo.documentValue_cons]
    rfl
  | singBox | xray =>
    obtain ⟨doc, hdoc, rfl⟩ := map_eq_ok.1 h
    exact ⟨doc, hdoc, rfl⟩
  | v2ray =>
    obtain ⟨⟨⟩, hrefuse, h⟩ := bind_eq_ok.1 h
    obtain ⟨doc, hdoc, rfl⟩ := map_eq_ok.1 h
    exact ⟨doc, bind_eq_ok.2 ⟨(), hrefuse, hdoc⟩, rfl⟩

/-! ## 2. The fields -/

/-- What stands under a key of an object. -/
def under (key : Str) : Json → List Json
  | .obj members => (members.filter fun m => m.1 = key).map Prod.snd
  | _ => []

/-- The items of an array under a key. -/
def itemsUnder (key : Str) (v : Json) : List Json :=
  (under key v).flatMap fun items => items.asArray.getD []

/-- The texts under a key. -/
def textsUnder (key : Str) (v : Json) : List Str := (under key v).filterMap Json.asStr

/-- The fields that hold the server address alone. -/
def addressTexts : Container → Json → List Str
  | .mihomo, doc => (itemsUnder "proxies" doc).flatMap fun entry =>
      textsUnder "server" entry ++ (itemsUnder "peers" entry).flatMap (textsUnder "server")
  | .singBox, doc =>
      (itemsUnder "outbounds" doc).flatMap (textsUnder "server") ++
        ((itemsUnder "endpoints" doc).flatMap (itemsUnder "peers")).flatMap (textsUnder "address")
  | .xray, doc | .v2ray, doc =>
      ((itemsUnder "outbounds" doc).flatMap (under "settings")).flatMap fun settings =>
        (itemsUnder "servers" settings ++ itemsUnder "vnext" settings).flatMap (textsUnder "address")

/-- The fields that hold address and port. -/
def sharedTexts : Container → Json → List Str
  | .mihomo, _ | .singBox, _ => []
  | .xray, doc | .v2ray, doc =>
      ((itemsUnder "outbounds" doc).flatMap (under "settings")).flatMap fun settings =>
        (itemsUnder "peers" settings).flatMap (textsUnder "endpoint")

/-- **The address stands plainly in the fields of its own, and in brackets before a port.** -/
structure PlainAddresses (c : Container) (doc : Json) (ip : Ipv6Addr) (port : UInt16) : Prop where
  alone : ∀ a ∈ addressTexts c doc, a = ip.text
  shared : ∀ a ∈ sharedTexts c doc, a = '[' :: (ip.text ++ "]:".toList ++ natText port.toNat)

theorem under_cons (key k : Str) (v : Json) (members : List (Str × Json)) :
    under key (.obj ((k, v) :: members)) =
      (if k = key then [v] else []) ++ under key (.obj members) := by
  by_cases h : k = key
  · simp [under, h]
  · simp [under, h]

theorem under_nil (key : Str) : under key (.obj []) = [] := by
  simp [under]

theorem under_append (key : Str) (a b : List (Str × Json)) :
    under key (.obj (a ++ b)) = under key (.obj a) ++ under key (.obj b) := by
  simp [under]

theorem under_member (key k : Str) (v : Option Json) :
    under key (.obj (member k v)) = if k = key then v.toList else [] := by
  cases v with
  | none => simp [member, under_nil]
  | some v => simp [member, under_cons, under_nil]

theorem mem_under {key : Str} {v : Json} {members : List (Str × Json)} (h : (key, v) ∈ members) :
    v ∈ under key (.obj members) :=
  List.mem_map.2 ⟨(key, v), List.mem_filter.2 ⟨h, decide_eq_true rfl⟩, rfl⟩

theorem mem_textsUnder {key s : Str} {members : List (Str × Json)}
    (h : (key, .str s) ∈ members) : s ∈ textsUnder key (.obj members) :=
  List.mem_filterMap.2 ⟨.str s, mem_under h, rfl⟩

theorem mem_itemsUnder {key : Str} {v : Json} {items : List Json} {members : List (Str × Json)}
    (h : (key, .arr items) ∈ members) (hv : v ∈ items) : v ∈ itemsUnder key (.obj members) :=
  List.mem_flatMap.2 ⟨.arr items, mem_under h, hv⟩

/-- The brackets make another text. -/
theorem bracketed_ne (ip : Ipv6Addr) : (Host.ipv6 ip).uriHost ≠ ip.text := by
  intro h
  have hlen := congrArg List.length h
  simp only [Host.uriHost, List.length_cons, List.length_append, List.length_nil] at hlen
  omega

/-! ## 3. What the emitters write -/

theorem server_mem_proxyRows {node : Node} {t : Str} (h : Mihomo.emitProxy node = .ok t) :
    ("server".toList, Mihomo.given (.quoted node.endpoint.host.uriHost)) ∈
      Mihomo.proxyRows node := by
  have hhead : ∀ {n : Node} {t : Str}, Mihomo.emitDirect n = .ok t →
      ("server".toList, Mihomo.given (.quoted n.endpoint.host.uriHost)) ∈ Mihomo.directRows n := by
    intro n t hn
    obtain ⟨ptype, rows, hrows⟩ := (Mihomo.emitDirect_rows hn).2
    rw [hrows]
    exact List.mem_append_left _ (List.mem_cons_of_mem _ List.mem_cons_self)
  rcases Mihomo.emitProxy_cases h with ⟨hp, hdirect⟩ |
    ⟨version, password, p, c, inner, layer, hp, hc, hinner, -, -⟩
  · rw [Mihomo.proxyRows_direct hp]
    exact hhead hdirect
  · rw [Mihomo.proxyRows_layered hp hc]
    exact List.mem_append_left _ (hhead hinner)

/-- A Mihomo entry has the server as a URI has it. -/
theorem mihomo_server {node : Node} {doc : Json} (h : Container.mihomo.document node = .ok doc) :
    node.endpoint.host.uriHost ∈ addressTexts .mihomo doc := by
  obtain ⟨text, hemit, rfl⟩ := map_eq_ok.1 h
  obtain ⟨entries, hentries, -⟩ := bind_eq_ok.1 hemit
  obtain ⟨entry, hentry, -⟩ := bind_eq_ok.1 (List.mapM_cons (m := Except EmitError) ▸ hentries)
  have hserver : ("server".toList, Json.str node.endpoint.host.uriHost) ∈
      rowMembers (Mihomo.entryRows node) := by
    refine List.mem_flatMap.2 ⟨("server", some (.str node.endpoint.host.uriHost)), ?_, ?_⟩
    · refine List.mem_cons_of_mem _ (List.mem_map.2 ⟨_, server_mem_proxyRows hentry, ?_⟩)
      rw [Mihomo.map_given]
      rfl
    · exact List.mem_singleton.2 rfl
  have htree : Yaml.toJson (.map [("proxies", .seq [Mihomo.proxyValue node])]) =
      .obj [("proxies", .arr [.obj (rowMembers (Mihomo.entryRows node))])] := by
    rw [Yaml.toJson_map, List.map_singleton, Yaml.toJson_seq, List.map_singleton,
      Mihomo.proxyValue_toJson]
  rw [htree]
  refine List.mem_flatMap.2 ⟨_, mem_itemsUnder List.mem_cons_self List.mem_cons_self, ?_⟩
  exact List.mem_append_left _ (mem_textsUnder hserver)

theorem singBox_document {node : Node} {doc : Json} (h : SingBox.document [node] = .ok doc) :
    ∃ acc, SingBox.emitNode ⟨[node.displayName], [], []⟩ node = .ok acc ∧
      doc = .obj ([("outbounds".toList, .arr acc.outbounds)] ++
        (if acc.endpoints.isEmpty then [] else [("endpoints".toList, .arr acc.endpoints)]) ++
        [("route".toList, .obj [("final", .str node.displayName)])]) := by
  obtain ⟨_, -, h⟩ := bind_eq_ok.1 h
  obtain ⟨acc, hacc, h⟩ := bind_eq_ok.1 h
  rw [List.foldlM_cons] at hacc
  obtain ⟨acc', hnode, hacc⟩ := bind_eq_ok.1 hacc
  obtain rfl := Except.ok.inj hacc
  exact ⟨acc', hnode, (Except.ok.inj h).symm⟩

/-- An outbound of sing-box has the server as a URI has it. -/
theorem singBox_server {node : Node} {doc : Json} (hp : node.protocol ≠ .wireGuard)
    (h : SingBox.document [node] = .ok doc) :
    node.endpoint.host.uriHost ∈ addressTexts .singBox doc := by
  obtain ⟨acc, hnode, rfl⟩ := singBox_document h
  have hserver : ∃ members, Json.obj members ∈ acc.outbounds ∧
      ("server".toList, Json.str node.endpoint.host.uriHost) ∈ members := by
    rw [SingBox.emitNode, if_neg hp] at hnode
    split at hnode
    · obtain ⟨⟨wrapper, inner⟩, hpair, hnode⟩ := bind_eq_ok.1 hnode
      obtain rfl := Except.ok.inj hnode
      unfold SingBox.shadowTlsPair at hpair
      split at hpair
      · obtain ⟨members, -, hpair⟩ := bind_eq_ok.1 hpair
        obtain ⟨rfl, rfl⟩ := ok_pair_inj hpair
        refine ⟨_, List.mem_cons_self, ?_⟩
        simp
      · cases hpair
    · obtain ⟨members, hout, hnode⟩ := bind_eq_ok.1 hnode
      obtain rfl := Except.ok.inj hnode
      obtain ⟨fields, -, hout⟩ := bind_eq_ok.1 hout
      obtain rfl := Except.ok.inj hout
      refine ⟨_, List.mem_cons_self, ?_⟩
      simp
  obtain ⟨members, houtbound, hmember⟩ := hserver
  refine List.mem_append_left _ (List.mem_flatMap.2 ⟨_, ?_, mem_textsUnder hmember⟩)
  exact mem_itemsUnder List.mem_cons_self houtbound

/-- A WireGuard endpoint of sing-box has the address itself. -/
theorem singBox_endpoint {node : Node} {doc : Json} {ip : Ipv6Addr}
    (hp : node.protocol = .wireGuard) (hip : node.endpoint.host = .ipv6 ip)
    (h : SingBox.document [node] = .ok doc) : ∀ a ∈ addressTexts .singBox doc, a = ip.text := by
  obtain ⟨acc, hnode, rfl⟩ := singBox_document h
  rw [SingBox.emitNode, if_pos hp] at hnode
  obtain ⟨endpoint, hendpoint, hnode⟩ := bind_eq_ok.1 hnode
  obtain rfl := Except.ok.inj hnode
  unfold SingBox.emitWireGuard at hendpoint
  split at hendpoint
  · obtain ⟨_, -, hendpoint⟩ := bind_eq_ok.1 hendpoint
    obtain ⟨peers, hpeers, hendpoint⟩ := bind_eq_ok.1 hendpoint
    obtain rfl := Except.ok.inj hendpoint
    have hpeer : ∀ v ∈ peers, ∀ a ∈ textsUnder "address" v, a = ip.text := by
      intro v hv a ha
      obtain ⟨peer, -, hpeer⟩ := mem_of_mapM hpeers v hv
      obtain ⟨keepalive, -, hpeer⟩ := bind_eq_ok.1 hpeer
      obtain rfl := Except.ok.inj hpeer
      simpa [hip, textsUnder, under_append, under_cons, under_nil, under_member] using ha
    intro a ha
    have ha : ∃ v ∈ peers, a ∈ textsUnder "address" v := by
      simpa [addressTexts, itemsUnder, under_append, under_cons, under_nil, under_member,
        Json.asArray] using ha
    obtain ⟨v, hv, ha⟩ := ha
    exact hpeer v hv a ha
  · cases hendpoint

theorem xray_document {node : Node} {doc : Json} (h : V2Ray.document [node] = .ok doc) :
    ∃ outbound, V2Ray.emitOutbound node = .ok outbound ∧
      doc = .obj [("outbounds", .arr [outbound])] := by
  obtain ⟨outbounds, hall, h⟩ := bind_eq_ok.1 h
  rw [List.mapM_cons] at hall
  obtain ⟨outbound, hout, hall⟩ := bind_eq_ok.1 hall
  obtain rfl := Except.ok.inj hall
  exact ⟨outbound, hout, (Except.ok.inj h).symm⟩

/-- Each protocol writes its settings with a server or with a user. -/
theorem settings_of_parts {node : Node} {protocol : Str} {settings : Json} {stream : Option Json}
    (h : V2Ray.outboundParts node = .ok (protocol, settings, stream)) :
    (∃ fields, settings = V2Ray.serverSettings node fields) ∨
      ∃ user, settings = V2Ray.userSettings node user := by
  unfold V2Ray.outboundParts at h
  split at h
  · obtain ⟨password, -, h⟩ := bind_eq_ok.1 h
    cases h
    exact .inl ⟨_, rfl⟩
  · obtain ⟨password, -, h⟩ := bind_eq_ok.1 h
    split at h
    · cases h
      exact .inl ⟨_, rfl⟩
    · cases h
  · obtain ⟨uuid, -, h⟩ := bind_eq_ok.1 h
    cases h
    exact .inr ⟨_, rfl⟩
  · obtain ⟨uuid, -, h⟩ := bind_eq_ok.1 h
    cases h
    exact .inr ⟨_, rfl⟩
  · cases h

/-- An outbound for Xray has the server as a URI has it. -/
theorem xray_server {node : Node} {doc : Json} (hp : node.protocol ≠ .wireGuard)
    (h : V2Ray.document [node] = .ok doc) : node.endpoint.host.uriHost ∈ addressTexts .xray doc := by
  obtain ⟨outbound, hout, rfl⟩ := xray_document h
  rw [V2Ray.emitOutbound, if_neg hp] at hout
  obtain ⟨⟨protocol, settings, stream⟩, hparts, hout⟩ := bind_eq_ok.1 hout
  obtain rfl := Except.ok.inj hout
  refine List.mem_flatMap.2 ⟨settings, List.mem_flatMap.2 ⟨_, mem_itemsUnder List.mem_cons_self
    List.mem_cons_self, mem_under (by simp)⟩, ?_⟩
  rcases settings_of_parts hparts with ⟨fields, rfl⟩ | ⟨user, rfl⟩
  · refine List.mem_flatMap.2 ⟨_, List.mem_append_left _ (mem_itemsUnder List.mem_cons_self
      List.mem_cons_self), mem_textsUnder (by simp)⟩
  · refine List.mem_flatMap.2 ⟨_, List.mem_append_right _ (mem_itemsUnder List.mem_cons_self
      List.mem_cons_self), mem_textsUnder (by simp)⟩

/-- A WireGuard outbound for Xray has no address of its own. -/
theorem xray_wireGuard {node : Node} {doc : Json} (hp : node.protocol = .wireGuard)
    (h : V2Ray.document [node] = .ok doc) :
    addressTexts .xray doc = [] ∧ ∀ a ∈ sharedTexts .xray doc,
      a = node.endpoint.host.uriHost ++ ':' :: natText node.endpoint.port.toNat := by
  obtain ⟨outbound, hout, rfl⟩ := xray_document h
  rw [V2Ray.emitOutbound, if_pos hp] at hout
  unfold V2Ray.emitWireGuard at hout
  split at hout
  · rename_i cfg _
    obtain rfl := Except.ok.inj hout
    have hshared : ∀ peer ∈ cfg.peers, ∀ a ∈ textsUnder "endpoint" (V2Ray.wireGuardPeer node peer),
        a = node.endpoint.host.uriHost ++ ':' :: natText node.endpoint.port.toNat := by
      intro peer _ a ha
      cases hallowed : peer.allowedIps <;>
        simpa [V2Ray.wireGuardPeer, hallowed, textsUnder, under_append, under_cons, under_nil,
          under_member, Json.asStr] using ha
    cases haddress : cfg.address <;>
      simpa [addressTexts, sharedTexts, itemsUnder, under_append, under_cons, under_nil,
        under_member, Json.asArray] using fun a peer hpeer ha => hshared peer hpeer a ha
  · cases hout

/-! ## 4. The addresses -/

theorem plainAddresses_document_iff {c : Container} {node : Node} {doc : Json} {ip : Ipv6Addr}
    (hip : node.endpoint.host = .ipv6 ip) (h : c.document node = .ok doc) :
    PlainAddresses c doc ip node.endpoint.port ↔ c ≠ .mihomo ∧ node.protocol = .wireGuard := by
  have hbracketed : node.endpoint.host.uriHost ∈ addressTexts c doc →
      ¬ PlainAddresses c doc ip node.endpoint.port := by
    intro hmem hplain
    rw [hip] at hmem
    exact bracketed_ne ip (hplain.alone _ hmem)
  have hxray : V2Ray.document [node] = .ok doc →
      (PlainAddresses .xray doc ip node.endpoint.port ↔ node.protocol = .wireGuard) := by
    intro hdoc
    by_cases hp : node.protocol = .wireGuard
    · obtain ⟨hnone, hshared⟩ := xray_wireGuard hp hdoc
      refine iff_of_true ⟨fun a ha => ?_, fun a ha => ?_⟩ hp
      · rw [hnone] at ha
        cases ha
      · rw [hshared a ha, hip]
        simp [Host.uriHost]
    · refine iff_of_false (fun hplain => ?_) hp
      exact bracketed_ne ip (hplain.alone _ (hip ▸ xray_server hp hdoc))
  cases c with
  | mihomo => exact iff_of_false (hbracketed (mihomo_server h)) fun hc => hc.1 rfl
  | singBox =>
    by_cases hp : node.protocol = .wireGuard
    · refine iff_of_true ⟨singBox_endpoint hp hip h, ?_⟩ ⟨nofun, hp⟩
      intro a ha
      cases ha
    · exact iff_of_false (hbracketed (singBox_server hp h)) fun hc => hp hc.2
  | xray => exact (hxray h).trans (and_iff_right nofun).symm
  | v2ray =>
    obtain ⟨_, -, hdoc⟩ := bind_eq_ok.1 h
    have hsame : PlainAddresses .v2ray doc ip node.endpoint.port ↔
        PlainAddresses .xray doc ip node.endpoint.port := ⟨fun ⟨a, b⟩ => ⟨a, b⟩, fun ⟨a, b⟩ => ⟨a, b⟩⟩
    exact (hsame.trans (hxray hdoc)).trans (and_iff_right nofun).symm

/-- **The fields of an emitted text are as they should be exactly for WireGuard nodes outside
    Mihomo.** -/
theorem plain_addresses_iff {c : Container} {node : Node} {text : Str} {ip : Ipv6Addr}
    (hip : node.endpoint.host = .ipv6 ip) (h : c.emit node = .ok text) :
    ∃ doc, c.document node = .ok doc ∧ c.Writes text doc ∧
      (PlainAddresses c doc ip node.endpoint.port ↔ c ≠ .mihomo ∧ node.protocol = .wireGuard) := by
  obtain ⟨doc, hdoc, hwrites⟩ := Container.writes_of_emit h
  exact ⟨doc, hdoc, hwrites, plainAddresses_document_iff hip hdoc⟩

/-- `2001:db8::1`. -/
def documentationIp : Ipv6Addr := ⟨[0x2001, 0xdb8, 0, 0, 0, 0, 0, 1], rfl⟩

/-- A node at that address. -/
def ipv6Node (protocol : ProtocolKind) (config : ProtocolConfig) : Node where
  displayName := "n"
  protocol := protocol
  config := config
  endpoint := ⟨.ipv6 documentationIp, 443⟩
  authentication := .password "p"
  transport := none
  tls := none
  udp := ⟨none, none⟩
  multiplex := none
  obfuscation := none
  congestion := none
  extras := []

/-- A WireGuard node there. -/
def ipv6Tunnel : Node :=
  ipv6Node .wireGuard
    (.wireGuard ⟨"k", ["10.0.0.2/32"], [⟨"q", none, ["::/0"], none, none⟩], none, none, []⟩)

theorem plain_addresses_iff_wireGuard : ∃ text doc, Container.singBox.emit ipv6Tunnel = .ok text ∧
    text = doc.pretty ∧ PlainAddresses .singBox doc documentationIp ipv6Tunnel.endpoint.port := by
  obtain ⟨text, htext⟩ : ∃ text, Container.singBox.emit ipv6Tunnel = .ok text := ⟨_, rfl⟩
  obtain ⟨doc, -, hwrites, hplain⟩ := plain_addresses_iff rfl htext
  exact ⟨text, doc, htext, hwrites, hplain.2 ⟨nofun, rfl⟩⟩

/-- A Trojan outbound for sing-box has the server in brackets. -/
theorem outbound_server_bracketed : ∃ doc,
    Container.singBox.document (ipv6Node .trojan (.trojan ⟨none⟩)) = .ok doc ∧
    addressTexts .singBox doc = ["[2001:db8::1]".toList] ∧
    ¬ PlainAddresses .singBox doc documentationIp 443 := by
  refine ⟨_, rfl, by decide +kernel, fun hplain => ?_⟩
  have htext := hplain.alone "[2001:db8::1]".toList (by decide +kernel)
  revert htext
  decide +kernel

end DeveSub
