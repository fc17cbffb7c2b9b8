/-
  File:      DeveSub/Properties/WireGuard.lean
  Subject:   What the four output formats keep of a WireGuard node: its interface addresses and its
             peers.

  A format is read by what it says of each peer: the public key, the pre-shared key, the allowed
  addresses and the reserved octets, and by the interface addresses it lists. A list that is not
  written says nothing.

  * `Carries` -- the output says of every peer what the node says, and lists every address;
  * `Representable` -- what each format can hold;
  * **`wireGuard_carried_iff`** -- an emitted node is carried exactly when the format can hold it.
    sing-box holds every node. Xray has reserved octets once, Mihomo one peer and one address of
    each family, and the URI one peer without allowed addresses; none of the three refuses more.
-/
import DeveSub.Emitter.Uri
import DeveSub.Emitter.V2Ray
import DeveSub.Properties.MihomoRows
import DeveSub.Properties.SingBoxRows
import DeveSub.Properties.UriDefaults

namespace DeveSub.WireGuard

/-! ## 1. What an output says -/

/-- What an output says of a peer. -/
structure PeerView where
  publicKey : Str
  preSharedKey : Option Str
  allowedIps : List Str
  reserved : Option (UInt8 × UInt8 × UInt8)

/-- What an output says of a WireGuard node. -/
structure View where
  address : List Str
  peers : List PeerView

/-- The peer as the node has it. -/
def peerView (p : WireGuardPeer) : PeerView :=
  ⟨p.publicKey, p.preSharedKey, p.allowedIps, p.reserved⟩

/-- **The output carries the node**: it says of every peer what the node says, and lists every
    interface address. -/
def Carries (cfg : WireGuardConfig) (v : View) : Prop :=
  (∀ p ∈ cfg.peers, peerView p ∈ v.peers) ∧ ∀ a ∈ cfg.address, a ∈ v.address

/-- The keys of a peer object. -/
structure PeerKeys where
  publicKey : Str
  preSharedKey : Str
  allowedIps : Str

/-- A peer object, with the value of its reserved octets. -/
def readPeer (keys : PeerKeys) (reserved : Option Json) (p : Json) : Option PeerView :=
  (getStr p keys.publicKey).map fun key =>
    ⟨key, getStr p keys.preSharedKey, getStrArray p keys.allowedIps, parseReservedArray reserved⟩

/-- The items of a list. -/
def itemsOf (v : Json) (key : Str) : List Json := ((v.get key).bind Json.asArray).getD []

/-- A sing-box endpoint. -/
def readSingBox (endpoint : Json) : View where
  address := getStrArray endpoint "address"
  peers := (itemsOf endpoint "peers").filterMap fun p =>
    readPeer ⟨"public_key", "pre_shared_key", "allowed_ips"⟩ (p.get "reserved") p

/-- The settings of an Xray outbound; its reserved octets are those of every peer. -/
def readXray (settings : Json) : View where
  address := getStrArray settings "address"
  peers := (itemsOf settings "peers").filterMap
    (readPeer ⟨"publicKey", "preSharedKey", "allowedIPs"⟩ (settings.get "reserved"))

/-- A Mihomo entry. -/
def readMihomo (entry : Json) : View where
  address := (getStr entry "ip").toList ++ (getStr entry "ipv6").toList
  peers := (itemsOf entry "peers").filterMap fun p =>
    readPeer ⟨"public-key", "pre-shared-key", "allowed-ips"⟩ (p.get "reserved") p

/-- The query of a URI. -/
def readQuery (q : Query) : View where
  address := ((q.get "address").map (·.splitOn ',')).getD []
  peers := ((q.get "publickey").map fun key =>
    { publicKey := key
      preSharedKey := q.get "presharedkey"
      allowedIps := ((q.get "allowedips").map (·.splitOn ',')).getD []
      reserved := (q.get "reserved").bind fun r => (Uri.parseReserved r).toOption }).toList

/-! ## 2. Formats -/

/-- The output formats that have WireGuard. -/
inductive Format where
  | uri
  | mihomo
  | singBox
  | xray

/-- The output for one node. -/
def emitAs (json : JsonCodec) (n : Node) : Format → Except EmitError Str
  | .uri => emitUri json n
  | .mihomo => Mihomo.emit [n]
  | .singBox => SingBox.emit [n]
  | .xray => V2Ray.emitXrayCompatible [n]

/-- What stands in front of the query of a node's URI. -/
def uriAuthority (n : Node) (cfg : WireGuardConfig) : Str :=
  "wireguard://".toList ++ encodeUserinfo cfg.privateKey ++ '@' :: Uri.hostPort n ++ ['?']

/-- What the text says of the node: the one entry of the document, or the query behind the
    authority. -/
def viewOf (float : Str → Option Str) (n : Node) (cfg : WireGuardConfig) (text : Str) :
    Format → Option View
  | .uri => (stripPrefix (uriAuthority n cfg) text).map fun rest =>
      readQuery (parseForm (UriText.cut '#' rest).1)
  | .mihomo => (Mihomo.readProxies text).bind fun entries =>
      entries.head?.map fun e => readMihomo e.toJson
  | .singBox => (Json.read float text).toOption.bind fun doc =>
      (itemsOf doc "endpoints").head?.map readSingBox
  | .xray => (Json.read float text).toOption.bind fun doc =>
      (itemsOf doc "outbounds").head?.bind fun o => (o.get "settings").map readXray

/-- **What a format can hold.** -/
def Representable (cfg : WireGuardConfig) : Format → Prop
  | .singBox => True
  | .xray => ∀ p ∈ cfg.peers, p.reserved = cfg.peers.head?.bind WireGuardPeer.reserved
  | .mihomo =>
      (∀ p ∈ cfg.peers, some (peerView p) = cfg.peers.head?.map peerView) ∧
        ∀ a ∈ cfg.address, some a = (cfg.address.find? fun a => ':' ∉ a) ∨
          some a = cfg.address.find? fun a => ':' ∈ a
  | .uri =>
      (∀ p ∈ cfg.peers, some (peerView p) = cfg.peers.head?.map peerView ∧ p.allowedIps = []) ∧
        ∀ a ∈ cfg.address, ',' ∉ a

/-! ## 3. sing-box -/

section Views

variable {n : Node} {cfg : WireGuardConfig} {text : Str}

theorem readPeer_singBox {p : WireGuardPeer} {v : Json} (h : SingBox.wireGuardPeer n p = .ok v) :
    readPeer ⟨"public_key", "pre_shared_key", "allowed_ips"⟩ (v.get "reserved") v =
      some (peerView p) := by
  obtain ⟨keepalive, rfl⟩ := SingBox.wireGuardPeer_eq_ok h
  have hget := get_rowMembers (SingBox.nodup_peerRows n p (keepalive.map Json.ofNat))
  have hkey := getStr_of_get (s := some p.publicKey) (hget "public_key")
  have hpsk := getStr_of_get (s := p.preSharedKey) (hget "pre_shared_key")
  have hips : getStrArray (.obj (rowMembers (SingBox.peerRows n p (keepalive.map Json.ofNat))))
      "allowed_ips" = p.allowedIps := getStrArray_strs (hget _)
  have hreserved := hget "reserved"
  rw [readPeer, hkey, hpsk, hips, hreserved]
  show some _ = some _
  rw [show rowValue (SingBox.peerRows n p (keepalive.map Json.ofNat)) "reserved" =
    p.reserved.map octetsJson from rfl, parseReservedArray_octets]
  rfl

theorem viewOf_singBox (float : Str → Option Str) (hp : n.protocol = .wireGuard)
    (hc : n.config = .wireGuard cfg) (h : SingBox.emit [n] = .ok text) :
    viewOf float n cfg text .singBox = some ⟨cfg.address, cfg.peers.map peerView⟩ := by
  obtain ⟨doc, hdoc, rfl⟩ := map_eq_ok.mp h
  obtain ⟨_, -, hdoc⟩ := bind_eq_ok.mp hdoc
  obtain ⟨acc, hacc, hdoc⟩ := bind_eq_ok.mp hdoc
  cases hdoc
  rw [List.foldlM_cons, SingBox.emitNode, if_pos hp] at hacc
  obtain ⟨_, hone, hacc⟩ := bind_eq_ok.mp hacc
  cases hacc
  obtain ⟨endpoint, hendpoint, hone⟩ := bind_eq_ok.mp hone
  cases hone
  have hcanonical := SingBox.canonical_endpoint float hendpoint
  obtain ⟨cfg', peers, hcfg, hpeers, rfl⟩ := SingBox.emitWireGuard_eq_ok hendpoint
  obtain rfl : cfg' = cfg := by
    rw [hc] at hcfg
    cases hcfg
    rfl
  have hget := get_rowMembers (SingBox.nodup_endpointRows n cfg' peers)
  have haddress : getStrArray (.obj (rowMembers (SingBox.endpointRows n cfg' peers))) "address" =
      cfg'.address := getStrArray_strs (hget _)
  have hitems : itemsOf (.obj (rowMembers (SingBox.endpointRows n cfg' peers))) "peers" = peers := by
    rw [itemsOf, hget]
    rfl
  generalize Json.obj (rowMembers (SingBox.endpointRows n cfg' peers)) = endpoint
    at hcanonical haddress hitems
  have hdocCanonical : Json.Canonical float (.obj [("outbounds", .arr []),
      ("endpoints", .arr [endpoint]), ("route", .obj [("final", .str n.displayName)])]) := by
    simp [canonical_obj, hcanonical]
  show (Json.read float (Json.pretty (.obj [("outbounds", .arr []), ("endpoints", .arr [endpoint]),
    ("route", .obj [("final", .str n.displayName)])]))).toOption.bind _ = _
  rw [Json.read_pretty float hdocCanonical]
  show some (readSingBox endpoint) = _
  rw [readSingBox, haddress, hitems, filterMap_of_mapM hpeers fun p v hv => readPeer_singBox hv]

/-! ## 4. Xray -/

/-- The rows of an Xray peer. -/
def xrayPeerRows (n : Node) (p : WireGuardPeer) : Rows :=
  [("publicKey", some (.str p.publicKey)), ("endpoint", some (.str (Uri.hostPort n))),
    ("preSharedKey", p.preSharedKey.map Json.str),
    ("allowedIPs", if p.allowedIps.isEmpty then none else some (strs p.allowedIps)),
    ("keepAlive", p.persistentKeepalive.bind fun d =>
      if d.wholeSeconds ≥ 0 then some (Json.ofNat d.wholeSeconds.toNat) else none)]

theorem nodup_xrayPeerRows (n : Node) (p : WireGuardPeer) :
    ((xrayPeerRows n p).map Prod.fst).Nodup := by
  show (["publicKey", "endpoint", "preSharedKey", "allowedIPs", "keepAlive"] : List Str).Nodup
  decide

theorem xrayPeer_eq (n : Node) (p : WireGuardPeer) :
    V2Ray.wireGuardPeer n p = .obj (rowMembers (xrayPeerRows n p)) := by
  simp only [V2Ray.wireGuardPeer, xrayPeerRows, rowMembers_cons, rowMembers_nil, member_some,
    member_ite, Uri.hostPort, List.append_nil, List.cons_append, List.nil_append, List.append_assoc]

theorem readPeer_xray (n : Node) (p : WireGuardPeer) (r : Option (UInt8 × UInt8 × UInt8)) :
    readPeer ⟨"publicKey", "preSharedKey", "allowedIPs"⟩ (r.map octetsJson)
      (V2Ray.wireGuardPeer n p) = some { peerView p with reserved := r } := by
  have hget := get_rowMembers (nodup_xrayPeerRows n p)
  have hkey := getStr_of_get (s := some p.publicKey) (hget "publicKey")
  have hpsk := getStr_of_get (s := p.preSharedKey) (hget "preSharedKey")
  have hips : getStrArray (.obj (rowMembers (xrayPeerRows n p))) "allowedIPs" = p.allowedIps :=
    getStrArray_of_get (hget _)
  rw [readPeer, xrayPeer_eq, hkey, hpsk, hips, parseReservedArray_octets]
  rfl

/-- The rows of the settings. -/
def xrayRows (n : Node) (cfg : WireGuardConfig) : Rows :=
  [("secretKey", some (.str cfg.privateKey)),
    ("address", if cfg.address.isEmpty then none else some (strs cfg.address)),
    ("mtu", cfg.mtu.map fun k => Json.ofNat k.toNat),
    ("reserved", (cfg.peers.head?.bind WireGuardPeer.reserved).map octetsJson),
    ("peers", some (.arr (cfg.peers.map (V2Ray.wireGuardPeer n))))]

theorem nodup_xrayRows (n : Node) (cfg : WireGuardConfig) :
    ((xrayRows n cfg).map Prod.fst).Nodup := by
  show (["secretKey", "address", "mtu", "reserved", "peers"] : List Str).Nodup
  decide

theorem canonical_xrayRows (float : Str → Option Str) (n : Node) (cfg : WireGuardConfig) :
    Json.Canonical float (.obj (rowMembers (xrayRows n cfg))) := by
  have hpeers : ∀ p ∈ cfg.peers, Json.Canonical float (V2Ray.wireGuardPeer n p) := by
    intro p _
    rw [xrayPeer_eq]
    refine canonical_rowMembers float (nodup_xrayPeerRows n p) ?_
    have hkeepalive : OptCanonical float (p.persistentKeepalive.bind fun d =>
        if d.wholeSeconds ≥ 0 then some (Json.ofNat d.wholeSeconds.toNat) else none) := by
      cases p.persistentKeepalive <;> simp
    simp [xrayPeerRows, hkeepalive]
  refine canonical_rowMembers float (nodup_xrayRows n cfg) ?_
  simpa [xrayRows, -Option.map_bind] using hpeers

theorem viewOf_xray (float : Str → Option Str) (hp : n.protocol = .wireGuard)
    (hc : n.config = .wireGuard cfg) (h : V2Ray.emitXrayCompatible [n] = .ok text) :
    viewOf float n cfg text .xray = some ⟨cfg.address, cfg.peers.map fun p =>
      { peerView p with reserved := cfg.peers.head?.bind WireGuardPeer.reserved }⟩ := by
  obtain ⟨doc, hdoc, rfl⟩ := map_eq_ok.mp h
  obtain ⟨outbounds, hout, hdoc⟩ := bind_eq_ok.mp hdoc
  rw [List.mapM_cons, List.mapM_nil] at hout
  obtain ⟨out, hone, hout⟩ := bind_eq_ok.mp hout
  cases hout
  cases hdoc
  rw [V2Ray.emitOutbound, if_pos hp, V2Ray.emitWireGuard, hc] at hone
  have hrows : out = .obj [("tag", .str n.displayName), ("protocol", .str "wireguard"),
      ("settings", .obj (rowMembers (xrayRows n cfg)))] := by
    cases hone
    simp only [xrayRows, rowMembers_cons, rowMembers_nil, member_some, member_ite,
      List.append_nil, List.cons_append, List.nil_append, List.append_assoc]
    rfl
  have hsettings := canonical_xrayRows float n cfg
  have hget := get_rowMembers (nodup_xrayRows n cfg)
  have haddress : getStrArray (.obj (rowMembers (xrayRows n cfg))) "address" = cfg.address :=
    getStrArray_of_get (hget _)
  have hreserved : (Json.obj (rowMembers (xrayRows n cfg))).get "reserved" =
      (cfg.peers.head?.bind WireGuardPeer.reserved).map octetsJson := hget _
  have hitems : itemsOf (.obj (rowMembers (xrayRows n cfg))) "peers" =
      cfg.peers.map (V2Ray.wireGuardPeer n) := by
    rw [itemsOf, hget]
    rfl
  generalize Json.obj (rowMembers (xrayRows n cfg)) = settings
    at hrows hsettings haddress hreserved hitems
  have hcanonical : Json.Canonical float (.obj [("outbounds", .arr [.obj
      [("tag", .str n.displayName), ("protocol", .str "wireguard"), ("settings", settings)]])]) := by
    simp [canonical_obj, hsettings]
  rw [hrows]
  show (Json.read float (Json.pretty (.obj [("outbounds", .arr [.obj
    [("tag", .str n.displayName), ("protocol", .str "wireguard"),
      ("settings", settings)]])]))).toOption.bind _ = _
  rw [Json.read_pretty float hcanonical]
  show some (readXray settings) = _
  rw [readXray, haddress, hitems, hreserved, List.filterMap_map]
  congr 2
  rw [← List.filterMap_eq_map]
  refine List.filterMap_congr fun p _ => ?_
  exact readPeer_xray n p _

/-! ## 5. Mihomo -/

/-- The rows of a Mihomo peer. -/
def mihomoPeerRows (n : Node) (p : WireGuardPeer) : Rows :=
  ("server", some (.str n.endpoint.host.uriHost)) :: Mihomo.jsonRows (Mihomo.peerRows n p)

theorem nodup_mihomoPeerRows (n : Node) (p : WireGuardPeer) :
    ((mihomoPeerRows n p).map Prod.fst).Nodup := by
  show (["server", "port", "public-key", "pre-shared-key", "allowed-ips", "reserved",
    "persistent-keepalive"] : List Str).Nodup
  decide

theorem mihomoPeer_eq (n : Node) (p : WireGuardPeer) :
    Mihomo.blockJson (Mihomo.peerBlock n p) = .arr [.obj (rowMembers (mihomoPeerRows n p))] := by
  rw [Mihomo.blockJson, Mihomo.peerBlock, Yaml.Block.value, Yaml.Block.itemValues,
    Yaml.Block.itemValues, Yaml.toJson_seq, List.map_cons, List.map_nil, Yaml.toJson_map,
    List.map_cons, Mihomo.membersJson_present, Yaml.Block.value, Mihomo.Scalar.value,
    Yaml.toJson_str]
  rfl

theorem readPeer_mihomo (n : Node) (p : WireGuardPeer) :
    readPeer ⟨"public-key", "pre-shared-key", "allowed-ips"⟩
      ((Json.obj (rowMembers (mihomoPeerRows n p))).get "reserved")
      (.obj (rowMembers (mihomoPeerRows n p))) = some (peerView p) := by
  have hget := get_rowMembers (nodup_mihomoPeerRows n p)
  have hkey : getStr (.obj (rowMembers (mihomoPeerRows n p))) "public-key" = some p.publicKey := by
    refine getStr_of_get ((hget _).trans ?_)
    show ((Mihomo.given (.quoted p.publicKey)).map Mihomo.blockJson) = _
    rw [Mihomo.map_given, Mihomo.Scalar.value, Yaml.toJson_str]
    rfl
  have hpsk : getStr (.obj (rowMembers (mihomoPeerRows n p))) "pre-shared-key" =
      p.preSharedKey := by
    refine getStr_of_get ((hget _).trans ?_)
    show ((Mihomo.perhaps .quoted p.preSharedKey).map Mihomo.blockJson) = _
    rw [Mihomo.map_perhaps]
    simp only [Mihomo.Scalar.value, Yaml.toJson_str]
  have hips : getStrArray (.obj (rowMembers (mihomoPeerRows n p))) "allowed-ips" =
      p.allowedIps := by
    refine getStrArray_of_get ((hget _).trans ?_)
    exact Mihomo.map_listed p.allowedIps
  have hreserved : (Json.obj (rowMembers (mihomoPeerRows n p))).get "reserved" =
      p.reserved.map octetsJson := by
    rw [hget]
    show ((Mihomo.perhaps (fun r : UInt8 × UInt8 × UInt8 => .bytes r.1 r.2.1 r.2.2)
      p.reserved).map Mihomo.blockJson) = _
    rw [Mihomo.map_perhaps]
    simp only [Mihomo.toJson_bytes]
    rfl
  rw [readPeer, hkey, hpsk, hips, hreserved, parseReservedArray_octets]
  rfl

theorem viewOf_mihomo (float : Str → Option Str) (hp : n.protocol = .wireGuard)
    (hc : n.config = .wireGuard cfg) (h : Mihomo.emit [n] = .ok text) :
    viewOf float n cfg text .mihomo =
      some ⟨(cfg.address.find? fun a => ':' ∉ a).toList ++ (cfg.address.find? fun a => ':' ∈ a).toList,
        (cfg.peers.head?.map peerView).toList⟩ := by
  have hplain : Mihomo.WritesPlain n := by
    simp only [Mihomo.WritesPlain, Mihomo.RawPlain, hp, hc]
  have hentries := ((Mihomo.emit_reads_back_iff h).mpr (by simpa using hplain)).entries
  have hproxy : Mihomo.proxyRows n = Mihomo.directRows n := by
    simp only [Mihomo.proxyRows, hp, hc]
  have hrows : Mihomo.entryRows n = ("name".toList, some (Json.str n.displayName)) ::
      Mihomo.jsonRows (Mihomo.headRows n "wireguard" ++ Mihomo.wireGuardRows n cfg) := by
    simp only [Mihomo.entryRows, Mihomo.proxyRows, Mihomo.directRows, hp, hc]
  have hget := Mihomo.get_entryRows hproxy
  rw [hrows] at hget
  have hentry : (Mihomo.proxyValue n).toJson = .obj (rowMembers (("name".toList,
      some (Json.str n.displayName)) ::
      Mihomo.jsonRows (Mihomo.headRows n "wireguard" ++ Mihomo.wireGuardRows n cfg))) := by
    rw [Mihomo.proxyValue_toJson, hrows]
  have haddress : ∀ (key : Str) (a : Option Str), rowValue (("name".toList,
      some (Json.str n.displayName)) ::
      Mihomo.jsonRows (Mihomo.headRows n "wireguard" ++ Mihomo.wireGuardRows n cfg)) key =
        (Mihomo.perhaps .quoted a).map Mihomo.blockJson →
      getStr (Mihomo.proxyValue n).toJson key = a := by
    intro key a hrow
    rw [hentry]
    refine getStr_of_get ((hget key).trans (hrow.trans ?_))
    rw [Mihomo.map_perhaps]
    simp only [Mihomo.Scalar.value, Yaml.toJson_str]
  have hitems : itemsOf (Mihomo.proxyValue n).toJson "peers" =
      (cfg.peers.head?.map fun p => Json.obj (rowMembers (mihomoPeerRows n p))).toList := by
    rw [hentry, itemsOf, hget]
    show (((cfg.peers.head?.map (Mihomo.peerBlock n)).map Mihomo.blockJson).bind
      Json.asArray).getD [] = _
    cases cfg.peers.head? with
    | none => rfl
    | some p =>
        rw [Option.map_some, Option.map_some, mihomoPeer_eq]
        rfl
  show (Mihomo.readProxies text).bind _ = _
  rw [hentries]
  show some (readMihomo (Mihomo.proxyValue n).toJson) = _
  rw [readMihomo, haddress "ip" _ rfl, haddress "ipv6" _ rfl, hitems]
  congr 2
  cases cfg.peers.head? with
  | none => rfl
  | some p =>
      show [Json.obj (rowMembers (mihomoPeerRows n p))].filterMap _ = _
      rw [List.filterMap_cons, readPeer_mihomo]
      rfl

/-! ## 6. URI -/

theorem readQuery_params (address : List Str) (peer : WireGuardPeer) (mtu : Option UInt32) :
    readQuery (Uri.wireGuardParams address peer mtu) =
      ⟨((listValue address).map (·.splitOn ',')).getD [],
        [{ peerView peer with allowedIps := [] }]⟩ := by
  obtain ⟨hkey, hpsk, hips⟩ := Uri.wireGuardParams_keys address peer mtu
  have haddress := Uri.wireGuardParams_address address peer mtu
  have hreserved : ((Query.get (Uri.wireGuardParams address peer mtu) "reserved").bind fun r =>
      (Uri.parseReserved r).toOption) = peer.reserved := by
    rw [Uri.wireGuardParams_reservedText]
    cases peer.reserved with
    | none => rfl
    | some r =>
        rw [Option.map_some, Option.bind_some, Uri.parseReserved_reservedText]
        rfl
  rw [readQuery, haddress, hkey, hpsk, hips, hreserved]
  rfl

/-- A node that is written as a URI has a peer. -/
theorem emitUri_eq_ok {json : JsonCodec} (hp : n.protocol = .wireGuard)
    (hc : n.config = .wireGuard cfg) (h : emitUri json n = .ok text) :
    ∃ peer, cfg.peers.head? = some peer ∧
      text = Uri.uriText "wireguard" (encodeUserinfo cfg.privateKey) n
        (formatQuery (Uri.wireGuardParams cfg.address peer cfg.mtu)) := by
  rw [emitUri, hp] at h
  change Uri.emitWireGuard n = .ok text at h
  rw [Uri.emitWireGuard, hc] at h
  split at h
  · cases h
  · dsimp only at h
    rw [ok_bind] at h
    obtain ⟨peer, hpeer, h⟩ := bind_eq_ok.mp h
    cases h
    exact ⟨peer, okOr_eq_ok.mp hpeer, by rw [Uri.wireGuardParams]⟩

theorem uriText_eq_authority (n : Node) (cfg : WireGuardConfig) (query : Str) :
    Uri.uriText "wireguard" (encodeUserinfo cfg.privateKey) n query =
      uriAuthority n cfg ++ (query ++ UriText.suffix '#' (nameFragment n.displayName)) := by
  have hscheme : "wireguard://".toList = "wireguard".toList ++ "://".toList := by decide
  rewrite [suffix_nameFragment]
  unfold Uri.uriText uriAuthority
  rewrite [hscheme]
  simp only [List.append_assoc, List.cons_append, List.nil_append]

theorem viewOf_uri (float : Str → Option Str) {json : JsonCodec} (hp : n.protocol = .wireGuard)
    (hc : n.config = .wireGuard cfg) (h : emitUri json n = .ok text) :
    ∃ peer, cfg.peers.head? = some peer ∧ viewOf float n cfg text .uri =
      some ⟨((listValue cfg.address).map (·.splitOn ',')).getD [],
        [{ peerView peer with allowedIps := [] }]⟩ := by
  obtain ⟨peer, hpeer, rfl⟩ := emitUri_eq_ok hp hc h
  refine ⟨peer, hpeer, ?_⟩
  have hplain := Uri.wireGuardParams_plain cfg.address peer cfg.mtu
  show (stripPrefix (uriAuthority n cfg) _).map _ = _
  rw [uriText_eq_authority, stripPrefix_append, Option.map_some, UriText.cut_suffix (not_mem_formatQuery hplain),
    parseForm_formatQuery hplain, readQuery_params]

end Views

/-! ## 7. What is carried -/

theorem carries_xray (cfg : WireGuardConfig) :
    Carries cfg ⟨cfg.address, cfg.peers.map fun p =>
      { peerView p with reserved := cfg.peers.head?.bind WireGuardPeer.reserved }⟩ ↔
      Representable cfg .xray := by
  constructor
  · intro ⟨hpeers, _⟩ p hp
    obtain ⟨q, -, hq⟩ := List.mem_map.mp (hpeers p hp)
    exact (congrArg PeerView.reserved hq).symm
  · intro h
    refine ⟨fun p hp => List.mem_map.mpr ⟨p, hp, ?_⟩, fun a ha => ha⟩
    rw [← h p hp]
    rfl

theorem carries_mihomo (cfg : WireGuardConfig) :
    Carries cfg ⟨(cfg.address.find? fun a => ':' ∉ a).toList ++
        (cfg.address.find? fun a => ':' ∈ a).toList, (cfg.peers.head?.map peerView).toList⟩ ↔
      Representable cfg .mihomo := by
  refine and_congr (forall₂_congr fun p _ => ?_) (forall₂_congr fun a _ => ?_)
  · rw [Option.mem_toList]
    exact eq_comm
  · rw [List.mem_append, Option.mem_toList, Option.mem_toList]
    exact or_congr eq_comm eq_comm

/-- The addresses of a list parameter are read back exactly when none holds a comma. -/
theorem mem_listValue_iff (items : List Str) :
    (∀ a ∈ items, a ∈ ((listValue items).map (·.splitOn ',')).getD []) ↔ ∀ a ∈ items, ',' ∉ a := by
  cases items with
  | nil => simp
  | cons s items =>
      show (∀ a ∈ s :: items, a ∈ ([','].intercalate (s :: items)).splitOn ',') ↔ _
      constructor
      · intro h a ha
        exact not_mem_of_mem_splitOn (h a ha)
      · intro h a ha
        rw [split_join (List.cons_ne_nil s items) h]
        exact ha

theorem carries_uri {cfg : WireGuardConfig} {peer : WireGuardPeer}
    (hpeer : cfg.peers.head? = some peer) :
    Carries cfg ⟨((listValue cfg.address).map (·.splitOn ',')).getD [],
        [{ peerView peer with allowedIps := [] }]⟩ ↔ Representable cfg .uri := by
  refine and_congr ?_ (mem_listValue_iff cfg.address)
  rw [hpeer]
  constructor
  · intro h
    have hfirst := List.mem_singleton.mp (h peer (List.mem_of_head? hpeer))
    intro p hp
    have hsame := List.mem_singleton.mp (h p hp)
    refine ⟨?_, congrArg PeerView.allowedIps hsame⟩
    rw [hsame, ← hfirst]
    rfl
  · intro h p hp
    obtain ⟨hsame, hips⟩ := h p hp
    rw [List.mem_singleton, ← Option.some.inj hsame]
    have hview : (peerView p).allowedIps = [] := hips
    rw [← hview]

/-- **An emitted WireGuard node is carried exactly when the format can hold it.** No format refuses
    a node because it could not hold it all. -/
theorem wireGuard_carried_iff (float : Str → Option Str) (json : JsonCodec) (f : Format) {n : Node}
    {cfg : WireGuardConfig} {text : Str} (hp : n.protocol = .wireGuard)
    (hc : n.config = .wireGuard cfg) (h : emitAs json n f = .ok text) :
    (∃ v, viewOf float n cfg text f = some v ∧ Carries cfg v) ↔ Representable cfg f := by
  have hview : ∀ {v : View}, viewOf float n cfg text f = some v →
      ((∃ v, viewOf float n cfg text f = some v ∧ Carries cfg v) ↔ Carries cfg v) := by
    intro v hv
    constructor
    · intro ⟨w, hw, hcarries⟩
      rw [hv] at hw
      cases hw
      exact hcarries
    · intro hcarries
      exact ⟨v, hv, hcarries⟩
  cases f with
  | uri =>
      obtain ⟨peer, hpeer, hv⟩ := viewOf_uri float hp hc h
      exact (hview hv).trans (carries_uri hpeer)
  | mihomo => exact (hview (viewOf_mihomo float hp hc h)).trans (carries_mihomo cfg)
  | singBox =>
      refine (hview (viewOf_singBox float hp hc h)).trans (iff_of_true ⟨fun p hp => ?_, ?_⟩ trivial)
      · exact List.mem_map_of_mem hp
      · exact fun a ha => ha
  | xray => exact (hview (viewOf_xray float hp hc h)).trans (carries_xray cfg)

/-- A WireGuard node with these peers. -/
def nodeOf (peers : List WireGuardPeer) : Node :=
  { nodeShell with
    protocol := .wireGuard
    config := .wireGuard
      { privateKey := "k", address := ["10.0.0.2/32"], peers, mtu := none, workers := none, dns := [] }
    endpoint := ⟨.domain "h", 51820⟩ }

def peerOf (key : Str) : WireGuardPeer :=
  { publicKey := key
    preSharedKey := none
    allowedIps := ["0.0.0.0/0"]
    reserved := none
    persistentKeepalive := none }

/-- Two peers that have nothing in common, and addresses of both families. -/
def twoPeers : WireGuardConfig where
  privateKey := "k"
  address := ["10.0.0.2/32", "10.0.0.3/32", "fd00::2/128"]
  peers := [peerOf "a", ⟨"b", some "p", ["10.1.0.0/16", "::/0"], some (1, 2, 3), none⟩]
  mtu := none
  workers := none
  dns := []

def twoPeerNode : Node := { nodeOf [] with config := .wireGuard twoPeers }

/-- A Mihomo document carries a node of one peer, a sing-box document one of two. -/
theorem wireGuard_carried_peers :
    (∃ text v, emitAs (Json.codec fun _ => none) (nodeOf [peerOf "a"]) .mihomo = .ok text ∧
      viewOf (fun _ => none) (nodeOf [peerOf "a"]) ⟨"k", ["10.0.0.2/32"], [peerOf "a"], none, none, []⟩
        text .mihomo = some v ∧
      Carries ⟨"k", ["10.0.0.2/32"], [peerOf "a"], none, none, []⟩ v) ∧
    ∃ text v, emitAs (Json.codec fun _ => none) twoPeerNode .singBox = .ok text ∧
      viewOf (fun _ => none) twoPeerNode twoPeers text .singBox = some v ∧ Carries twoPeers v := by
  have hheld : Representable ⟨"k", ["10.0.0.2/32"], [peerOf "a"], none, none, []⟩ .mihomo := by
    refine ⟨fun p hp => ?_, fun a ha => .inl ?_⟩
    · rw [List.mem_singleton.mp hp]
      rfl
    · rw [List.mem_singleton.mp ha]
      rfl
  obtain ⟨v, hv, hcarries⟩ := (wireGuard_carried_iff (fun _ => none) (Json.codec fun _ => none)
    .mihomo (n := nodeOf [peerOf "a"]) rfl rfl rfl).mpr hheld
  obtain ⟨w, hw, hboth⟩ := (wireGuard_carried_iff (fun _ => none) (Json.codec fun _ => none)
    .singBox (n := twoPeerNode) rfl rfl rfl).mpr trivial
  exact ⟨⟨_, v, rfl, hv, hcarries⟩, _, w, rfl, hw, hboth⟩

/-- **A second peer is dropped**: the node is emitted to Mihomo, and the document has no peer with
    the second key. -/
theorem wireGuard_peer_is_dropped :
    ∃ text v, emitAs (Json.codec fun _ => none) (nodeOf [peerOf "a", peerOf "b"]) .mihomo =
        .ok text ∧
      viewOf (fun _ => none) (nodeOf [peerOf "a", peerOf "b"])
        ⟨"k", ["10.0.0.2/32"], [peerOf "a", peerOf "b"], none, none, []⟩ text .mihomo = some v ∧
      v.peers.map PeerView.publicKey = ["a".toList] := by
  refine ⟨_, _, rfl, viewOf_mihomo _ rfl rfl rfl, rfl⟩

end DeveSub.WireGuard
