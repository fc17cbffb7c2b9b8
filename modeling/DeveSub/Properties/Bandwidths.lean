/-
  File:      DeveSub/Properties/Bandwidths.lean
  Subject:   The bandwidth of a Hysteria2 outbound, through the sing-box parser and emitter.

  An outbound states megabits, a node stores bits: the parser multiplies at 64 bits, the emitter
  divides. The product is not checked. It wraps in a release build, and a debug build stops at it.

  * `toNat_mbpsToBps` -- when the product is exact;
  * `bandwidth_kept_iff` -- when a stated bandwidth is stored and written back;
  * `bandwidth_wraps` -- the smallest number that is not.
-/
import DeveSub.Properties.SingBoxRows
import DeveSub.Protocol.SingBox

namespace DeveSub.SingBox

/-! ## 1. Megabits and bits -/

/-- `u64::MAX / 1_000_000`. -/
def maxMbps : Nat := 18446744073709

/-- **The product is exact up to the bound, and wraps above it.** -/
theorem toNat_mbpsToBps (m : UInt64) :
    (mbpsToBps m).toNat = m.toNat * 1000000 ↔ m.toNat ≤ maxMbps := by
  have hmul : (mbpsToBps m).toNat = m.toNat * 1000000 % 2 ^ 64 := UInt64.toNat_mul m 1000000
  have hm := m.toNat_lt
  rw [hmul, maxMbps]
  omega

/-- A stated number is stored exactly. -/
theorem stored_iff (mbps : Option UInt64) :
    (mbps.map mbpsToBps).map UInt64.toNat = mbps.map (fun m => m.toNat * 1000000) ↔
      ∀ m, mbps = some m → m.toNat ≤ maxMbps := by
  cases mbps with
  | none => simp
  | some m => simpa using toNat_mbpsToBps m

/-- A number that was stored exactly is written as it was stated. -/
theorem written_eq {mbps : Option UInt64} (h : ∀ m, mbps = some m → m.toNat ≤ maxMbps) :
    ((mbps.map mbpsToBps).map fun b => Json.ofNat (b.toNat / 1000000)) =
      mbps.map fun m => Json.num (.posInt m) := by
  cases mbps with
  | none => rfl
  | some m =>
    have hexact := (toNat_mbpsToBps m).2 (h m rfl)
    have hdiv : (mbpsToBps m).toNat / 1000000 = m.toNat := by omega
    simp only [Option.map_some, Json.ofNat, hdiv, UInt64.ofNat_toNat]

/-! ## 2. The outbound -/

/-- The bandwidth an outbound states is stored in bits, and written again as it was stated. -/
structure BandwidthKept (entry : Json) (node : Node) : Prop where
  up : (node.congestion.bind CongestionConfig.upBps).map UInt64.toNat =
    (getU64 entry "up_mbps").map fun m => m.toNat * 1000000
  down : (node.congestion.bind CongestionConfig.downBps).map UInt64.toNat =
    (getU64 entry "down_mbps").map fun m => m.toNat * 1000000
  written : ∃ outbound, document [node] = .ok (.obj [("outbounds", .arr [outbound]),
      ("route", .obj [("final", .str node.displayName)])]) ∧
    outbound.get "up_mbps" = (getU64 entry "up_mbps").map (fun m => .num (.posInt m)) ∧
    outbound.get "down_mbps" = (getU64 entry "down_mbps").map fun m => .num (.posInt m)

/-- What the parser stores. -/
theorem parseHysteria2_eq_ok {entry : Json} {node : Node} (h : parseHysteria2 entry = .ok node) :
    node.protocol = .hysteria2 ∧ (∃ cfg, node.config = .hysteria2 cfg) ∧
      (∃ password, node.authentication = .password password) ∧
      node.congestion.bind CongestionConfig.upBps = (getU64 entry "up_mbps").map mbpsToBps ∧
      node.congestion.bind CongestionConfig.downBps = (getU64 entry "down_mbps").map mbpsToBps := by
  obtain ⟨⟨name, endpoint⟩, -, h⟩ := bind_eq_ok.1 h
  obtain ⟨password, -, h⟩ := bind_eq_ok.1 h
  cases h
  refine ⟨rfl, ⟨_, rfl⟩, ⟨_, rfl⟩, ?_, ?_⟩
  · cases getU64 entry "up_mbps" <;> cases getU64 entry "down_mbps" <;> rfl
  · cases getU64 entry "up_mbps" <;> cases getU64 entry "down_mbps" <;> rfl

/-- The document of one outbound. -/
theorem document_one {node : Node} {members : List (Str × Json)} (hwg : node.protocol ≠ .wireGuard)
    (hst : node.protocol ≠ .shadowTls) (h : emitOutbound node = .ok members) :
    document [node] = .ok (.obj [("outbounds", .arr [.obj members]),
      ("route", .obj [("final", .str node.displayName)])]) := by
  rw [document, List.foldlM_cons, emitNode, if_neg hwg, if_neg hst, h]
  rfl

/-- A Hysteria2 node is written as its rows. -/
theorem document_hysteria2 {node : Node} {cfg : Hysteria2Config} {password : Str}
    (hp : node.protocol = .hysteria2) (hc : node.config = .hysteria2 cfg)
    (ha : node.authentication = .password password) :
    ∃ password cfg, document [node] = .ok (.obj [("outbounds", .arr [.obj (rowMembers
        (baseRows node "hysteria2" ++ hysteria2Rows node password cfg))]),
      ("route", .obj [("final", .str node.displayName)])]) := by
  obtain ⟨fields, hfields⟩ : ∃ fields, hysteria2 node = .ok ("hysteria2", fields) := by
    rw [hysteria2, ha, hc]
    exact ⟨_, rfl⟩
  obtain ⟨members, hout⟩ : ∃ members, emitOutbound node = .ok members := by
    rw [emitOutbound, outboundFields, hp]
    dsimp only
    rw [hfields]
    exact ⟨_, rfl⟩
  obtain ⟨ty, rows, hrows, rfl⟩ := emitOutbound_eq_ok hout
  cases hrows with
  | hysteria2 _ password cfg =>
    exact ⟨password, cfg, document_one (by rw [hp]; decide) (by rw [hp]; decide) hout⟩
  | _ hp' => exact absurd (hp.symm.trans hp') (by decide)

/-- **When a stated bandwidth is kept**: exactly if its bits fit 64 bits. -/
theorem bandwidth_kept_iff {entry : Json} {node : Node} (h : parseHysteria2 entry = .ok node) :
    BandwidthKept entry node ↔ ∀ key ∈ (["up_mbps", "down_mbps"] : List Str), ∀ m,
      getU64 entry key = some m → m.toNat ≤ maxMbps := by
  obtain ⟨hp, ⟨cfg, hc⟩, ⟨password, ha⟩, hup, hdown⟩ := parseHysteria2_eq_ok h
  constructor
  · intro hkept key hkey
    have hup' := hkept.up
    have hdown' := hkept.down
    rw [hup, stored_iff] at hup'
    rw [hdown, stored_iff] at hdown'
    simp only [List.mem_cons, List.not_mem_nil, or_false] at hkey
    rcases hkey with rfl | rfl
    · exact hup'
    · exact hdown'
  · intro hbound
    have hboundUp := hbound "up_mbps" (by simp)
    have hboundDown := hbound "down_mbps" (by simp)
    obtain ⟨password, cfg, hdoc⟩ := document_hysteria2 hp hc ha
    have hrows : OutboundRows node "hysteria2" (hysteria2Rows node password cfg) :=
      .hysteria2 hp password cfg
    refine ⟨?_, ?_, _, hdoc, ?_, ?_⟩
    · rw [hup]
      exact (stored_iff _).2 hboundUp
    · rw [hdown]
      exact (stored_iff _).2 hboundDown
    · rw [hrows.get_eq, ← written_eq hboundUp, ← hup]
      rfl
    · rw [hrows.get_eq, ← written_eq hboundDown, ← hdown]
      rfl

/-- An outbound that states an upload bandwidth. -/
def uploading (mbps : UInt64) : Json :=
  .obj [("type", .str "hysteria2"), ("tag", .str "fast"), ("server", .str "hy.example"),
    ("server_port", Json.ofNat 443), ("password", .str "secret"), ("up_mbps", .num (.posInt mbps))]

/-- The greatest number that is kept. -/
theorem bandwidth_kept_max : ∃ node, parseHysteria2 (uploading 18446744073709) = .ok node ∧
    BandwidthKept (uploading 18446744073709) node := by
  refine ⟨_, rfl, (bandwidth_kept_iff rfl).2 ?_⟩
  intro key hkey m hm
  simp only [List.mem_cons, List.not_mem_nil, or_false] at hkey
  rcases hkey with rfl | rfl
  · cases hm
    decide
  · cases hm

/-- **One megabit more** is stored as 448384 bits and written as no bandwidth at all. -/
theorem bandwidth_wraps : ∃ node outbound, parseHysteria2 (uploading 18446744073710) = .ok node ∧
    node.congestion.bind CongestionConfig.upBps = some 448384 ∧
    document [node] = .ok (.obj [("outbounds", .arr [outbound]),
      ("route", .obj [("final", .str node.displayName)])]) ∧
    outbound.get "up_mbps" = some (Json.ofNat 0) := by
  refine ⟨_, _, rfl, by rfl, rfl, ?_⟩
  rfl

end DeveSub.SingBox
