/-
  File:      DeveSub/Properties/SsrfTransition.lean
  Subject:   Blocked IPv4 ranges written in IPv6 form.

  The guard decomposes IPv4-mapped and IPv4-compatible addresses and checks what they carry. It
  does not know NAT64 and 6to4: every address of those two formats is accepted, whatever IPv4
  address it carries (`checkIpv6_nat64`, `checkIpv6_sixToFour`). So an accepted address carries an
  accepted one exactly when its format is one of the first two, or the carried address would be
  accepted anyway (`transition_accepted_iff`).
-/
import DeveSub.Security.Ssrf

namespace DeveSub

/-- The standard formats that carry an IPv4 address. -/
inductive Transition where
  | mapped
  | compatible
  | nat64
  | sixToFour
  deriving DecidableEq

/-- The IPv4 address an address of the format carries: `::ffff:0:0/96`, `::/96`, `64:ff9b::/96`,
    `2002::/16`. -/
def Transition.carried : Transition → Ipv6Addr → Option Ipv4Addr
  | .mapped, ⟨[0, 0, 0, 0, 0, 0xffff, x, y], _⟩ => some (Ipv6Addr.ipv4OfSegments x y)
  | .compatible, ⟨[0, 0, 0, 0, 0, 0, x, y], _⟩ => some (Ipv6Addr.ipv4OfSegments x y)
  | .nat64, ⟨[0x64, 0xff9b, 0, 0, 0, 0, x, y], _⟩ => some (Ipv6Addr.ipv4OfSegments x y)
  | .sixToFour, ⟨[0x2002, x, y, _, _, _, _, _], _⟩ => some (Ipv6Addr.ipv4OfSegments x y)
  | _, _ => none

/-- Where no blocked IPv6 range matches, the address is checked as the IPv4 address it carries. -/
theorem checkIpv6_of_first {ip : Ipv6Addr} (first : UInt16) (hfirst : ip.first = first)
    (hrange : first &&& 0xff00 ≠ 0xff00 ∧ first &&& 0xffc0 ≠ 0xfe80 ∧ first &&& 0xfe00 ≠ 0xfc00)
    (hzero : ip.isLoopback = false ∧ ip.isUnspecified = false) :
    checkIpv6 ip = match Ipv6Addr.toIpv4Mapped ip.segments with
      | some v4 => checkIpv4 v4
      | none =>
        match Ipv6Addr.toIpv4 ip.segments with
        | some v4 => checkIpv4 v4
        | none => .ok () := by
  have hmulticast : ip.isMulticast = false := by simp [Ipv6Addr.isMulticast, hfirst, hrange.1]
  have hlinkLocal : ip.isUnicastLinkLocal = false := by
    simp [Ipv6Addr.isUnicastLinkLocal, hfirst, hrange.2.1]
  have hula : ip.isUla = false := by simp [Ipv6Addr.isUla, hfirst, hrange.2.2]
  rw [checkIpv6, hzero.1, hmulticast, hzero.2, hlinkLocal, hula]
  rfl

/-- **A mapped address is checked as what it carries.** -/
theorem checkIpv6_mapped {ip : Ipv6Addr} {v4 : Ipv4Addr}
    (h : Transition.mapped.carried ip = some v4) : checkIpv6 ip = checkIpv4 v4 := by
  unfold Transition.carried at h
  split at h <;> first | contradiction | skip
  obtain rfl := Option.some.inj h
  rw [checkIpv6_of_first 0 rfl (by decide)
    ⟨by simp [Ipv6Addr.isLoopback], by simp [Ipv6Addr.isUnspecified]⟩]
  rfl

/-- **A compatible address that is accepted carries an accepted one.** -/
theorem checkIpv6_compatible {ip : Ipv6Addr} {v4 : Ipv4Addr}
    (h : Transition.compatible.carried ip = some v4) (hok : checkIpv6 ip = .ok ()) :
    checkIpv4 v4 = .ok () := by
  unfold Transition.carried at h
  split at h <;> first | contradiction | skip
  obtain rfl := Option.some.inj h
  rename_i x y hlength _
  generalize hip : (⟨[0, 0, 0, 0, 0, 0, x, y], hlength⟩ : Ipv6Addr) = ip at hok
  by_cases hloopback : ip.isLoopback = true
  · rw [checkIpv6, if_pos hloopback] at hok
    cases hok
  have hmulticast : ip.isMulticast = false := by
    rw [← hip]
    simp [Ipv6Addr.isMulticast, Ipv6Addr.first]
  by_cases hunspecified : ip.isUnspecified = true
  · rw [checkIpv6, if_neg hloopback, hmulticast, if_neg Bool.false_ne_true, if_pos hunspecified] at hok
    cases hok
  rw [checkIpv6_of_first 0 (by rw [← hip]; rfl) (by decide)
    ⟨Bool.eq_false_iff.2 hloopback, Bool.eq_false_iff.2 hunspecified⟩] at hok
  rw [← hip] at hok
  exact hok

/-- **Every NAT64 address is accepted.** -/
theorem checkIpv6_nat64 {ip : Ipv6Addr} {v4 : Ipv4Addr}
    (h : Transition.nat64.carried ip = some v4) : checkIpv6 ip = .ok () := by
  unfold Transition.carried at h
  split at h <;> first | contradiction | skip
  rw [checkIpv6_of_first 0x64 rfl (by decide)
    ⟨by simp [Ipv6Addr.isLoopback], by simp [Ipv6Addr.isUnspecified]⟩]
  rfl

/-- **Every 6to4 address is accepted.** -/
theorem checkIpv6_sixToFour {ip : Ipv6Addr} {v4 : Ipv4Addr}
    (h : Transition.sixToFour.carried ip = some v4) : checkIpv6 ip = .ok () := by
  unfold Transition.carried at h
  split at h <;> first | contradiction | skip
  rw [checkIpv6_of_first 0x2002 rfl (by decide)
    ⟨by simp [Ipv6Addr.isLoopback], by simp [Ipv6Addr.isUnspecified]⟩]
  rfl

/-- **When an accepted IPv6 address carries an accepted IPv4 address**: in the mapped and the
    compatible format always, in the other two only if the IPv4 address is accepted anyway. -/
theorem transition_accepted_iff {format : Transition} {ip : Ipv6Addr} {v4 : Ipv4Addr}
    (h : format.carried ip = some v4) :
    (checkIpv6 ip = .ok () → checkIpv4 v4 = .ok ()) ↔
      format = .mapped ∨ format = .compatible ∨ checkIpv4 v4 = .ok () := by
  cases format with
  | mapped =>
    rw [checkIpv6_mapped h]
    exact ⟨fun _ => .inl rfl, fun _ => id⟩
  | compatible => exact ⟨fun _ => .inr (.inl rfl), fun _ => checkIpv6_compatible h⟩
  | nat64 =>
    refine ⟨fun himp => .inr (.inr (himp (checkIpv6_nat64 h))), fun hcase _ => ?_⟩
    rcases hcase with hcase | hcase | hok
    · cases hcase
    · cases hcase
    · exact hok
  | sixToFour =>
    refine ⟨fun himp => .inr (.inr (himp (checkIpv6_sixToFour h))), fun hcase _ => ?_⟩
    rcases hcase with hcase | hcase | hok
    · cases hcase
    · cases hcase
    · exact hok

/-- `::ffff:127.0.0.1`. -/
def mappedLoopback : Ipv6Addr := ⟨[0, 0, 0, 0, 0, 0xffff, 0x7f00, 1], rfl⟩

theorem transition_accepted_iff_mapped : Transition.mapped.carried mappedLoopback =
      some ⟨127, 0, 0, 1⟩ ∧
    ((checkIpv6 mappedLoopback = .ok () → checkIpv4 ⟨127, 0, 0, 1⟩ = .ok ()) ↔
      Transition.mapped = .mapped ∨ Transition.mapped = .compatible ∨
        checkIpv4 ⟨127, 0, 0, 1⟩ = .ok ()) :=
  ⟨rfl, transition_accepted_iff rfl⟩

/-- **Loopback and a private address pass in NAT64 and 6to4 form**: `64:ff9b::7f00:1` and
    `2002:a00:1::`. -/
theorem blocked_ranges_reachable :
    (Transition.nat64.carried ⟨[0x64, 0xff9b, 0, 0, 0, 0, 0x7f00, 1], rfl⟩ = some ⟨127, 0, 0, 1⟩ ∧
      checkIpv6 ⟨[0x64, 0xff9b, 0, 0, 0, 0, 0x7f00, 1], rfl⟩ = .ok () ∧
      checkIpv4 ⟨127, 0, 0, 1⟩ = .error "loopback address (127.0.0.0/8)".toList) ∧
    (Transition.sixToFour.carried ⟨[0x2002, 0x0a00, 1, 0, 0, 0, 0, 0], rfl⟩ = some ⟨10, 0, 0, 1⟩ ∧
      checkIpv6 ⟨[0x2002, 0x0a00, 1, 0, 0, 0, 0, 0], rfl⟩ = .ok () ∧
      checkIpv4 ⟨10, 0, 0, 1⟩ = .error "private network (RFC 1918)".toList) :=
  ⟨⟨rfl, rfl, rfl⟩, rfl, rfl, rfl⟩

end DeveSub
