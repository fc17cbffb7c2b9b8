/-
  File:      DeveSub/Security/Ssrf.lean
  Subject:   The SSRF guard (`deve-sub-security`: `ssrf.rs`): which addresses a fetch may be sent
             to.

  A URL is checked by its host: an address literal is checked itself, a name by every address its
  lookup returns. The parsing of the URL and the lookup are arguments.

  * `checkIpv4`, `checkIpv6` -- the blocked ranges, in the order of the source;
  * `SsrfGuard.check_accepts` -- every address the guard returns has passed `checkIp`.
-/
import DeveSub.Lib.IpAddr
import DeveSub.Lib.Fallible

namespace DeveSub

/-- `std::net::IpAddr`. -/
inductive IpAddr where
  | v4 (ip : Ipv4Addr)
  | v6 (ip : Ipv6Addr)
  deriving DecidableEq

/-! ## 1. IPv4 ranges -/

namespace Ipv4Addr

/-- `is_loopback`. -/
def isLoopback (ip : Ipv4Addr) : Bool := ip.a = 127

/-- `is_private`. -/
def isPrivate (ip : Ipv4Addr) : Bool :=
  ip.a = 10 || (ip.a = 172 && 16 ≤ ip.b && ip.b ≤ 31) || (ip.a = 192 && ip.b = 168)

/-- `is_link_local`. -/
def isLinkLocal (ip : Ipv4Addr) : Bool := ip.a = 169 && ip.b = 254

/-- `is_multicast`. -/
def isMulticast (ip : Ipv4Addr) : Bool := 224 ≤ ip.a && ip.a ≤ 239

/-- `is_unspecified`. -/
def isUnspecified (ip : Ipv4Addr) : Bool := ip.a = 0 && ip.b = 0 && ip.c = 0 && ip.d = 0

/-- `is_cgnat`. -/
def isCgnat (ip : Ipv4Addr) : Bool := ip.a = 100 && ip.b &&& 0xc0 = 0x40

end Ipv4Addr

/-- `check_ipv4`. -/
def checkIpv4 (ip : Ipv4Addr) : Except Str Unit :=
  if ip.isLoopback then .error "loopback address (127.0.0.0/8)"
  else if ip.isPrivate then .error "private network (RFC 1918)"
  else if ip.isLinkLocal then .error "link-local address (169.254.0.0/16)"
  else if ip.isMulticast then .error "multicast address (224.0.0.0/4)"
  else if ip.isUnspecified then .error "unspecified address (0.0.0.0)"
  else if ip.isCgnat then .error "CGNAT range (100.64.0.0/10)"
  else if ip.a = 0 then .error "\"this network\" range (0.0.0.0/8)"
  else .ok ()

/-! ## 2. IPv6 ranges -/

namespace Ipv6Addr

/-- The first segment. -/
def first (ip : Ipv6Addr) : UInt16 := ip.segments.headD 0

/-- `is_loopback`. -/
def isLoopback (ip : Ipv6Addr) : Bool := ip.segments = [0, 0, 0, 0, 0, 0, 0, 1]

/-- `is_multicast`. -/
def isMulticast (ip : Ipv6Addr) : Bool := ip.first &&& 0xff00 = 0xff00

/-- `is_unspecified`. -/
def isUnspecified (ip : Ipv6Addr) : Bool := ip.segments = [0, 0, 0, 0, 0, 0, 0, 0]

/-- `is_unicast_link_local`. -/
def isUnicastLinkLocal (ip : Ipv6Addr) : Bool := ip.first &&& 0xffc0 = 0xfe80

/-- `is_ipv6_ula`. -/
def isUla (ip : Ipv6Addr) : Bool := ip.first &&& 0xfe00 = 0xfc00

/-- The IPv4 address in two segments. -/
def ipv4OfSegments (x y : UInt16) : Ipv4Addr :=
  ⟨UInt8.ofNat (x.toNat / 256), UInt8.ofNat x.toNat, UInt8.ofNat (y.toNat / 256), UInt8.ofNat y.toNat⟩

/-- `to_ipv4`: of a mapped or a compatible address. -/
def toIpv4 (segs : List UInt16) : Option Ipv4Addr :=
  match segs with
  | [0, 0, 0, 0, 0, z, x, y] => if z = 0 || z = 0xffff then some (ipv4OfSegments x y) else none
  | _ => none

end Ipv6Addr

/-- `check_ipv6`. -/
def checkIpv6 (ip : Ipv6Addr) : Except Str Unit :=
  if ip.isLoopback then .error "loopback address (::1)"
  else if ip.isMulticast then .error "multicast address (ff00::/8)"
  else if ip.isUnspecified then .error "unspecified address (::)"
  else if ip.isUnicastLinkLocal then .error "link-local address (fe80::/10)"
  else if ip.isUla then .error "unique local address (fc00::/7)"
  else match Ipv6Addr.toIpv4Mapped ip.segments with
    | some v4 => checkIpv4 v4
    | none =>
      match Ipv6Addr.toIpv4 ip.segments with
      | some v4 => checkIpv4 v4
      | none => .ok ()

/-- `check_ip`. -/
def checkIp : IpAddr → Except Str Unit
  | .v4 ip => checkIpv4 ip
  | .v6 ip => checkIpv6 ip

/-! ## 3. The guard -/

/-- `SsrfError`. -/
inductive SsrfError where
  | invalidUrl (detail : Str)
  | blocked (range : Str)
  | dnsResolutionFailed (host : Str)
  | dnsLookup (detail : Str)

/-- The text of an `SsrfError`. -/
def SsrfError.text : SsrfError → Str
  | .invalidUrl d => "invalid URL: ".toList ++ d
  | .blocked r => "SSRF blocked: ".toList ++ r
  | .dnsResolutionFailed h => "DNS resolution failed for ".toList ++ h
  | .dnsLookup d => "DNS lookup error: ".toList ++ d

/-- `FromStr` for `IpAddr`. -/
def IpAddr.parse (s : Str) : Option IpAddr :=
  match Ipv4Addr.parse s with
  | some ip => some (.v4 ip)
  | none => (Ipv6Addr.parse s).map .v6

namespace SsrfGuard

/-- The loop over the looked-up addresses: the first blocked one ends it. -/
def checkAll : List IpAddr → Except SsrfError (List IpAddr)
  | [] => .ok []
  | ip :: rest => do
    (checkIp ip).mapError .blocked
    return ip :: (← checkAll rest)

/-- `check`. `host` is the host of the parsed URL, or why there is none; `lookup` is the answer of
    the resolver for it. -/
def check (host : Except Str Str) (lookup : Except SsrfError (List IpAddr)) :
    Except SsrfError (List IpAddr) := do
  let host ← host.mapError .invalidUrl
  match IpAddr.parse host with
  | some ip => do
    (checkIp ip).mapError .blocked
    return [ip]
  | none => do
    let addrs ← lookup
    rejectWhen addrs.isEmpty (.dnsResolutionFailed host)
    checkAll addrs

theorem checkAll_eq_ok {ips safe : List IpAddr} (h : checkAll ips = .ok safe) :
    safe = ips ∧ ∀ ip ∈ ips, checkIp ip = .ok () := by
  induction ips generalizing safe with
  | nil =>
    obtain rfl := Except.ok.inj h
    exact ⟨rfl, fun ip hip => by cases hip⟩
  | cons x rest ih =>
    obtain ⟨_, hx, h⟩ := bind_eq_ok.1 h
    obtain ⟨tail, htail, h⟩ := bind_eq_ok.1 h
    obtain rfl := Except.ok.inj h
    obtain ⟨rfl, hrest⟩ := ih htail
    refine ⟨rfl, fun ip hip => ?_⟩
    rcases List.mem_cons.1 hip with rfl | hip
    · exact mapError_eq_ok.1 hx
    · exact hrest ip hip

/-- **The guard returns addresses it has checked**, and at least one. -/
theorem check_accepts {host : Except Str Str} {lookup : Except SsrfError (List IpAddr)}
    {ips : List IpAddr} (h : check host lookup = .ok ips) :
    ips ≠ [] ∧ ∀ ip ∈ ips, checkIp ip = .ok () := by
  obtain ⟨host, -, h⟩ := bind_eq_ok.1 h
  cases hparse : IpAddr.parse host with
  | some ip =>
    rw [hparse] at h
    obtain ⟨_, hip, h⟩ := bind_eq_ok.1 h
    obtain rfl := Except.ok.inj h
    refine ⟨List.cons_ne_nil _ _, fun x hx => ?_⟩
    rw [List.mem_singleton.1 hx]
    exact mapError_eq_ok.1 hip
  | none =>
    rw [hparse] at h
    obtain ⟨addrs, -, h⟩ := bind_eq_ok.1 h
    obtain ⟨_, hne, h⟩ := bind_eq_ok.1 h
    obtain ⟨rfl, hall⟩ := checkAll_eq_ok h
    refine ⟨fun hnil => ?_, hall⟩
    have hfalse := rejectWhen_eq_ok.1 hne
    rw [hnil] at hfalse
    cases hfalse

end SsrfGuard

end DeveSub
