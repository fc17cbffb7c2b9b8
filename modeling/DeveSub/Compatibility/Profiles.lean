/-
  File:      DeveSub/Compatibility/Profiles.lean
  Subject:   The names of the profiles, the group types they take, and the texts of the reasons
             (`deve-sub-compatibility`), with the filter key of a protocol.
-/
import DeveSub.Emitter.Profile

namespace DeveSub

/-- `ProfileKind::from_kebab`. -/
def ProfileKind.fromKebab (s : Str) : Option ProfileKind :=
  if s = "mihomo" then some .mihomo
  else if s = "sing-box" then some .singBox
  else if s = "xray" then some .xray
  else if s = "v2ray" then some .v2ray
  else if s = "shadowrocket" then some .shadowrocket
  else if s = "uri_list" then some .uriList
  else if s = "json" then some .json
  else none

/-- `ProfileKind::as_kebab`. -/
def ProfileKind.asKebab : ProfileKind → Str
  | .mihomo => "mihomo"
  | .singBox => "sing-box"
  | .xray => "xray"
  | .v2ray => "v2ray"
  | .shadowrocket => "shadowrocket"
  | .uriList => "uri_list"
  | .json => "json"

/-- **A profile is found under its own name, and under no other.** -/
theorem ProfileKind.fromKebab_eq_some {s : Str} {p : ProfileKind} :
    fromKebab s = some p ↔ s = p.asKebab := by
  constructor
  · intro h
    unfold fromKebab at h
    split_ifs at h with h1 h2 h3 h4 h5 h6 h7 <;> obtain rfl := Option.some.inj h <;> assumption
  · rintro rfl
    cases p <;> decide

/-- `supported_group_types` of `capability_for`. -/
def supportedGroupTypes : ProfileKind → List GroupType
  | .mihomo => [.select, .urlTest, .fallback, .loadBalance, .relay]
  | .singBox => [.select, .urlTest, .fallback]
  | .xray | .v2ray => [.select]
  | .shadowrocket => [.select, .urlTest]
  | .uriList | .json => []

/-- `check_group_type`, with the reason as its text. A profile without groups takes every type. -/
def checkGroupType (t : GroupType) (profile : ProfileKind) : Except Str Unit :=
  rejectWhen (!(supportedGroupTypes profile).isEmpty && !(supportedGroupTypes profile).contains t)
    ("unsupported group type '".toList ++ t.text ++ "' for profile".toList)

/-- `Display for CompatibilityReason`. -/
def CompatibilityReason.text : CompatibilityReason → Str
  | .unsupportedField f => "unsupported field: ".toList ++ f
  | .unsupportedProtocol p => "unsupported protocol '".toList ++ p ++ "' for profile".toList
  | .unsupportedTransport t => "unsupported transport '".toList ++ t ++ "' for profile".toList
  | .unsupportedConfig => "node has no typed protocol config (unsupported)"
  | .unsupportedProtocolVersion p v s =>
    "unsupported protocol version '".toList ++ natText v ++ "' for ".toList ++ p ++
      "; supported: ".toList ++ s
  | .unsupportedObfsMode p profile mode s =>
    "unsupported obfs mode '".toList ++ mode ++ "' for ".toList ++ p ++ " on ".toList ++ profile ++
      "; supported: ".toList ++ s

/-- `ProtocolKind::as_filter_key`. -/
def ProtocolKind.asFilterKey : ProtocolKind → Str
  | .vless => "vless"
  | .vmess => "vmess"
  | .trojan => "trojan"
  | .shadowsocks => "shadowsocks"
  | .hysteria2 => "hysteria2"
  | .tuicV5 => "tuic-v5"
  | .naiveProxy => "naiveproxy"
  | .socks5 => "socks5"
  | .http => "http"
  | .hysteriaV1 => "hysteria-v1"
  | .anyTls => "anytls"
  | .snell => "snell"
  | .wireGuard => "wireguard"
  | .shadowTls => "shadowtls"
  | .ssh => "ssh"
  | .unknown name => name

end DeveSub
