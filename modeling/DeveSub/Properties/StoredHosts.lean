/-
  File:      DeveSub/Properties/StoredHosts.lean
  Subject:   Hosts in the `nodes.host` column.

  A row holds `uri_host` of a parsed host. Two parsers read that text: `parse_host`, which the
  formats use, and `parse_uri_host`, which the storage adapter uses.

  * `parseUriHost_uriHost` -- the adapter gives back every host a parser may produce;
  * `host_survives_iff` -- a parsed host survives both, exactly if its text was not `[]`;
  * `empty_brackets_accepted` -- `[]` passes the check for an empty host.
-/
import DeveSub.Properties.EmittedUri
import DeveSub.Storage.NodePool

namespace DeveSub

/-- A text that opens no bracket. -/
theorem stripPrefix_bracket_none {s : Str} (h : ∀ r, s ≠ '[' :: r) : stripPrefix ['['] s = none := by
  cases hstrip : stripPrefix ['['] s with
  | none => rfl
  | some r => exact absurd (stripPrefix_some hstrip) (h r)

/-- A text between brackets. -/
theorem strip_bracketed (s : Str) :
    (stripPrefix ['['] ('[' :: (s ++ [']']))).bind (stripSuffix [']']) = some s := by
  rw [show stripPrefix ['['] ('[' :: (s ++ [']'])) = some (s ++ [']']) from
    stripPrefix_append ['['] (s ++ [']']), Option.bind_some, stripSuffix_append]

/-- **A host is read back from its column.** -/
theorem parseUriHost_uriHost {h : Host} (hh : h.Written) : Host.parseUriHost h.uriHost = h := by
  cases h with
  | ipv4 a =>
    rw [Host.uriHost, Host.parseUriHost, stripPrefix_bracket_none a.text_ne_bracket, Option.bind_none]
    simp only [Ipv4Addr.parse_text]
  | ipv6 a =>
    rw [Host.uriHost, Host.parseUriHost, strip_bracketed]
    simp only [Ipv6Addr.parse_text]
  | domain d =>
    rw [Host.uriHost, Host.parseUriHost, stripPrefix_bracket_none hh.ne_bracket, Option.bind_none]
    simp only [hh.2.2.1, hh.2.2.2]

/-- The text of a host a parser may produce. -/
theorem Host.Written.uriHost_ne_nil {h : Host} (hh : h.Written) : h.uriHost ≠ [] := by
  cases h with
  | ipv4 a => exact a.text_ne_nil
  | ipv6 a => exact List.cons_ne_nil _ _
  | domain d => exact hh.1

/-- What it means that a host survives storage and parsing. -/
def Host.Survives (h : Host) : Prop :=
  h.uriHost ≠ [] ∧ parseHost h.uriHost = .ok h ∧ Host.parseUriHost h.uriHost = h

/-- **A parsed host survives exactly if it was not given as `[]`.** -/
theorem host_survives_iff {s : Str} {h : Host} (hp : parseHost s = .ok h) :
    h.Survives ↔ s ≠ "[]".toList := by
  constructor
  · intro hsurvives hs
    subst hs
    cases hp
    exact hsurvives.1 rfl
  · intro hs
    have hwritten := parseHost_written hs hp
    exact ⟨hwritten.uriHost_ne_nil, parseHost_uriHost hwritten, parseUriHost_uriHost hwritten⟩

/-- A bracketed address and a name. -/
theorem hosts_survive :
    (∃ h, parseHost "[2001:db8::1]".toList = .ok h ∧ h.Survives) ∧
      (Host.domain "node.example".toList).Survives := by
  have haddress : ∃ h, parseHost "[2001:db8::1]".toList = .ok h := ⟨_, rfl⟩
  obtain ⟨h, hh⟩ := haddress
  exact ⟨⟨h, hh, (host_survives_iff hh).2 (by decide)⟩,
    (host_survives_iff (s := "node.example".toList) rfl).2 (by decide)⟩

/-- **An empty name passes as `[]`**: its text is empty, and the parser refuses that. -/
theorem empty_brackets_accepted : parseHost "[]".toList = .ok (.domain []) ∧
    (Host.domain []).uriHost = [] ∧ parseHost [] = .error (.invalidHost "empty host") :=
  ⟨rfl, rfl, rfl⟩

end DeveSub
