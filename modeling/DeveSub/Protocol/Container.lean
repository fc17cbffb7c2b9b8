/-
  File:      DeveSub/Protocol/Container.lean
  Subject:   What the container parsers have in common (`container/mod.rs`): fields of a JSON
             entry, the entry limit, and the node an entry becomes when it cannot be mapped.
-/
import DeveSub.Protocol.Common

namespace DeveSub

/-- `MAX_ENTRIES`. -/
def maxEntries : Nat := 10000

/-- `check_entry_count`. -/
def checkEntryCount (count : Nat) : Except ParseError Unit :=
  if count > maxEntries then .error (.tooManyEntries count) else .ok ()

/-- `get_str`. -/
def getStr (v : Json) (key : Str) : Option Str := (v.get key).bind Json.asStr

/-- `get_bool`: a boolean, or one of its common spellings. -/
def getBool (v : Json) (key : Str) : Option Bool :=
  (v.get key).bind fun val =>
    match val.asBool with
    | some b => some b
    | none =>
        val.asStr.bind fun s : Str =>
          if s = "true" ∨ s = "1" then some true
          else if s = "false" ∨ s = "0" then some false
          else none

/-- `get_port`: a number or its text; anything else that is present is an error. -/
def getPort (v : Json) (key : Str) : Except ParseError (Option UInt16) :=
  match v.get key with
  | none | some .null => .ok none
  | some val =>
      match val.asU64 with
      | some n =>
          if n.toNat < 65536 then .ok (some (UInt16.ofNat n.toNat))
          else .error (.invalidPort (natText n.toNat))
      | none =>
          match val.asStr with
          | some s => (okOr (parseU16 s) (.invalidPort s)).map some
          | none =>
              .error (.invalidPort ("port field `".toList ++ key ++
                "` has non-numeric value: ".toList ++ val.text))

/-- `get_str_or_first`: a string, or the first string of a list. -/
def getStrOrFirst (v : Json) (key : Str) : Option Str :=
  (v.get key).bind fun val =>
    match val.asStr with
    | some s => some s
    | none => val.asArray.bind fun arr => arr.head?.bind Json.asStr

/-- `get_str_array`: the strings of a list. -/
def getStrArray (v : Json) (key : Str) : List Str :=
  (((v.get key).bind Json.asArray).map fun arr => arr.filterMap Json.asStr).getD []

/-- `v.get(key).and_then(|v| v.as_u64())`. -/
def getU64 (v : Json) (key : Str) : Option UInt64 := (v.get key).bind Json.asU64

/-- `u32::try_from(n).unwrap_or(0)`. -/
def u32OrZero (n : UInt64) : UInt32 := if n.toNat < 4294967296 then UInt32.ofNat n.toNat else 0

/-- `Duration::seconds(i64::try_from(n).unwrap_or(other))`. -/
def secondsOr (other : Int) (n : UInt64) : Duration :=
  Duration.seconds (if n.toNat < 2 ^ 63 then n.toNat else other)

/-- An octet of a JSON array. -/
def octet? (v : Json) : Option UInt8 :=
  v.asU64.bind fun n => if n.toNat < 256 then some (UInt8.ofNat n.toNat) else none

/-- `parse_reserved_array`: three octets or nothing. -/
def parseReservedArray (v : Option Json) : Option (UInt8 × UInt8 × UInt8) :=
  match v.bind Json.asArray with
  | some [a, b, c] => do
      let x ← octet? a
      let y ← octet? b
      let z ← octet? c
      some (x, y, z)
  | _ => none

/-- `unsupported_entry`: the raw entry and the reason are kept. -/
def unsupportedEntry (raw : Json) (rawFormat : Str) (protocol : ProtocolKind) (reason : Str) :
    Node :=
  { nodeShell with
    protocol
    config := .unsupported { raw, rawFormat := some rawFormat, reason } }

/-- The relay mode a name stands for, if any. -/
def udpRelayMode? (name : Str) : Option UdpRelayMode :=
  if name = "native" then some .native else if name = "quic" then some .quic else none

end DeveSub
