/-
  File:      DeveSub/Protocol/SingBox.lean
  Subject:   The sing-box parser, for Hysteria2 outbounds (`container/singbox.rs` of
             `deve-sub-protocol`).
-/
import DeveSub.Protocol.Container

namespace DeveSub.SingBox

/-! ## 1. Shared fields -/

/-- `build_base`. -/
def buildBase (entry : Json) : Except ParseError (Str × Endpoint) := do
  let name := (getStr entry "tag").getD []
  let server ← okOr (getStr entry "server") (.missingField "server")
  let port ← getPort entry "server_port"
  let port ← okOr port (.missingField "server_port")
  let host ← parseHost server
  .ok (name, { host, port })

/-- The enabled `reality` block of a TLS object. -/
def extractReality (tls : Json) : Option RealityConfig :=
  (tls.get "reality").bind fun r =>
    if getBool r "enabled" = some true then
      some
        { publicKey := (getStr r "public_key").getD []
          shortId := (getStr r "short_id").getD []
          spiderX := none }
    else none

/-- `extract_tls`: only an enabled block counts. -/
def extractTls (entry : Json) : Option TlsConfig :=
  (entry.get "tls").bind fun tls =>
    if (getBool tls "enabled").getD false then
      some
        { enabled := true
          serverName := getStr tls "server_name"
          skipCertVerify := getBool tls "insecure"
          alpn := getStrArray tls "alpn"
          clientFingerprint := (tls.get "utls").bind fun u => getStr u "fingerprint"
          certificatePins := []
          reality := extractReality tls }
    else none

/-- The milliseconds of one number with its unit. -/
def goUnitMillis (value : F64) (unit : Str) : Option Int :=
  if unit = "h" then some (value.mulNat 3600000).truncToI64
  else if unit = "m" then some (value.mulNat 60000).truncToI64
  else if unit = "s" then some (value.mulNat 1000).truncToI64
  else if unit = "ms" then some value.truncToI64
  else none

/-- The number and unit groups of a Go duration, one unit of fuel for each. -/
def goDurationMillis : Nat → Str → Int → Option Int
  | _, [], total => some total
  | 0, _ :: _, _ => none
  | fuel + 1, s, total => do
      let isNum (c : Char) : Bool := c.isDigit || c = '.'
      let rest := s.dropWhile isNum
      let unit := rest.takeWhile Char.isAlpha
      let value ← F64.parseDecimal (s.takeWhile isNum)
      let ms ← goUnitMillis value unit
      if total + ms < 2 ^ 63 then goDurationMillis fuel (rest.dropWhile Char.isAlpha) (total + ms)
      else none

/-- `parse_go_duration`. -/
def parseGoDuration (s : Str) : Option Duration :=
  let t := trim s
  if t = [] then none else (goDurationMillis t.length t 0).map Duration.milliseconds

/-- A Go duration in a string field. -/
def getGoDuration (entry : Json) (key : Str) : Option Duration :=
  (getStr entry key).bind parseGoDuration

/-! ## 2. The mapper of each outbound type -/

/-- `mbps * 1_000_000` at `u64`, wrapping as a release build does. -/
def mbpsToBps (mbps : UInt64) : UInt64 := mbps * 1000000

/-- `parse_hysteria2`. -/
def parseHysteria2 (entry : Json) : Except ParseError Node := do
  let (name, endpoint) ← buildBase entry
  let password ← okOr (getStr entry "password") (.missingField "password")
  let upBps := (getU64 entry "up_mbps").map mbpsToBps
  let downBps := (getU64 entry "down_mbps").map mbpsToBps
  .ok
    { nodeShell with
      displayName := name
      protocol := .hysteria2
      config := .hysteria2
        { ports := getStr entry "server_ports"
          hopInterval := getGoDuration entry "hop_interval"
          fastOpen := getBool entry "fast_open"
          lazy := getBool entry "lazy" }
      endpoint
      authentication := .password password
      tls := (extractTls entry).or (some defaultTlsEnabled)
      obfuscation := (entry.get "obfs").bind fun o =>
        (getStr o "type").map fun kind => { kind, password := getStr o "password" }
      congestion :=
        if upBps.isSome || downBps.isSome then some { controller := .bbr, upBps, downBps }
        else none }

end DeveSub.SingBox
