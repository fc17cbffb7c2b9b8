/-
  File:      DeveSub/Domain/Identity.lean
  Subject:   Users, sessions, TOTP secrets and recovery codes (`deve-sub-domain`: `identity/*.rs`)
             and the codes of `deve-sub-security`: `totp.rs`, `recovery.rs`.

  Times of creation, the role and the traffic quota are read by none of the functions modelled
  here and are left out. HMAC-SHA1 and the Base32 alphabet are crates: they are arguments.
-/
import DeveSub.Domain.Source
import DeveSub.Lib.Percent

namespace DeveSub

abbrev UserId := Ulid
abbrev SessionId := Ulid
abbrev RecoveryCodeId := Ulid

/-! ## 1. Errors -/

/-- `IdentityError`, as far as the modelled functions raise it. -/
inductive IdentityError where
  | userNotFound
  | twoFactorAlreadyEnabled
  | recoveryCodeNotFound
  | storage (message : Str)
  deriving DecidableEq

/-- `AuthError`, as far as the modelled functions raise it. -/
inductive AuthError where
  | invalidCredentials
  | rateLimited
  | twoFactorAlreadyEnabled
  | twoFactorNotEnabled
  | invalidTwoFactorCode
  | challengeTokenInvalid
  | totpSecretNotFound
  | security (message : Str)
  | identity (e : IdentityError)
  deriving DecidableEq

/-! ## 2. Entities -/

/-- `User`. -/
structure User where
  id : UserId
  username : Str
  passwordHash : Str
  enabled : Bool
  expiresAt : Option Timestamp
  twoFactorEnabled : Bool
  lastLoginAt : Option Timestamp

/-- `User::is_active_at`. -/
def User.isActiveAt (u : User) (now : Timestamp) : Bool :=
  u.enabled && u.expiresAt.all fun t => decide (now < t)

/-- The 24 bytes of an XChaCha20 nonce. -/
abbrev Nonce := { bytes : List UInt8 // bytes.length = 24 }

/-- The two columns a sealed secret is stored in. -/
structure Seal where
  ciphertext : List UInt8
  nonce : Nonce
  deriving DecidableEq

/-- `TotpSecret`. -/
structure TotpSecret where
  userId : UserId
  sealed : Seal
  deriving DecidableEq

/-- `RecoveryCode`. -/
structure RecoveryCode where
  id : RecoveryCodeId
  userId : UserId
  codeHash : Str
  used : Bool
  deriving DecidableEq

/-- `Session`. -/
structure Session where
  id : SessionId
  userId : UserId
  tokenHash : Str
  expiresAt : Timestamp
  revoked : Bool
  deriving DecidableEq

/-! ## 3. TOTP codes -/

namespace Totp

/-- `PERIOD`. -/
def period : Nat := 30

/-- `WINDOW`. -/
def window : Nat := 1

/-- `OffsetDateTime::unix_timestamp() as u64`. -/
def unixTimestamp (now : Timestamp) : Nat := (now / 1000000000 % 2 ^ 64).toNat

/-- `counter`, for the epoch 0. -/
def counter (timestamp : Nat) : Nat := timestamp / period

/-- `u64::to_be_bytes`. -/
def beBytes64 (n : Nat) : List UInt8 :=
  (List.range 8).reverse.map fun k => UInt8.ofNat (n / 256 ^ k)

/-- `hotp`: the last four bits of the digest say where the number is cut out of it. -/
def hotp (hmacSha1 : List UInt8 → List UInt8 → List UInt8) (secret : List UInt8) (c : Nat) : Nat :=
  let result := hmacSha1 secret (beBytes64 c)
  let offset := (result.getLastD 0).toNat % 16
  let byte := fun i => (result.getD (offset + i) 0).toNat
  (byte 0 % 128 * 2 ^ 24 + byte 1 * 2 ^ 16 + byte 2 * 2 ^ 8 + byte 3) % 10 ^ 6

/-- `verify_code_timestep` at a time: of the steps in the window the last that matches. -/
def verifyCodeTimestep (hmacSha1 : List UInt8 → List UInt8 → List UInt8) (now : Timestamp)
    (secret : List UInt8) (code : Nat) : Option Nat :=
  let current := counter (unixTimestamp now)
  (List.range (2 * window + 1)).foldl (fun matched offset =>
    let candidate := current - window + offset
    if hotp hmacSha1 secret candidate = code then some candidate else matched) none

/-- A character that `percent_encode` leaves as it is. -/
def isUnreserved (c : Char) : Bool := c.isAlphanum || c ∈ ['-', '.', '_', '~']

/-- `otpauth_uri`, for the Base32 text of the secret. -/
def otpauthUri (secretB32 issuer account : Str) : Str :=
  let enc := percentEncode fun c => !isUnreserved c
  "otpauth://totp/".toList ++ enc issuer ++ [':'] ++ enc account ++ "?secret=".toList ++ secretB32 ++
    "&issuer=".toList ++ enc issuer ++ "&algorithm=SHA1&digits=6&period=30".toList

end Totp

/-- `normalize_code` of a recovery code. -/
def normalizeRecoveryCode (code : Str) : Str :=
  ((trim code).filter Char.isAlphanum).map Char.toUpper

end DeveSub
