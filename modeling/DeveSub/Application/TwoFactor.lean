/-
  File:      DeveSub/Application/TwoFactor.lean
  Subject:   Two-factor authentication (`auth/twofa.rs`): `setup_2fa`, `verify_2fa`, `disable_2fa`,
             `regenerate_recovery_codes` and `login_2fa` as programs over their ports.

  Each repository call is one atomic step and may meet a storage fault. The clock, random bytes,
  the password check and the rate limiter answer anything. Pure primitives (opening an envelope,
  HMAC, the challenge token) are arguments.

  * `TwoFactor.ports` -- what the calls answer and do;
  * `TwoFactor.Client.program` -- the five operations;
  * `TwoFactor.Protocol` -- what each of their writes was preceded by, and
    `TwoFactor.client_follows` -- that every operation keeps to it.
-/
import DeveSub.Lib.Program
import DeveSub.Storage.Identity

namespace DeveSub

namespace TwoFactor

/-! ## 1. Ports -/

/-- The primitives of `deve-sub-security` and `challenge.rs`, for the master key of the process. -/
structure Primitives where
  openParts : Seal → Except Str (List UInt8)
  hmacSha1 : List UInt8 → List UInt8 → List UInt8
  hmacDigest : Str → Str → Except Str Str
  base32 : List UInt8 → Str
  verifyChallengeToken : Str → Timestamp → Except AuthError (Option UserId)

/-- A call of the operations. -/
inductive Call where
  | now
  | drawId
  | generateSecret
  | sealParts (secret : List UInt8)
  | generateRecoveryCodes
  | generateSessionToken
  | verifyPassword (password hash : Str)
  | checkRate (username : Str) (ip : Option Str)
  | recordFailure (username : Str) (ip : Option Str)
  | recordSuccess (username : Str) (ip : Option Str)
  | findUser (id : UserId)
  | findSecret (userId : UserId)
  | findUnusedByHash (userId : UserId) (codeHash : Str)
  | write (w : AuthWrite)

/-- What a call answers. -/
def Call.Reply : Call → Type
  | .now => Timestamp
  | .drawId => Ulid
  | .generateSecret => Except Str (List UInt8)
  | .sealParts _ => Except Str Seal
  | .generateRecoveryCodes => Except Str (List Str)
  | .generateSessionToken => Except Str Str
  | .verifyPassword _ _ => Except Str Bool
  | .checkRate _ _ => Bool
  | .recordFailure _ _ | .recordSuccess _ _ => Unit
  | .findUser _ => Except IdentityError (Option User)
  | .findSecret _ => Except IdentityError (Option TotpSecret)
  | .findUnusedByHash _ _ => Except IdentityError (Option RecoveryCode)
  | .write w => Except IdentityError w.Result

/-- A call of a thread with its answer, and the database before and after it. -/
abbrev CallEvent (ι : Type) := Event Call.Reply AuthDb ι

/-- The calls of a run in their order. -/
abbrev Trace (ι : Type) := List (CallEvent ι)

/-- **What the ports may answer, and what the database then is.** -/
def ports : Semantics Call.Reply AuthDb
  | .now, db, _, db' | .drawId, db, _, db' | .generateSecret, db, _, db' | .sealParts _, db, _, db'
  | .generateRecoveryCodes, db, _, db' | .generateSessionToken, db, _, db'
  | .verifyPassword _ _, db, _, db' | .checkRate _ _, db, _, db' | .recordFailure _ _, db, _, db'
  | .recordSuccess _ _, db, _, db' => db' = db
  | .findUser id, db, a, db' => Reads (db.users.find id) IdentityError.storage db a db'
  | .findSecret id, db, a, db' =>
    Reads (TotpSecrets.findByUser db id) IdentityError.storage db a db'
  | .findUnusedByHash id hash, db, a, db' =>
    Reads (RecoveryCodes.findUnusedByHash db id hash) IdentityError.storage db a db'
  | .write w, db, a, db' => Writes w.run IdentityError.storage db a db'

/-- **A call changes nothing, or is a write that committed.** -/
theorem ports_change {op : Call} {db db' : AuthDb} {a : op.Reply} (h : ports op db a db') :
    db' = db ∨ ∃ (w : AuthWrite) (r : w.Result),
      (⟨op, a⟩ : (c : Call) × c.Reply) = ⟨.write w, .ok r⟩ ∧ w.run db = .ok (r, db') := by
  cases op with
  | now | drawId | generateSecret | sealParts | generateRecoveryCodes | generateSessionToken
  | verifyPassword | checkRate | recordFailure | recordSuccess => exact .inl h
  | findUser | findSecret | findUnusedByHash => exact .inl h.2
  | write w =>
    rcases Writes.cases h with ⟨r, rfl, hrun⟩ | ⟨-, hdb⟩
    · exact .inr ⟨w, r, rfl, hrun⟩
    · exact .inl hdb

/-! ## 2. The operations -/

/-- An operation: a program that may fail. -/
abbrev Operation := ExceptT AuthError (Program Call.Reply)

open Program

/-- A security primitive that is drawn or computed outside. -/
def secure {α : Type} : Except Str α → Except AuthError α := Except.mapError .security

/-- `repo.call().await?`. -/
def stored {α : Type} : Except IdentityError α → Except AuthError α := Except.mapError .identity

/-- `.map_err(...)` of the calls that answer `TwoFactorAlreadyEnabled` themselves. -/
def enrolled {α : Type} : Except IdentityError α → Except AuthError α :=
  Except.mapError fun
    | .twoFactorAlreadyEnabled => .twoFactorAlreadyEnabled
    | other => .identity other

/-- `user_repo.find_by_id(id).await?.ok_or(e)`. -/
def findUser (id : UserId) (e : AuthError) : Operation User :=
  ask (.findUser id) fun a => do okOr (← stored a) e

/-- `totp_secret_repo.find_by_user(id).await?.ok_or(e)`. -/
def findSecret (id : UserId) (e : AuthError) : Operation TotpSecret :=
  ask (.findSecret id) fun a => do okOr (← stored a) e

/-- `verify_code_timestep`, with the clock it reads. -/
def verifyCodeTimestep (P : Primitives) (secret : List UInt8) (code : Nat) : Operation (Option Nat) :=
  ask .now fun now => .ok (Totp.verifyCodeTimestep P.hmacSha1 now secret code)

/-- What `setup_2fa` returns. -/
structure SetupResult where
  secret : Str
  otpauthUri : Str

/-- `setup_2fa`. -/
def setup2fa (P : Primitives) (userId : UserId) (issuer : Str) : Operation SetupResult := do
  let user ← findUser userId .invalidCredentials
  lift (rejectWhen user.twoFactorEnabled .twoFactorAlreadyEnabled)
  let secret ← ask .generateSecret secure
  let sealed ← ask (.sealParts secret) secure
  ask (.write (.upsertSecret ⟨userId, sealed⟩)) enrolled
  return ⟨P.base32 secret, Totp.otpauthUri (P.base32 secret) issuer user.username⟩

/-- `PURPOSE_RECOVERY` and `PURPOSE_SESSION`. -/
def purposeRecovery : Str := "recovery"
def purposeSession : Str := "session"

/-- The hash a recovery code is stored under. -/
def recoveryHash (P : Primitives) (code : Str) : Except AuthError Str :=
  secure (P.hmacDigest purposeRecovery (normalizeRecoveryCode code))

/-- The loop that makes the entities of a batch. -/
def codeEntities (P : Primitives) (userId : UserId) : List Str → Operation (List RecoveryCode)
  | [] => pure []
  | code :: codes => do
    let hash ← lift (recoveryHash P code)
    let id ← ask .drawId .ok
    let entities ← codeEntities P userId codes
    return ⟨id, userId, hash, false⟩ :: entities

/-- `verify_2fa`. -/
def verify2fa (P : Primitives) (userId : UserId) (code : Nat) : Operation (List Str) := do
  let user ← findUser userId .invalidCredentials
  lift (rejectWhen user.twoFactorEnabled .twoFactorAlreadyEnabled)
  let storedSecret ← findSecret userId .totpSecretNotFound
  let plaintext ← lift (secure (P.openParts storedSecret.sealed))
  let matched ← verifyCodeTimestep P plaintext code
  lift (rejectWhen matched.isNone .invalidTwoFactorCode)
  let recoveryCodes ← ask .generateRecoveryCodes secure
  let entities ← codeEntities P userId recoveryCodes
  let current ← ask (.write (.enableIfCurrent storedSecret entities)) enrolled
  lift (rejectWhen (!current) .invalidTwoFactorCode)
  return recoveryCodes

/-- The enrollment a password-protected operation acts on: it is read before the password is
    checked. -/
def authorized (userId : UserId) (password : Str) : Operation TotpSecret := do
  let user ← findUser userId .invalidCredentials
  lift (rejectWhen (!user.twoFactorEnabled) .twoFactorNotEnabled)
  let storedSecret ← findSecret userId .twoFactorNotEnabled
  let right ← ask (.verifyPassword password user.passwordHash) secure
  lift (rejectWhen (!right) .invalidCredentials)
  return storedSecret

/-- `disable_2fa`. -/
def disable2fa (userId : UserId) (password : Str) : Operation Unit := do
  let storedSecret ← authorized userId password
  let current ← ask (.write (.disableIfCurrent storedSecret)) stored
  lift (rejectWhen (!current) .twoFactorNotEnabled)

/-- `regenerate_recovery_codes`. -/
def regenerateRecoveryCodes (P : Primitives) (userId : UserId) (password : Str) :
    Operation (List Str) := do
  let storedSecret ← authorized userId password
  let recoveryCodes ← ask .generateRecoveryCodes secure
  let entities ← codeEntities P userId recoveryCodes
  let current ← ask (.write (.replaceRecoveryCodesIfCurrent storedSecret entities)) stored
  lift (rejectWhen (!current) .twoFactorNotEnabled)
  return recoveryCodes

/-! ## 3. Login -/

/-- A code of six digits is a TOTP code, any other a recovery code. -/
def isTotpCode (code : Str) : Bool := (utf8Bytes code).length = 6 && code.all Char.isDigit

/-- The TOTP path of `login_2fa`: is the code valid? -/
def checkTotp (P : Primitives) (userId : UserId) (code : Str) : Operation Bool := do
  let number ← lift (okOr (parseUnsigned (2 ^ 32) code) .invalidTwoFactorCode)
  let storedSecret ← findSecret userId .totpSecretNotFound
  let plaintext ← lift (secure (P.openParts storedSecret.sealed))
  match ← verifyCodeTimestep P plaintext number with
  | some timestep => ask (.write (.recordUsedTimestep userId timestep)) stored
  | none => return false

/-- The recovery path of `login_2fa`: the code that would be consumed. -/
def findRecoveryCode (P : Primitives) (userId : UserId) (code : Str) :
    Operation (Option RecoveryCodeId) := do
  let hash ← lift (recoveryHash P code)
  ask (.findUnusedByHash userId hash) fun a => do return (← stored a).map (·.id)

/-- `code_valid` and `recovery_code_to_consume`. -/
def checkCode (P : Primitives) (userId : UserId) (code : Str) :
    Operation (Bool × Option RecoveryCodeId) :=
  if isTotpCode code then do return (← checkTotp P userId code, none)
  else do
    let found ← findRecoveryCode P userId code
    return (found.isSome, found)

/-- The parameters of `login_2fa`. -/
structure LoginParams where
  challengeToken : Str
  code : Str
  ip : Option Str
  sessionTtl : Int

/-- The session of a login whose code is valid: with a recovery code, both are one transaction. -/
def createSession (username : Str) (ip : Option Str) (session : Session) :
    Option RecoveryCodeId → Operation Unit
  | none => ask (.write (.createSession session)) stored
  | some id => do
    match ← ask (.write (.markUsedAndCreateSession id session)) Except.ok with
    | .ok () => pure ()
    | .error .recoveryCodeNotFound =>
      ask (.recordFailure username ip) fun _ => .error .invalidTwoFactorCode
    | .error other => lift (.error (.identity other))

/-- `login_2fa`. -/
def login2fa (P : Primitives) (params : LoginParams) : Operation (User × Session × Str) := do
  let userId ← ask .now fun now => do
    okOr (← P.verifyChallengeToken params.challengeToken now) .challengeTokenInvalid
  let user ← findUser userId .challengeTokenInvalid
  ask .now fun now => rejectWhen (!user.isActiveAt now) .challengeTokenInvalid
  ask (.checkRate user.username params.ip) fun allowed => rejectWhen (!allowed) .rateLimited
  let (valid, toConsume) ← checkCode P userId params.code
  if !valid then
    ask (.recordFailure user.username params.ip) fun _ => .error .invalidTwoFactorCode
  else
    let now : Timestamp ← ask .now .ok
    let token ← ask .generateSessionToken secure
    let tokenHash ← lift (secure (P.hmacDigest purposeSession token))
    let id ← ask .drawId .ok
    let session : Session := ⟨id, user.id, tokenHash, now + params.sessionTtl, false⟩
    createSession user.username params.ip session toConsume
    -- a failure to note the login is ignored
    ask (.write (.updateLastLogin user.id now)) fun _ => .ok ()
    ask (.recordSuccess user.username params.ip) .ok
    return (user, session, token)

/-! ## 4. Clients -/

/-- A client of the five operations. -/
inductive Client where
  | setup (userId : UserId) (issuer : Str)
  | verify (userId : UserId) (code : Nat)
  | disable (userId : UserId) (password : Str)
  | regenerate (userId : UserId) (password : Str)
  | login (params : LoginParams)

/-- What a client ends with. -/
inductive Outcome where
  | setup (r : Except AuthError SetupResult)
  | verify (r : Except AuthError (List Str))
  | disable (r : Except AuthError Unit)
  | regenerate (r : Except AuthError (List Str))
  | login (r : Except AuthError (User × Session × Str))

/-- The program of a client. -/
def Client.program (P : Primitives) : Client → Program Call.Reply Outcome
  | .setup userId issuer => do return .setup (← (setup2fa P userId issuer).run)
  | .verify userId code => do return .verify (← (verify2fa P userId code).run)
  | .disable userId password => do return .disable (← (disable2fa userId password).run)
  | .regenerate userId password => do
    return .regenerate (← (regenerateRecoveryCodes P userId password).run)
  | .login params => do return .login (← (login2fa P params).run)

/-- The system at its start. -/
def system {ι : Type} (P : Primitives) (db : AuthDb) (clients : ι → Client) :
    Config Call.Reply AuthDb ι Outcome :=
  ⟨db, fun i => (clients i).program P⟩

/-! ## 5. What each write was preceded by -/

/-- **The check of a code**: the thread read this secret, and at a time it read the code stood for
    this timestep of it. -/
structure Checked (P : Primitives) (h : History Call.Reply) (S : TotpSecret) (u : UserId)
    (code t : Nat) : Prop where
  read : ⟨.findSecret u, .ok (some S)⟩ ∈ h
  matched : ∃ now plaintext, ⟨.now, now⟩ ∈ h ∧ P.openParts S.sealed = .ok plaintext ∧
    Totp.verifyCodeTimestep P.hmacSha1 now plaintext code = some t

/-- The entities of a batch: unused, for this user, under the hashes of these codes. -/
structure Batch (P : Primitives) (u : UserId) (codes : List Str) (entities : List RecoveryCode) :
    Prop where
  owner : ∀ c ∈ entities, c.userId = u ∧ c.used = false
  hashes : codes.map (recoveryHash P) = entities.map fun c => .ok c.codeHash

/-- **The protocol of a client**: which writes it makes, and what they were preceded by. -/
def Protocol (P : Primitives) (client : Client) (h : History Call.Reply) : Call → Prop
  | .write (.upsertSecret _) => ∃ u issuer, client = .setup u issuer
  | .write (.enableIfCurrent S entities) => ∃ u code t codes, client = .verify u code ∧
      Checked P h S u code t ∧ ⟨.generateRecoveryCodes, .ok codes⟩ ∈ h ∧ Batch P u codes entities
  | .write (.disableIfCurrent S) => ∃ u password, client = .disable u password ∧
      ⟨.findSecret u, .ok (some S)⟩ ∈ h
  | .write (.replaceRecoveryCodesIfCurrent S entities) => ∃ u password codes,
      client = .regenerate u password ∧ ⟨.findSecret u, .ok (some S)⟩ ∈ h ∧ Batch P u codes entities
  | .write (.recordUsedTimestep u t) => ∃ params S code, client = .login params ∧
      parseUnsigned (2 ^ 32) params.code = some code ∧ Checked P h S u code t
  | .write (.markUsedAndCreateSession id session) => ∃ params u user hash code,
      client = .login params ∧ ⟨.findUser u, .ok (some user)⟩ ∈ h ∧ session.userId = user.id ∧
      recoveryHash P params.code = .ok hash ∧ ⟨.findUnusedByHash u hash, .ok (some code)⟩ ∈ h ∧
      code.id = id
  | .write (.createSession session) => ∃ params u user t, client = .login params ∧
      isTotpCode params.code = true ∧ ⟨.findUser u, .ok (some user)⟩ ∈ h ∧
      session.userId = user.id ∧ ⟨.write (.recordUsedTimestep u t), .ok true⟩ ∈ h
  | .write (.updateLastLogin _ _) => ∃ params, client = .login params
  | _ => True

/-- What a client that is done has done: a `verify_2fa` that enabled the flag returns the codes
    it stored. -/
def Finished (P : Primitives) : Client → History Call.Reply → Outcome → Prop
  | .verify u _, h, outcome => ∀ S entities,
      ⟨.write (.enableIfCurrent S entities), .ok true⟩ ∈ h →
      ∃ codes, outcome = .verify (.ok codes) ∧ Batch P u codes entities
  | _, _, _ => True

section Following

variable {P : Primitives} {client : Client} {h : History Call.Reply}
  {failed : History Call.Reply → Prop}

theorem stored_eq_ok {α : Type} {a : Except IdentityError α} {b : α} :
    stored a = .ok b ↔ a = .ok b := mapError_eq_ok

theorem secure_eq_ok {α : Type} {a : Except Str α} {b : α} : secure a = .ok b ↔ a = .ok b :=
  mapError_eq_ok

theorem enrolled_eq_ok {α : Type} {a : Except IdentityError α} {b : α} :
    enrolled a = .ok b ↔ a = .ok b := mapError_eq_ok

/-- What `.await?.ok_or(e)` found. -/
theorem found_eq_ok {α : Type} {a : Except IdentityError (Option α)} {e : AuthError} {b : α}
    (h : (do okOr (← stored a) e) = .ok b) : a = .ok (some b) := by
  obtain ⟨o, ho, h⟩ := bind_eq_ok.1 h
  rw [okOr_eq_ok.1 h] at ho
  exact stored_eq_ok.1 ho

/-- The entities of a batch, with only ids drawn on the way. -/
theorem follows_codeEntities {u : UserId} (codes : List Str)
    (hdraw : ∀ (a : Ulid) h, failed h → failed (⟨.drawId, a⟩ :: h)) (h0 : failed h) :
    (codeEntities P u codes).run.Follows (Protocol P client)
      (Ends failed fun h' entities => h <:+ h' ∧ failed h' ∧ Batch P u codes entities) h := by
  induction codes generalizing h with
  | nil => exact ⟨List.suffix_refl h, h0, ⟨fun c hc => absurd hc List.not_mem_nil, rfl⟩⟩
  | cons code codes ih =>
    refine follows_lift_bind (fun _ _ => h0) fun hash hhash => ?_
    refine follows_ask_bind trivial (fun a _ _ => hdraw a h h0) fun a id hid => ?_
    refine (ih (hdraw a h h0)).bindOk fun h' entities hrest => ?_
    obtain ⟨hsuffix, hfailed, hbatch⟩ := hrest
    refine ⟨(List.suffix_cons _ h).trans hsuffix, hfailed, ⟨?_, ?_⟩⟩
    · intro c hc
      rcases List.mem_cons.1 hc with rfl | hc
      · exact ⟨rfl, rfl⟩
      · exact hbatch.owner c hc
    · rw [List.map_cons, List.map_cons, hbatch.hashes, hhash]

/-- No `enable_if_current` of the thread has committed. -/
def Undone (h : History Call.Reply) : Prop :=
  ∀ S entities, ⟨.write (.enableIfCurrent S entities), .ok true⟩ ∉ h

theorem Undone.cons {c : Call} {a : c.Reply} (h0 : Undone h)
    (hc : ∀ S entities, c ≠ .write (.enableIfCurrent S entities)) : Undone (⟨c, a⟩ :: h) := by
  intro S entities hmem
  rcases List.mem_cons.1 hmem with heq | hmem
  · exact hc S entities (congrArg Sigma.fst heq).symm
  · exact h0 S entities hmem

theorem Undone.committed {S : TotpSecret} {entities : List RecoveryCode}
    {a : Except IdentityError Bool} (h0 : Undone h) (ha : a ≠ .ok true) :
    Undone (⟨.write (.enableIfCurrent S entities), a⟩ :: h) := by
  intro S' entities' hmem
  rcases List.mem_cons.1 hmem with heq | hmem
  · cases heq
    exact ha rfl
  · exact h0 S' entities' hmem

/-- A call other than that one, and then the rest. -/
theorem Undone.ask {α β : Type} {c : Call} {f : c.Reply → Except AuthError α}
    {g : α → Operation β} {Q : History Call.Reply → β → Prop} (h0 : Undone h)
    (hne : ∀ S entities, c ≠ .write (.enableIfCurrent S entities)) (hc : Protocol P client h c)
    (hok : ∀ a b, f a = .ok b → Undone (⟨c, a⟩ :: h) →
      (g b).run.Follows (Protocol P client) (Ends Undone Q) (⟨c, a⟩ :: h)) :
    (Program.ask c f >>= g).run.Follows (Protocol P client) (Ends Undone Q) h :=
  follows_ask_bind hc (fun _ _ _ => h0.cons hne) fun a b hb => hok a b hb (h0.cons hne)

/-- **`verify_2fa`**: it enables only a secret it checked a code against, with the codes it then
    returns. -/
theorem follows_verify (u : UserId) (code : Nat) :
    (verify2fa P u code).run.Follows (Protocol P (.verify u code))
      (Ends Undone fun h codes => ∀ S entities,
        ⟨.write (.enableIfCurrent S entities), .ok true⟩ ∈ h → Batch P u codes entities) [] := by
  have hstart : Undone ([] : History Call.Reply) := fun S entities hmem => by cases hmem
  refine hstart.ask (by simp) trivial fun a user huser h1 => ?_
  refine follows_lift_bind (fun _ _ => h1) fun _ _ => ?_
  refine h1.ask (by simp) trivial fun secretReply S hS h2 => ?_
  refine follows_lift_bind (fun _ _ => h2) fun plaintext hopen => ?_
  refine h2.ask (by simp) trivial fun now matched hmatched h3 => ?_
  refine follows_lift_bind (fun _ _ => h3) fun _ hsome => ?_
  cases matched with
  | none => cases hsome
  | some t =>
    refine h3.ask (by simp) trivial fun codesReply codes hcodes h4 => ?_
    refine (follows_codeEntities codes (fun _ _ h => h.cons (by simp)) h4).bindOk ?_
    intro h' entities hentities
    obtain ⟨hsuffix, h5, hbatch⟩ := hentities
    rw [found_eq_ok hS, secure_eq_ok.1 hcodes] at hsuffix
    have hchecked : Checked P h' S u code t :=
      ⟨hsuffix.subset (by simp), now, plaintext, hsuffix.subset (by simp), secure_eq_ok.1 hopen,
        Except.ok.inj hmatched⟩
    refine follows_ask_bind ⟨u, code, t, codes, rfl, hchecked, hsuffix.subset (by simp), hbatch⟩
      (fun a e ha => ?_) fun a current ha => ?_
    · exact h5.committed fun hok => by rw [hok] at ha; cases ha
    · obtain rfl := enrolled_eq_ok.1 ha
      refine follows_lift_bind (fun e he => ?_) fun _ hcurrent => ?_
      · cases current with
        | true => cases he
        | false => exact h5.committed fun hf => by cases hf
      · intro S' entities' hmem
        rcases List.mem_cons.1 hmem with heq | hmem
        · cases heq
          exact hbatch
        · exact absurd hmem (h5 S' entities')

theorem follows_setup (u : UserId) (issuer : Str) :
    (setup2fa P u issuer).run.Follows (Protocol P (.setup u issuer))
      (Ends (fun _ => True) fun _ _ => True) h := by
  refine follows_ask_bind trivial (fun _ _ _ => trivial) fun _ _ _ => ?_
  refine follows_lift_bind (fun _ _ => trivial) fun _ _ => ?_
  refine follows_ask_bind trivial (fun _ _ _ => trivial) fun _ _ _ => ?_
  refine follows_ask_bind trivial (fun _ _ _ => trivial) fun _ _ _ => ?_
  exact follows_ask_bind ⟨u, issuer, rfl⟩ (fun _ _ _ => trivial) fun _ _ _ => trivial

theorem follows_authorized (u : UserId) (password : Str) :
    (authorized u password).run.Follows (Protocol P client)
      (Ends (fun _ => True) fun h' S => ⟨.findSecret u, .ok (some S)⟩ ∈ h') h := by
  refine follows_ask_bind trivial (fun _ _ _ => trivial) fun _ _ _ => ?_
  refine follows_lift_bind (fun _ _ => trivial) fun _ _ => ?_
  refine follows_ask_bind trivial (fun _ _ _ => trivial) fun reply S hS => ?_
  refine follows_ask_bind trivial (fun _ _ _ => trivial) fun _ _ _ => ?_
  refine follows_lift_bind (fun _ _ => trivial) fun _ _ => ?_
  obtain rfl := found_eq_ok hS
  exact List.mem_cons_of_mem _ List.mem_cons_self

/-- **`disable_2fa`** disables only a secret it has read. -/
theorem follows_disable (u : UserId) (password : Str) :
    (disable2fa u password).run.Follows (Protocol P (.disable u password))
      (Ends (fun _ => True) fun _ _ => True) h := by
  refine (follows_authorized u password).bindOk fun h' S hS => ?_
  refine follows_ask_bind ⟨u, password, rfl, hS⟩ (fun _ _ _ => trivial) fun _ _ _ => ?_
  exact follows_lift (ends_of (fun _ _ => trivial) fun _ _ => trivial)

/-- **`regenerate_recovery_codes`** replaces the codes only under a secret it has read. -/
theorem follows_regenerate (u : UserId) (password : Str) :
    (regenerateRecoveryCodes P u password).run.Follows (Protocol P (.regenerate u password))
      (Ends (fun _ => True) fun _ _ => True) h := by
  refine (follows_authorized u password).bindOk fun h' S hS => ?_
  refine follows_ask_bind trivial (fun _ _ _ => trivial) fun reply codes _ => ?_
  refine (follows_codeEntities codes (fun _ _ _ => trivial) trivial).bindOk fun h'' entities he => ?_
  obtain ⟨hsuffix, -, hbatch⟩ := he
  have hread := hsuffix.subset (List.mem_cons_of_mem _ hS)
  refine follows_ask_bind ⟨u, password, codes, rfl, hread, hbatch⟩ (fun _ _ _ => trivial)
    fun _ _ _ => ?_
  exact follows_lift_bind (fun _ _ => trivial) fun _ _ => trivial

/-- A TOTP code that is valid was recorded. -/
theorem follows_checkTotp (params : LoginParams) (u : UserId) :
    (checkTotp P u params.code).run.Follows (Protocol P (.login params))
      (Ends (fun _ => True) fun h' valid => valid = true →
        ∃ t, ⟨.write (.recordUsedTimestep u t), .ok true⟩ ∈ h') h := by
  refine follows_lift_bind (fun _ _ => trivial) fun number hnumber => ?_
  refine follows_ask_bind trivial (fun _ _ _ => trivial) fun reply S hS => ?_
  refine follows_lift_bind (fun _ _ => trivial) fun plaintext hopen => ?_
  refine follows_ask_bind trivial (fun _ _ _ => trivial) fun now matched hmatched => ?_
  obtain rfl := found_eq_ok hS
  cases matched with
  | none =>
    intro hvalid
    cases hvalid
  | some t =>
    have hchecked : Checked P (⟨.now, now⟩ :: ⟨.findSecret u, .ok (some S)⟩ :: h) S u number t :=
      ⟨by simp, now, plaintext, by simp, secure_eq_ok.1 hopen, Except.ok.inj hmatched⟩
    refine follows_ask ⟨params, S, number, rfl, okOr_eq_ok.1 hnumber, hchecked⟩ fun a => ends_of (fun valid hvalid htrue => ?_)
      fun _ _ => trivial
    rw [stored_eq_ok.1 hvalid, htrue]
    exact ⟨t, List.mem_cons_self⟩

/-- What `check_code` promises of its answer. -/
def Accepts (P : Primitives) (u : UserId) (code : Str) (h : History Call.Reply) :
    Option RecoveryCodeId → Prop
  | none => isTotpCode code = true ∧ ∃ t, ⟨.write (.recordUsedTimestep u t), .ok true⟩ ∈ h
  | some id => ∃ hash c, recoveryHash P code = .ok hash ∧
      ⟨.findUnusedByHash u hash, .ok (some c)⟩ ∈ h ∧ c.id = id

theorem Accepts.mono {u : UserId} {code : Str} {h' : History Call.Reply}
    {x : Option RecoveryCodeId} (hx : Accepts P u code h x) (hsub : h ⊆ h') :
    Accepts P u code h' x := by
  cases x with
  | none => exact ⟨hx.1, hx.2.imp fun t ht => hsub ht⟩
  | some id =>
    obtain ⟨hash, c, hhash, hmem, hid⟩ := hx
    exact ⟨hash, c, hhash, hsub hmem, hid⟩

theorem follows_findRecoveryCode (u : UserId) (code : Str) :
    (findRecoveryCode P u code).run.Follows (Protocol P client)
      (Ends (fun _ => True) fun h' found => found.isSome → Accepts P u code h' found) h := by
  refine follows_lift_bind (fun _ _ => trivial) fun hash hhash => ?_
  refine follows_ask trivial fun a => ends_of (fun found hfound hsome => ?_) fun _ _ => trivial
  obtain ⟨o, ho, hmap⟩ := bind_eq_ok.1 hfound
  obtain rfl := stored_eq_ok.1 ho
  obtain rfl := Except.ok.inj hmap
  cases o with
  | none => cases hsome
  | some c => exact ⟨hash, c, hhash, List.mem_cons_self, rfl⟩

theorem follows_checkCode (params : LoginParams) (u : UserId) :
    (checkCode P u params.code).run.Follows (Protocol P (.login params))
      (Ends (fun _ => True) fun h' r => r.1 = true → Accepts P u params.code h' r.2) h := by
  unfold checkCode
  split
  · rename_i htotp
    refine (follows_checkTotp params u).bindOk fun h' valid hvalid => ?_
    exact fun htrue => ⟨htotp, hvalid htrue⟩
  · exact (follows_findRecoveryCode u params.code).bindOk fun h' found hfound => hfound

theorem follows_createSession {params : LoginParams} {u : UserId} {user : User} (ip : Option Str)
    (session : Session) {x : Option RecoveryCodeId} (hx : Accepts P u params.code h x)
    (hfound : ⟨.findUser u, .ok (some user)⟩ ∈ h) (hsession : session.userId = user.id) :
    (createSession user.username ip session x).run.Follows (Protocol P (.login params))
      (Ends (fun _ => True) fun _ _ => True) h := by
  cases x with
  | none =>
    obtain ⟨htotp, t, ht⟩ := hx
    exact follows_ask ⟨params, u, user, t, rfl, htotp, hfound, hsession, ht⟩ fun _ =>
      ends_of (fun _ _ => trivial) fun _ _ => trivial
  | some id =>
    obtain ⟨hash, c, hhash, hmem, hid⟩ := hx
    refine follows_ask_bind ⟨params, u, user, hash, c, rfl, hfound, hsession, hhash, hmem, hid⟩
      (fun _ _ _ => trivial) fun _ reply _ => ?_
    cases reply with
    | ok r => trivial
    | error e =>
      cases e with
      | recoveryCodeNotFound => exact ⟨trivial, fun _ => trivial⟩
      | userNotFound | twoFactorAlreadyEnabled | storage => trivial

/-- **`login_2fa`** creates a session only for a code it accepted. -/
theorem follows_login (params : LoginParams) :
    (login2fa P params).run.Follows (Protocol P (.login params))
      (Ends (fun _ => True) fun _ _ => True) h := by
  refine follows_ask_bind trivial (fun _ _ _ => trivial) fun _ u _ => ?_
  refine follows_ask_bind trivial (fun _ _ _ => trivial) fun reply user huser => ?_
  refine follows_ask_bind trivial (fun _ _ _ => trivial) fun _ _ _ => ?_
  refine follows_ask_bind trivial (fun _ _ _ => trivial) fun _ _ _ => ?_
  refine Follows.bindOk (Q := fun h' r => ⟨.findUser u, .ok (some user)⟩ ∈ h' ∧
    (r.1 = true → Accepts P u params.code h' r.2)) ?_ fun h' r hr => ?_
  · refine (follows_checkCode params u).grows.weaken fun h' r hr => ?_
    cases r with
    | ok r =>
      rw [found_eq_ok huser] at hr
      exact ⟨hr.2.subset (by simp), hr.1⟩
    | error e => trivial
  · obtain ⟨valid, toConsume⟩ := r
    obtain ⟨hfound, haccepts⟩ := hr
    cases valid with
    | false => exact ⟨trivial, fun _ => trivial⟩
    | true =>
      have hlater : ∀ a b d : (c : Call) × c.Reply, h' ⊆ a :: b :: d :: h' := fun a b d x hx =>
        List.mem_cons_of_mem _ (List.mem_cons_of_mem _ (List.mem_cons_of_mem _ hx))
      refine follows_ask_bind trivial (fun _ _ _ => trivial) fun _ now _ => ?_
      refine follows_ask_bind trivial (fun _ _ _ => trivial) fun _ token _ => ?_
      refine follows_lift_bind (fun _ _ => trivial) fun tokenHash _ => ?_
      refine follows_ask_bind trivial (fun _ _ _ => trivial) fun _ id _ => ?_
      refine (follows_createSession _ _ ((haccepts rfl).mono (hlater _ _ _)) (hlater _ _ _ hfound)
        rfl).bindOk fun _ _ _ => ?_
      refine follows_ask_bind ⟨params, rfl⟩ (fun _ _ _ => trivial) fun _ _ _ => ?_
      exact follows_ask_bind trivial (fun _ _ _ => trivial) fun _ _ _ => trivial

/-- **Every client keeps to its protocol, and ends as it says.** -/
theorem client_follows (P : Primitives) (client : Client) :
    (client.program P).Follows (Protocol P client) (Finished P client) [] := by
  cases client with
  | setup u issuer => exact (follows_setup u issuer).bind fun _ _ _ => trivial
  | verify u code =>
    refine (follows_verify u code).bind fun h r hr => ?_
    intro S entities hmem
    cases r with
    | ok codes => exact ⟨codes, rfl, hr S entities hmem⟩
    | error e => exact absurd hmem (hr S entities)
  | disable u password => exact (follows_disable u password).bind fun _ _ _ => trivial
  | regenerate u password => exact (follows_regenerate u password).bind fun _ _ _ => trivial
  | login params => exact (follows_login params).bind fun _ _ _ => trivial

end Following

/-! ## 6. Ports that can be run -/

/-- What the outside answers in one turn of a schedule. -/
structure Outside where
  now : Timestamp
  id : Ulid
  secret : List UInt8
  sealed : Seal
  codes : List Str
  token : Str
  right : Bool
  allowed : Bool

/-- The ports without faults, for one answer of the outside. -/
def Outside.answer (o : Outside) : (c : Call) → AuthDb → c.Reply × AuthDb
  | .now, db => (o.now, db)
  | .drawId, db => (o.id, db)
  | .generateSecret, db => (.ok o.secret, db)
  | .sealParts _, db => (.ok o.sealed, db)
  | .generateRecoveryCodes, db => (.ok o.codes, db)
  | .generateSessionToken, db => (.ok o.token, db)
  | .verifyPassword _ _, db => (.ok o.right, db)
  | .checkRate _ _, db => (o.allowed, db)
  | .recordFailure _ _, db => ((), db)
  | .recordSuccess _ _, db => ((), db)
  | .findUser id, db => (.ok (db.users.find id), db)
  | .findSecret id, db => (.ok (TotpSecrets.findByUser db id), db)
  | .findUnusedByHash id hash, db => (.ok (RecoveryCodes.findUnusedByHash db id hash), db)
  | .write w, db => commit w.run db

/-- **The ports may answer so.** -/
theorem Outside.ports_answer (o : Outside) (c : Call) (db : AuthDb) :
    ports c db (o.answer c db).1 (o.answer c db).2 := by
  cases c with
  | now | drawId | generateSecret | sealParts | generateRecoveryCodes | generateSessionToken
  | verifyPassword | checkRate | recordFailure | recordSuccess => rfl
  | findUser | findSecret | findUnusedByHash => exact ⟨.inl rfl, rfl⟩
  | write w => exact .inl rfl

/-- A schedule that is run from the start. -/
def trace {ι : Type} [DecidableEq ι] (P : Primitives) (db : AuthDb) (clients : ι → Client)
    (turns : List (ι × Outside)) :
    Trace ι × Config Call.Reply AuthDb ι Outcome :=
  (system P db clients).exec (turns.map fun t => ⟨t.1, t.2.answer⟩)

theorem trace_run {ι : Type} [DecidableEq ι] (P : Primitives) (db : AuthDb) (clients : ι → Client)
    (turns : List (ι × Outside)) :
    Run ports (system P db clients) (trace P db clients turns).1 (trace P db clients turns).2 := by
  refine Run.start.exec _ fun t ht op s => ?_
  obtain ⟨turn, -, rfl⟩ := List.mem_map.1 ht
  exact turn.2.ports_answer op s

/-- Primitives under which every secret is empty and every code is 0. -/
def Primitives.plain : Primitives where
  openParts _ := .ok []
  hmacSha1 _ _ := List.replicate 20 0
  hmacDigest purpose text := .ok (purpose ++ text)
  base32 _ := []
  verifyChallengeToken _ _ := .ok (some 1)

/-- The outside at time 0, with a number that marks what is drawn. -/
def Outside.plain (n : Nat) : Outside where
  now := 0
  id := Fin.ofNat _ n
  secret := []
  sealed := ⟨List.replicate n 0, ⟨List.replicate 24 0, rfl⟩⟩
  codes := [List.replicate n 'A']
  token := List.replicate n 'A'
  right := true
  allowed := true

/-- A secret of the user, from the outside with that number. -/
def plainSecret (n : Nat) : TotpSecret := ⟨1, (Outside.plain n).sealed⟩

/-- The stored row of a secret that no login has used. -/
def unused (S : TotpSecret) : Table TotpRow := ⟨[⟨S, none⟩], List.nodup_singleton _⟩

/-- One user, with or without the flag and a secret. -/
def oneUser (flag : Bool) (rows : Table TotpRow) : AuthDb where
  users := ⟨[⟨1, "alice", [], true, none, flag, none⟩], List.nodup_singleton _⟩
  totpSecrets := rows
  recoveryCodes := .empty
  sessions := .empty

end TwoFactor

end DeveSub
