/-
  File:      DeveSub/Storage/Identity.lean
  Subject:   The repositories of two-factor authentication (`totp_repository.rs`,
             `recovery_code_repository.rs`, and what `user_repository.rs` and
             `session_repository.rs` do for it).

  The secret of a user can be replaced only while the flag is off. Enabling, disabling and new
  recovery codes first compare the sealed secret the caller has seen with the stored one, in the
  statement that writes the flag. A login writes the timestep it accepts only above the one that
  is stored, and takes a recovery code and creates its session in one transaction.

  * `AuthDb.enabled`, `AuthDb.sealOf`, `AuthDb.codesOf` -- what the tables say of one user;
  * `TotpStep`, `FlagStep`, `CodesStep` -- everything a committed write can do to a secret, a flag
    and the codes (`AuthWrite.totpStep`, `AuthWrite.flagStep`, `AuthWrite.codesStep`).
-/
import DeveSub.Domain.Identity
import DeveSub.Lib.Database

namespace DeveSub

/-! ## 1. Tables -/

/-- `totp_secrets`. -/
structure TotpRow where
  secret : TotpSecret
  lastUsedTimestep : Option Nat

instance : Keyed User UserId := ⟨User.id⟩
instance : Keyed TotpRow UserId := ⟨fun r => r.secret.userId⟩
instance : Keyed RecoveryCode RecoveryCodeId := ⟨RecoveryCode.id⟩
instance : Keyed Session SessionId := ⟨Session.id⟩

/-- The tables of identity. -/
structure AuthDb where
  users : Table User
  totpSecrets : Table TotpRow
  recoveryCodes : Table RecoveryCode
  sessions : Table Session

namespace AuthDb

/-- The two-factor flag of a user. -/
def enabled (db : AuthDb) (u : UserId) : Bool := (db.users.find u).any (·.twoFactorEnabled)

/-- The sealed secret that is stored for a user. -/
def sealOf (db : AuthDb) (u : UserId) : Option Seal := (db.totpSecrets.find u).map (·.secret.sealed)

/-- The recovery codes of a user. -/
def codesOf (db : AuthDb) (u : UserId) : List RecoveryCode :=
  db.recoveryCodes.rows.filter fun c => c.userId = u

end AuthDb

/-! ## 2. TOTP secrets -/

namespace TotpSecrets

/-- `find_by_user`. -/
def findByUser (db : AuthDb) (userId : UserId) : Option TotpSecret :=
  (db.totpSecrets.find userId).map (·.secret)

/-- `upsert`: one statement, which writes only while the flag is off. -/
def upsert (secret : TotpSecret) : Tx AuthDb IdentityError Unit := fun db =>
  if (db.users.find secret.userId).any fun user => !user.twoFactorEnabled then
    .ok ((), { db with
      totpSecrets := db.totpSecrets.upsert ⟨secret, none⟩
        (fun row => ⟨{ secret with userId := row.secret.userId }, none⟩) fun _ => rfl })
  else .error .twoFactorAlreadyEnabled

/-- `set_enabled_if_current`: none when the statement selects no row. -/
def setEnabledIfCurrent (expected : TotpSecret) (wasEnabled enabled : Bool) (db : AuthDb) :
    Option AuthDb :=
  if (db.users.find expected.userId).any (fun user => user.twoFactorEnabled = wasEnabled) &&
      (db.totpSecrets.rows.any fun row =>
        row.secret.userId = expected.userId && row.secret.sealed = expected.sealed) then
    some { db with
      users := db.users.update (fun user => user.id = expected.userId)
        (fun user => { user with twoFactorEnabled := enabled }) fun _ => rfl }
  else none

/-- `record_used_timestep`. -/
def recordUsedTimestep (userId : UserId) (timestep : Nat) : Tx AuthDb IdentityError Bool := fun db =>
  if 2 ^ 63 ≤ timestep then .error (.storage "TOTP timestep out of i64 range")
  else
    let fresh := fun row : TotpRow =>
      row.secret.userId = userId && row.lastUsedTimestep.all fun last => decide (last < timestep)
    if db.totpSecrets.rows.any fresh then
      .ok (true, { db with
        totpSecrets := db.totpSecrets.update fresh
          (fun row => { row with lastUsedTimestep := some timestep }) fun _ => rfl })
    else .ok (false, db)

end TotpSecrets

/-! ## 3. Recovery codes -/

namespace RecoveryCodes

/-- `INSERT INTO recovery_codes`: the owner exists, and key and hash are new. -/
def insert (code : RecoveryCode) (db : AuthDb) : Except IdentityError AuthDb := do
  rejectWhen (db.users.find code.userId).isNone (.storage "FOREIGN KEY constraint failed")
  rejectWhen (db.recoveryCodes.rows.any fun c => c.codeHash = code.codeHash)
    (.storage "UNIQUE constraint failed")
  let codes ← okOr (db.recoveryCodes.insert code) (.storage "UNIQUE constraint failed")
  return { db with recoveryCodes := codes }

/-- `replace_in_transaction`. -/
def replaceInTransaction (userId : UserId) (codes : List RecoveryCode) (db : AuthDb) :
    Except IdentityError AuthDb := do
  rejectWhen (codes.any fun code => code.userId ≠ userId)
    (.storage "recovery code owner does not match enrollment")
  codes.foldlM (fun db code => insert code db)
    { db with recoveryCodes := db.recoveryCodes.delete fun c => c.userId = userId }

/-- `find_unused_by_hash`. -/
def findUnusedByHash (db : AuthDb) (userId : UserId) (codeHash : Str) : Option RecoveryCode :=
  db.recoveryCodes.rows.find? fun c => c.userId = userId && c.codeHash = codeHash && !c.used

end RecoveryCodes

/-- `INSERT INTO sessions`: the user exists, and key and token are new. -/
def Sessions.create (session : Session) : Tx AuthDb IdentityError Unit := fun db => do
  rejectWhen (db.users.find session.userId).isNone (.storage "FOREIGN KEY constraint failed")
  rejectWhen (db.sessions.rows.any fun s => s.tokenHash = session.tokenHash)
    (.storage "UNIQUE constraint failed")
  let sessions ← okOr (db.sessions.insert session) (.storage "UNIQUE constraint failed")
  return ((), { db with sessions := sessions })

namespace RecoveryCodes

/-- `mark_used_and_create_session`. -/
def markUsedAndCreateSession (id : RecoveryCodeId) (session : Session) :
    Tx AuthDb IdentityError Unit := fun db =>
  if db.recoveryCodes.rows.any fun c => c.id = id && !c.used then
    Sessions.create session { db with
      recoveryCodes := db.recoveryCodes.update (fun c => c.id = id && !c.used)
        (fun c => { c with used := true }) fun _ => rfl }
  else .error .recoveryCodeNotFound

end RecoveryCodes

/-! ## 4. Enrollment -/

namespace TotpSecrets

/-- `enable_if_current`. -/
def enableIfCurrent (expected : TotpSecret) (codes : List RecoveryCode) :
    Tx AuthDb IdentityError Bool := fun db =>
  match setEnabledIfCurrent expected false true db with
  | none =>
    if (db.users.find expected.userId).any (·.twoFactorEnabled) then .error .twoFactorAlreadyEnabled
    else .ok (false, db)
  | some db' => do
    let db'' ← RecoveryCodes.replaceInTransaction expected.userId codes db'
    return (true, db'')

/-- `disable_if_current`. -/
def disableIfCurrent (expected : TotpSecret) : Tx AuthDb IdentityError Bool := fun db =>
  match setEnabledIfCurrent expected true false db with
  | none => .ok (false, db)
  | some db' => .ok (true, { db' with
      totpSecrets := db'.totpSecrets.delete fun row => row.secret.userId = expected.userId
      recoveryCodes := db'.recoveryCodes.delete fun c => c.userId = expected.userId })

/-- `replace_recovery_codes_if_current`. -/
def replaceRecoveryCodesIfCurrent (expected : TotpSecret) (codes : List RecoveryCode) :
    Tx AuthDb IdentityError Bool := fun db =>
  match setEnabledIfCurrent expected true true db with
  | none => .ok (false, db)
  | some db' => do
    let db'' ← RecoveryCodes.replaceInTransaction expected.userId codes db'
    return (true, db'')

end TotpSecrets

/-- `update_last_login`. -/
def Users.updateLastLogin (id : UserId) (at_ : Timestamp) : Tx AuthDb IdentityError Unit := fun db =>
  if (db.users.find id).isNone then .error .userNotFound
  else .ok ((), { db with
    users := db.users.update (fun u => u.id = id) (fun u => { u with lastLoginAt := some at_ })
      fun _ => rfl })

/-- The writes of two-factor authentication. -/
inductive AuthWrite where
  | upsertSecret (secret : TotpSecret)
  | enableIfCurrent (expected : TotpSecret) (codes : List RecoveryCode)
  | disableIfCurrent (expected : TotpSecret)
  | replaceRecoveryCodesIfCurrent (expected : TotpSecret) (codes : List RecoveryCode)
  | recordUsedTimestep (userId : UserId) (timestep : Nat)
  | markUsedAndCreateSession (id : RecoveryCodeId) (session : Session)
  | createSession (session : Session)
  | updateLastLogin (id : UserId) (now : Timestamp)

/-- What a committed write answers. -/
def AuthWrite.Result : AuthWrite → Type
  | .enableIfCurrent _ _ | .disableIfCurrent _ | .replaceRecoveryCodesIfCurrent _ _
  | .recordUsedTimestep _ _ => Bool
  | .upsertSecret _ | .markUsedAndCreateSession _ _ | .createSession _ | .updateLastLogin _ _ => Unit

/-- The transaction of a write. -/
def AuthWrite.run : (w : AuthWrite) → Tx AuthDb IdentityError w.Result
  | .upsertSecret secret => TotpSecrets.upsert secret
  | .enableIfCurrent expected codes => TotpSecrets.enableIfCurrent expected codes
  | .disableIfCurrent expected => TotpSecrets.disableIfCurrent expected
  | .replaceRecoveryCodesIfCurrent expected codes =>
    TotpSecrets.replaceRecoveryCodesIfCurrent expected codes
  | .recordUsedTimestep userId timestep => TotpSecrets.recordUsedTimestep userId timestep
  | .markUsedAndCreateSession id session => RecoveryCodes.markUsedAndCreateSession id session
  | .createSession session => Sessions.create session
  | .updateLastLogin id now => Users.updateLastLogin id now

/-! ## 5. What each write does -/

namespace TotpSecrets

variable {db db' : AuthDb} {expected secret : TotpSecret} {codes : List RecoveryCode} {u : UserId}

theorem findByUser_eq_some {s : TotpSecret} (h : findByUser db u = some s) :
    s.userId = u ∧ db.sealOf u = some s.sealed := by
  obtain ⟨row, hrow, rfl⟩ := Option.map_eq_some_iff.1 h
  refine ⟨(Table.find_eq_some.1 hrow).2, ?_⟩
  rw [AuthDb.sealOf, hrow]
  rfl

/-- **A secret is stored only while the flag is off**, and no other user is touched. -/
theorem upsert_eq_ok {r : Unit} (h : upsert secret db = .ok (r, db')) :
    db.enabled secret.userId = false ∧ db'.users = db.users ∧
      db'.recoveryCodes = db.recoveryCodes ∧ db'.sessions = db.sessions ∧
      ∀ u, db'.totpSecrets.find u =
        if secret.userId = u then some ⟨secret, none⟩ else db.totpSecrets.find u := by
  unfold upsert at h
  split at h
  · rename_i hflag
    cases h
    obtain ⟨user, huser, hoff⟩ := (Option.any_eq_true _ _).1 hflag
    refine ⟨?_, rfl, rfl, rfl, fun u => ?_⟩
    · rw [AuthDb.enabled, huser]
      simpa using hoff
    · refine (Table.find_upsert db.totpSecrets _ _ _ u).trans ?_
      by_cases hu : secret.userId = u
      · subst hu
        rw [if_pos rfl]
        refine (if_pos rfl).trans (congrArg some ?_)
        cases hrow : db.totpSecrets.find secret.userId with
        | none => rfl
        | some row =>
          have hkey : row.secret.userId = secret.userId := (Table.find_eq_some.1 hrow).2
          simp [hkey]
      · rw [if_neg hu]
        exact if_neg hu
  · cases h

/-- The compared write of the flag: the secret was the expected one, and the flag of that user
    went from one value to the other. -/
structure Compared (expected : TotpSecret) (was now : Bool) (db db' : AuthDb) : Prop where
  was_eq : db.enabled expected.userId = was
  seal_eq : db.sealOf expected.userId = some expected.sealed
  enabled_eq : ∀ u, db'.enabled u = if expected.userId = u then now else db.enabled u

/-- **The flag is written only under the secret the caller has seen.** -/
theorem setEnabledIfCurrent_eq_some {was now : Bool}
    (h : setEnabledIfCurrent expected was now db = some db') :
    Compared expected was now db db' ∧ db'.totpSecrets = db.totpSecrets ∧
      db'.recoveryCodes = db.recoveryCodes ∧ db'.sessions = db.sessions := by
  unfold setEnabledIfCurrent at h
  split at h
  · rename_i hcur
    cases h
    obtain ⟨hflag, hseal⟩ := Bool.and_eq_true_iff.1 hcur
    obtain ⟨user, huser, hwas⟩ := (Option.any_eq_true _ _).1 hflag
    obtain ⟨row, hrow, hsame⟩ := List.any_eq_true.1 hseal
    rw [Bool.and_eq_true_iff, decide_eq_true_iff, decide_eq_true_iff] at hsame
    refine ⟨⟨?_, ?_, fun u => ?_⟩, rfl, rfl, rfl⟩
    · rw [AuthDb.enabled, huser]
      simpa using hwas
    · rw [AuthDb.sealOf, Table.find_eq_some.2 ⟨hrow, hsame.1⟩, Option.map_some, hsame.2]
    · simp only [AuthDb.enabled, Table.find_update]
      by_cases hu : expected.userId = u
      · subst hu
        rw [if_pos rfl, huser]
        have hkey : user.id = expected.userId := (Table.find_eq_some.1 huser).2
        simp [hkey]
      · rw [if_neg hu]
        cases hfind : db.users.find u with
        | none => rfl
        | some user' =>
          have hkey : user'.id = u := (Table.find_eq_some.1 hfind).2
          simp [hkey, Ne.symm hu]
  · cases h

/-- **A timestep is accepted only above the stored one.** -/
theorem recordUsedTimestep_eq_true {t : Nat} (h : recordUsedTimestep u t db = .ok (true, db')) :
    db'.users = db.users ∧ db'.recoveryCodes = db.recoveryCodes ∧ db'.sessions = db.sessions ∧
      (∃ row, db.totpSecrets.find u = some row ∧ (∀ last ∈ row.lastUsedTimestep, last < t) ∧
        db'.totpSecrets.find u = some { row with lastUsedTimestep := some t }) ∧
      ∀ v, u ≠ v → db'.totpSecrets.find v = db.totpSecrets.find v := by
  unfold recordUsedTimestep at h
  split at h
  · cases h
  · dsimp only at h
    split at h
    · rename_i hfresh
      cases h
      obtain ⟨row, hrow, hsel⟩ := List.any_eq_true.1 hfresh
      have hparts := hsel
      rw [Bool.and_eq_true_iff, decide_eq_true_iff] at hparts
      have hfind : db.totpSecrets.find u = some row := Table.find_eq_some.2 ⟨hrow, hparts.1⟩
      refine ⟨rfl, rfl, rfl, ⟨row, hfind, ?_, ?_⟩, fun v hv => ?_⟩
      · simpa [Option.all_eq_true] using hparts.2
      · dsimp only
        rw [Table.find_update]
        rw [hfind, Option.map_some, hsel]
        rfl
      · dsimp only
        rw [Table.find_update]
        cases hother : db.totpSecrets.find v with
        | none => rfl
        | some row' =>
          have hkey : row'.secret.userId = v := (Table.find_eq_some.1 hother).2
          simp [hkey, Ne.symm hv]
    · cases h

theorem recordUsedTimestep_eq_false {t : Nat} (h : recordUsedTimestep u t db = .ok (false, db')) :
    db' = db := by
  unfold recordUsedTimestep at h
  split at h
  · cases h
  · dsimp only at h
    split at h <;> cases h
    rfl

end TotpSecrets

namespace RecoveryCodes

variable {db db' : AuthDb} {codes : List RecoveryCode} {u : UserId}

theorem insert_eq_ok {code : RecoveryCode} (h : insert code db = .ok db') :
    db'.users = db.users ∧ db'.totpSecrets = db.totpSecrets ∧ db'.sessions = db.sessions ∧
      db'.recoveryCodes.rows = db.recoveryCodes.rows ++ [code] := by
  obtain ⟨-, -, h⟩ := bind_eq_ok.1 h
  obtain ⟨-, -, h⟩ := bind_eq_ok.1 h
  obtain ⟨rows, hrows, h⟩ := bind_eq_ok.1 h
  cases h
  exact ⟨rfl, rfl, rfl, Table.insert_rows (okOr_eq_ok.1 hrows)⟩

theorem foldlM_insert_eq_ok (h : codes.foldlM (fun db code => insert code db) db = .ok db') :
    db'.users = db.users ∧ db'.totpSecrets = db.totpSecrets ∧ db'.sessions = db.sessions ∧
      db'.recoveryCodes.rows = db.recoveryCodes.rows ++ codes := by
  induction codes generalizing db with
  | nil =>
    cases h
    exact ⟨rfl, rfl, rfl, (List.append_nil _).symm⟩
  | cons code codes ih =>
    rw [List.foldlM_cons] at h
    obtain ⟨db₁, hcode, h⟩ := bind_eq_ok.1 h
    obtain ⟨hu, ht, hs, hr⟩ := insert_eq_ok hcode
    obtain ⟨hu', ht', hs', hr'⟩ := ih h
    refine ⟨hu'.trans hu, ht'.trans ht, hs'.trans hs, ?_⟩
    rw [hr', hr, List.append_assoc, List.singleton_append]

/-- The codes of a user are exactly these, and no other user's are touched. -/
structure Replaced (u : UserId) (codes : List RecoveryCode) (t t' : Table RecoveryCode) : Prop where
  owner : ∀ c ∈ codes, c.userId = u
  rows_eq : t'.rows = t.rows.filter (fun c => !decide (c.userId = u)) ++ codes

theorem Replaced.codesOf (h : Replaced u codes db.recoveryCodes db'.recoveryCodes) :
    db'.codesOf u = codes := by
  rw [AuthDb.codesOf, h.rows_eq, List.filter_append, List.filter_filter]
  have hnone : (db.recoveryCodes.rows.filter fun c => decide (c.userId = u) && !decide (c.userId = u)) =
      [] := List.filter_eq_nil_iff.2 fun c _ => by simp
  rw [hnone, List.nil_append, List.filter_eq_self]
  exact fun c hc => decide_eq_true (h.owner c hc)

theorem replaceInTransaction_eq_ok (h : replaceInTransaction u codes db = .ok db') :
    db'.users = db.users ∧ db'.totpSecrets = db.totpSecrets ∧ db'.sessions = db.sessions ∧
      Replaced u codes db.recoveryCodes db'.recoveryCodes := by
  obtain ⟨⟨⟩, howner, h⟩ := bind_eq_ok.1 h
  obtain ⟨hu, ht, hs, hr⟩ := foldlM_insert_eq_ok h
  refine ⟨hu, ht, hs, ?_, hr⟩
  simpa using rejectWhen_eq_ok.1 howner

end RecoveryCodes

theorem Sessions.create_eq_ok {db db' : AuthDb} {session : Session} {r : Unit}
    (h : Sessions.create session db = .ok (r, db')) :
    db'.users = db.users ∧ db'.totpSecrets = db.totpSecrets ∧
      db'.recoveryCodes = db.recoveryCodes ∧ db.sessions.insert session = some db'.sessions := by
  obtain ⟨-, -, h⟩ := bind_eq_ok.1 h
  obtain ⟨-, -, h⟩ := bind_eq_ok.1 h
  obtain ⟨rows, hrows, h⟩ := bind_eq_ok.1 h
  cases h
  exact ⟨rfl, rfl, rfl, okOr_eq_ok.1 hrows⟩

/-- **A code is taken together with its session.** -/
theorem RecoveryCodes.markUsed_eq_ok {db db' : AuthDb} {id : RecoveryCodeId} {session : Session}
    {r : Unit} (h : RecoveryCodes.markUsedAndCreateSession id session db = .ok (r, db')) :
    db'.users = db.users ∧ db'.totpSecrets = db.totpSecrets ∧
      db.sessions.insert session = some db'.sessions ∧
      (∃ code ∈ db.recoveryCodes, code.id = id ∧ code.used = false) ∧
      ∀ c, c ∈ db'.recoveryCodes ↔
        ∃ x ∈ db.recoveryCodes, (if x.id = id && !x.used then { x with used := true } else x) = c := by
  unfold markUsedAndCreateSession at h
  split at h
  · rename_i hfree
    obtain ⟨hu, ht, hc, hs⟩ := Sessions.create_eq_ok h
    obtain ⟨code, hcode, hsel⟩ := List.any_eq_true.1 hfree
    rw [Bool.and_eq_true_iff, decide_eq_true_iff, Bool.not_eq_true'] at hsel
    refine ⟨hu, ht, hs, ⟨code, hcode, hsel⟩, fun c => ?_⟩
    rw [hc, Table.mem_update]
  · cases h

namespace TotpSecrets

variable {db db' : AuthDb} {expected : TotpSecret} {codes : List RecoveryCode}

/-- The flag first, then the codes, in one transaction. -/
theorem compared_replaced {was now : Bool} {db₁ : AuthDb}
    (hset : setEnabledIfCurrent expected was now db = some db₁)
    (hcodes : RecoveryCodes.replaceInTransaction expected.userId codes db₁ = .ok db') :
    Compared expected was now db db' ∧ db'.totpSecrets = db.totpSecrets ∧
      db'.sessions = db.sessions ∧
      RecoveryCodes.Replaced expected.userId codes db.recoveryCodes db'.recoveryCodes := by
  obtain ⟨hcmp, ht, hr, hs⟩ := setEnabledIfCurrent_eq_some hset
  obtain ⟨hu', ht', hs', hr'⟩ := RecoveryCodes.replaceInTransaction_eq_ok hcodes
  rw [hr] at hr'
  refine ⟨⟨hcmp.was_eq, hcmp.seal_eq, fun v => ?_⟩, ht'.trans ht, hs'.trans hs, hr'⟩
  rw [← hcmp.enabled_eq v, AuthDb.enabled, hu', AuthDb.enabled]

/-- **Enabling** turns the flag on under the expected secret and leaves the user with these codes. -/
theorem enableIfCurrent_eq_true (h : enableIfCurrent expected codes db = .ok (true, db')) :
    Compared expected false true db db' ∧ db'.totpSecrets = db.totpSecrets ∧
      db'.sessions = db.sessions ∧
      RecoveryCodes.Replaced expected.userId codes db.recoveryCodes db'.recoveryCodes := by
  unfold enableIfCurrent at h
  split at h
  · split at h <;> cases h
  · rename_i db₁ hset
    obtain ⟨db₂, hcodes, h⟩ := bind_eq_ok.1 h
    cases h
    exact compared_replaced hset hcodes

theorem enableIfCurrent_eq_false (h : enableIfCurrent expected codes db = .ok (false, db')) :
    db' = db := by
  unfold enableIfCurrent at h
  split at h
  · split at h <;> cases h
    rfl
  · obtain ⟨_, -, h⟩ := bind_eq_ok.1 h
    cases h

/-- **Disabling** turns the flag off and takes the secret and the codes with it. -/
theorem disableIfCurrent_eq_true (h : disableIfCurrent expected db = .ok (true, db')) :
    Compared expected true false db db' ∧ db'.sessions = db.sessions ∧
      RecoveryCodes.Replaced expected.userId [] db.recoveryCodes db'.recoveryCodes ∧
      ∀ v, db'.totpSecrets.find v =
        if expected.userId = v then none else db.totpSecrets.find v := by
  unfold disableIfCurrent at h
  split at h
  · cases h
  · rename_i db₁ hset
    cases h
    obtain ⟨hcmp, ht, hr, hs⟩ := setEnabledIfCurrent_eq_some hset
    refine ⟨⟨hcmp.was_eq, hcmp.seal_eq, hcmp.enabled_eq⟩, hs, ⟨?_, ?_⟩, fun v => ?_⟩
    · intro c hc
      cases hc
    · rw [← hr, List.append_nil]
      rfl
    · dsimp only
      rw [Table.find_delete, ht]
      cases hfind : db.totpSecrets.find v with
      | none => simp
      | some row =>
        have hkey : row.secret.userId = v := (Table.find_eq_some.1 hfind).2
        by_cases hv : expected.userId = v
        · simp [hkey, hv]
        · simp [hkey, hv, Option.filter, Ne.symm hv]

theorem disableIfCurrent_eq_false (h : disableIfCurrent expected db = .ok (false, db')) :
    db' = db := by
  unfold disableIfCurrent at h
  split at h <;> cases h
  rfl

/-- **New recovery codes** replace the old ones under the expected secret. -/
theorem replaceRecoveryCodesIfCurrent_eq_true
    (h : replaceRecoveryCodesIfCurrent expected codes db = .ok (true, db')) :
    Compared expected true true db db' ∧ db'.totpSecrets = db.totpSecrets ∧
      db'.sessions = db.sessions ∧
      RecoveryCodes.Replaced expected.userId codes db.recoveryCodes db'.recoveryCodes := by
  unfold replaceRecoveryCodesIfCurrent at h
  split at h
  · cases h
  · rename_i db₁ hset
    obtain ⟨db₂, hcodes, h⟩ := bind_eq_ok.1 h
    cases h
    exact compared_replaced hset hcodes

theorem replaceRecoveryCodesIfCurrent_eq_false
    (h : replaceRecoveryCodesIfCurrent expected codes db = .ok (false, db')) : db' = db := by
  unfold replaceRecoveryCodesIfCurrent at h
  split at h
  · cases h
    rfl
  · obtain ⟨_, -, h⟩ := bind_eq_ok.1 h
    cases h

end TotpSecrets

theorem Users.updateLastLogin_eq_ok {db db' : AuthDb} {id : UserId} {now : Timestamp} {r : Unit}
    (h : Users.updateLastLogin id now db = .ok (r, db')) :
    db'.totpSecrets = db.totpSecrets ∧ db'.recoveryCodes = db.recoveryCodes ∧
      db'.sessions = db.sessions ∧ ∀ v, db'.enabled v = db.enabled v := by
  unfold updateLastLogin at h
  split at h <;> cases h
  refine ⟨rfl, rfl, rfl, fun v => ?_⟩
  simp only [AuthDb.enabled, Table.find_update]
  cases db.users.find v with
  | none => rfl
  | some user => by_cases hid : user.id = id <;> simp [hid]

/-! ## 6. What a write can do, table by table -/

/-- **What can happen to the secret of a user.** -/
inductive TotpStep (u : UserId) (db db' : AuthDb) : (w : AuthWrite) → w.Result → Prop where
  | same {w r} (h : db'.totpSecrets.find u = db.totpSecrets.find u) : TotpStep u db db' w r
  | stored {S r} (hu : S.userId = u) (hoff : db.enabled u = false)
      (h : db'.totpSecrets.find u = some ⟨S, none⟩) : TotpStep u db db' (.upsertSecret S) r
  | cleared {S} (hu : S.userId = u) (h : db'.totpSecrets.find u = none) :
      TotpStep u db db' (.disableIfCurrent S) true
  | recorded {t row} (hrow : db.totpSecrets.find u = some row)
      (hlt : ∀ last ∈ row.lastUsedTimestep, last < t)
      (h : db'.totpSecrets.find u = some { row with lastUsedTimestep := some t }) :
      TotpStep u db db' (.recordUsedTimestep u t) true

/-- **What can happen to the flag of a user.** -/
inductive FlagStep (u : UserId) (db db' : AuthDb) : (w : AuthWrite) → w.Result → Prop where
  | same {w r} (h : db'.enabled u = db.enabled u) : FlagStep u db db' w r
  | enabled {S codes} (hu : S.userId = u) : FlagStep u db db' (.enableIfCurrent S codes) true
  | disabled {S} (hu : S.userId = u) : FlagStep u db db' (.disableIfCurrent S) true

/-- The codes a write issues. -/
def AuthWrite.issues : AuthWrite → List RecoveryCode
  | .enableIfCurrent _ codes | .replaceRecoveryCodesIfCurrent _ codes => codes
  | _ => []

/-- **What can happen to the recovery codes.** -/
inductive CodesStep (db db' : AuthDb) : (w : AuthWrite) → w.Result → Prop where
  | same {w r} (h : db'.recoveryCodes = db.recoveryCodes) : CodesStep db db' w r
  | replaced {w r} (u : UserId)
      (h : RecoveryCodes.Replaced u w.issues db.recoveryCodes db'.recoveryCodes) :
      CodesStep db db' w r
  | used {id session r} (hs : db.sessions.insert session = some db'.sessions)
      (hfree : ∃ code ∈ db.recoveryCodes, code.id = id ∧ code.used = false)
      (h : ∀ c, c ∈ db'.recoveryCodes ↔
        ∃ x ∈ db.recoveryCodes, (if x.id = id && !x.used then { x with used := true } else x) = c) :
      CodesStep db db' (.markUsedAndCreateSession id session) r

section Steps

variable {w : AuthWrite} {r : w.Result} {db db' : AuthDb}

theorem AuthWrite.totpStep (h : w.run db = .ok (r, db')) (u : UserId) : TotpStep u db db' w r := by
  cases w with
  | upsertSecret S =>
    obtain ⟨hoff, -, -, -, hfind⟩ := TotpSecrets.upsert_eq_ok h
    by_cases hu : S.userId = u
    · exact .stored hu (hu ▸ hoff) ((hfind u).trans (if_pos hu))
    · exact .same ((hfind u).trans (if_neg hu))
  | enableIfCurrent S codes =>
    cases r with
    | true => exact .same (by rw [(TotpSecrets.enableIfCurrent_eq_true h).2.1])
    | false => exact .same (by rw [TotpSecrets.enableIfCurrent_eq_false h])
  | disableIfCurrent S =>
    cases r with
    | true =>
      obtain ⟨-, -, -, hfind⟩ := TotpSecrets.disableIfCurrent_eq_true h
      by_cases hu : S.userId = u
      · exact .cleared hu ((hfind u).trans (if_pos hu))
      · exact .same ((hfind u).trans (if_neg hu))
    | false => exact .same (by rw [TotpSecrets.disableIfCurrent_eq_false h])
  | replaceRecoveryCodesIfCurrent S codes =>
    cases r with
    | true => exact .same (by rw [(TotpSecrets.replaceRecoveryCodesIfCurrent_eq_true h).2.1])
    | false => exact .same (by rw [TotpSecrets.replaceRecoveryCodesIfCurrent_eq_false h])
  | recordUsedTimestep v t =>
    cases r with
    | true =>
      obtain ⟨-, -, -, ⟨row, hrow, hlt, hfind⟩, hother⟩ := TotpSecrets.recordUsedTimestep_eq_true h
      by_cases hu : v = u
      · subst hu
        exact .recorded hrow hlt hfind
      · exact .same (hother u hu)
    | false => exact .same (by rw [TotpSecrets.recordUsedTimestep_eq_false h])
  | markUsedAndCreateSession id session => exact .same (by rw [(RecoveryCodes.markUsed_eq_ok h).2.1])
  | createSession session => exact .same (by rw [(Sessions.create_eq_ok h).2.1])
  | updateLastLogin id now => exact .same (by rw [(Users.updateLastLogin_eq_ok h).1])

theorem AuthWrite.flagStep (h : w.run db = .ok (r, db')) (u : UserId) : FlagStep u db db' w r := by
  cases w with
  | upsertSecret S => exact .same (by rw [AuthDb.enabled, (TotpSecrets.upsert_eq_ok h).2.1]; rfl)
  | enableIfCurrent S codes =>
    cases r with
    | true =>
      by_cases hu : S.userId = u
      · exact .enabled hu
      · exact .same (((TotpSecrets.enableIfCurrent_eq_true h).1.enabled_eq u).trans (if_neg hu))
    | false => exact .same (by rw [TotpSecrets.enableIfCurrent_eq_false h])
  | disableIfCurrent S =>
    cases r with
    | true =>
      by_cases hu : S.userId = u
      · exact .disabled hu
      · exact .same (((TotpSecrets.disableIfCurrent_eq_true h).1.enabled_eq u).trans (if_neg hu))
    | false => exact .same (by rw [TotpSecrets.disableIfCurrent_eq_false h])
  | replaceRecoveryCodesIfCurrent S codes =>
    cases r with
    | true =>
      obtain ⟨hcmp, -⟩ := TotpSecrets.replaceRecoveryCodesIfCurrent_eq_true h
      by_cases hu : S.userId = u
      · subst hu
        exact .same ((hcmp.enabled_eq _).trans ((if_pos rfl).trans hcmp.was_eq.symm))
      · exact .same ((hcmp.enabled_eq u).trans (if_neg hu))
    | false => exact .same (by rw [TotpSecrets.replaceRecoveryCodesIfCurrent_eq_false h])
  | recordUsedTimestep v t =>
    cases r with
    | true => exact .same (by rw [AuthDb.enabled, (TotpSecrets.recordUsedTimestep_eq_true h).1]; rfl)
    | false => exact .same (by rw [TotpSecrets.recordUsedTimestep_eq_false h])
  | markUsedAndCreateSession id session =>
    exact .same (by rw [AuthDb.enabled, (RecoveryCodes.markUsed_eq_ok h).1]; rfl)
  | createSession session => exact .same (by rw [AuthDb.enabled, (Sessions.create_eq_ok h).1]; rfl)
  | updateLastLogin id now => exact .same ((Users.updateLastLogin_eq_ok h).2.2.2 u)

theorem AuthWrite.codesStep (h : w.run db = .ok (r, db')) : CodesStep db db' w r := by
  cases w with
  | upsertSecret S => exact .same (TotpSecrets.upsert_eq_ok h).2.2.1
  | enableIfCurrent S codes =>
    cases r with
    | true => exact .replaced S.userId (TotpSecrets.enableIfCurrent_eq_true h).2.2.2
    | false => exact .same (by rw [TotpSecrets.enableIfCurrent_eq_false h])
  | disableIfCurrent S =>
    cases r with
    | true => exact .replaced S.userId (TotpSecrets.disableIfCurrent_eq_true h).2.2.1
    | false => exact .same (by rw [TotpSecrets.disableIfCurrent_eq_false h])
  | replaceRecoveryCodesIfCurrent S codes =>
    cases r with
    | true => exact .replaced S.userId (TotpSecrets.replaceRecoveryCodesIfCurrent_eq_true h).2.2.2
    | false => exact .same (by rw [TotpSecrets.replaceRecoveryCodesIfCurrent_eq_false h])
  | recordUsedTimestep v t =>
    cases r with
    | true => exact .same (TotpSecrets.recordUsedTimestep_eq_true h).2.1
    | false => exact .same (by rw [TotpSecrets.recordUsedTimestep_eq_false h])
  | markUsedAndCreateSession id session =>
    obtain ⟨-, -, hs, hfree, hmem⟩ := RecoveryCodes.markUsed_eq_ok h
    exact .used hs hfree hmem
  | createSession session => exact .same (Sessions.create_eq_ok h).2.2.1
  | updateLastLogin id now => exact .same (Users.updateLastLogin_eq_ok h).2.1

end Steps

end DeveSub
