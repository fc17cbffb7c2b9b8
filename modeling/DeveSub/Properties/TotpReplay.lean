/-
  File:      DeveSub/Properties/TotpReplay.lean
  Subject:   When a TOTP login is bound to the enrollment it checked, and when a timestep is
             accepted twice.

  `login_2fa` reads the secret, checks the code and records the timestep in three steps. The last
  one looks at the user's row only: neither at the flag nor at the secret the code was checked
  against. So a login goes through on a secret that is pending, or that was replaced after it was
  read (`totp_login_enrolled_iff`); and a timestep of one secret is accepted twice when the second
  login records it on the row of another secret, or when the first acceptance was that of
  `verify_2fa`, which records nothing (`code_accepted_twice`). Without a setup between a login's read
  and its recording, and with logins well after the verification, every timestep is accepted once
  (`totp_accepted_once`).
-/
import DeveSub.Properties.Enrollment

namespace DeveSub.TwoFactor

variable {ι : Type} [DecidableEq ι] {P : Primitives} {db₀ : AuthDb} {clients : ι → Client}
  {es : Trace ι} {c : Config Call.Reply AuthDb ι Outcome}

/-! ## 1. The recorded timestep -/

/-- The user has a row now only if there was one before, with no later timestep. -/
def RowKept (u : UserId) (s t : AuthDb) : Prop :=
  ∀ row', t.totpSecrets.find u = some row' → ∃ row, s.totpSecrets.find u = some row ∧
    ∀ n ∈ row.lastUsedTimestep, ∃ m ∈ row'.lastUsedTimestep, n ≤ m

theorem RowKept.refl (u : UserId) (s : AuthDb) : RowKept u s s :=
  fun row h => ⟨row, h, fun n hn => ⟨n, hn, Nat.le_refl n⟩⟩

theorem RowKept.trans {u : UserId} {s t v : AuthDb} (h₁ : RowKept u s t) (h₂ : RowKept u t v) :
    RowKept u s v := by
  intro row'' hrow''
  obtain ⟨row', hrow', hle'⟩ := h₂ row'' hrow''
  obtain ⟨row, hrow, hle⟩ := h₁ row' hrow'
  refine ⟨row, hrow, fun n hn => ?_⟩
  obtain ⟨m, hm, hnm⟩ := hle n hn
  obtain ⟨k, hk, hmk⟩ := hle' m hm
  exact ⟨k, hk, hnm.trans hmk⟩

section Along

variable (hrun : Run ports (system P db₀ clients) es c) {pre post : Trace ι} {e : CallEvent ι}

include hrun

/-- **Only a setup of the user takes a recorded timestep back.** -/
theorem rowKept_step (he : e ∈ es) {u : UserId} (hne : ¬ Stores u e) : RowKept u e.before e.after := by
  rcases event_change hrun he with hsame | ⟨w, r, hw, hrunw⟩
  · rw [hsame]
    exact RowKept.refl u _
  · cases AuthWrite.totpStep hrunw u with
    | same h =>
      intro row' hrow'
      rw [h] at hrow'
      exact RowKept.refl u _ row' hrow'
    | stored hu hoff h => exact absurd ⟨_, hw, hu⟩ hne
    | cleared hu h =>
      intro row' hrow'
      rw [h] at hrow'
      cases hrow'
    | @recorded t row hrow hlt h =>
      intro row' hrow'
      rw [h] at hrow'
      obtain rfl := Option.some.inj hrow'
      exact ⟨row, hrow, fun n hn => ⟨t, rfl, Nat.le_of_lt (hlt n hn)⟩⟩

/-- **On one secret a timestep is recorded once**, and later ones are larger. -/
theorem recorded_lt (hfresh : FreshSeals db₀ es) {pre mid post : Trace ι} {d e : CallEvent ι}
    (hes : es = pre ++ d :: (mid ++ e :: post)) {u : UserId} {s t : Nat} {x : Seal}
    (hd : d.Is (.write (.recordUsedTimestep u s)) (.ok true))
    (he : e.Is (.write (.recordUsedTimestep u t)) (.ok true))
    (hdx : d.before.sealOf u = some x) (hex : e.before.sealOf u = some x) : s < t := by
  have hdmem : d ∈ es := hes ▸ List.mem_append_cons_self
  have hemem : e ∈ es := by simp [hes]
  obtain ⟨-, -, -, ⟨row, -, -, hafter⟩, -⟩ :=
    TotpSecrets.recordUsedTimestep_eq_true (event_committed hrun hdmem hd)
  obtain ⟨-, -, -, ⟨row', hbefore, hlt, -⟩, -⟩ :=
    TotpSecrets.recordUsedTimestep_eq_true (event_committed hrun hemem he)
  have hkept : RowKept u d.after e.before := by
    refine hrun.segment (RowKept.refl u) (fun _ _ _ => RowKept.trans) hes fun y hy => ?_
    exact rowKept_step hrun (by simp [hes, hy]) (not_stored_between hrun hfresh hes hdx hex y hy)
  obtain ⟨row₁, hrow₁, hle⟩ := hkept row' hbefore
  rw [hafter] at hrow₁
  obtain rfl := Option.some.inj hrow₁
  obtain ⟨m, hm, hsm⟩ := hle s rfl
  exact Nat.lt_of_le_of_lt hsm (hlt m hm)

/-- A recording leaves the seal. -/
theorem recorded_seal (he : e ∈ es) {u : UserId} {t : Nat}
    (hr : e.Is (.write (.recordUsedTimestep u t)) (.ok true)) :
    e.after.sealOf u = e.before.sealOf u ∧ ∃ x, e.before.sealOf u = some x := by
  obtain ⟨-, -, -, ⟨row, hrow, -, hafter⟩, -⟩ :=
    TotpSecrets.recordUsedTimestep_eq_true (event_committed hrun he hr)
  rw [AuthDb.sealOf, AuthDb.sealOf, hafter, hrow]
  exact ⟨rfl, _, rfl⟩

/-! ## 2. Acceptance -/

/-- A login accepts a code of a timestep of a secret: it has read the secret, the code stood for
    the timestep, and the timestep was recorded. -/
def LoginAccepts (P : Primitives) (clients : ι → Client) (pre : Trace ι)
    (e : CallEvent ι) (S : TotpSecret) (t : Nat) : Prop :=
  ∃ params code, clients e.thread = .login params ∧
    parseUnsigned (2 ^ 32) params.code = some code ∧
    e.Is (.write (.recordUsedTimestep S.userId t)) (.ok true) ∧
    Checked P (own e.thread pre) S S.userId code t

/-- A verification accepts a code of a timestep of a secret, and enables the secret. -/
def VerifyAccepts (P : Primitives) (clients : ι → Client) (pre : Trace ι)
    (e : CallEvent ι) (S : TotpSecret) (t : Nat) : Prop :=
  ∃ code entities, clients e.thread = .verify S.userId code ∧
    e.Is (.write (.enableIfCurrent S entities)) (.ok true) ∧
    Checked P (own e.thread pre) S S.userId code t

/-- A recording is the acceptance of a secret that the thread read. -/
theorem loginAccepts_of_recorded (hes : es = pre ++ e :: post) {u : UserId} {t : Nat}
    (he : e.Is (.write (.recordUsedTimestep u t)) (.ok true)) :
    ∃ S, S.userId = u ∧ LoginAccepts P clients pre e S t := by
  obtain ⟨params, S, code, hclient, hcode, hchecked⟩ := protocol_of_is hrun hes he
  obtain ⟨-, -, -, -, -, -, rfl, -⟩ := read_event hrun hes hchecked.read
  exact ⟨S, rfl, params, code, hclient, hcode, he, hchecked⟩

end Along

/-! ## 3. The enrollment a login is bound to -/

/-- **A TOTP login is bound to the enabled enrollment exactly when the flag is set and no setup
    came between.** Every session on a TOTP code goes back to a read of a secret and, later, a
    recording of the timestep its code stood for. That secret is the user's enabled enrollment at
    the recording iff the flag is set there and no setup of the user committed since the read. -/
theorem totp_login_enrolled_iff (hrun : Run ports (system P db₀ clients) es c)
    (hfresh : FreshSeals db₀ es) {pre post : Trace ι}
    {e : CallEvent ι} (hes : es = pre ++ e :: post) {session : Session}
    (he : e.Is (.write (.createSession session)) (.ok ())) :
    ∃ before d mid r rest S t, pre = before ++ d :: (mid ++ r :: rest) ∧
      S.userId = session.userId ∧
      d.thread = e.thread ∧ d.Is (.findSecret S.userId) (.ok (some S)) ∧
      r.thread = e.thread ∧ LoginAccepts P clients (before ++ d :: mid) r S t ∧
      (r.before.enabled S.userId = true ∧ r.before.sealOf S.userId = some S.sealed ↔
        r.before.enabled S.userId = true ∧ ∀ y ∈ mid, ¬ Stores S.userId y) := by
  obtain ⟨params, u, user, t, hclient, -, hfound, hsession, hrecorded⟩ := protocol_of_is hrun hes he
  obtain ⟨r, hr, hrthread, hrop⟩ := mem_own.1 hrecorded
  obtain ⟨pre', rest, rfl⟩ := List.append_of_mem hr
  have hes' : es = pre' ++ r :: (rest ++ e :: post) := by simp [hes]
  obtain ⟨S, rfl, haccepts⟩ := loginAccepts_of_recorded hrun hes' hrop
  have hread : ⟨.findSecret S.userId, .ok (some S)⟩ ∈ own r.thread pre' := by
    obtain ⟨_, _, -, -, -, hchecked⟩ := haccepts
    exact hchecked.read
  obtain ⟨before, d, mid, rfl, hdthread, hd, -, hseal, hsame⟩ := read_event hrun hes' hread
  have hes'' : es = before ++ d :: (mid ++ r :: (rest ++ e :: post)) := by simp [hes']
  have huser : user.id = S.userId := by
    obtain ⟨f, hf, -, hfop⟩ := mem_own.1 hfound
    have hsem : Reads _ _ _ _ _ := hrun.sem_of_is (hes ▸ List.mem_append_left _ hf) hfop
    exact (Table.find_eq_some.1 hsem.value.symm).2
  refine ⟨before, d, mid, r, rest, S, t, by simp, (hsession.trans huser).symm,
    hdthread.trans hrthread, hd, hrthread, haccepts, and_congr_right fun _ => ⟨fun hstored => ?_,
    fun hnone => ?_⟩⟩
  · exact not_stored_between hrun hfresh hes'' hseal hstored
  · obtain ⟨-, x, hx⟩ := recorded_seal hrun (by simp [hes'']) hrop
    have hkept := seal_kept hrun hes'' hnone hx
    rw [hsame, hseal] at hkept
    rw [hx, hkept]

/-- A login with the code 0. -/
def zeroLogin : Client := .login ⟨[], "000000", none, 3600⟩

/-- A login on a secret that is enabled. -/
def plainLogin : Trace Unit × Config Call.Reply AuthDb Unit Outcome :=
  trace .plain (oneUser true (unused (plainSecret 0))) (fun _ => zeroLogin)
    (List.replicate 13 ((), .plain 1))

theorem plainLogin_enrolled :
    ∃ e, plainLogin.1 = plainLogin.1.take 10 ++ e :: plainLogin.1.drop 11 ∧
      ∃ before d mid r rest S t, plainLogin.1.take 10 = before ++ d :: (mid ++ r :: rest) ∧
        LoginAccepts .plain (fun _ => zeroLogin) (before ++ d :: mid) r S t ∧
        (r.before.enabled S.userId = true ∧ r.before.sealOf S.userId = some S.sealed ↔
          r.before.enabled S.userId = true ∧ ∀ y ∈ mid, ¬ Stores S.userId y) := by
  obtain ⟨e, -, hes, -, he⟩ := event_at (show plainLogin.1[10]?.map Event.view =
    some ((), ⟨.write (.createSession ⟨1, 1, "sessionA".toList, 3600, false⟩), .ok ()⟩) from rfl)
  obtain ⟨before, d, mid, r, rest, S, t, hpre, -, -, -, -, haccepts, hiff⟩ :=
    totp_login_enrolled_iff (trace_run ..) (freshSeals_of_nodup (by decide)) hes he
  exact ⟨e, hes, before, d, mid, r, rest, S, t, hpre, haccepts, hiff⟩

/-- Two logins, while the user disables the secret and enrolls a new one. -/
def raceClients : Fin 5 → Client
  | 0 | 1 => zeroLogin
  | 2 => .disable 1 []
  | 3 => .setup 1 "deve-sub"
  | 4 => .verify 1 0

/-- The first login runs to its end. The second one reads the secret and checks its code; then the
    secret is replaced and the new one verified; then the second login goes on. -/
def race : Trace (Fin 5) × Config Call.Reply AuthDb (Fin 5) Outcome :=
  trace .plain (oneUser true (unused (plainSecret 0))) raceClients
    (List.replicate 13 (0, .plain 1) ++ List.replicate 6 (1, .plain 2) ++
      List.replicate 4 (2, .plain 2) ++ List.replicate 4 (3, .plain 2) ++
      List.replicate 6 (4, .plain 2) ++ List.replicate 7 (1, .plain 2))

theorem plain_timestep : Totp.verifyCodeTimestep Primitives.plain.hmacSha1 0 [] 0 = some 2 := by
  decide

/-- A login at work with the plain primitives: where it read the secret and the time, and where
    the timestep was recorded. -/
theorem loginAccepts_at (es : Trace ι) (clients : ι → Client) (i : ι)
    (S : TotpSecret) {now : Timestamp} {t j l k : Nat}
    (hmatch : Totp.verifyCodeTimestep Primitives.plain.hmacSha1 now [] 0 = some t)
    (hi : clients i = zeroLogin) (hj : j < k) (hl : l < k)
    (hread : es[j]?.map Event.view = some (i, ⟨.findSecret S.userId, .ok (some S)⟩))
    (hnow : es[l]?.map Event.view = some (i, ⟨.now, now⟩))
    (hrecord : es[k]?.map Event.view =
      some (i, ⟨.write (.recordUsedTimestep S.userId t), .ok true⟩)) :
    ∃ r, es[k]? = some r ∧ es = es.take k ++ r :: es.drop (k + 1) ∧ r.thread = i ∧
      LoginAccepts .plain clients (es.take k) r S t := by
  obtain ⟨r, hr, hes, rfl, his⟩ := event_at hrecord
  have hchecked : Checked .plain (own r.thread (es.take k)) S S.userId 0 t :=
    ⟨mem_own_take hj hread, now, [], mem_own_take hl hnow, rfl, hmatch⟩
  exact ⟨r, hr, hes, rfl, _, 0, hi, by decide, his, hchecked⟩

/-- **A login succeeds on a secret that is not enrolled any more**: the user has another secret
    enabled when the timestep is recorded. -/
theorem stale_login_succeeds :
    ∃ r, race.1 = race.1.take 33 ++ r :: race.1.drop 34 ∧
      LoginAccepts .plain raceClients (race.1.take 33) r (plainSecret 0) 2 ∧
      r.before.enabled 1 = true ∧ r.before.sealOf 1 = some (plainSecret 2).sealed ∧
      (plainSecret 2).sealed ≠ (plainSecret 0).sealed ∧
      ∃ e ∈ race.1.drop 34, e.thread = r.thread ∧
        ∃ session, e.Is (.write (.createSession session)) (.ok ()) := by
  obtain ⟨r, hr, hes, hthread, haccepts⟩ := loginAccepts_at race.1 raceClients 1 (plainSecret 0)
    plain_timestep rfl (show 17 < 33 by decide) (show 18 < 33 by decide) rfl rfl rfl
  have hstore : (race.1[33]?.map fun e => (e.before.enabled 1, e.before.sealOf 1)) =
      some (true, some (plainSecret 2).sealed) := by decide
  rw [hr] at hstore
  obtain ⟨hon, hseal⟩ := Prod.mk.inj (Option.some.inj hstore)
  obtain ⟨e, he, -, hethread, hesession⟩ := event_at (show (race.1.drop 34)[3]?.map Event.view =
    some (1, ⟨.write (.createSession ⟨2, 1, "sessionAA".toList, 3600, false⟩), .ok ()⟩) from rfl)
  exact ⟨r, hes, haccepts, hon, hseal, by decide, e, List.mem_of_getElem? he,
    hethread.trans hthread.symm, _, hesession⟩

/-! ## 4. Replay -/

/-- An event of the trace, with what came before it. -/
def Earlier (pre : Trace ι)
    (Q : Trace ι → CallEvent ι → Prop) : Prop :=
  ∃ before d mid, pre = before ++ d :: mid ∧ Q before d

/-- **A login on the stored secret is the first one of its timestep.** -/
theorem not_loginAccepts_before (hrun : Run ports (system P db₀ clients) es c)
    (hfresh : FreshSeals db₀ es) {pre post : Trace ι}
    {e : CallEvent ι} (hes : es = pre ++ e :: post) {S : TotpSecret} {t : Nat}
    (he : LoginAccepts P clients pre e S t) (hstored : e.before.sealOf S.userId = some S.sealed) :
    ¬ Earlier pre fun before d => LoginAccepts P clients before d S t := by
  intro hearlier
  obtain ⟨before, d, mid, rfl, hd⟩ := hearlier
  obtain ⟨_, _, -, -, heop, -⟩ := he
  obtain ⟨_, _, -, -, hdop, hdchecked⟩ := hd
  have hes' : es = before ++ d :: (mid ++ e :: post) := by simp [hes]
  have hdmem : d ∈ es := by simp [hes']
  by_cases hdseal : d.before.sealOf S.userId = some S.sealed
  · exact Nat.lt_irrefl t (recorded_lt hrun hfresh hes' hdop heop hdseal hstored)
  · -- the first login read the secret before it was replaced, so it is not there any more
    obtain ⟨before', f, mid', rfl, -, -, -, hfseal, -⟩ := read_event hrun hes' hdchecked.read
    have hseen : SealSeen db₀ (before' ++ f :: mid') S.sealed :=
      (seal_seen hrun (by simpa using hes') hfseal).mono
    refine seal_gone hrun hfresh hes' hseen ?_ hstored
    rw [(recorded_seal hrun hdmem hdop).1]
    exact hdseal

/-- No setup of the user commits between a thread's read of the secret and its recording. -/
def SetupsApart (es : Trace ι) : Prop :=
  ∀ before d mid r rest (S : TotpSecret) t, es = before ++ d :: (mid ++ r :: rest) →
    d.thread = r.thread → d.Is (.findSecret S.userId) (.ok (some S)) →
    r.Is (.write (.recordUsedTimestep S.userId t)) (.ok true) → ∀ y ∈ mid, ¬ Stores S.userId y

/-- What a thread has read from the clock. -/
def clocks (h : History Call.Reply) : List Timestamp :=
  h.filterMap fun
    | ⟨.now, now⟩ => some now
    | _ => none

/-- A login reads the clock at least three periods after a verification on the same secret does;
    four, if that was in the first period of the epoch. -/
def ClocksApart (clients : ι → Client) (es : Trace ι) : Prop :=
  ∀ i j (S : TotpSecret) code params, clients i = .verify S.userId code → clients j = .login params →
    ⟨.findSecret S.userId, .ok (some S)⟩ ∈ own i es →
    ⟨.findSecret S.userId, .ok (some S)⟩ ∈ own j es →
    ∀ now ∈ clocks (own i es), ∀ now' ∈ clocks (own j es),
      max (Totp.counter (Totp.unixTimestamp now)) Totp.window + 2 * Totp.window <
        Totp.counter (Totp.unixTimestamp now')

/-- A code stands for a timestep of the window. -/
theorem verifyCodeTimestep_window {hmac : List UInt8 → List UInt8 → List UInt8} {now : Timestamp}
    {secret : List UInt8} {code t : Nat} (h : Totp.verifyCodeTimestep hmac now secret code = some t) :
    Totp.counter (Totp.unixTimestamp now) - Totp.window ≤ t ∧
      t ≤ Totp.counter (Totp.unixTimestamp now) - Totp.window + 2 * Totp.window := by
  obtain ⟨base, hbase⟩ : ∃ base, base = Totp.counter (Totp.unixTimestamp now) - Totp.window :=
    ⟨_, rfl⟩
  have hfold : ∀ (offsets : List Nat) (matched : Option Nat),
      offsets.foldl (fun matched offset =>
        if Totp.hotp hmac secret (base + offset) = code then some (base + offset) else matched)
        matched = some t → matched = some t ∨ ∃ offset ∈ offsets, base + offset = t := by
    intro offsets
    induction offsets with
    | nil => exact fun _ hm => .inl hm
    | cons offset offsets ih =>
      intro matched hm
      rcases ih _ hm with hm | ⟨o, ho, heq⟩
      · dsimp only at hm
        split_ifs at hm
        · exact .inr ⟨offset, List.mem_cons_self, Option.some.inj hm⟩
        · exact .inl hm
      · exact .inr ⟨o, List.mem_cons_of_mem _ ho, heq⟩
  rw [Totp.verifyCodeTimestep, ← hbase] at h
  rcases hfold _ _ h with hnone | ⟨offset, hoffset, rfl⟩
  · cases hnone
  · have hlt := List.mem_range.1 hoffset
    omega

theorem Checked.clock {h h' : History Call.Reply} {S : TotpSecret} {u : UserId} {code t : Nat}
    (hc : Checked P h S u code t) (hsub : h ⊆ h') : ∃ now ∈ clocks h',
      Totp.counter (Totp.unixTimestamp now) - Totp.window ≤ t ∧
        t ≤ Totp.counter (Totp.unixTimestamp now) - Totp.window + 2 * Totp.window := by
  obtain ⟨now, plaintext, hnow, -, hmatch⟩ := hc.matched
  exact ⟨now, List.mem_filterMap.2 ⟨_, hsub hnow, rfl⟩, verifyCodeTimestep_window hmatch⟩

/-- **When every timestep of a secret is accepted once**: a login that accepts one is its first
    acceptance, by a login or a verification, if no setup commits between the read of a secret and
    the recording on it and the logins on a secret come well after its verification. -/
theorem totp_accepted_once (hrun : Run ports (system P db₀ clients) es c)
    (hfresh : FreshSeals db₀ es) (hsetup : SetupsApart es) (hclock : ClocksApart clients es)
    {pre post : Trace ι} {e : CallEvent ι}
    (hes : es = pre ++ e :: post) {S : TotpSecret} {t : Nat} (he : LoginAccepts P clients pre e S t) :
    ¬ Earlier pre fun before d => LoginAccepts P clients before d S t ∨
      VerifyAccepts P clients before d S t := by
  intro hearlier
  obtain ⟨params, code, hlogin, -, hrecord, hchecked⟩ := id he
  obtain ⟨before, d, mid, hpre, hd | hd⟩ := hearlier
  · -- the login read the stored secret, and it is stored still
    refine not_loginAccepts_before hrun hfresh hes he ?_ ⟨before, d, mid, hpre, hd⟩
    obtain ⟨before', f, mid', rfl, hthread, hf, -, hseal, hsame⟩ := read_event hrun hes hchecked.read
    have hes' : es = before' ++ f :: (mid' ++ e :: post) := by simp [hes]
    obtain ⟨-, x, hx⟩ := recorded_seal hrun (by simp [hes']) hrecord
    have hkept := seal_kept hrun hes'
      (hsetup before' f mid' e post S t hes' hthread hf hrecord) hx
    rw [hsame, hseal] at hkept
    rw [hx, hkept]
  · -- no timestep is in the windows of both clocks
    obtain ⟨code', entities, hverify, -, hchecked'⟩ := hd
    have hsub : own e.thread pre ⊆ own e.thread es := by
      rw [hes]
      exact own_subset_append _ _ _
    have hsub' : own d.thread before ⊆ own d.thread es := by
      rw [hes, hpre, List.append_assoc]
      exact own_subset_append _ _ _
    obtain ⟨now, hnow, hlow, hhigh⟩ := hchecked'.clock hsub'
    obtain ⟨now', hnow', hlow', hhigh'⟩ := hchecked.clock hsub
    have hapart := hclock d.thread e.thread S code' params hverify hlogin (hsub' hchecked'.read)
      (hsub hchecked.read) now hnow now' hnow'
    have hwindow : Totp.window = 1 := rfl
    omega

/-- A verification, and then a login. -/
def replayClients : Bool → Client
  | false => .verify 1 0
  | true => zeroLogin

def replay : Trace Bool × Config Call.Reply AuthDb Bool Outcome :=
  trace .plain (oneUser false (unused (plainSecret 0))) replayClients
    ((List.replicate 6 false ++ List.replicate 13 true).map fun i => (i, .plain 1))

/-- **A code is accepted twice.** First the code that enabled a secret opens a session; then two
    logins open sessions with the same code, while the secret is replaced. -/
theorem code_accepted_twice :
    (∃ r, replay.1 = replay.1.take 12 ++ r :: replay.1.drop 13 ∧
      LoginAccepts .plain replayClients (replay.1.take 12) r (plainSecret 0) 2 ∧
      (Earlier (replay.1.take 12) fun before d =>
        VerifyAccepts .plain replayClients before d (plainSecret 0) 2) ∧
      (∃ codes, replay.2.threads false = .done (.verify (.ok codes))) ∧
      ∃ x, replay.2.threads true = .done (.login (.ok x))) ∧
    ∃ r, race.1 = race.1.take 33 ++ r :: race.1.drop 34 ∧
      LoginAccepts .plain raceClients (race.1.take 33) r (plainSecret 0) 2 ∧
      (Earlier (race.1.take 33) fun before d =>
        LoginAccepts .plain raceClients before d (plainSecret 0) 2) ∧
      (∃ x, race.2.threads 0 = .done (.login (.ok x))) ∧
      ∃ x, race.2.threads 1 = .done (.login (.ok x)) := by
  constructor
  · obtain ⟨r, -, hes, -, haccepts⟩ := loginAccepts_at replay.1 replayClients true (plainSecret 0)
      plain_timestep rfl (show 10 < 12 by decide) (show 11 < 12 by decide) rfl rfl rfl
    obtain ⟨d, -, hsplit, hthread, hd⟩ := event_at (show (replay.1.take 12)[5]?.map Event.view =
      some (false, ⟨.write (.enableIfCurrent (plainSecret 0) [⟨1, 1, "recoveryA".toList, false⟩]),
        .ok true⟩) from rfl)
    refine ⟨r, hes, haccepts, ⟨_, d, _, hsplit, 0, _, ?_, hd, ?_⟩, ⟨_, rfl⟩, ⟨_, rfl⟩⟩
    · rw [hthread]
      rfl
    · rw [hthread]
      have hread : (replay.1.take 12)[1]?.map Event.view =
          some (false, ⟨.findSecret 1, .ok (some (plainSecret 0))⟩) := rfl
      have hnow : (replay.1.take 12)[2]?.map Event.view = some (false, ⟨.now, (0 : Int)⟩) := rfl
      exact ⟨mem_own_take (by decide) hread, 0, [], mem_own_take (by decide) hnow, rfl, by decide⟩
  · obtain ⟨r, -, hes, -, haccepts⟩ := loginAccepts_at race.1 raceClients 1 (plainSecret 0)
      plain_timestep rfl (show 17 < 33 by decide) (show 18 < 33 by decide) rfl rfl rfl
    obtain ⟨d, -, hsplit, -, hd⟩ := loginAccepts_at (race.1.take 33) raceClients 0 (plainSecret 0)
      plain_timestep rfl (show 4 < 6 by decide) (show 5 < 6 by decide) rfl rfl rfl
    exact ⟨r, hes, haccepts, ⟨_, d, _, hsplit, hd⟩, ⟨_, rfl⟩, ⟨_, rfl⟩⟩

/-- A verification, and a login two minutes later. -/
def spaced : Trace Bool × Config Call.Reply AuthDb Bool Outcome :=
  trace .plain (oneUser false (unused (plainSecret 0))) replayClients
    (List.replicate 6 (false, .plain 1) ++
      List.replicate 13 (true, { Outside.plain 1 with now := 120 * 10 ^ 9 }))

theorem spaced_accepted_once :
    ∃ r, spaced.1 = spaced.1.take 12 ++ r :: spaced.1.drop 13 ∧
      LoginAccepts .plain replayClients (spaced.1.take 12) r (plainSecret 0) 5 ∧
      ¬ Earlier (spaced.1.take 12) fun before d =>
        LoginAccepts .plain replayClients before d (plainSecret 0) 5 ∨
          VerifyAccepts .plain replayClients before d (plainSecret 0) 5 := by
  have hmatch : Totp.verifyCodeTimestep Primitives.plain.hmacSha1 (120 * 10 ^ 9) [] 0 = some 5 := by
    decide
  obtain ⟨r, -, hes, -, haccepts⟩ := loginAccepts_at spaced.1 replayClients true (plainSecret 0)
    hmatch rfl (show 10 < 12 by decide) (show 11 < 12 by decide) rfl rfl rfl
  have hsetup : SetupsApart spaced.1 := by
    intro before d mid r rest S t hsplit _ _ _ y hy hstores
    obtain ⟨S', hS', -⟩ := hstores
    have hmem : S'.sealed ∈ sealsOf spaced.1 := by
      refine List.mem_filterMap.2 ⟨y, by simp [hsplit, hy], ?_⟩
      rw [hS'.call_eq]
    rw [show sealsOf spaced.1 = [] from rfl] at hmem
    cases hmem
  have hclock : ClocksApart replayClients spaced.1 := by
    intro i j S code params hi hj _ _ now hnow now' hnow'
    cases i with
    | true => cases hi
    | false => cases j with
      | false => cases hj
      | true =>
        rw [show clocks (own false spaced.1) = [0] from rfl] at hnow
        rw [show clocks (own true spaced.1) = List.replicate 4 (120 * 10 ^ 9) from rfl] at hnow'
        rw [List.mem_singleton.1 hnow, List.eq_of_mem_replicate hnow']
        decide
  exact ⟨r, hes, haccepts, totp_accepted_once (trace_run ..) (freshSeals_of_nodup (by decide)) hsetup
    hclock hes haccepts⟩

end DeveSub.TwoFactor
