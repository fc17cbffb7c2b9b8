/-
  File:      DeveSub/Properties/Enrollment.lean
  Subject:   Two-factor authentication is enabled only for the secret that was checked.

  A sealed secret that is no longer stored never comes back, since every setup seals anew
  (`FreshSeals`, `seal_gone`), and while no setup commits the stored one stays (`seal_kept`).
  So a compared write that commits found the secret its caller had read, and one whose secret was
  replaced in between changes nothing. While the flag is set the secret cannot be replaced, only
  cleared together with the flag and the codes. Together: `enabled_secret_was_verified`.
-/
import DeveSub.Application.TwoFactor

namespace DeveSub.TwoFactor

variable {ι : Type} [DecidableEq ι] {P : Primitives} {db₀ : AuthDb} {clients : ι → Client}
  {es : Trace ι} {c : Config Call.Reply AuthDb ι Outcome}

/-! ## 1. Events -/

/-- A setup of the user committed. -/
def Stores (u : UserId) (e : CallEvent ι) : Prop :=
  ∃ S, e.Is (.write (.upsertSecret S)) (.ok ()) ∧ S.userId = u

/-- A disabling of the user committed. -/
def Disables (u : UserId) (e : CallEvent ι) : Prop :=
  ∃ S, e.Is (.write (.disableIfCurrent S)) (.ok true) ∧ S.userId = u

section Along

variable (hrun : Run ports (system P db₀ clients) es c) {pre post : Trace ι} {e : CallEvent ι}

include hrun

/-- **An event changes nothing, or is a write that committed.** -/
theorem event_change (he : e ∈ es) : e.after = e.before ∨ ∃ (w : AuthWrite) (r : w.Result),
      e.Is (.write w) (.ok r) ∧ w.run e.before = .ok (r, e.after) :=
  ports_change (hrun.sem_of_mem he)

/-- A write that answered has committed. -/
theorem event_committed (he : e ∈ es) {w : AuthWrite} {r : w.Result}
    (hw : e.Is (.write w) (.ok r)) : w.run e.before = .ok (r, e.after) :=
  Writes.committed (hrun.sem_of_is he hw)

/-- **The stored seal of a user only changes by a setup of that user**, or goes away. -/
theorem seal_step (he : e ∈ es) {u : UserId} {x : Seal}
    (hx : e.after.sealOf u = some x) : e.before.sealOf u = some x ∨
      ∃ S, e.Is (.write (.upsertSecret S)) (.ok ()) ∧ S.userId = u ∧ S.sealed = x := by
  rcases event_change hrun he with hsame | ⟨w, r, hw, hrunw⟩
  · rw [hsame] at hx
    exact .inl hx
  · cases AuthWrite.totpStep hrunw u with
    | same h =>
      rw [AuthDb.sealOf, h] at hx
      exact .inl hx
    | @stored S _ hu hoff h =>
      rw [AuthDb.sealOf, h] at hx
      exact .inr ⟨S, hw, hu, Option.some.inj hx⟩
    | cleared hu h =>
      rw [AuthDb.sealOf, h] at hx
      cases hx
    | recorded hrow hlt h =>
      rw [AuthDb.sealOf, h] at hx
      rw [AuthDb.sealOf, hrow]
      exact .inl hx

/-! ## 2. Seals -/

/-- The seal was stored at the start, or a setup of the trace tried to store it. -/
def SealSeen (db₀ : AuthDb) (es : Trace ι) (x : Seal) : Prop :=
  (∃ u, db₀.sealOf u = some x) ∨ ∃ e ∈ es, ∃ S, e.call = .write (.upsertSecret S) ∧ S.sealed = x

/-- **Sealed secrets of different setups are distinct**: no setup stores a seal that was seen
    before. -/
def FreshSeals (db₀ : AuthDb) (es : Trace ι) : Prop :=
  ∀ pre e post S, es = pre ++ e :: post → e.call = .write (.upsertSecret S) →
    ¬ SealSeen db₀ pre S.sealed

/-- The seals the setups of a trace tried to store. -/
def sealsOf (es : Trace ι) : List Seal :=
  es.filterMap fun e => match e.call with
    | .write (.upsertSecret S) => some S.sealed
    | _ => none

omit hrun [DecidableEq ι] in
theorem freshSeals_of_nodup
    (h : (db₀.totpSecrets.rows.map (·.secret.sealed) ++ sealsOf es).Nodup) : FreshSeals db₀ es := by
  intro pre e post S hes he hseen
  have hsplit : sealsOf es = sealsOf pre ++ S.sealed :: sealsOf post := by
    simp [hes, sealsOf, he]
  rw [hsplit, ← List.append_assoc] at h
  have hnot : S.sealed ∉ db₀.totpSecrets.rows.map (·.secret.sealed) ++ sealsOf pre :=
    fun hmem => (List.nodup_append.1 h).2.2 _ hmem _ List.mem_cons_self rfl
  refine hnot (List.mem_append.2 (hseen.imp ?_ ?_))
  · intro hstart
    obtain ⟨u, hu⟩ := hstart
    obtain ⟨row, hrow, hx⟩ := Option.map_eq_some_iff.1 hu
    exact hx ▸ List.mem_map_of_mem (Table.find_eq_some.1 hrow).1
  · intro htrace
    obtain ⟨d, hd, S', hcall, hx⟩ := htrace
    exact List.mem_filterMap.2 ⟨d, hd, by simp [hcall, hx]⟩

omit hrun [DecidableEq ι] in
theorem SealSeen.mono {pre post : Trace ι} {x : Seal}
    (h : SealSeen db₀ pre x) : SealSeen db₀ (pre ++ post) x :=
  h.imp_right fun ⟨e, he, hS⟩ => ⟨e, List.mem_append_left _ he, hS⟩

/-- What is stored was seen. -/
theorem seal_seen
    (hes : es = pre ++ e :: post) {u : UserId} {x : Seal} (hx : e.before.sealOf u = some x) :
    SealSeen db₀ pre x := by
  refine hrun.traced_before (I := fun es (db : AuthDb) => ∀ u x, db.sealOf u = some x → SealSeen db₀ es x)
    (fun u x hx => .inl ⟨u, hx⟩) (fun pre e post hes ih u x hx => ?_) hes u x hx
  rcases seal_step hrun (hes ▸ List.mem_append_cons_self) hx with hx | ⟨S, hS, -, rfl⟩
  · exact (ih u x hx).mono
  · exact .inr ⟨e, List.mem_append_cons_self, S, hS.call_eq, rfl⟩

/-- **A seal that is gone stays gone.** -/
theorem seal_gone (hfresh : FreshSeals db₀ es) {pre mid post : Trace ι} {d e : CallEvent ι}
    (hes : es = pre ++ d :: (mid ++ e :: post)) {u : UserId} {x : Seal}
    (hseen : SealSeen db₀ pre x) (hd : d.after.sealOf u ≠ some x) :
    e.before.sealOf u ≠ some x := by
  refine hrun.segment (R := fun s t : AuthDb => s.sealOf u ≠ some x → t.sealOf u ≠ some x)
    (fun _ h => h) (fun _ _ _ h₁ h₂ h => h₂ (h₁ h)) hes (fun y hy hbefore hafter => ?_) hd
  obtain ⟨m₁, m₂, rfl⟩ := List.append_of_mem hy
  have hsplit : es = (pre ++ d :: m₁) ++ y :: (m₂ ++ e :: post) := by simp [hes]
  rcases seal_step hrun (hsplit ▸ List.mem_append_cons_self) hafter with
    h | ⟨S, hS, -, rfl⟩
  · exact hbefore h
  · exact hfresh _ _ _ S hsplit hS.call_eq hseen.mono

/-- **Without a setup in between the seal is the one that was there.** -/
theorem seal_kept {pre mid post : Trace ι} {d e : CallEvent ι}
    (hes : es = pre ++ d :: (mid ++ e :: post)) {u : UserId} (hmid : ∀ y ∈ mid, ¬ Stores u y)
    {x : Seal} (hx : e.before.sealOf u = some x) : d.after.sealOf u = some x := by
  refine hrun.segment (R := fun s t : AuthDb => t.sealOf u = some x → s.sealOf u = some x)
    (fun _ h => h) (fun _ _ _ h₁ h₂ h => h₁ (h₂ h)) hes (fun y hy hafter => ?_) hx
  have hmem : y ∈ es := by
    rw [hes]
    exact List.mem_append_right _ (List.mem_cons_of_mem _ (List.mem_append_left _ hy))
  rcases seal_step hrun hmem hafter with h | ⟨S, hS, hu, -⟩
  · exact h
  · exact absurd ⟨S, hS, hu⟩ (hmid y hy)

/-- **Where a thread read a secret.** -/
theorem read_event (hes : es = pre ++ post) {i : ι} {u : UserId}
    {S : TotpSecret} (hread : ⟨.findSecret u, .ok (some S)⟩ ∈ own i pre) :
    ∃ before d mid, pre = before ++ d :: mid ∧ d.thread = i ∧
      d.Is (.findSecret u) (.ok (some S)) ∧ S.userId = u ∧ d.before.sealOf u = some S.sealed ∧
      d.after = d.before := by
  obtain ⟨d, hd, hthread, hop⟩ := mem_own.1 hread
  obtain ⟨before, mid, rfl⟩ := List.append_of_mem hd
  have hsem : Reads _ _ _ _ _ := hrun.sem_of_is (hes ▸ List.mem_append_left _ hd) hop
  obtain ⟨hu, hseal⟩ := TotpSecrets.findByUser_eq_some hsem.value.symm
  exact ⟨before, d, mid, rfl, hthread, hop, hu, hseal, hsem.2⟩

theorem stores_seal (he : e ∈ es) {S : TotpSecret}
    (hS : e.Is (.write (.upsertSecret S)) (.ok ())) : e.after.sealOf S.userId = some S.sealed := by
  obtain ⟨-, -, -, -, hfind⟩ := TotpSecrets.upsert_eq_ok (event_committed hrun he hS)
  rw [AuthDb.sealOf, hfind, if_pos rfl]
  rfl

/-- **A secret that was read and is still stored was not replaced in between.** -/
theorem not_stored_between (hfresh : FreshSeals db₀ es) {pre mid post : Trace ι}
    {d e : CallEvent ι} (hes : es = pre ++ d :: (mid ++ e :: post)) {u : UserId}
    {x : Seal} (hd : d.before.sealOf u = some x) (he : e.before.sealOf u = some x) :
    ∀ y ∈ mid, ¬ Stores u y := by
  intro y hy hstores
  obtain ⟨S, hS, rfl⟩ := hstores
  obtain ⟨m₁, m₂, rfl⟩ := List.append_of_mem hy
  have hsplit : es = (pre ++ d :: m₁) ++ y :: (m₂ ++ e :: post) := by simp [hes]
  have hseen : SealSeen db₀ (pre ++ d :: m₁) x := (seal_seen hrun hes hd).mono
  have hne : S.sealed ≠ x := fun h => hfresh _ _ _ S hsplit hS.call_eq (h ▸ hseen)
  have hafter : y.after.sealOf S.userId ≠ some x := by
    rw [stores_seal hrun (hsplit ▸ List.mem_append_cons_self) hS]
    exact fun h => hne (Option.some.inj h)
  exact seal_gone hrun hfresh hsplit hseen hafter he

/-! ## 3. The flag -/

theorem protocol_of (hes : es = pre ++ e :: post) :
    Protocol P (clients e.thread) (own e.thread pre) e.call :=
  hrun.follows (fun i => client_follows P (clients i)) hes

theorem protocol_of_is (hes : es = pre ++ e :: post) {op : Call} {a : op.Reply} (hop : e.Is op a) :
    Protocol P (clients e.thread) (own e.thread pre) op :=
  hop.call_eq ▸ protocol_of hrun hes

/-- A committed enabling, and what it found and left. -/
structure EnabledFor (P : Primitives) (clients : ι → Client)
    (c : Config Call.Reply AuthDb ι Outcome) (pre : Trace ι)
    (e : CallEvent ι) (S : TotpSecret) (entities : List RecoveryCode) : Prop where
  checked : ∃ code t, clients e.thread = .verify S.userId code ∧
    Checked P (own e.thread pre) S S.userId code t
  off : e.before.enabled S.userId = false
  on : e.after.enabled S.userId = true
  stored_before : e.before.sealOf S.userId = some S.sealed
  stored_after : e.after.sealOf S.userId = some S.sealed
  codes : e.after.codesOf S.userId = entities
  returned : ∀ outcome, c.threads e.thread = .done outcome →
    ∃ codes, outcome = .verify (.ok codes) ∧ Batch P S.userId codes entities

/-- **2FA becomes enabled only for the secret the code was checked against.** -/
theorem enabledFor (hes : es = pre ++ e :: post) {S : TotpSecret} {entities : List RecoveryCode}
    (hE : e.Is (.write (.enableIfCurrent S entities)) (.ok true)) :
    EnabledFor P clients c pre e S entities := by
  have he : e ∈ es := hes ▸ List.mem_append_cons_self
  obtain ⟨u, code, t, codes, hclient, hchecked, -, -⟩ := protocol_of_is hrun hes hE
  obtain ⟨-, -, -, -, -, -, rfl, -⟩ := read_event hrun hes hchecked.read
  obtain ⟨hcmp, htotp, -, hcodes⟩ :=
    TotpSecrets.enableIfCurrent_eq_true (event_committed hrun he hE)
  refine ⟨⟨code, t, hclient, hchecked⟩, hcmp.was_eq, (hcmp.enabled_eq _).trans (if_pos rfl),
    hcmp.seal_eq, ?_, hcodes.codesOf, fun outcome hdone => ?_⟩
  · rw [AuthDb.sealOf, htotp]
    exact hcmp.seal_eq
  · have hfinished := hrun.follows_done (fun i => client_follows P (clients i)) hdone
    rw [hclient] at hfinished
    exact hfinished S entities (mem_own.2 ⟨e, he, rfl, hE⟩)

omit hrun in
/-- The only write of a `verify_2fa` or `disable_2fa` is its compared write. -/
theorem compared_write {client : Client} {h : History Call.Reply} {w : AuthWrite} {u : UserId}
    (hclient : (∃ code, client = .verify u code) ∨ ∃ password, client = .disable u password)
    (hw : Protocol P client h (.write w)) :
    ∃ S, ⟨.findSecret u, .ok (some S)⟩ ∈ h ∧
      ((∃ entities, w = .enableIfCurrent S entities) ∨ w = .disableIfCurrent S) := by
  rcases hclient with ⟨code, rfl⟩ | ⟨password, rfl⟩
  · cases w with
    | enableIfCurrent S entities =>
      obtain ⟨_, _, t, codes, heq, hchecked, -⟩ := hw
      cases heq
      exact ⟨S, hchecked.read, .inl ⟨entities, rfl⟩⟩
    | _ => simp [Protocol] at hw
  · cases w with
    | disableIfCurrent S =>
      obtain ⟨_, _, heq, hread⟩ := hw
      cases heq
      exact ⟨S, hread, .inr rfl⟩
    | _ => simp [Protocol] at hw

/-- **A `verify_2fa` or `disable_2fa` whose secret was replaced in between changes nothing**: what
    it changes, it changes in a compared write under the secret it read, and no setup of the user
    committed since. -/
theorem changes_under_read (hfresh : FreshSeals db₀ es) (hes : es = pre ++ e :: post) {u : UserId}
    (hclient : (∃ code, clients e.thread = .verify u code) ∨
      ∃ password, clients e.thread = .disable u password) (hne : e.after ≠ e.before) :
    ∃ before d mid S, pre = before ++ d :: mid ∧ d.thread = e.thread ∧
      d.Is (.findSecret u) (.ok (some S)) ∧
      ((∃ entities, e.Is (.write (.enableIfCurrent S entities)) (.ok true)) ∨
        e.Is (.write (.disableIfCurrent S)) (.ok true)) ∧
      ∀ y ∈ mid, ¬ Stores u y := by
  have he : e ∈ es := hes ▸ List.mem_append_cons_self
  rcases event_change hrun he with hsame | ⟨w, r, hw, hrunw⟩
  · exact absurd hsame hne
  · obtain ⟨S, hread, hkind⟩ := compared_write hclient (protocol_of_is hrun hes hw)
    obtain ⟨before, d, mid, rfl, hthread, hd, rfl, hseal, -⟩ := read_event hrun hes hread
    have hes' : es = before ++ d :: (mid ++ e :: post) := by simp [hes]
    refine ⟨before, d, mid, S, rfl, hthread, hd, ?_⟩
    rcases hkind with ⟨entities, rfl⟩ | rfl
    · cases r with
      | false => exact absurd (TotpSecrets.enableIfCurrent_eq_false hrunw) hne
      | true =>
        have hcmp := (TotpSecrets.enableIfCurrent_eq_true hrunw).1
        exact ⟨.inl ⟨entities, hw⟩, not_stored_between hrun hfresh hes' hseal hcmp.seal_eq⟩
    · cases r with
      | false => exact absurd (TotpSecrets.disableIfCurrent_eq_false hrunw) hne
      | true =>
        have hcmp := (TotpSecrets.disableIfCurrent_eq_true hrunw).1
        exact ⟨.inr hw, not_stored_between hrun hfresh hes' hseal hcmp.seal_eq⟩

/-- **Disabling clears flag, secret and codes together.** -/
theorem disables_clears (he : e ∈ es) {u : UserId} (hd : Disables u e) :
    e.after.enabled u = false ∧ e.after.sealOf u = none ∧ e.after.codesOf u = [] := by
  obtain ⟨S, hS, rfl⟩ := hd
  obtain ⟨hcmp, -, hcodes, hfind⟩ :=
    TotpSecrets.disableIfCurrent_eq_true (event_committed hrun he hS)
  refine ⟨(hcmp.enabled_eq _).trans (if_pos rfl), ?_, hcodes.codesOf⟩
  rw [AuthDb.sealOf, hfind, if_pos rfl]
  rfl

/-- **While the flag is set the secret stays**, unless both are cleared. -/
theorem flag_step (he : e ∈ es) {u : UserId} (hon : e.before.enabled u = true) :
    Disables u e ∨ e.after.enabled u = true ∧ e.after.sealOf u = e.before.sealOf u := by
  rcases event_change hrun he with hsame | ⟨w, r, hw, hrunw⟩
  · exact .inr ⟨hsame ▸ hon, by rw [hsame]⟩
  · have hseal : Disables u e ∨ e.after.sealOf u = e.before.sealOf u := by
      cases AuthWrite.totpStep hrunw u with
      | same h => exact .inr (by rw [AuthDb.sealOf, h, AuthDb.sealOf])
      | stored hu hoff h => exact absurd hoff (by rw [hon]; decide)
      | cleared hu h => exact .inl ⟨_, hw, hu⟩
      | recorded hrow hlt h => exact .inr (by rw [AuthDb.sealOf, h, AuthDb.sealOf, hrow]; rfl)
    cases AuthWrite.flagStep hrunw u with
    | same hflag => exact hseal.imp_right fun hseal => ⟨hflag.trans hon, hseal⟩
    | enabled hu =>
      have hoff := (TotpSecrets.enableIfCurrent_eq_true hrunw).1.was_eq
      rw [hu, hon] at hoff
      cases hoff
    | disabled hu => exact .inl ⟨_, hw, hu⟩

theorem flag_rises (he : e ∈ es) {u : UserId}
    (hoff : e.before.enabled u = false) (hon : e.after.enabled u = true) :
    ∃ S entities, e.Is (.write (.enableIfCurrent S entities)) (.ok true) ∧ S.userId = u := by
  rcases event_change hrun he with hsame | ⟨w, r, hw, hrunw⟩
  · rw [hsame, hoff] at hon
    cases hon
  · cases AuthWrite.flagStep hrunw u with
    | same hflag =>
      rw [hflag, hoff] at hon
      cases hon
    | @enabled S codes hu => exact ⟨S, codes, hw, hu⟩
    | disabled hu =>
      rw [(disables_clears hrun he ⟨_, hw, hu⟩).1] at hon
      cases hon

/-- The enrollment that the flag of a user stands for: the one at the start, or the one of the
    last committed enabling; nothing disabled it since, and its secret is the stored one. -/
def Standing (db₀ : AuthDb) (es : Trace ι) (u : UserId) (db : AuthDb) :
    Prop :=
  (db₀.enabled u = true ∧ db.sealOf u = db₀.sealOf u ∧ ∀ x ∈ es, ¬ Disables u x) ∨
  ∃ pre e post S entities, es = pre ++ e :: post ∧
    e.Is (.write (.enableIfCurrent S entities)) (.ok true) ∧ S.userId = u ∧
    db.sealOf u = some S.sealed ∧ ∀ x ∈ post, ¬ Disables u x

omit hrun [DecidableEq ι] in
theorem Standing.snoc {u : UserId} {db db' : AuthDb} {e : CallEvent ι}
    (h : Standing db₀ es u db) (he : ¬ Disables u e) (hseal : db'.sealOf u = db.sealOf u) :
    Standing db₀ (es ++ [e]) u db' := by
  have hsnoc : ∀ {xs : Trace ι}, (∀ x ∈ xs, ¬ Disables u x) →
      ∀ x ∈ xs ++ [e], ¬ Disables u x := by
    intro xs hxs x hx
    rcases List.mem_append.1 hx with hx | hx
    · exact hxs x hx
    · rw [List.mem_singleton.1 hx]
      exact he
  rcases h with ⟨hon, hsame, hnone⟩ | ⟨pre, d, post, S, entities, rfl, hd, hu, hS, hnone⟩
  · exact .inl ⟨hon, hseal.trans hsame, hsnoc hnone⟩
  · exact .inr ⟨pre, d, post ++ [e], S, entities, by simp, hd, hu, hseal.trans hS, hsnoc hnone⟩

/-- **In every reachable state with the flag set, the stored secret is the one that was verified.** -/
theorem flag_stands {u : UserId} (hon : c.store.enabled u = true) : Standing db₀ es u c.store := by
  refine hrun.traced (I := fun es (db : AuthDb) => db.enabled u = true → Standing db₀ es u db)
    (fun h => .inl ⟨h, rfl, fun x hx => absurd hx List.not_mem_nil⟩)
    (fun pre e post hes ih hon => ?_) hon
  have he : e ∈ es := hes ▸ List.mem_append_cons_self
  have hkeeps : ¬ Disables u e := by
    intro hd
    rw [(disables_clears hrun he hd).1] at hon
    cases hon
  cases hbefore : e.before.enabled u with
  | true =>
    rcases flag_step hrun he hbefore with hd | ⟨-, hseal⟩
    · exact absurd hd hkeeps
    · exact (ih hbefore).snoc hkeeps hseal
  | false =>
    obtain ⟨S, entities, hE, rfl⟩ := flag_rises hrun he hbefore hon
    exact .inr ⟨pre, e, [], S, entities, rfl, hE, rfl, (enabledFor hrun hes hE).stored_after,
      fun x hx => absurd hx List.not_mem_nil⟩

end Along

/-- **Two-factor authentication is enabled only for the secret that was verified.** In every run
    of setups, verifications, disablings, regenerations and logins:

    * a committed enabling is that of the secret its call checked the code against, with the
      codes that call returns;
    * a verify or disable call changes something only in its compared write, under the secret it
      read, with no setup of that user committed since the read;
    * while the flag is set, the secret is that of the enabling the flag stands for;
    * each call either leaves flag and secret of an enabled user alone, or clears the flag, the
      secret and the codes together. -/
theorem enabled_secret_was_verified (hrun : Run ports (system P db₀ clients) es c)
    (hfresh : FreshSeals db₀ es) :
    (∀ pre e post S entities, es = pre ++ e :: post →
      e.Is (.write (.enableIfCurrent S entities)) (.ok true) →
      EnabledFor P clients c pre e S entities) ∧
    (∀ pre e post u, es = pre ++ e :: post →
      ((∃ code, clients e.thread = .verify u code) ∨
        ∃ password, clients e.thread = .disable u password) → e.after ≠ e.before →
      ∃ before d mid S, pre = before ++ d :: mid ∧ d.thread = e.thread ∧
        d.Is (.findSecret u) (.ok (some S)) ∧
        ((∃ entities, e.Is (.write (.enableIfCurrent S entities)) (.ok true)) ∨
          e.Is (.write (.disableIfCurrent S)) (.ok true)) ∧
        ∀ y ∈ mid, ¬ Stores u y) ∧
    (∀ u, c.store.enabled u = true → Standing db₀ es u c.store) ∧
    ∀ e ∈ es, ∀ u, e.before.enabled u = true →
      (Disables u e ∧ e.after.enabled u = false ∧ e.after.sealOf u = none ∧
        e.after.codesOf u = []) ∨
      e.after.enabled u = true ∧ e.after.sealOf u = e.before.sealOf u := by
  refine ⟨fun pre e post S entities hes hE => enabledFor hrun hes hE,
    fun pre e post u hes hclient hne => changes_under_read hrun hfresh hes hclient hne,
    fun u hon => flag_stands hrun hon, fun e he u hon => ?_⟩
  rcases flag_step hrun he hon with hd | hkept
  · exact .inl ⟨hd, disables_clears hrun he hd⟩
  · exact .inr hkept

/-- A setup and a verification, one after the other. -/
def enrolling : List (Bool × Outside) :=
  (List.replicate 4 false ++ List.replicate 6 true).map fun i => (i, Outside.plain 1)

def enrollingClients : Bool → Client
  | false => .setup 1 "deve-sub"
  | true => .verify 1 0

theorem enrolling_stands :
    let r := trace .plain (oneUser false .empty) enrollingClients enrolling
    r.2.store.enabled 1 = true ∧ Standing (oneUser false .empty) r.1 1 r.2.store := by
  have hon : (trace .plain (oneUser false .empty) enrollingClients enrolling).2.store.enabled 1 =
      true := by decide
  have hfresh : FreshSeals (oneUser false .empty)
      (trace .plain (oneUser false .empty) enrollingClients enrolling).1 :=
    freshSeals_of_nodup (by decide)
  exact ⟨hon, (enabled_secret_was_verified (trace_run ..) hfresh).2.2.1 1 hon⟩

end DeveSub.TwoFactor
