/-
  File:      DeveSub/Properties/RecoveryUse.lean
  Subject:   A recovery code opens at most one session.

  A login looks its code up in one step and consumes it in another, which marks the row and
  inserts the session in one transaction. The row is marked only if it is there and unused, rows
  are never unmarked, and a row that a batch change took away never comes back, since every code
  is issued under a new id (`FreshCodes`). So a row is used exactly when its session was created
  (`used_iff_consumed`), and with that: `recovery_code_single_use`.
-/
import DeveSub.Properties.Enrollment

namespace DeveSub.TwoFactor

variable {ι : Type} [DecidableEq ι] {P : Primitives} {db₀ : AuthDb} {clients : ι → Client}
  {es : Trace ι} {c : Config Call.Reply AuthDb ι Outcome}

/-! ## 1. Codes and their events -/

/-- The code was taken, and a new session was created with it. -/
def Consumes (id : RecoveryCodeId) (e : CallEvent ι) : Prop :=
  ∃ session, e.Is (.write (.markUsedAndCreateSession id session)) (.ok ()) ∧
    session ∉ e.before.sessions ∧ session ∈ e.after.sessions

/-- The codes of the user were replaced, or deleted. -/
def Withdraws (u : UserId) (e : CallEvent ι) : Prop :=
  ∃ S, S.userId = u ∧
    ((∃ codes, e.Is (.write (.enableIfCurrent S codes)) (.ok true)) ∨
      (∃ codes, e.Is (.write (.replaceRecoveryCodesIfCurrent S codes)) (.ok true)) ∨
      e.Is (.write (.disableIfCurrent S)) (.ok true))

/-- The id stood for a code at the start, or a write of the trace issued it. -/
def CodeSeen (db₀ : AuthDb) (es : Trace ι) (id : RecoveryCodeId) : Prop :=
  (∃ x ∈ db₀.recoveryCodes, x.id = id) ∨
    ∃ e ∈ es, ∃ w, e.call = .write w ∧ ∃ x ∈ w.issues, x.id = id

/-- **Every code is issued under a new id.** -/
def FreshCodes (db₀ : AuthDb) (es : Trace ι) : Prop :=
  ∀ pre e post w, es = pre ++ e :: post → e.call = .write w →
    ∀ x ∈ w.issues, ¬ CodeSeen db₀ pre x.id

omit [DecidableEq ι] in
theorem CodeSeen.mono {pre post : Trace ι} {id : RecoveryCodeId}
    (h : CodeSeen db₀ pre id) : CodeSeen db₀ (pre ++ post) id :=
  h.imp_right fun ⟨e, he, hw⟩ => ⟨e, List.mem_append_left _ he, hw⟩

/-- The ids of the codes the writes of a trace issue. -/
def issuedIds (es : Trace ι) : List RecoveryCodeId :=
  es.flatMap fun e => match e.call with
    | .write w => w.issues.map (·.id)
    | _ => []

omit [DecidableEq ι] in
theorem freshCodes_of_nodup
    (h : (db₀.recoveryCodes.rows.map (·.id) ++ issuedIds es).Nodup) : FreshCodes db₀ es := by
  intro pre e post w hes he x hx hseen
  have hsplit : issuedIds es = issuedIds pre ++ (w.issues.map (·.id) ++ issuedIds post) := by
    simp [hes, issuedIds, he]
  rw [hsplit, ← List.append_assoc] at h
  have hnot : x.id ∉ db₀.recoveryCodes.rows.map (·.id) ++ issuedIds pre := fun hmem =>
    (List.nodup_append.1 h).2.2 _ hmem _ (List.mem_append_left _ (List.mem_map_of_mem hx)) rfl
  refine hnot (List.mem_append.2 (hseen.imp ?_ ?_))
  · intro hstart
    obtain ⟨y, hy, hid⟩ := hstart
    exact hid ▸ List.mem_map_of_mem hy
  · intro htrace
    obtain ⟨d, hd, w', hcall, y, hy, hid⟩ := htrace
    refine List.mem_flatMap.2 ⟨d, hd, ?_⟩
    rw [hcall, ← hid]
    exact List.mem_map_of_mem hy

section Along

variable (hrun : Run ports (system P db₀ clients) es c) {pre post : Trace ι} {e : CallEvent ι}

include hrun

/-- A committed consumption: the row was there and unused, and the session is new. -/
theorem consumes_of_is (he : e ∈ es) {id : RecoveryCodeId} {session : Session}
    (hop : e.Is (.write (.markUsedAndCreateSession id session)) (.ok ())) : Consumes id e := by
  obtain ⟨-, -, hs, -⟩ := RecoveryCodes.markUsed_eq_ok (event_committed hrun he hop)
  refine ⟨session, hop, fun hmem => Table.key_ne_of_insert hs hmem rfl, ?_⟩
  exact (Table.mem_insert hs).2 (.inr rfl)

theorem consumes_unused (he : e ∈ es) {id : RecoveryCodeId} (hc : Consumes id e) :
    ∃ x ∈ e.before.recoveryCodes, x.id = id ∧ x.used = false := by
  obtain ⟨session, hop, -⟩ := hc
  exact (RecoveryCodes.markUsed_eq_ok (event_committed hrun he hop)).2.2.2.1

theorem consumes_used (he : e ∈ es) {x : RecoveryCode} (hc : Consumes x.id e)
    (hx : x ∈ e.after.recoveryCodes) : x.used = true := by
  obtain ⟨session, hop, -⟩ := hc
  obtain ⟨-, -, -, -, hmem⟩ := RecoveryCodes.markUsed_eq_ok (event_committed hrun he hop)
  obtain ⟨z, -, hz⟩ := (hmem x).1 hx
  by_cases hsel : (z.id = x.id && !z.used) = true
  · rw [if_pos hsel] at hz
    rw [← hz]
  · rw [if_neg hsel] at hz
    subst hz
    simpa using hsel

/-- **A row that an event leaves was there, was issued by it, or is the one it consumed.** -/
theorem code_kept_or_issued (he : e ∈ es) {x : RecoveryCode}
    (hx : x ∈ e.after.recoveryCodes) (hc : ¬ Consumes x.id e) :
    x ∈ e.before.recoveryCodes ∨ ∃ w, e.call = .write w ∧ x ∈ w.issues := by
  rcases event_change hrun he with hsame | ⟨w, r, hw, hrunw⟩
  · rw [hsame] at hx
    exact .inl hx
  · cases AuthWrite.codesStep hrunw with
    | same h =>
      rw [h] at hx
      exact .inl hx
    | replaced u h =>
      rw [Table.mem_def, h.rows_eq] at hx
      rcases List.mem_append.1 hx with hx | hx
      · exact .inl (List.mem_of_mem_filter hx)
      · exact .inr ⟨w, hw.call_eq, hx⟩
    | @used id session _ hs hfree h =>
      obtain ⟨y, hy, hyx⟩ := (h x).1 hx
      by_cases hsel : (y.id = id && !y.used) = true
      · rw [if_pos hsel] at hyx
        have hid : x.id = id := by
          rw [← hyx]
          simpa using (Bool.and_eq_true_iff.1 hsel).1
        exact absurd (hid ▸ consumes_of_is hrun he hw) hc
      · rw [if_neg hsel] at hyx
        exact .inl (hyx ▸ hy)

/-- What is stored was issued. -/
theorem code_seen
    (hes : es = pre ++ e :: post) {x : RecoveryCode} (hx : x ∈ e.before.recoveryCodes) :
    CodeSeen db₀ pre x.id := by
  refine hrun.traced_before
    (I := fun es (db : AuthDb) => ∀ x ∈ db.recoveryCodes, CodeSeen db₀ es x.id)
    (fun x hx => .inl ⟨x, hx, rfl⟩) (fun pre e post hes ih x hx => ?_) hes x hx
  have he : e ∈ es := hes ▸ List.mem_append_cons_self
  by_cases hc : Consumes x.id e
  · obtain ⟨y, hy, hid, -⟩ := consumes_unused hrun he hc
    exact hid ▸ (ih y hy).mono
  · rcases code_kept_or_issued hrun he hx hc with hx | ⟨w, hw, hx⟩
    · exact (ih x hx).mono
    · exact .inr ⟨e, List.mem_append_cons_self, w, hw, x, hx, rfl⟩

/-- A write issues unused codes. -/
theorem issues_unused
    (hes : es = pre ++ e :: post) {w : AuthWrite} (hw : e.call = .write w) {x : RecoveryCode}
    (hx : x ∈ w.issues) : x.used = false := by
  have hprotocol : Protocol P (clients e.thread) (own e.thread pre) (.write w) :=
    hw ▸ protocol_of hrun hes
  cases w with
  | enableIfCurrent S codes =>
    obtain ⟨_, _, _, _, -, -, -, hbatch⟩ := hprotocol
    exact (hbatch.owner x hx).2
  | replaceRecoveryCodesIfCurrent S codes =>
    obtain ⟨_, _, _, -, -, hbatch⟩ := hprotocol
    exact (hbatch.owner x hx).2
  | _ => cases hx

/-! ## 2. Used rows -/

/-- The code was used before the run. -/
def UsedBefore (db₀ : AuthDb) (id : RecoveryCodeId) : Prop :=
  ∃ x ∈ db₀.recoveryCodes, x.id = id ∧ x.used = true

/-- A row is marked used exactly when it was at the start or its session was created since. -/
def UsedExactly (db₀ : AuthDb) (es : Trace ι) (db : AuthDb) : Prop :=
  ∀ x ∈ db.recoveryCodes, (x.used = true ↔ UsedBefore db₀ x.id ∨ ∃ e ∈ es, Consumes x.id e)

omit hrun [DecidableEq ι] in
theorem usedExactly_start (db₀ : AuthDb) :
    UsedExactly db₀ ([] : Trace ι) db₀ := by
  intro x hx
  constructor
  · intro hused
    exact .inl ⟨x, hx, rfl, hused⟩
  · intro h
    rcases h with ⟨y, hy, hid, hused⟩ | ⟨e, he, -⟩
    · rwa [← Table.eq_of_key hy hx hid]
    · cases he

/-- A consumed code was seen before. -/
theorem consumed_seen (hes : es = pre ++ post) {id : RecoveryCodeId}
    (h : UsedBefore db₀ id ∨ ∃ e ∈ pre, Consumes id e) : CodeSeen db₀ pre id := by
  rcases h with ⟨x, hx, hid, -⟩ | ⟨e, he, hc⟩
  · exact .inl ⟨x, hx, hid⟩
  · obtain ⟨p₁, p₂, rfl⟩ := List.append_of_mem he
    have hmem : e ∈ es := hes ▸ List.mem_append_left _ he
    obtain ⟨x, hx, rfl, -⟩ := consumes_unused hrun hmem hc
    exact (code_seen hrun (by simpa using hes) hx).mono

theorem usedExactly_step (hfresh : FreshCodes db₀ es) (hes : es = pre ++ e :: post)
    (ih : UsedExactly db₀ pre e.before) : UsedExactly db₀ (pre ++ [e]) e.after := by
  intro x hx
  have he : e ∈ es := hes ▸ List.mem_append_cons_self
  by_cases hc : Consumes x.id e
  · exact iff_of_true (consumes_used hrun he hc hx)
      (.inr ⟨e, List.mem_append_cons_self, hc⟩)
  · have hpast : (∃ d ∈ pre ++ [e], Consumes x.id d) ↔ ∃ d ∈ pre, Consumes x.id d := by
      simp [or_and_right, exists_or, hc]
    rw [hpast]
    rcases code_kept_or_issued hrun he hx hc with hx | ⟨w, hw, hx⟩
    · exact ih x hx
    · -- a code that is issued now is unused, and no earlier one had its id
      refine iff_of_false ?_ fun h => hfresh pre e post w hes hw x hx (consumed_seen hrun hes h)
      rw [issues_unused hrun hes hw hx]
      decide

/-- **A row is marked used exactly when its session was created.** -/
theorem used_iff_consumed (hfresh : FreshCodes db₀ es) : UsedExactly db₀ es c.store :=
  hrun.traced (I := UsedExactly db₀) (usedExactly_start db₀)
    fun _ _ _ hes ih => usedExactly_step hrun hfresh hes ih

/-- **No code is consumed twice.** -/
theorem consumed_once (hfresh : FreshCodes db₀ es)
    (hes : es = pre ++ e :: post) {id : RecoveryCodeId} (he : Consumes id e) :
    ¬ UsedBefore db₀ id ∧ ∀ d ∈ pre, ¬ Consumes id d := by
  have hmem : e ∈ es := hes ▸ List.mem_append_cons_self
  obtain ⟨x, hx, rfl, hfree⟩ := consumes_unused hrun hmem he
  have hexact : UsedExactly db₀ pre e.before :=
    hrun.traced_before (I := UsedExactly db₀) (usedExactly_start db₀)
      (fun _ _ _ hes ih => usedExactly_step hrun hfresh hes ih) hes
  have hnone : ¬ (UsedBefore db₀ x.id ∨ ∃ d ∈ pre, Consumes x.id d) := by
    rw [← hexact x hx, hfree]
    decide
  exact ⟨fun h => hnone (.inl h), fun d hd h => hnone (.inr ⟨d, hd, h⟩)⟩

/-! ## 3. Withdrawn codes -/

/-- **A withdrawal leaves none of the user's old codes.** -/
theorem withdraws_removes (hfresh : FreshCodes db₀ es) (hes : es = pre ++ e :: post) {u : UserId}
    (he : Withdraws u e) {x : RecoveryCode} (hx : x ∈ e.before.recoveryCodes) (hu : x.userId = u) :
    ∀ y ∈ e.after.recoveryCodes, y.id ≠ x.id := by
  have hmem : e ∈ es := hes ▸ List.mem_append_cons_self
  obtain ⟨S, rfl, hkind⟩ := he
  obtain ⟨w, hw, hreplaced⟩ : ∃ w, e.call = .write w ∧
      RecoveryCodes.Replaced S.userId w.issues e.before.recoveryCodes e.after.recoveryCodes := by
    rcases hkind with ⟨codes, h⟩ | ⟨codes, h⟩ | h
    · exact ⟨_, h.call_eq, (TotpSecrets.enableIfCurrent_eq_true (event_committed hrun hmem h)).2.2.2⟩
    · exact ⟨_, h.call_eq,
        (TotpSecrets.replaceRecoveryCodesIfCurrent_eq_true (event_committed hrun hmem h)).2.2.2⟩
    · exact ⟨_, h.call_eq, (TotpSecrets.disableIfCurrent_eq_true (event_committed hrun hmem h)).2.2.1⟩
  intro y hy hid
  rw [Table.mem_def, hreplaced.rows_eq] at hy
  rcases List.mem_append.1 hy with hy | hy
  · obtain ⟨hy, hother⟩ := List.mem_filter.1 hy
    rw [Table.eq_of_key hy hx hid] at hother
    simp [hu] at hother
  · exact hfresh pre e post w hes hw y hy (hid ▸ code_seen hrun hes hx)

/-- **A code that is gone stays gone.** -/
theorem code_gone (hfresh : FreshCodes db₀ es) {pre mid post : Trace ι} {d e : CallEvent ι}
    (hes : es = pre ++ d :: (mid ++ e :: post)) {id : RecoveryCodeId}
    (hseen : CodeSeen db₀ pre id) (hd : ∀ y ∈ d.after.recoveryCodes, y.id ≠ id) :
    ∀ y ∈ e.before.recoveryCodes, y.id ≠ id := by
  refine hrun.segment (R := fun s t : AuthDb =>
    (∀ y ∈ s.recoveryCodes, y.id ≠ id) → ∀ y ∈ t.recoveryCodes, y.id ≠ id)
    (fun _ h => h) (fun _ _ _ h₁ h₂ h => h₂ (h₁ h)) hes (fun z hz hbefore y hy hid => ?_) hd
  obtain ⟨m₁, m₂, rfl⟩ := List.append_of_mem hz
  have hsplit : es = (pre ++ d :: m₁) ++ z :: (m₂ ++ e :: post) := by simp [hes]
  have hzmem : z ∈ es := hsplit ▸ List.mem_append_cons_self
  by_cases hc : Consumes y.id z
  · obtain ⟨x, hx, hxid, -⟩ := consumes_unused hrun hzmem hc
    exact hbefore x hx (hxid.trans hid)
  · rcases code_kept_or_issued hrun hzmem hy hc with hy | ⟨w, hw, hy⟩
    · exact hbefore y hy hid
    · exact hfresh _ _ _ w hsplit hw y hy (hid ▸ hseen.mono)

end Along

/-- **A recovery code opens at most one session.** In every run of logins, regenerations,
    disablings and enrollments:

    * a session on a recovery code is that of a login that found the code, unused, under the hash
      of its own text; the code had opened no session before, and opens no second one;
    * a code is marked used exactly when its session was created;
    * a code of a batch that was replaced or deleted opens no session afterwards. -/
theorem recovery_code_single_use (hrun : Run ports (system P db₀ clients) es c)
    (hfresh : FreshCodes db₀ es) :
    (∀ pre e post id, es = pre ++ e :: post → Consumes id e →
      (∃ params u hash code, clients e.thread = .login params ∧
        recoveryHash P params.code = .ok hash ∧
        ⟨.findUnusedByHash u hash, .ok (some code)⟩ ∈ own e.thread pre ∧ code.id = id) ∧
      ¬ UsedBefore db₀ id ∧ ∀ d ∈ pre, ¬ Consumes id d) ∧
    (∀ x ∈ c.store.recoveryCodes,
      (x.used = true ↔ UsedBefore db₀ x.id ∨ ∃ e ∈ es, Consumes x.id e)) ∧
    ∀ pre d mid e post u x, es = pre ++ d :: (mid ++ e :: post) → Withdraws u d →
      x ∈ d.before.recoveryCodes → x.userId = u → ¬ Consumes x.id e := by
  refine ⟨fun pre e post id hes he => ⟨?_, consumed_once hrun hfresh hes he⟩,
    used_iff_consumed hrun hfresh, fun pre d mid e post u x hes hd hx hu he => ?_⟩
  · obtain ⟨session, hop, -⟩ := he
    obtain ⟨params, u, user, hash, code, hclient, -, -, hhash, hfound, hid⟩ :=
      protocol_of_is hrun hes hop
    exact ⟨params, u, hash, code, hclient, hhash, hfound, hid⟩
  · have hgone := withdraws_removes hrun hfresh hes hd hx hu
    obtain ⟨y, hy, hid, -⟩ := consumes_unused hrun (by simp [hes]) he
    exact code_gone hrun hfresh hes (code_seen hrun hes hx) hgone y hy hid

/-- A verification issues one code, and a login uses it. -/
def recoveryClients : Bool → Client
  | false => .verify 1 0
  | true => .login ⟨[], "a", none, 3600⟩

def recovery : Trace Bool × Config Call.Reply AuthDb Bool Outcome :=
  trace .plain (oneUser false (unused (plainSecret 0))) recoveryClients
    ((List.replicate 6 false ++ List.replicate 11 true).map fun i => (i, .plain 1))

theorem recovery_consumed_once :
    ∃ e, recovery.1 = recovery.1.take 14 ++ e :: recovery.1.drop 15 ∧ Consumes 1 e ∧
      ∀ d ∈ recovery.1.take 14, ¬ Consumes 1 d := by
  have hrun := trace_run .plain (oneUser false (unused (plainSecret 0))) recoveryClients
    ((List.replicate 6 false ++ List.replicate 11 true).map fun i => (i, .plain 1))
  have hfresh : FreshCodes (oneUser false (unused (plainSecret 0))) recovery.1 :=
    freshCodes_of_nodup (by decide)
  obtain ⟨e, -, hes, -, he⟩ := event_at (show recovery.1[14]?.map Event.view =
    some (true, ⟨.write (.markUsedAndCreateSession 1 ⟨1, 1, "sessionA".toList, 3600, false⟩),
      .ok ()⟩) from rfl)
  have hconsumes : Consumes 1 e :=
    consumes_of_is hrun (hes ▸ List.mem_append_cons_self) he
  exact ⟨e, hes, hconsumes,
    ((recovery_code_single_use hrun hfresh).1 _ e _ 1 hes hconsumes).2.2⟩

end DeveSub.TwoFactor
