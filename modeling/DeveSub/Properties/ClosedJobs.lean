/-
  File:      DeveSub/Properties/ClosedJobs.lean
  Subject:   What still changes a refresh job that is completed, failed or cancelled.

  Every statement that writes a job asks for its status, but one: `update_phase` selects the row by
  its id alone. A worker whose job was swept or cancelled from outside goes on to its next phase
  and writes it, with a new start, into the closed row. No other call of the system changes one.

  * `ClosedMove`, `closed_move` -- what a call does to the row of a closed job;
  * `closed_job_frozen_iff` -- the closed rows of a run are final exactly when no such write came;
  * `swept_job_rewritten` -- a run in which it comes.
-/
import DeveSub.Properties.RefreshLease

namespace DeveSub

variable {W : World} {op : Call} {db db' : Db} {row : SourceRefreshJob}

/-! ## 1. One call -/

/-- **What a call does to the row of a closed job**: nothing, unless it deletes it or writes its
    phase. -/
inductive ClosedMove (op : Call) (row : SourceRefreshJob) : Option SourceRefreshJob → Prop where
  | kept : ClosedMove op row (some row)
  | gone : ClosedMove op row none
  | phased (phase : RefreshPhase) (now : Timestamp)
      (hop : op = .write (.updatePhase row.id phase now)) :
      ClosedMove op row (some (row.phased phase now))

theorem closed_move (h : Change W op db db') {j : JobId} (hrow : db.jobs.find j = some row)
    (hclosed : RefreshJobs.isOpen row = false) : ClosedMove op row (db'.jobs.find j) := by
  have hmove := job_move h j
  rw [hrow] at hmove
  generalize db'.jobs.find j = o at hmove
  cases hmove with
  | kept => exact .kept
  | gone => exact .gone
  | phased phase now hop => exact .phased phase now hop
  | leased hop hpending => simp [RefreshJobs.isOpen, hpending] at hclosed
  | closed hopen =>
    rw [hopen] at hclosed
    cases hclosed

/-! ## 2. Whole runs -/

section Runs

variable {ι : Type} [DecidableEq ι] {db₀ : Db} {clients : ι → RefreshClient}
  {es : Trace ι}
  {c : Config Call.Reply Db ι (Option (Except SourceAppError RefreshResult))}

/-- **A closed row is final**: every call of the run that finds the job closed leaves its row as it
    is, or deletes it. -/
def FinalRows (j : JobId) (es : Trace ι) : Prop :=
  ∀ e ∈ es, ∀ row, e.before.jobs.find j = some row → RefreshJobs.isOpen row = false →
    e.after.jobs.find j = some row ∨ e.after.jobs.find j = none

/-- The event writes the phase of the job. -/
def WritesPhase (j : JobId) (phase : RefreshPhase) (now : Timestamp)
    (e : CallEvent ι) : Prop :=
  e.Is (.write (.updatePhase j phase now)) (.ok ())

/-- **The closed rows of a run are final exactly when no write of a phase changes one.** The clients
    are any refreshes, sweeps, recoveries, cancellations and other programs, in any order. -/
theorem closed_job_frozen_iff (hrun : Run (ports W) (refreshSystem db₀ clients) es c) (j : JobId) :
    FinalRows j es ↔ ∀ e ∈ es, ∀ row phase now, e.before.jobs.find j = some row →
      RefreshJobs.isOpen row = false → WritesPhase j phase now e →
      phase = row.phase ∧ now = row.startedAt := by
  constructor
  · intro hfinal e he row phase now hrow hclosed hphase
    have hafter := congrArg (fun p => p.2.jobs.find j)
      (Except.ok.inj (Writes.committed (hrun.sem_of_is he hphase)))
    have hid : row.id = j := (Table.find_eq_some.1 hrow).2
    dsimp only at hafter
    rw [Table.find_update, hrow, Option.map_some, if_pos (by simpa using hid)] at hafter
    rcases hfinal e he row hrow hclosed with hsame | hgone
    · rw [hsame] at hafter
      have heq := Option.some.inj hafter
      exact ⟨congrArg SourceRefreshJob.phase heq, congrArg SourceRefreshJob.startedAt heq⟩
    · rw [hgone] at hafter
      cases hafter
  · intro hphases e he row hrow hclosed
    have hsem := hrun.sem_of_mem he
    have hid : row.id = j := (Table.find_eq_some.1 hrow).2
    generalize hafter : e.after.jobs.find j = o
    have hmove := closed_move (ports_change hsem) hrow hclosed
    rw [hafter] at hmove
    cases hmove with
    | kept => exact .inl rfl
    | gone => exact .inr rfl
    | phased phase now hop =>
      rcases write_answered hsem hop with ⟨⟨⟩, hphase⟩ | hnone
      · rw [hid] at hphase
        obtain ⟨rfl, rfl⟩ := hphases e he row phase now hrow hclosed hphase
        exact .inl rfl
      · rw [← hafter, hnone, hrow]
        exact .inl rfl

end Runs

/-- Refreshes, and the sweep of the scheduler. -/
def sweptClients : Nat → RefreshClient
  | 1 => .other (.call (.write (.recoverStaleJobs 1 "lease expired" 2)) fun _ => .done ())
      ⟨rfl, fun _ => trivial⟩
  | _ => .refresh 7

/-- A refresh to its end, then the sweep, then the phases of another refresh. -/
def sweptLater : List (Nat × Outside World.plain) :=
  List.replicate 26 (0, oneNodeOutside none 1) ++ [(1, oneNodeOutside none 1)] ++
    List.replicate 14 (2, oneNodeOutside none 2)

def sweptLaterTrace : Trace Nat :=
  ((refreshSystem oneSource sweptClients).exec (sweptLater.map fun t => t.2.turn t.1)).1

/-- The job whose phase a call writes. -/
def Call.phaseOf : Call → Option JobId
  | .write (.updatePhase j _ _) => some j
  | _ => none

/-- The job is there, and closed. -/
def closedIn (j : JobId) (db : Db) : Bool := (db.jobs.find j).any fun row => !RefreshJobs.isOpen row

theorem sweptLater_job_frozen : FinalRows 1 sweptLaterTrace ∧
    (sweptLaterTrace.filter fun e => closedIn 1 e.before).length = 15 ∧
    ∃ e ∈ sweptLaterTrace, closedIn 1 e.before = true ∧ e.call.phaseOf = some 2 := by
  have hphases : ∀ e ∈ sweptLaterTrace, closedIn 1 e.before = true → e.call.phaseOf ≠ some 1 := by
    decide +kernel
  refine ⟨(closed_job_frozen_iff (run_turns _ _) 1).2 fun e he row phase now hrow hclosed hphase => ?_,
    by decide +kernel, by decide +kernel⟩
  refine absurd (congrArg Call.phaseOf hphase.call_eq) (hphases e he ?_)
  rw [closedIn, hrow, Option.any_some, hclosed]
  rfl

/-! ## 3. A job that is swept while its worker goes on -/

/-- The fetch takes so long that the lease is swept before its answer is there. -/
def sweptSchedule : List (Nat × Outside World.plain) :=
  List.replicate 11 (0, oneNodeOutside none 1) ++ [(1, oneNodeOutside none 1)] ++
    List.replicate 3 (0, { oneNodeOutside none 1 with now := 5 })

def sweptTrace : Trace Nat :=
  ((refreshSystem oneSource sweptClients).exec (sweptSchedule.map fun t => t.2.turn t.1)).1

/-- The failed job is parsing, and has started after it has finished. -/
theorem swept_job_rewritten :
    (∃ c, Run (ports .plain) (refreshSystem oneSource sweptClients) sweptTrace c) ∧
    ∃ e ∈ sweptTrace,
      e.before.jobs.find 1 =
        some ⟨1, 7, .failed, .fetching, 0, some 2, some "lease expired", .zero, false⟩ ∧
      e.after.jobs.find 1 =
        some ⟨1, 7, .failed, .parsing, 5, some 2, some "lease expired", .zero, false⟩ := by
  refine ⟨⟨_, run_turns _ _⟩, ?_⟩
  have hrows : sweptTrace[14]?.map (fun e => (e.before.jobs.find 1, e.after.jobs.find 1)) =
      some (some ⟨1, 7, .failed, .fetching, 0, some 2, some "lease expired", .zero, false⟩,
        some ⟨1, 7, .failed, .parsing, 5, some 2, some "lease expired", .zero, false⟩) := rfl
  obtain ⟨e, he, hpair⟩ := Option.map_eq_some_iff.1 hrows
  obtain ⟨hbefore, hafter⟩ := Prod.mk.inj hpair
  exact ⟨e, List.mem_of_getElem? he, hbefore, hafter⟩

end DeveSub
