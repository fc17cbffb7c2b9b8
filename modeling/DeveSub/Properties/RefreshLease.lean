/-
  File:      DeveSub/Properties/RefreshLease.lean
  Subject:   The lease of a source, over whole runs.

  A job that completes has held the lease from `mark_running` on: what ends a job ends it for good,
  and ids of jobs are not drawn twice. While it holds the lease nobody edits or deletes the source
  and nobody else publishes, so the source it read is still configured so, and the active snapshot
  it read is still the active one. Every published version is therefore one above the last.

  * `lease_held` -- the lease of a job that completes was never interrupted;
  * `read_in_force` -- what the job read is in force when it completes;
  * `snapshotsOk_before` -- at most one snapshot of a source is active, and it is the newest.
-/
import DeveSub.Application.Refresh
import DeveSub.Application.RefreshSteps

namespace DeveSub

variable {W : World} {ι : Type} [DecidableEq ι] {db₀ : Db} {clients : ι → RefreshClient}
  {es : Trace ι}
  {c : Config Call.Reply Db ι (Option (Except SourceAppError RefreshResult))}

/-! ## 1. Assumptions on a run -/

/-- The job an event creates, or tries to. -/
def createdJob (e : CallEvent ι) : Option JobId :=
  match e.call with
  | .write (.createJob job) => some job.id
  | _ => none

/-- **Ids of jobs are not drawn twice.** -/
def FreshJobs (db : Db) (es : Trace ι) : Prop :=
  (db.jobs.rows.map SourceRefreshJob.id ++ es.filterMap createdJob).Nodup

instance (db : Db) (es : Trace ι) : Decidable (FreshJobs db es) :=
  inferInstanceAs (Decidable (List.Nodup _))

/-- What the schema promises of the tables a run starts from: the lease index, and that the active
    snapshot of a source is its newest. -/
structure RefreshStart (db : Db) : Prop where
  lease : LeaseUnique db
  snapshots : ∀ s, SnapshotsOk s db

omit [DecidableEq ι] in
/-- Two creations are of different jobs. -/
theorem createdJob_ne {d e : CallEvent ι} {j : JobId} (hfresh : FreshJobs db₀ es)
    (hde : [d, e].Sublist es) (hd : createdJob d = some j) : createdJob e ≠ some j := by
  intro he
  have hsub : [j, j].Sublist (es.filterMap createdJob) := by
    have hmap := hde.filterMap createdJob
    rwa [List.filterMap_cons_some hd, List.filterMap_cons_some he, List.filterMap_nil] at hmap
  have hnodup := (List.nodup_append.1 hfresh).2.1.sublist hsub
  simp at hnodup

/-! ## 2. One job -/

/-- The event completes the job of the source, by a 304 or by a publication. -/
def Completes (s : SourceId) (j : JobId) (e : CallEvent ι) : Prop :=
  (∃ now, e.Is (.write (.touchFetchedAt s j now)) (.ok ())) ∨
    ∃ input now result, input.sourceId = s ∧ input.jobId = some j ∧
      e.Is (.write (.reconcile input now)) (.ok result)

section Runs

variable (hrun : Run (ports W) (refreshSystem db₀ clients) es c)

include hrun

/-- Each call keeps to its client's protocol. -/
theorem keeps_of {pre post : Trace ι} {e : CallEvent ι}
    (hes : es = pre ++ e :: post) : (clients e.thread).Keeps (own e.thread pre) e.call := by
  have hfollows : ∀ i, ((refreshSystem db₀ clients).threads i).Follows (clients i).Keeps
      (fun _ _ => True) [] := fun i => refreshClient_follows (clients i)
  exact hrun.follows hfollows hes

/-- **How a job came to its completion**: by a 304 to its fetch, or by a body. -/
theorem completes_fetched {pre post : Trace ι} {e : CallEvent ι}
    {s : SourceId} {j : JobId} (hes : es = pre ++ e :: post) (he : Completes s j e) :
    ∃ S active, (∃ now snapshot, active = some snapshot ∧
        e.Is (.write (.touchFetchedAt s j now)) (.ok ()) ∧
        Fetched (own e.thread pre) s j S active (.ok .notModified)) ∨
      ∃ body etag contentType input now result, input.jobId = some j ∧
        e.Is (.write (.reconcile input now)) (.ok result) ∧
        Fetched (own e.thread pre) s j S active (.ok (.ok body etag contentType)) ∧
        Publication (own e.thread pre) s S active body etag contentType input := by
  have hkeeps := keeps_of hrun hes
  rcases he with ⟨now, hop⟩ | ⟨input, now, result, rfl, hj, hop⟩
  · rw [hop.call_eq] at hkeeps
    cases hclient : clients e.thread with
    | other p hp => rw [hclient] at hkeeps; cases hkeeps
    | refresh s' =>
      rw [hclient] at hkeeps
      obtain ⟨rfl, S, snapshot, hf⟩ := hkeeps
      exact ⟨S, some snapshot, .inl ⟨now, snapshot, rfl, hop, hf⟩⟩
  · rw [hop.call_eq] at hkeeps
    cases hclient : clients e.thread with
    | other p hp => rw [hclient] at hkeeps; cases hkeeps
    | refresh s' =>
      rw [hclient] at hkeeps
      obtain ⟨k, S, active, body, etag, contentType, hk, hf, hpub⟩ := hkeeps
      obtain rfl : j = k := Option.some.inj (hj.symm.trans hk)
      obtain rfl := hpub.sourceId
      exact ⟨S, active, .inr ⟨body, etag, contentType, input, now, result, hj, hop, hf, hpub⟩⟩

/-- Who completes a job holds its lease. -/
theorem completes_running {e : CallEvent ι} (hmem : e ∈ es) {s : SourceId} {j : JobId}
    (he : Completes s j e) : Running s j e.before ∧ ¬ Running s j e.after := by
  rcases he with ⟨now, hop⟩ | ⟨input, now, result, rfl, hj, hop⟩
  · obtain ⟨hlease, hafter⟩ :=
      RefreshJobs.touchFetchedAt_eq_ok (Writes.committed (hrun.sem_of_is hmem hop))
    have hjobs : e.after.jobs = RefreshJobs.setCompleted e.before.jobs s j .zero true now := by
      rw [hafter]
    exact ⟨holdsLease_running hlease, not_running_of_completed hjobs⟩
  · have hrec := NodePool.reconcileSource_eq_ok W.fingerprint
      (Writes.committed (hrun.sem_of_is hmem hop))
    have hcompleted := hrec.completed
    simp only [NodePool.JobCompleted, hj] at hcompleted
    exact ⟨holdsLease_running hcompleted.1, not_running_of_completed hcompleted.2⟩

/-- A job that took the lease is running, for some source. -/
theorem markRunning_running {m : CallEvent ι} (hmem : m ∈ es) {j : JobId}
    (hm : m.Is (.write (.markRunning j)) (.ok ())) : ∃ s, Running s j m.after := by
  obtain ⟨job, hjob, hpending, -, hafter⟩ :=
    RefreshJobs.markRunning_eq_ok (Writes.committed (hrun.sem_of_is hmem hm))
  have hid : job.id = j := by
    simp only [RefreshJobs.isPending, Bool.and_eq_true, decide_eq_true_eq] at hpending
    exact hpending.1
  refine ⟨job.sourceId, { job with status := .running }, ?_, rfl, rfl⟩
  rw [hafter]
  dsimp only
  rw [RefreshJobs.setRunning, Table.find_update, Table.find_eq_some.2 ⟨hjob, hid⟩, Option.map_some,
    if_pos hpending]

/-- **The lease of a job that runs was never interrupted** since the job took it. -/
theorem lease_held {pre mid post : Trace ι} {m e : CallEvent ι}
    {s : SourceId} {j : JobId} (hes : es = pre ++ m :: (mid ++ e :: post))
    (hm : m.Is (.write (.markRunning j)) (.ok ())) (hnew : ∀ x ∈ mid, createdJob x ≠ some j)
    (he : Running s j e.before) :
    Running s j m.after ∧ ∀ x ∈ mid, Running s j x.before ∧ Running s j x.after := by
  have hchange : ∀ x ∈ mid, Change W x.call x.before x.after := fun x hx =>
    ports_change (hrun.sem_of_mem (by rw [hes]; simp [hx]))
  have hcreate : ∀ x ∈ mid, ∀ job : SourceRefreshJob, x.call = .write (.createJob job) →
      job.id ≠ j := by
    intro x hx job hop hid
    exact hnew x hx (by rw [createdJob, hop, ← hid])
  have hclosed : ∀ x ∈ mid, Ended j x.before → Ended j x.after := fun x hx hended =>
    ended_step (hchange x hx) hended (hcreate x hx)
  obtain ⟨s', hs'⟩ := markRunning_running hrun (by rw [hes]; simp) hm
  -- what ends in between is still ended at `e`
  have hlive : ∀ x ∈ mid, ¬ Ended j x.before ∧ ¬ Ended j x.after := by
    intro x hx
    obtain ⟨l, r, rfl⟩ := List.append_of_mem hx
    have hto : Ended j x.after → Ended j e.before := by
      have hsplit : es = (pre ++ m :: l) ++ x :: (r ++ e :: post) := by
        rw [hes]
        simp
      exact hrun.segment (R := fun a b : Db => Ended j a → Ended j b) (fun _ => id)
        (fun _ _ _ h h' => h' ∘ h) hsplit fun y hy =>
          hclosed y (List.mem_append_right _ (List.mem_cons_of_mem _ hy))
    exact ⟨fun h => he.not_ended (hto (hclosed x hx h)), fun h => he.not_ended (hto h)⟩
  have hkeep : ∀ x ∈ mid, Running s' j x.before → Running s' j x.after := fun x hx hb =>
    (running_step (hchange x hx) hb).resolve_right (hlive x hx).2
  have hsame : Running s' j e.before :=
    hrun.segment (R := fun a b : Db => Running s' j a → Running s' j b) (fun _ => id)
      (fun _ _ _ h h' => h' ∘ h) hes hkeep hs'
  obtain rfl : s' = s := by
    obtain ⟨row, hrow, hsource, -⟩ := he
    obtain ⟨row', hrow', hsource', -⟩ := hsame
    rw [hrow] at hrow'
    rw [← hsource, ← hsource', Option.some.inj hrow']
  refine ⟨hs', fun x hx => ?_⟩
  obtain ⟨l, r, rfl⟩ := List.append_of_mem hx
  have hbefore : Running s' j x.before := by
    have hsplit : es = pre ++ m :: (l ++ x :: (r ++ e :: post)) := by
      rw [hes]
      simp
    exact hrun.segment (R := fun a b : Db => Running s' j a → Running s' j b) (fun _ => id)
      (fun _ _ _ h h' => h' ∘ h) hsplit (fun y hy => hkeep y (List.mem_append_left _ hy)) hs'
  exact ⟨hbefore, hkeep x hx hbefore⟩

/-- The lease index holds throughout. -/
theorem leaseUnique_before (hlease : LeaseUnique db₀) {e : CallEvent ι}
    (he : e ∈ es) : LeaseUnique e.before :=
  hrun.always_before (fun _ _ _ _ hu hs => leaseUnique_step (ports_change hs) hu) hlease he

/-- Only refreshes publish, and always for a job. -/
theorem reconcile_jobId {e : CallEvent ι} (he : e ∈ es) {input : ReconcileInput}
    {now : Timestamp} (hop : e.call = .write (.reconcile input now)) : input.jobId ≠ none := by
  obtain ⟨pre, post, hes⟩ := List.append_of_mem he
  have hkeeps := keeps_of hrun hes
  rw [hop] at hkeeps
  cases hclient : clients e.thread with
  | other p hp => rw [hclient] at hkeeps; cases hkeeps
  | refresh s =>
    rw [hclient] at hkeeps
    obtain ⟨j, S, active, body, etag, contentType, hj, -⟩ := hkeeps
    rw [hj]
    exact Option.some_ne_none j

end Runs

/-- **A job up to the call `e`**, which it makes after `mid`: it took the lease with `m` and has
    held it since, the source it read is still configured so, and the snapshots are those among
    which it read the active one. -/
structure JobLease (mid : Trace ι) (m e : CallEvent ι)
    (s : SourceId) (j : JobId) (S : Source) (active : Option SourceSnapshot)
    (a : Except FetchError FetchResult) : Prop where
  thread : m.thread = e.thread
  lease : m.Is (.write (.markRunning j)) (.ok ())
  taken : Running s j m.after
  held : ∀ x ∈ mid, Running s j x.before ∧ Running s j x.after
  source : ∃ f ∈ mid, f.thread = e.thread ∧ f.Is (.findSource s) (.ok (some S))
  inForce : ∃ S', e.before.sources.find s = some S' ∧ SameConfig S S'
  snapshot : ∃ f ∈ mid, f.thread = e.thread ∧ f.Is (.findActiveSnapshot s) (.ok active) ∧
    active = RefreshJobs.findActiveSnapshot f.before s ∧ SnapshotsKept s f.before e.before
  fetch : ∃ f ∈ mid, f.thread = e.thread ∧ f.Is (.fetch S.url (active.bind (·.etag))) a

/-- The event publishes a snapshot of the source. -/
def PublishedAs (s : SourceId) (input : ReconcileInput) (e : CallEvent ι) : Prop :=
  input.sourceId = s ∧ ∃ now result, e.Is (.write (.reconcile input now)) (.ok result)

section Jobs

variable (hrun : Run (ports W) (refreshSystem db₀ clients) es c) (hlease : LeaseUnique db₀)
  (hfresh : FreshJobs db₀ es)

include hrun hlease

/-- **What a job read is in force as long as it runs.** -/
theorem read_in_force {pre mid post : Trace ι} {m e f : CallEvent ι}
    {s : SourceId} {j : JobId} (hes : es = pre ++ m :: (mid ++ e :: post))
    (hheld : ∀ x ∈ mid, Running s j x.before ∧ Running s j x.after) (hf : f ∈ mid) :
    UnderLease s f.before e.before := by
  have hmem : ∀ x ∈ mid, x ∈ es := fun x hx => by rw [hes]; simp [hx]
  have hstep : ∀ x ∈ mid, UnderLease s x.before x.after := fun x hx =>
    underLease_step (hrun.sem_of_mem (hmem x hx)) (leaseUnique_before hrun hlease (hmem x hx))
      (fun input now => reconcile_jobId hrun (hmem x hx)) (hheld x hx).1 (hheld x hx).2
  obtain ⟨l, r, rfl⟩ := List.append_of_mem hf
  have hsplit : es = (pre ++ m :: l) ++ f :: (r ++ e :: post) := by
    rw [hes]
    simp
  exact (hstep f hf).trans (hrun.segment (UnderLease.refl s) (fun _ _ _ => UnderLease.trans) hsplit
    fun y hy => hstep y (List.mem_append_right _ (List.mem_cons_of_mem _ hy)))

include hfresh

/-- **Every job that still runs has held its lease since it took it.** -/
theorem jobLease_of {pre post : Trace ι} {e : CallEvent ι}
    {s : SourceId} {j : JobId} {S : Source} {active : Option SourceSnapshot}
    {a : Except FetchError FetchResult} (hes : es = pre ++ e :: post)
    (hf : Fetched (own e.thread pre) s j S active a) (he : Running s j e.before) :
    ∃ old m mid, pre = old ++ m :: mid ∧ JobLease mid m e s j S active a := by
  obtain ⟨job, hid, -, hcalls⟩ := hf
  -- the events, the newest first: the fetch, the two reads, the lease, the creation
  obtain ⟨p₃, f₃, q₃, rfl, ht₃, h₃, hcalls⟩ := sublist_own_cons hcalls
  obtain ⟨p₂, f₂, q₂, rfl, ht₂, h₂, hcalls⟩ := sublist_own_cons hcalls
  obtain ⟨p₁, f₁, q₁, rfl, ht₁, h₁, hcalls⟩ := sublist_own_cons hcalls
  obtain ⟨p₀, m, q₀, rfl, htm, hm, hcalls⟩ := sublist_own_cons hcalls
  obtain ⟨d, hd, -, hcreate⟩ := mem_own.1 (List.singleton_sublist.1 hcalls)
  generalize hmid : q₀ ++ f₁ :: (q₁ ++ f₂ :: (q₂ ++ f₃ :: q₃)) = mid
  have hpre : ((p₀ ++ m :: q₀) ++ f₁ :: q₁ ++ f₂ :: q₂) ++ f₃ :: q₃ = p₀ ++ m :: mid := by
    rw [← hmid]
    simp
  have hsplit : es = p₀ ++ m :: (mid ++ e :: post) := by
    rw [hes, hpre]
    simp
  have hf₁ : f₁ ∈ mid := by simp [← hmid]
  have hf₂ : f₂ ∈ mid := by simp [← hmid]
  have hf₃ : f₃ ∈ mid := by simp [← hmid]
  have hnew : ∀ x ∈ mid, createdJob x ≠ some j := by
    intro x hx
    have hpair : [d, x].Sublist es := by
      rw [hsplit]
      exact (List.singleton_sublist.2 hd).append (List.singleton_sublist.2
        (List.mem_cons_of_mem _ (List.mem_append_left _ hx)))
    refine createdJob_ne hfresh hpair ?_
    have hcall : d.call = .write (.createJob job) := congrArg Sigma.fst hcreate
    rw [createdJob, hcall]
    exact congrArg some hid
  obtain ⟨htaken, hheld⟩ := lease_held hrun hsplit hm hnew he
  have hmem : ∀ f ∈ mid, f ∈ es := fun f hf => by rw [hsplit]; simp [hf]
  have hforce : ∀ f ∈ mid, UnderLease s f.before e.before := fun f hf =>
    read_in_force hrun hlease hsplit hheld hf
  refine ⟨p₀, m, mid, hpre, ?_⟩
  exact
    { thread := htm
      lease := hm
      taken := htaken
      held := hheld
      source := ⟨f₁, hf₁, ht₁, h₁⟩
      inForce := (hforce f₁ hf₁).config S (Reads.value (hrun.sem_of_is (hmem f₁ hf₁) h₁)).symm
      snapshot := ⟨f₂, hf₂, ht₂, h₂, Reads.value (hrun.sem_of_is (hmem f₂ hf₂) h₂),
        (hforce f₂ hf₂).snapshots⟩
      fetch := ⟨f₃, hf₃, ht₃, h₃⟩ }

omit hrun hlease hfresh [DecidableEq ι] in
/-- The version above the active snapshot is above all. -/
theorem version_top {mid : Trace ι} {m e : CallEvent ι}
    {s : SourceId} {j : JobId} {S : Source} {active : Option SourceSnapshot}
    {a : Except FetchError FetchResult} (hjob : JobLease mid m e s j S active a)
    (hok : SnapshotsOk s e.before) {x : SourceSnapshot} (hx : x ∈ e.before.snapshots)
    (hs : x.sourceId = s) : x.version < active.elim 1 fun y => y.version + 1 := by
  obtain ⟨f, -, -, -, hactive, hkept⟩ := hjob.snapshot
  obtain ⟨top, htop, htops, htopa, hle⟩ := hok.top x hx hs
  obtain ⟨old, hold, holdtop⟩ := hkept.back top htop htops
  have hread := holdtop.isActive.symm.trans htopa
  cases active with
  | none =>
    rw [RefreshJobs.findActiveSnapshot_eq_none hactive.symm hold (holdtop.sourceId.symm.trans htops)]
      at hread
    cases hread
  | some y =>
    obtain ⟨hy, hys, hya⟩ := RefreshJobs.findActiveSnapshot_eq_some hactive.symm
    obtain ⟨z, hz, hyz⟩ := hkept.forth y hy hys
    have hsame : z = top := hok.unique z hz top htop (hyz.sourceId.trans hys) htops
      (hyz.isActive.trans hya) htopa
    rw [← hsame, hyz.version] at hle
    exact Nat.lt_succ_of_le hle

/-- The job behind a publication. -/
theorem publishedAs_job {pre post : Trace ι} {e : CallEvent ι}
    {s : SourceId} {input : ReconcileInput} (hes : es = pre ++ e :: post)
    (he : PublishedAs s input e) : ∃ j S active body etag contentType old m mid,
      input.jobId = some j ∧ pre = old ++ m :: mid ∧ Running s j e.before ∧
      ¬ Running s j e.after ∧ input.snapshot.version = active.elim 1 (fun x => x.version + 1) ∧
      JobLease mid m e s j S active (.ok (.ok body etag contentType)) := by
  obtain ⟨hs, now, result, hop⟩ := he
  have hmem : e ∈ es := by rw [hes]; simp
  obtain ⟨j, hj⟩ := Option.ne_none_iff_exists'.1 (reconcile_jobId hrun hmem hop.call_eq)
  have hcompletes : Completes s j e := .inr ⟨input, now, result, hs, hj, hop⟩
  obtain ⟨hbefore, hafter⟩ := completes_running hrun hmem hcompletes
  obtain ⟨S, active, hcase⟩ := completes_fetched hrun hes hcompletes
  rcases hcase with ⟨now', y, -, htouch, -⟩ | ⟨body, etag, ct, input', now', r, -, hop', hf, hpub⟩
  · have hcall := hop.call_eq.symm.trans htouch.call_eq
    cases hcall
  · have hcall := hop.call_eq.symm.trans hop'.call_eq
    cases hcall
    obtain ⟨old, m, mid, hpre, hjob⟩ := jobLease_of hrun hlease hfresh hes hf hbefore
    exact ⟨j, S, active, body, etag, ct, old, m, mid, hj, hpre, hbefore, hafter, hpub.version, hjob⟩

/-- **A publication**: the job had the lease, and its snapshot is the active one, above all. -/
theorem published_active {pre post : Trace ι} {e : CallEvent ι}
    {input : ReconcileInput} {now : Timestamp} {result : ReconcileResult}
    (hes : es = pre ++ e :: post) (hop : e.Is (.write (.reconcile input now)) (.ok result))
    (hok : SnapshotsOk input.sourceId e.before) :
    SnapshotsOk input.sourceId e.after ∧ RefreshJobs.findActiveSnapshot e.after input.sourceId =
      some { input.snapshot with sourceId := input.sourceId, isActive := true } := by
  have hmem : e ∈ es := by rw [hes]; simp
  have hrec := NodePool.reconcileSource_eq_ok W.fingerprint
    (Writes.committed (hrun.sem_of_is hmem hop))
  obtain ⟨j, S, active, _, _, _, _, m, mid, -, -, -, -, hversion, hjob⟩ :=
    publishedAs_job hrun hlease hfresh hes ⟨rfl, now, result, hop⟩
  refine hrec.publishes fun x hx hs => ?_
  rw [hversion]
  exact version_top hjob hok hx hs

omit hlease in
/-- **At most one snapshot of a source is active, and it is the newest**, before every call. -/
theorem snapshotsOk_before (hstart : RefreshStart db₀) {pre post : Trace ι}
    {e : CallEvent ι} (hes : es = pre ++ e :: post) (s : SourceId) :
    SnapshotsOk s e.before := by
  refine hrun.traced_before (I := fun _ db => SnapshotsOk s db) (hstart.snapshots s) ?_ hes
  intro pre' d post' hsplit hok
  have hsem := hrun.sem_of_mem (by rw [hsplit]; simp : d ∈ es)
  rcases snapshot_move (ports_change hsem) s with
    hkept | ⟨-, hgone⟩ | ⟨input, now, result, hop, rfl, -⟩
  · exact hkept.ok hok
  · exact ⟨fun x hx _ _ hs => absurd hs (hgone x hx), fun x hx hs => absurd hs (hgone x hx)⟩
  · rcases write_answered hsem hop with ⟨r, his⟩ | hsame
    · exact (published_active hrun hstart.lease hfresh hsplit his hok).1
    · rw [hsame]
      exact hok

end Jobs

/-! ## 3. What a job does without the lease -/

/-- Snapshots and node pool are as they were. -/
structure PoolUntouched (db db' : Db) : Prop where
  snapshots : db'.snapshots = db.snapshots
  nodes : db'.nodes = db.nodes
  bindings : db'.bindings = db.bindings
  poolMeta : db'.poolMeta = db.poolMeta

theorem PoolUntouched.refl (db : Db) : PoolUntouched db db := ⟨rfl, rfl, rfl, rfl⟩

/-- Of the calls a refresh may make, only the two completions touch snapshots or pool. -/
theorem protocol_untouched {s : SourceId} {h : History Call.Reply} {op : Call} {db db' : Db}
    (hchange : Change W op db db') (hkeeps : RefreshProtocol s h op) : PoolUntouched db db' ∨
      (∃ s' j now, op = .write (.touchFetchedAt s' j now)) ∨
      ∃ input now, op = .write (.reconcile input now) := by
  cases hchange with
  | none => exact .inl (.refl _)
  | store | activate | setSubscriptions | deleteTemplate => cases hkeeps
  | @write w r _ _ h =>
    cases w with
    | createJob =>
      obtain ⟨-, jobs, -, rfl⟩ := RefreshJobs.create_eq_ok h
      exact .inl ⟨rfl, rfl, rfl, rfl⟩
    | markRunning =>
      obtain ⟨job, -, -, -, rfl⟩ := RefreshJobs.markRunning_eq_ok h
      exact .inl ⟨rfl, rfl, rfl, rfl⟩
    | updatePhase | disableAfterFailure | deleteJob | markFailed | markCancelled =>
      obtain ⟨-, rfl⟩ := ok_pair_inj h
      exact .inl ⟨rfl, rfl, rfl, rfl⟩
    | touchFetchedAt s' j now => exact .inr (.inl ⟨s', j, now, rfl⟩)
    | reconcile input now => exact .inr (.inr ⟨input, now, rfl⟩)
    | createSource | updateSource | updateSourceConfig | deleteSource | recoverCrashedJobs
    | recoverStaleJobs | pruneJobs | importNodes | upsertOverride | deleteOverride
    | patchOverrideRegion | batchSetEnabled | applyTags | renameTag | createTag | deleteTag
    | setChain => cases hkeeps

section Jobs

variable (hrun : Run (ports W) (refreshSystem db₀ clients) es c)

include hrun

/-- **A refresh touches snapshots and pool only when it completes its job.** -/
theorem untouched_of_not_completes {e : CallEvent ι} (hmem : e ∈ es) {s : SourceId}
    (hclient : clients e.thread = .refresh s) (hnot : ∀ j, ¬ Completes s j e) :
    PoolUntouched e.before e.after := by
  obtain ⟨pre, post, hes⟩ := List.append_of_mem hmem
  have hkeeps := keeps_of hrun hes
  rw [hclient] at hkeeps
  have hsem := hrun.sem_of_mem hmem
  have hrefused : ∀ w, e.call = .write w → (∀ r, ¬ e.Is (.write w) (.ok r)) →
      PoolUntouched e.before e.after := by
    intro w hop hno
    rcases write_answered hsem hop with ⟨r, his⟩ | hsame
    · exact absurd his (hno r)
    · rw [hsame]
      exact .refl _
  rcases protocol_untouched (ports_change hsem) hkeeps with
    huntouched | ⟨s', j, now, hop⟩ | ⟨input, now, hop⟩
  · exact huntouched
  · rw [hop] at hkeeps
    obtain ⟨rfl, -⟩ := hkeeps
    exact hrefused _ hop fun r his => hnot j (.inl ⟨now, his⟩)
  · rw [hop] at hkeeps
    obtain ⟨j, S, active, body, etag, contentType, hj, -, hpub⟩ := hkeeps
    exact hrefused _ hop fun r his => hnot j (.inr ⟨input, now, r, hpub.sourceId, hj, his⟩)

/-- A refresh takes one lease. -/
theorem markRunning_once {p₁ p₂ q₁ q₂ pre post : Trace ι}
    {m₁ m₂ e : CallEvent ι} {s : SourceId} {j₁ j₂ : JobId} (hes : es = pre ++ e :: post)
    (hclient : clients e.thread = .refresh s) (h₁ : pre = p₁ ++ m₁ :: q₁)
    (h₂ : pre = p₂ ++ m₂ :: q₂) (ht₁ : m₁.thread = e.thread) (ht₂ : m₂.thread = e.thread)
    (hm₁ : m₁.call = .write (.markRunning j₁)) (hm₂ : m₂.call = .write (.markRunning j₂)) :
    q₁ = q₂ ∧ m₁ = m₂ := by
  -- a lease that comes after another one of the thread breaks the protocol
  have honce : ∀ {p q r : Trace ι} {m m' : CallEvent ι} {j j' : JobId},
      pre = p ++ m :: (q ++ m' :: r) → m.thread = e.thread → m'.thread = e.thread →
      m.call = .write (.markRunning j) → m'.call = .write (.markRunning j') → False := by
    intro p q r m m' j j' hpre ht ht' hm hm'
    have hsplit : es = (p ++ m :: q) ++ m' :: (r ++ e :: post) := by
      rw [hes, hpre]
      simp
    have hkeeps := keeps_of hrun hsplit
    rw [hm', ht', hclient] at hkeeps
    have hown : (⟨m.call, m.reply⟩ : (c : Call) × c.Reply) ∈ own e.thread (p ++ m :: q) :=
      mem_own.2 ⟨m, by simp, ht, rfl⟩
    exact hkeeps.2 _ hown j hm
  rcases List.append_eq_append_iff.1 (h₁.symm.trans h₂) with ⟨l, hp, hq⟩ | ⟨l, hp, hq⟩
  · cases l with
    | nil =>
      obtain ⟨rfl, rfl⟩ := List.cons.inj hq
      exact ⟨rfl, rfl⟩
    | cons x l =>
      obtain ⟨rfl, rfl⟩ := List.cons.inj hq
      exact (honce h₁ ht₁ ht₂ hm₁ hm₂).elim
  · cases l with
    | nil =>
      obtain ⟨rfl, rfl⟩ := List.cons.inj hq
      exact ⟨rfl, rfl⟩
    | cons x l =>
      obtain ⟨rfl, rfl⟩ := List.cons.inj hq
      exact (honce h₂ ht₂ ht₁ hm₂ hm₁).elim

omit hrun [DecidableEq ι] in
/-- A source that is gone stays gone, unless it is created again. -/
theorem source_gone_step {op : Call} {db db' : Db} (hchange : Change W op db db') {s : SourceId}
    (hnew : ∀ x : Source, op = .write (.createSource x) → x.id ≠ s)
    (h : db.sources.find s = none) : db'.sources.find s = none := by
  have hmove := source_move hchange s
  rw [h] at hmove
  cases hfind : db'.sources.find s with
  | none => rfl
  | some S =>
    rw [hfind] at hmove
    cases hmove with
    | created hop hid => exact absurd hid (hnew _ hop)

/-- **Between two publications the snapshots are kept**, as long as the source is there. -/
theorem kept_between {pre mid post : Trace ι} {d e : CallEvent ι}
    {s : SourceId} (hes : es = pre ++ d :: (mid ++ e :: post)) {S : Source}
    (hsource : e.before.sources.find s = some S)
    (hnone : ∀ x ∈ mid, ∀ input, ¬ PublishedAs s input x)
    (hnew : ∀ x ∈ mid, ∀ y : Source, x.call = .write (.createSource y) → y.id ≠ s) :
    ∀ x ∈ mid, SnapshotsKept s x.before x.after := by
  intro x hx
  have hmem : ∀ y ∈ mid, y ∈ es := fun y hy => by rw [hes]; simp [hy]
  have hsem := hrun.sem_of_mem (hmem x hx)
  rcases snapshot_move (ports_change hsem) s with hkept | ⟨hop, -⟩ | ⟨input, now, r, hop, hs, -⟩
  · exact hkept
  · rcases write_answered hsem hop with ⟨r, his⟩ | hsame
    · -- deleted and not created again, it would be missing at `e`
      obtain ⟨u, v, rfl⟩ := List.append_of_mem hx
      have hgone : x.after.sources.find s = none := by
        obtain ⟨-, m, -, -, heq⟩ :=
          Sources.delete_eq_ok (Writes.committed (hrun.sem_of_is (hmem x hx) his))
        rw [heq]
        exact Table.find_eq_none.2 fun y hy => of_decide_eq_false (Table.mem_delete.1 hy).2
      have hsplit : es = (pre ++ d :: u) ++ x :: (v ++ e :: post) := by
        rw [hes]
        simp
      have hmissing := hrun.segment
        (R := fun a b : Db => a.sources.find s = none → b.sources.find s = none) (fun _ => id)
        (fun _ _ _ h h' => h' ∘ h) hsplit (fun y hy => source_gone_step
          (ports_change (hrun.sem_of_mem (hmem y (by simp [hy])))) (hnew y (by simp [hy]))) hgone
      rw [hsource] at hmissing
      cases hmissing
    · rw [hsame]
      exact .refl s _
  · rcases write_answered hsem hop with ⟨r, his⟩ | hsame
    · exact absurd ⟨hs, now, r, his⟩ (hnone x hx input)
    · rw [hsame]
      exact .refl s _

end Jobs

/-! ## 4. The lease discipline -/

/-- A snapshot of the source becomes active with the call. -/
def Activates (s : SourceId) (e : CallEvent ι) : Prop :=
  ∃ y ∈ e.after.snapshots, y.sourceId = s ∧ y.isActive = true ∧
    ∀ x ∈ e.before.snapshots, x.id = y.id → x.isActive = false

/-- **The lease discipline of a source**, at the call `e` that comes after `pre`. -/
structure LeaseDiscipline (clients : ι → RefreshClient) (pre : Trace ι)
    (e : CallEvent ι) (s : SourceId) : Prop where
  oneRunning : LeaseUnique e.before ∧ LeaseUnique e.after
  /-- A snapshot becomes active only through a job that held its lease throughout, with the
      configuration that is in force. -/
  activation : Activates s e → ∃ j S active body etag contentType input old m mid,
    PublishedAs s input e ∧ input.jobId = some j ∧ pre = old ++ m :: mid ∧ Running s j e.before ∧
      JobLease mid m e s j S active (.ok (.ok body etag contentType))
  /-- A job that lost its lease touches neither snapshots nor pool. -/
  lost : ∀ old m mid j, clients e.thread = .refresh s → pre = old ++ m :: mid →
    m.thread = e.thread → m.Is (.write (.markRunning j)) (.ok ()) →
    (∃ x ∈ mid, ¬ Running s j x.after) → PoolUntouched e.before e.after
  /-- The next version published is the next number. -/
  consecutive : ∀ old d mid input input', pre = old ++ d :: mid → PublishedAs s input d →
    PublishedAs s input' e → (∀ x ∈ mid, ∀ i, ¬ PublishedAs s i x) →
    (∀ x ∈ mid, ∀ y : Source, x.call = .write (.createSource y) → y.id ≠ s) →
    input'.snapshot.version = input.snapshot.version + 1

section Discipline

variable (hrun : Run (ports W) (refreshSystem db₀ clients) es c) (hstart : RefreshStart db₀)
  (hfresh : FreshJobs db₀ es)

include hrun hstart hfresh

omit hstart hfresh in
/-- Only a publication activates a snapshot. -/
theorem activates_published {e : CallEvent ι} (hmem : e ∈ es) {s : SourceId}
    (h : Activates s e) : ∃ input, PublishedAs s input e := by
  obtain ⟨y, hy, hys, hya, hold⟩ := h
  have hsem := hrun.sem_of_mem hmem
  rcases snapshot_move (ports_change hsem) s with hkept | ⟨-, hgone⟩ | ⟨input, now, r, hop, hs, -⟩
  · obtain ⟨x, hx, hxy⟩ := hkept.back y hy hys
    rw [hxy.isActive, hold x hx hxy.id.symm] at hya
    cases hya
  · exact absurd hys (hgone y hy)
  · rcases write_answered hsem hop with ⟨r, his⟩ | hsame
    · exact ⟨input, hs, now, r, his⟩
    · rw [hsame] at hy
      rw [hold y hy rfl] at hya
      cases hya

/-- **Successive versions are consecutive.** -/
theorem version_succ {old mid post : Trace ι} {d e : CallEvent ι}
    {s : SourceId} {input input' : ReconcileInput} (hes : es = old ++ d :: (mid ++ e :: post))
    (hd : PublishedAs s input d) (he : PublishedAs s input' e)
    (hnone : ∀ x ∈ mid, ∀ i, ¬ PublishedAs s i x)
    (hnew : ∀ x ∈ mid, ∀ y : Source, x.call = .write (.createSource y) → y.id ≠ s) :
    input'.snapshot.version = input.snapshot.version + 1 := by
  have hesE : es = (old ++ d :: mid) ++ e :: post := by
    rw [hes]
    simp
  have hmemD : d ∈ es := by rw [hes]; simp
  obtain ⟨j, S, active, body, etag, ct, old', m, mid', -, hpre, -, -, hversion, hjob⟩ :=
    publishedAs_job hrun hstart.lease hfresh hesE he
  obtain ⟨k, S', active', body', etag', ct', old'', m', mid'', -, -, hbeforeD, hafterD, -, -⟩ :=
    publishedAs_job hrun hstart.lease hfresh hes hd
  obtain ⟨S₀, hS₀, -⟩ := hjob.inForce
  have hkept := kept_between hrun hes hS₀ hnone hnew
  obtain ⟨f, hf, -, -, hactive, -⟩ := hjob.snapshot
  -- the read comes after the first publication, whose job had the lease then
  have hne : d ≠ m := by
    intro hdm
    obtain ⟨-, now, result, hop⟩ := hd
    have hcall := hop.call_eq.symm.trans ((congrArg Event.call hdm).trans hjob.lease.call_eq)
    cases hcall
  have hnot : d ∉ mid' := by
    intro hmem
    obtain rfl : j = k :=
      leaseUnique_before hrun hstart.lease hmemD s j k (hjob.held d hmem).1 hbeforeD
    exact hafterD (hjob.held d hmem).2
  obtain ⟨w, hw⟩ := append_cons_after hpre hne hnot
  obtain ⟨u, v, huv⟩ : ∃ u v, mid = u ++ f :: v := List.append_of_mem (by simp [hw, hf])
  subst huv
  have hsplit : es = old ++ d :: (u ++ f :: (v ++ e :: post)) := by
    rw [hes]
    simp
  have hsplitF : es = (old ++ d :: u) ++ f :: (v ++ e :: post) := by
    rw [hes]
    simp
  have hto : SnapshotsKept s d.after f.before :=
    hrun.segment (SnapshotsKept.refl s) (fun _ _ _ => SnapshotsKept.trans) hsplit
      fun y hy => hkept y (by simp [hy])
  obtain ⟨rfl, now, result, hop⟩ := hd
  have hread := (published_active hrun hstart.lease hfresh hes hop
    (snapshotsOk_before hrun hfresh hstart hes _)).2
  obtain ⟨hnewest, hnewestS, hnewestA⟩ := RefreshJobs.findActiveSnapshot_eq_some hread
  obtain ⟨y, hy, hyk⟩ := hto.forth _ hnewest hnewestS
  have hfound := RefreshJobs.findActiveSnapshot_of_mem
    (snapshotsOk_before hrun hfresh hstart hsplitF input.sourceId) hy hyk.sourceId hyk.isActive
  rw [hversion, hactive, hfound]
  exact congrArg (· + 1) hyk.version

/-- **The lease discipline holds at every call of every run.** -/
theorem lease_discipline {pre post : Trace ι} {e : CallEvent ι}
    (hes : es = pre ++ e :: post) (s : SourceId) : LeaseDiscipline clients pre e s := by
  have hmem : e ∈ es := by rw [hes]; simp
  have hunique := leaseUnique_before hrun hstart.lease hmem
  refine ⟨⟨hunique, leaseUnique_step (ports_change (hrun.sem_of_mem hmem)) hunique⟩, ?_, ?_, ?_⟩
  · intro hactive
    obtain ⟨input, hinput⟩ := activates_published hrun hmem hactive
    obtain ⟨j, S, active, body, etag, ct, old, m, mid, hj, hpre, hbefore, -, -, hjob⟩ :=
      publishedAs_job hrun hstart.lease hfresh hes hinput
    exact ⟨j, S, active, body, etag, ct, input, old, m, mid, hinput, hj, hpre, hbefore, hjob⟩
  · intro old m mid j hclient hpre hthread hm hlost
    refine untouched_of_not_completes hrun hmem hclient fun k hk => ?_
    obtain ⟨hbefore, -⟩ := completes_running hrun hmem hk
    -- the one lease this refresh took is the one it lost
    have hfetched : ∃ S active a, Fetched (own e.thread pre) s k S active a := by
      obtain ⟨S, active, ⟨_, _, _, _, hf⟩ | ⟨_, _, _, _, _, _, _, _, hf, _⟩⟩ :=
        completes_fetched hrun hes hk
      · exact ⟨S, active, _, hf⟩
      · exact ⟨S, active, _, hf⟩
    obtain ⟨S, active, a, hf⟩ := hfetched
    obtain ⟨old', m', mid', hpre', hjob⟩ := jobLease_of hrun hstart.lease hfresh hes hf hbefore
    obtain ⟨rfl, rfl⟩ := markRunning_once hrun hes hclient hpre hpre' hthread hjob.thread
      hm.call_eq hjob.lease.call_eq
    have hsame := hm.call_eq.symm.trans hjob.lease.call_eq
    cases hsame
    obtain ⟨x, hx, hnot⟩ := hlost
    exact hnot (hjob.held x hx).2
  · intro old d mid input input' hpre hd he hnone hnew
    have hsplit : es = old ++ d :: (mid ++ e :: post) := by
      rw [hes, hpre]
      simp
    exact version_succ hrun hstart hfresh hsplit hd he hnone hnew

end Discipline

/-- Without jobs and snapshots there is nothing to keep. -/
theorem refreshStart_of_nil {db : Db} (hjobs : db.jobs.rows = []) (hsnapshots : db.snapshots.rows = []) :
    RefreshStart db := by
  refine ⟨fun s j k hj => ?_, fun s => ⟨fun x hx => ?_, fun x hx => ?_⟩⟩
  · obtain ⟨row, hrow, -⟩ := hj
    have hmem := (Table.find_eq_some.1 hrow).1
    rw [Table.mem_def, hjobs] at hmem
    cases hmem
  · rw [Table.mem_def, hsnapshots] at hx
    cases hx
  · rw [Table.mem_def, hsnapshots] at hx
    cases hx

/-- A database with one source. -/
def oneSource : Db :=
  Db.empty.withSources ⟨[.plain 7], List.nodup_singleton _⟩ fun s hs => absurd hs (Table.not_mem_empty s)

/-- An outside that answers every fetch with one node. -/
def oneNodeOutside (etag : Option Str) (id : Ulid) : Outside World.plain :=
  { Outside.plain id with
    fetched := .ok (.ok [] etag none)
    parsed := .ok [some (.plain id)] }

/-- One refresh of the source, to its end. -/
def publishingRun := (refreshSystem oneSource fun _ : Unit => .refresh 7).exec
  ((List.replicate 26 ((), oneNodeOutside none 1)).map fun t => t.2.turn t.1)

def publishingTrace : Trace Unit := publishingRun.1

theorem lease_discipline_publishing : ∃ pre e post input, publishingTrace = pre ++ e :: post ∧
    PublishedAs 7 input e ∧ LeaseDiscipline (fun _ : Unit => .refresh 7) pre e 7 := by
  have hview : publishingTrace[25]?.map Event.view = some ((), ⟨.write (.reconcile
      ⟨7, some 1, ⟨1, 7, 1, 0, none, 1, true⟩, [some (.plain 1)]⟩ 0), .ok ⟨1, 0, 0, 0⟩⟩) := rfl
  obtain ⟨e, -, hes, -, his⟩ := event_at hview
  refine ⟨_, e, _, _, hes, ⟨rfl, 0, _, his⟩, ?_⟩
  exact lease_discipline (run_turns _ _) (refreshStart_of_nil rfl rfl) (by decide) hes 7

end DeveSub
