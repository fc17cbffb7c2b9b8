/-
  File:      DeveSub/Properties/EditedRefresh.lean
  Subject:   The first refresh that completes after a configuration edit.

  An edit is refused while a job of the source runs, and takes the validator of the active snapshot
  away. The job that completes next has therefore taken its lease, read the source and read the
  active snapshot after the edit, and it fetches unconditionally. Whether it publishes is then up to
  the server: the fetcher reports a 304 as not modified also where no validator was sent, and the
  refresh completes on it without a body.

  * `unconditional` -- the job after the edit sends no validator;
  * `edited_publishes_iff` -- it publishes under the edited configuration exactly if its fetch did
    not end in a 304.
-/
import DeveSub.Properties.FetchPinning
import DeveSub.Properties.RefreshLease

namespace DeveSub

variable {W : World} {ι : Type} [DecidableEq ι] {db₀ : Db} {clients : ι → RefreshClient}
  {es : Trace ι}
  {c : Config Call.Reply Db ι (Option (Except SourceAppError RefreshResult))}

/-! ## 1. Edits -/

/-- The event commits an edit of the source. -/
def Edits (s : SourceId) (edit : Sources.Edit) (d : CallEvent ι) : Prop :=
  ∃ (w : Write) (r : w.Result), w.configEdit = some (s, edit) ∧ d.Is (.write w) (.ok r)

/-- The call may rewrite or delete the source. -/
def Rewrites (s : SourceId) (op : Call) : Prop :=
  ∃ w, op = .write w ∧ ((∃ edit, w.configEdit = some (s, edit)) ∨ w = .deleteSource s)

/-- No active snapshot of the source has a validator. -/
def NoValidator (s : SourceId) (db : Db) : Prop :=
  ∀ y ∈ db.snapshots, y.sourceId = s → y.isActive = true → y.etag = none

/-- Both kinds of edit are the transaction `edit`. -/
theorem configEdit_run {w : Write} {r : w.Result} {s : SourceId} {edit : Sources.Edit} {db db' : Db}
    (hw : w.configEdit = some (s, edit)) (h : w.run W db = .ok (r, db')) :
    ∃ name x, Sources.edit s name edit db = .ok (x, db') := by
  cases w <;> cases hw
  · obtain ⟨x, hx⟩ := Sources.update_eq_ok h
    exact ⟨_, x, hx⟩
  · exact ⟨_, r, h⟩

theorem SnapshotsKept.noValidator {s : SourceId} {db db' : Db} (h : SnapshotsKept s db db')
    (hnone : NoValidator s db) : NoValidator s db' := by
  intro y hy hs ha
  obtain ⟨x, hx, hxy⟩ := h.back y hy hs
  rcases hxy.etag with he | he
  · rw [he, hnone x hx (hxy.sourceId.symm.trans hs) (hxy.isActive.symm.trans ha)]
  · exact he

/-- Without validators the fetch is unconditional. -/
theorem NoValidator.unconditional {s : SourceId} {db : Db} (h : NoValidator s db) :
    (RefreshJobs.findActiveSnapshot db s).bind (·.etag) = none := by
  cases hfind : RefreshJobs.findActiveSnapshot db s with
  | none => rfl
  | some y =>
    obtain ⟨hy, hs, ha⟩ := RefreshJobs.findActiveSnapshot_eq_some hfind
    exact h y hy hs ha

section Runs

variable (hrun : Run (ports W) (refreshSystem db₀ clients) es c)

include hrun

/-- What an edit found and left. -/
theorem edits_eq {d : CallEvent ι} (hmem : d ∈ es) {s : SourceId} {edit : Sources.Edit}
    (hd : Edits s edit d) : (∀ j, ¬ Running s j d.before) ∧ NoValidator s d.after ∧
      ∃ row, d.before.sources.find s = some row ∧
        d.after.sources.find s = some (edit.apply row) := by
  obtain ⟨w, r, hw, hop⟩ := hd
  obtain ⟨name, x, hx⟩ := configEdit_run hw (Writes.committed (hrun.sem_of_is hmem hop))
  obtain ⟨hfree, ⟨row, hrow, -⟩, m, -, -, hafter⟩ := Sources.edit_eq_ok hx
  refine ⟨fun j hj => ?_, fun y => edit_validator hx, row, hrow, ?_⟩
  · have hheld : Sources.hasRunningJob d.before s = true := hj.leaseHeld
    rw [hfree] at hheld
    cases hheld
  · have hid : row.id = s := (Table.find_eq_some.1 hrow).2
    rw [hafter]
    show (d.before.sources.update (fun x => x.id = s) edit.apply edit.keeps_id).find s = _
    rw [Table.find_update, hrow, Option.map_some, if_pos (decide_eq_true hid)]

/-- Until the next completion no validator comes back. -/
theorem noValidator_step {x : CallEvent ι} (hmem : x ∈ es) {s : SourceId}
    (hnot : ∀ k, ¬ Completes s k x) (h : NoValidator s x.before) : NoValidator s x.after := by
  have hsem := hrun.sem_of_mem hmem
  rcases snapshot_move (ports_change hsem) s with hkept | ⟨-, hgone⟩ | ⟨input, now, r, hop, hs, -⟩
  · exact hkept.noValidator h
  · exact fun y hy hys => absurd hys (hgone y hy)
  · rcases write_answered hsem hop with ⟨r, his⟩ | hsame
    · obtain ⟨j, hj⟩ := Option.ne_none_iff_exists'.1 (reconcile_jobId hrun hmem hop)
      exact absurd (.inr ⟨input, now, r, hs, hj, his⟩) (hnot j)
    · rw [hsame]
      exact h

omit hrun [DecidableEq ι] in
/-- A source that is neither edited nor deleted keeps its configuration. -/
theorem sameConfig_step {op : Call} {db db' : Db} (hchange : Change W op db db') {s : SourceId}
    (hnot : ¬ Rewrites s op) {a : Source} (h : db.sources.find s = some a) :
    ∃ b, db'.sources.find s = some b ∧ SameConfig a b := by
  have hmove := source_move hchange s
  rw [h] at hmove
  cases hfind : db'.sources.find s with
  | none =>
    rw [hfind] at hmove
    cases hmove with
    | deleted hop => exact absurd ⟨_, hop, .inr rfl⟩ hnot
  | some b =>
    rw [hfind] at hmove
    cases hmove with
    | kept hsame => exact ⟨b, rfl, hsame⟩
    | edited hop hedit => exact absurd ⟨_, hop, .inl ⟨_, hedit⟩⟩ hnot

end Runs

/-! ## 2. The job after the edit -/

/-- **The job publishes under the edit `d`**: from a body it received after the edit, parsed and
    filtered under the configuration in force, which is the edited one unless the source was edited
    or deleted again since. Its snapshot is the active one. -/
structure PublishesUnder (old mid : Trace ι) (d e : CallEvent ι)
    (s : SourceId) (j : JobId) (edit : Sources.Edit) (S : Source) (input : ReconcileInput) :
    Prop where
  published : PublishedAs s input e
  job : input.jobId = some j
  active : RefreshJobs.findActiveSnapshot e.after s =
    some { input.snapshot with sourceId := s, isActive := true }
  received : ∃ f ∈ mid, ∃ active body etag contentType, f.thread = e.thread ∧
    f.Is (.fetch S.url none) (.ok (.ok body etag contentType)) ∧
    Publication (own e.thread (old ++ d :: mid)) s S active body etag contentType input
  inForce : ∃ S', e.before.sources.find s = some S' ∧ SameConfig S S'
  edited : (∀ x ∈ mid, ¬ Rewrites s x.call) →
    ∃ row, d.before.sources.find s = some row ∧ SameConfig (edit.apply row) S

section Jobs

variable (hrun : Run (ports W) (refreshSystem db₀ clients) es c)
  {old mid post mid' : Trace ι} {d e m : CallEvent ι}
  {s : SourceId} {j : JobId} {edit : Sources.Edit} {S : Source} {active : Option SourceSnapshot}
  {a : Except FetchError FetchResult} (hes : es = old ++ d :: (mid ++ e :: post))
  (hd : Edits s edit d) (hjob : JobLease mid' m e s j S active a)

include hrun hes hd hjob

/-- The job took its lease after the edit: the edit found no job running. -/
theorem lease_after_edit {old' : Trace ι}
    (hpre : old ++ d :: mid = old' ++ m :: mid') : ∃ u, mid = u ++ m :: mid' := by
  have hmem : d ∈ es := by rw [hes]; simp
  refine append_cons_after hpre ?_ fun hin => (edits_eq hrun hmem hd).1 j (hjob.held d hin).1
  intro hdm
  obtain ⟨w, r, hw, hop⟩ := hd
  have hcall := hop.call_eq.symm.trans ((congrArg Event.call hdm).trans hjob.lease.call_eq)
  cases hcall
  cases hw

/-- **The job after the edit sends no validator.** -/
theorem unconditional (hmid : mid' ⊆ mid) (hfirst : ∀ x ∈ mid, ∀ k, ¬ Completes s k x) :
    active.bind (·.etag) = none := by
  obtain ⟨f, hf, -, -, hactive, -⟩ := hjob.snapshot
  obtain ⟨u, v, rfl⟩ := List.append_of_mem (hmid hf)
  have hmem : d ∈ es := by rw [hes]; simp
  have hsplit : es = old ++ d :: (u ++ f :: (v ++ e :: post)) := by
    rw [hes]
    simp
  have hnone : NoValidator s f.before :=
    hrun.segment (R := fun a b : Db => NoValidator s a → NoValidator s b) (fun _ => id)
      (fun _ _ _ h h' => h' ∘ h) hsplit
      (fun x hx => noValidator_step hrun (by rw [hsplit]; simp [hx]) (hfirst x (by simp [hx])))
      (edits_eq hrun hmem hd).2.1
  rw [hactive]
  exact hnone.unconditional

/-- The source the job read is the edited one. -/
theorem read_edited (hmid : mid' ⊆ mid) (hkept : ∀ x ∈ mid, ¬ Rewrites s x.call) :
    ∃ row, d.before.sources.find s = some row ∧ SameConfig (edit.apply row) S := by
  obtain ⟨f, hf, -, hread⟩ := hjob.source
  obtain ⟨u, v, rfl⟩ := List.append_of_mem (hmid hf)
  have hmem : d ∈ es := by rw [hes]; simp
  have hsplit : es = old ++ d :: (u ++ f :: (v ++ e :: post)) := by
    rw [hes]
    simp
  obtain ⟨-, -, row, hrow, hafter⟩ := edits_eq hrun hmem hd
  obtain ⟨S', hS', hsame⟩ := hrun.segment
    (R := fun a b : Db => ∀ A, a.sources.find s = some A →
      ∃ B, b.sources.find s = some B ∧ SameConfig A B)
    (fun _ A hA => ⟨A, hA, rfl⟩)
    (fun _ _ _ h h' A hA => by
      obtain ⟨B, hB, hAB⟩ := h A hA
      obtain ⟨C, hC, hBC⟩ := h' B hB
      exact ⟨C, hC, hAB.trans hBC⟩)
    hsplit
    (fun x hx A hA => sameConfig_step (ports_change (hrun.sem_of_mem (by rw [hsplit]; simp [hx])))
      (hkept x (by simp [hx])) hA)
    _ hafter
  have hfound : f.before.sources.find s = some S :=
    (Reads.value (hrun.sem_of_is (by rw [hsplit]; simp) hread)).symm
  obtain rfl : S' = S := Option.some.inj (hS'.symm.trans hfound)
  exact ⟨row, hrow, hsame⟩

end Jobs

/-! ## 3. When it publishes -/

/-- **The first job that completes after an edit publishes under it exactly if its fetch did not end
    in a 304**, whatever the server answers. -/
theorem edited_publishes_iff (hrun : Run (ports W) (refreshSystem db₀ clients) es c)
    (hstart : RefreshStart db₀) (hfresh : FreshJobs db₀ es)
    {old mid post : Trace ι} {d e : CallEvent ι} {s : SourceId}
    {j : JobId} {edit : Sources.Edit} (hes : es = old ++ d :: (mid ++ e :: post))
    (hd : Edits s edit d) (he : Completes s j e) (hfirst : ∀ x ∈ mid, ∀ k, ¬ Completes s k x)
    {E : HttpFetcher.Env} {limits : HttpFetcher.Limits} {hist : History HttpFetcher.HttpCall.Reply}
    (hfetch : ∀ f ∈ mid, f.thread = e.thread → ∀ url etag a, f.Is (.fetch url etag) a →
      HttpFetcher.Answers E limits url etag hist a) :
    (∃ S input, PublishesUnder old mid d e s j edit S input) ↔
      HttpFetcher.lastStatus hist ≠ some 304 := by
  have hesE : es = (old ++ d :: mid) ++ e :: post := by
    rw [hes]
    simp
  have hmem : e ∈ es := by rw [hesE]; simp
  constructor
  · intro hpub
    obtain ⟨S, input, hpub⟩ := hpub
    obtain ⟨f, hf, active, body, etag, ct, hthread, his, -⟩ := hpub.received
    intro h304
    cases (hfetch f hf hthread _ _ _ his).notModified_iff.2 h304
  · intro hstatus
    have hrunning := (completes_running hrun hmem he).1
    obtain ⟨S, active, hcase⟩ := completes_fetched hrun hesE he
    rcases hcase with ⟨now, y, -, -, hf⟩ | ⟨body, etag, ct, input, now, r, hj, hop, hf, hpub⟩
    · obtain ⟨old', m, mid', hpre, hjob⟩ := jobLease_of hrun hstart.lease hfresh hesE hf hrunning
      obtain ⟨u, rfl⟩ := lease_after_edit hrun hes hd hjob hpre
      obtain ⟨f, hfm, hthread, his⟩ := hjob.fetch
      exact absurd ((hfetch f (by simp [hfm]) hthread _ _ _ his).notModified_iff.1 rfl) hstatus
    · obtain ⟨old', m, mid', hpre, hjob⟩ := jobLease_of hrun hstart.lease hfresh hesE hf hrunning
      obtain ⟨u, hu⟩ := lease_after_edit hrun hes hd hjob hpre
      have hsub : mid' ⊆ mid := fun x hx => by simp [hu, hx]
      obtain ⟨f, hfm, hthread, his⟩ := hjob.fetch
      rw [unconditional hrun hes hd hjob hsub hfirst] at his
      obtain rfl := hpub.sourceId
      have hok := snapshotsOk_before hrun hfresh hstart hesE input.sourceId
      exact ⟨S, input,
        { published := ⟨rfl, now, r, hop⟩
          job := hj
          active := (published_active hrun hstart.lease hfresh hesE hop hok).2
          received := ⟨f, hsub hfm, active, body, etag, ct, hthread, his, hpub⟩
          inForce := hjob.inForce
          edited := read_edited hrun hes hd hjob hsub }⟩

/-! ## 4. A server that answers 304 to whatever it is asked -/

/-- The edit of the source that renames it. -/
def sourceRename : SourceConfigUpdate := ⟨7, "b", .auto, none, false, 3600, true, true, none⟩

/-- A refresh, then an administrator's edit, then a refresh. -/
def editClients : Nat → RefreshClient
  | 1 => .other (.call (.write (.updateSourceConfig sourceRename)) fun _ => .done ())
      ⟨rfl, fun _ => trivial⟩
  | _ => .refresh 7

/-- One client after the other; the second refresh is answered so. -/
def editSchedule (fetched : FetchResult) (calls : Nat) : List (Nat × Outside World.plain) :=
  List.replicate 26 (0, oneNodeOutside (some ['x']) 1) ++ [(1, oneNodeOutside none 0)] ++
    List.replicate calls (2, { oneNodeOutside none 2 with fetched := .ok fetched })

def editTrace (fetched : FetchResult) (calls : Nat) : Trace Nat :=
  ((refreshSystem oneSource editClients).exec
    ((editSchedule fetched calls).map fun t => t.2.turn t.1)).1

/-- The history of a fetch whose one request is answered so. -/
def oneHop (response : HttpFetcher.Response) : History HttpFetcher.HttpCall.Reply :=
  let ips : List IpAddr := [.v4 ⟨1, 1, 1, 1⟩]
  [⟨.send ⟨some (['a'], ips)⟩ ['u'] none, ⟨ips, .ok response⟩⟩,
    ⟨.clientFor ['a'] ips, .ok ⟨some (['a'], ips)⟩⟩, ⟨.check ['u'], .ok ips⟩]

/-- The calls that may complete a job. -/
def Call.completes : Call → Bool
  | .write (.touchFetchedAt ..) | .write (.reconcile ..) => true
  | _ => false

omit [DecidableEq ι] in
theorem Completes.call {s : SourceId} {j : JobId} {e : CallEvent ι}
    (h : Completes s j e) : e.call.completes = true := by
  rcases h with ⟨now, hop⟩ | ⟨input, now, result, -, -, hop⟩
  · rw [hop.call_eq]
    rfl
  · rw [hop.call_eq]
    rfl

omit [DecidableEq ι] in
theorem not_completes_of_all {es : Trace ι} (h : es.all (fun x => !x.call.completes) = true)
    {s : SourceId} : ∀ x ∈ es, ∀ k, ¬ Completes s k x := by
  intro x hx k hk
  have hnot := List.all_eq_true.1 h x hx
  rw [hk.call] at hnot
  cases hnot

/-- The fetches of a trace, with their answers. -/
def fetchOf (e : CallEvent ι) :
    Option (Str × Option Str × Except FetchError FetchResult) :=
  match e.view.2 with
  | ⟨.fetch url etag, a⟩ => some (url, etag, a)
  | _ => none

omit [DecidableEq ι] in
theorem fetchOf_of_is {e : CallEvent ι} {url : Str} {etag : Option Str}
    {a : Except FetchError FetchResult} (h : e.Is (.fetch url etag) a) :
    fetchOf e = some (url, etag, a) := by
  unfold fetchOf
  rw [show e.view.2 = ⟨.fetch url etag, a⟩ from h]

theorem edited_publishes_iff_body : ∃ d mid e post S input,
    editTrace (.ok [] none none) 26 = (editTrace (.ok [] none none) 26).take 26 ++
      d :: (mid ++ e :: post) ∧
    PublishesUnder ((editTrace (.ok [] none none) 26).take 26) mid d e 7 2
      (Sources.configEdit sourceRename) S input := by
  have hedit : (editTrace (.ok [] none none) 26)[26]?.map Event.view =
      some (1, ⟨.write (.updateSourceConfig sourceRename), .ok { Source.plain 7 with name := "b" }⟩) :=
    rfl
  have hpublish : ((editTrace (.ok [] none none) 26).drop 27)[25]?.map Event.view =
      some (2, ⟨.write (.reconcile ⟨7, some 2, ⟨2, 7, 2, 0, none, 1, true⟩, [some (.plain 2)]⟩ 0),
        .ok ⟨1, 0, 0, 1⟩⟩) := rfl
  obtain ⟨d, -, hesD, -, hd⟩ := event_at hedit
  obtain ⟨e, -, hesE, hthread, he⟩ := event_at hpublish
  have hes := hesD.trans (congrArg (fun rest => _ ++ d :: rest) hesE)
  have hfirst : ∀ x ∈ ((editTrace (.ok [] none none) 26).drop 27).take 25, ∀ k,
      ¬ Completes 7 k x := not_completes_of_all rfl
  have hanswers : HttpFetcher.Answers .plain .default ['u'] none
      (oneHop ⟨200, none, none, none, []⟩) (.ok (.ok [] none none)) :=
    .inl ⟨.ok [.v4 ⟨1, 1, 1, 1⟩], .ok ⟨some (['a'], [.v4 ⟨1, 1, 1, 1⟩])⟩,
      ⟨[.v4 ⟨1, 1, 1, 1⟩], .ok ⟨200, none, none, none, []⟩⟩, rfl, rfl⟩
  have hfetch : ∀ f ∈ ((editTrace (.ok [] none none) 26).drop 27).take 25, f.thread = e.thread →
      ∀ url etag a, f.Is (.fetch url etag) a →
        HttpFetcher.Answers .plain .default url etag (oneHop ⟨200, none, none, none, []⟩) a := by
    have hall : (((editTrace (.ok [] none none) 26).drop 27).take 25).filterMap fetchOf =
        [(['u'], none, .ok (.ok [] none none))] := rfl
    intro f hf _ url etag a his
    have hmem := List.mem_filterMap.2 ⟨f, hf, fetchOf_of_is his⟩
    rw [hall] at hmem
    cases List.mem_singleton.1 hmem
    exact hanswers
  obtain ⟨S, input, hpub⟩ := (edited_publishes_iff (run_turns _ _) (refreshStart_of_nil rfl rfl)
    (by decide) hes ⟨_, _, rfl, hd⟩ (.inr ⟨_, _, _, rfl, rfl, he⟩) hfirst hfetch).2 (by decide)
  exact ⟨d, _, e, _, S, input, hes, hpub⟩

/-- The server answers 304 to the unconditional request, and the refresh after the edit completes
    without a body. -/
theorem edit_not_refetched :
    (∃ c, Run (ports .plain) (refreshSystem oneSource editClients) (editTrace .notModified 14) c) ∧
    ∃ d mid e, editTrace .notModified 14 = (editTrace .notModified 14).take 26 ++ d :: (mid ++ [e]) ∧
    Edits 7 (Sources.configEdit sourceRename) d ∧ (∀ x ∈ mid, ∀ k, ¬ Completes 7 k x) ∧
    (∃ f ∈ mid, f.thread = e.thread ∧ f.Is (.fetch ['u'] none) (.ok .notModified)) ∧
    HttpFetcher.Answers .plain .default ['u'] none (oneHop ⟨304, none, none, none, []⟩)
      (.ok .notModified) ∧
    Completes 7 2 e ∧ ∀ input, ¬ PublishedAs 7 input e := by
  have hedit : (editTrace .notModified 14)[26]?.map Event.view =
      some (1, ⟨.write (.updateSourceConfig sourceRename), .ok { Source.plain 7 with name := "b" }⟩) :=
    rfl
  have htouch : ((editTrace .notModified 14).drop 27)[13]?.map Event.view =
      some (2, ⟨.write (.touchFetchedAt 7 2 0), .ok ()⟩) := rfl
  have hfetch : (((editTrace .notModified 14).drop 27).take 13)[10]?.map Event.view =
      some (2, ⟨.fetch ['u'] none, .ok .notModified⟩) := rfl
  obtain ⟨d, -, hesD, -, hd⟩ := event_at hedit
  obtain ⟨e, -, hesE, hthread, he⟩ := event_at htouch
  obtain ⟨f, hf, -, hfthread, hfis⟩ := event_at hfetch
  have hanswers : HttpFetcher.Answers .plain .default ['u'] none
      (oneHop ⟨304, none, none, none, []⟩) (.ok .notModified) :=
    .inl ⟨.ok [.v4 ⟨1, 1, 1, 1⟩], .ok ⟨some (['a'], [.v4 ⟨1, 1, 1, 1⟩])⟩,
      ⟨[.v4 ⟨1, 1, 1, 1⟩], .ok ⟨304, none, none, none, []⟩⟩, rfl, rfl⟩
  refine ⟨⟨_, run_turns _ _⟩, d, _, e, hesD.trans (congrArg (fun rest => _ ++ d :: rest) hesE),
    ⟨_, _, rfl, hd⟩, not_completes_of_all rfl, ⟨f, List.mem_of_getElem? hf,
    hfthread.trans hthread.symm, hfis⟩, hanswers, .inl ⟨0, he⟩, fun input hpub => ?_⟩
  obtain ⟨-, now, r, hop⟩ := hpub
  have hcall := he.call_eq.symm.trans hop.call_eq
  cases hcall

end DeveSub
