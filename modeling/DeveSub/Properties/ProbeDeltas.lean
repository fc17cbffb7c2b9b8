/-
  File:      DeveSub/Properties/ProbeDeltas.lean
  Subject:   The traffic a probe source records, over whole runs.

  A write goes through only on the revision it has read, so what a sync has read is still the row
  when it commits, and was the row when its panel was read. The snapshot of a source is therefore
  the reading of its last committed sync, and what the syncs record telescopes. Nothing ties the
  snapshot to the endpoint and the binding it was taken under: an edit leaves it in place.

  * `sync_in_force` -- a sync that commits has read the row in force, before and at its reading;
  * `baseline_of` -- the snapshot of a source is that of its last committed sync;
  * `syncs_telescope` -- concurrent syncs count every interval once;
  * `deltas_sound_iff` -- when the deltas after a change of endpoint or binding are sound.
-/
import DeveSub.Application.Probe

namespace DeveSub.Probe

variable {E : Env} {ι : Type} [DecidableEq ι] {db₀ : ProbeDb} {clients : ι → Client}
  {es pre post : Trace ι} {e : CallEvent ι}
  {c : Config Call.Reply ProbeDb ι Unit} {s : ProbeSourceId} {S source : ProbeSource}
  {records : List TrafficRecord} {servers : List (Str × Bytes)} {last : CounterSnapshot}

/-! ## 1. What a write has read is in force -/

/-- The committed sync of a call: its source and its records. -/
def committed : ((c : Call) × c.Reply) → Option (ProbeSource × List TrafficRecord)
  | ⟨.commitSync source records, .ok ()⟩ => some (source, records)
  | _ => none

theorem committed_eq_some {x : (c : Call) × c.Reply} {p : ProbeSource × List TrafficRecord}
    (h : committed x = some p) : x = ⟨.commitSync p.1 p.2, .ok ()⟩ := by
  unfold committed at h
  split at h
  · cases h
    rfl
  · cases h

/-- The sync of a source that an event commits. -/
def syncOf (s : ProbeSourceId) (e : CallEvent ι) :
    Option (ProbeSource × List TrafficRecord) :=
  (committed e.view.2).filter fun p => p.1.id = s

omit [DecidableEq ι] in
theorem syncOf_eq_some (h : syncOf s e = some (source, records)) :
    source.id = s ∧ e.Is (.commitSync source records) (.ok ()) := by
  obtain ⟨hcommitted, hid⟩ := Option.filter_eq_some_iff.1 h
  exact ⟨of_decide_eq_true hid, committed_eq_some hcommitted⟩

omit [DecidableEq ι] in
theorem syncOf_of_is (h : e.Is (.commitSync source records) (.ok ())) :
    syncOf source.id e = some (source, records) := by
  have hview : e.view.2 = ⟨.commitSync source records, .ok ()⟩ := h
  rw [syncOf, hview]
  exact Option.filter_eq_some_iff.2 ⟨rfl, decide_eq_true rfl⟩

theorem Synced.kind {h : History Call.Reply} (hsynced : Synced E h source records S servers last) :
    source.kind = S.kind := by
  obtain ⟨now, rfl⟩ := hsynced.source
  rfl

/-- The snapshot a sync writes is that of its reading. -/
theorem Synced.snapshot {h : History Call.Reply}
    (hsynced : Synced E h source records S servers last) :
    E.codecs.parseSnapshot source.kind source.lastCounterSnapshot = .ok (snapshotOf servers) := by
  obtain ⟨id, panel, hpanel, -⟩ := hsynced.calls
  obtain ⟨now, rfl⟩ := hsynced.source
  exact E.codecs.parse_print (reading_reports hpanel).snapshotOf (nodup_snapshotOf _)

/-- The panel was read so while the source was the row. -/
def Taken (s : ProbeSourceId) (S : ProbeSource) (servers : List (Str × Bytes))
    (g : CallEvent ι) : Prop :=
  reading g.view.2 = some (S.kind, S.endpointUrl, servers) ∧ g.before.sources.find s = some S

section Runs

variable (hrun : Run (ports E) (system E db₀ clients) es c)

include hrun

theorem protocol_of (hes : es = pre ++ e :: post) : Protocol E (own e.thread pre) e.call := by
  have hfollows : ∀ i, ((system E db₀ clients).threads i).Follows (Protocol E)
      (fun _ _ => True) [] := fun i => client_follows E (clients i)
  exact hrun.follows hfollows hes

/-- Between two events revisions only grow. -/
theorem revisionLe_between {d : CallEvent ι} (hde : [d, e].Sublist es)
    (s : ProbeSourceId) : Probes.RevisionLe s d.after e.before :=
  hrun.between (Probes.RevisionLe.refl s) (fun _ _ _ => Probes.RevisionLe.trans)
    (fun _ _ _ _ h => (ports_change h).revisionLe s) hde

/-- What a find has answered. -/
theorem found_row {f : CallEvent ι} (hf : f ∈ es) {id : ProbeSourceId}
    (his : f.Is (.findSource id) (.ok (some S))) :
    S.id = id ∧ f.before.sources.find id = some S ∧ f.after.sources.find id = some S := by
  have hread := hrun.sem_of_is hf his
  have hfind : f.before.sources.find id = some S := (Reads.value hread).symm
  have hsame : f.after = f.before := hread.2
  exact ⟨(Table.find_eq_some.1 hfind).2, hfind, by rw [hsame, hfind]⟩

/-- **What was read is the row, if the revision still is.** -/
theorem read_in_force (hes : es = pre ++ e :: post) {id : ProbeSourceId}
    (hread : ⟨.findSource id, .ok (some S)⟩ ∈ own e.thread pre) {row : ProbeSource}
    (hrow : e.before.sources.find S.id = some row) (hrev : row.revision = S.revision) : row = S := by
  obtain ⟨f, hf, -, his⟩ := mem_own.1 hread
  obtain ⟨rfl, -, hfind⟩ := found_row hrun (by rw [hes]; simp [hf]) his
  obtain ⟨A, hA, -, heq⟩ := revisionLe_between hrun (hes ▸ pair_sublist hf) S.id row hrow
  obtain rfl : S = A := Option.some.inj (hfind.symm.trans hA)
  exact (heq hrev.symm).symm

/-- What a committed sync has read. -/
theorem synced_of (hes : es = pre ++ e :: post) (hsync : syncOf s e = some (source, records)) :
    ∃ S servers last, Synced E (own e.thread pre) source records S servers last := by
  have hprotocol := protocol_of hrun hes
  rw [(syncOf_eq_some hsync).2.call_eq] at hprotocol
  exact hprotocol

/-- A committed write found the revision it names. -/
theorem sync_updated (he : e ∈ es) (hsync : syncOf s e = some (source, records)) :
    Probes.Updated source e.before e.after := by
  obtain ⟨-, his⟩ := syncOf_eq_some hsync
  exact (Probes.commitSync_eq_ok (Writes.committed (hrun.sem_of_is he his))).1

/-- A row that is the same at two times was the row between them. -/
theorem in_force_between {f g : CallEvent ι} (hfg : [f, g].Sublist es)
    (hge : [g, e].Sublist es) (hf : f.after.sources.find s = some S)
    (he : e.before.sources.find s = some S) : g.before.sources.find s = some S := by
  have hstep := (ports_change (hrun.sem_of_mem (hge.subset List.mem_cons_self))).revisionLe s
  obtain ⟨A, hA, hle, heq⟩ := (hstep.trans (revisionLe_between hrun hge s)) S he
  obtain ⟨B, hB, hle', -⟩ := revisionLe_between hrun hfg s A hA
  obtain rfl : S = B := Option.some.inj (hf.symm.trans hB)
  rw [hA, heq (by omega)]

/-- **A sync that commits has read the row in force**, when it read its panel and still now. -/
theorem sync_in_force (hes : es = pre ++ e :: post) (hsync : syncOf s e = some (source, records))
    (h : Synced E (own e.thread pre) source records S servers last) :
    e.before.sources.find s = some S ∧ ∃ g ∈ pre, Taken s S servers g := by
  obtain ⟨now, hsource⟩ := h.source
  obtain ⟨id, panel, hpanel, hcalls⟩ := h.calls
  have hid : source.id = S.id := by rw [hsource]
  have hrev : source.revision = S.revision := by rw [hsource]
  obtain rfl : S.id = s := hid.symm.trans (syncOf_eq_some hsync).1
  obtain ⟨row, hrow, hrowRev⟩ := (sync_updated hrun (by simp [hes]) hsync).found
  rw [hid] at hrow
  have hread : ⟨.findSource id, .ok (some S)⟩ ∈ own e.thread pre :=
    hcalls.subset (List.mem_cons_of_mem _ List.mem_cons_self)
  obtain rfl := read_in_force hrun hes hread hrow (hrowRev.trans hrev)
  refine ⟨hrow, ?_⟩
  obtain ⟨before, g, between, hpre, -, hg, hfind⟩ := sublist_own_cons hcalls
  obtain ⟨f, hf, -, his⟩ := mem_own.1 (List.singleton_sublist.1 hfind)
  have hgpre : g ∈ pre := by rw [hpre]; simp
  obtain ⟨rfl, -, hfrow⟩ := found_row hrun (by rw [hes, hpre]; simp [hf]) his
  have hfg : [f, g].Sublist es := by
    rw [hes, hpre, List.append_assoc]
    exact pair_sublist hf
  refine ⟨g, hgpre, ?_, in_force_between hrun hfg (hes ▸ pair_sublist hgpre) hfrow hrow⟩
  rw [← hpanel, ← hg]
  rfl

/-! ## 2. The snapshot of a source -/

/-- The snapshot of a row: that of the last committed sync, or the one at the start. -/
def Baseline (db₀ : ProbeDb) (s : ProbeSourceId) (pre : Trace ι)
    (row : ProbeSource) : Prop :=
  ∃ S₀, db₀.sources.find s = some S₀ ∧ row.kind = S₀.kind ∧
    ((∀ x ∈ pre, syncOf s x = none) ∧ row.lastCounterSnapshot = S₀.lastCounterSnapshot ∨
    ∃ old d mid source records, pre = old ++ d :: mid ∧ syncOf s d = some (source, records) ∧
      (∀ x ∈ mid, syncOf s x = none) ∧ source.kind = S₀.kind ∧
      row.lastCounterSnapshot = source.lastCounterSnapshot)

omit [DecidableEq ι] hrun in
/-- An event that commits no sync of the source leaves the baseline. -/
theorem Baseline.snoc {row row' : ProbeSource} (h : Baseline db₀ s pre row)
    (hsync : syncOf s e = none) (hkind : row'.kind = row.kind)
    (hsnapshot : row'.lastCounterSnapshot = row.lastCounterSnapshot) :
    Baseline db₀ s (pre ++ [e]) row' := by
  obtain ⟨S₀, hS₀, hkind₀, hfirst | ⟨old, d, mid, source, records, rfl, hd, hmid,
    hsource, hlast⟩⟩ := h
  · refine ⟨S₀, hS₀, hkind.trans hkind₀, .inl ⟨fun x hx => ?_, hsnapshot.trans hfirst.2⟩⟩
    rcases List.mem_append.1 hx with hx | hx
    · exact hfirst.1 x hx
    · rw [List.mem_singleton.1 hx, hsync]
  · refine ⟨S₀, hS₀, hkind.trans hkind₀, .inr ⟨old, d, mid ++ [e], source, records,
      by simp, hd, fun x hx => ?_, hsource, hsnapshot.trans hlast⟩⟩
    rcases List.mem_append.1 hx with hx | hx
    · exact hmid x hx
    · rw [List.mem_singleton.1 hx, hsync]

/-- The snapshots of a source are in their stored form. -/
def StoredForm (s : ProbeSourceId) (db : ProbeDb) : Prop :=
  ∀ row, db.sources.find s = some row →
    row.lastCounterSnapshot.filter (fun j => !j.isEmpty) = row.lastCounterSnapshot

omit [DecidableEq ι] hrun in
theorem StoredForm.updated {db db' : ProbeDb} (h : StoredForm s db)
    (hupdated : Probes.Updated source db db') : StoredForm s db' := by
  intro row hrow
  rw [hupdated.sources] at hrow
  split at hrow
  · obtain rfl := Option.some.inj hrow
    simp [Probes.stored]
  · exact h row hrow

theorem storedForm_before (hstart : StoredForm s db₀) (he : e ∈ es) : StoredForm s e.before := by
  refine hrun.always_before (I := StoredForm s) (fun op db a db' hdb hsem => ?_) hstart he
  cases ports_change hsem with
  | none => exact hdb
  | updated h => exact hdb.updated h
  | synced h => exact hdb.updated h
  | deleted h =>
    intro row hrow
    rw [h] at hrow
    split at hrow
    · cases hrow
    · exact hdb row hrow

/-- What leaves a row in place of a source, if it is no committed sync. -/
theorem row_change (he : e ∈ es) (hsync : syncOf s e = none) {row : ProbeSource}
    (hrow : e.after.sources.find s = some row) : e.before.sources.find s = some row ∨
      ∃ source, source.id = s ∧ e.Is (.update source) (.ok ()) ∧
        Probes.Updated source e.before e.after ∧ row = Probes.stored source := by
  have hchange := ports_change (hrun.sem_of_mem he)
  obtain ⟨i, op, a, before, after⟩ := e
  cases hchange with
  | none => exact .inl hrow
  | updated h htraffic =>
    rename_i source
    by_cases hs : s = source.id
    · refine .inr ⟨source, hs.symm, rfl, h, ?_⟩
      rw [h.sources, if_pos hs] at hrow
      exact (Option.some.inj hrow).symm
    · rw [h.sources, if_neg hs] at hrow
      exact .inl hrow
  | synced h htraffic =>
    rename_i source records
    by_cases hs : s = source.id
    · subst hs
      have hsome := syncOf_of_is (e := ⟨i, .commitSync source records, .ok (), before, after⟩) rfl
      rw [hsome] at hsync
      cases hsync
    · rw [h.sources, if_neg hs] at hrow
      exact .inl hrow
  | deleted h =>
    rw [h] at hrow
    split at hrow
    · cases hrow
    · exact .inl hrow

/-- An edit leaves the kind and the snapshot of the row. -/
theorem edited_row (hes : es = pre ++ e :: post) (his : e.Is (.update source) (.ok ()))
    {row : ProbeSource} (hrow : e.before.sources.find source.id = some row)
    (hrev : row.revision = source.revision) :
    source.kind = row.kind ∧ source.lastCounterSnapshot = row.lastCounterSnapshot := by
  have hprotocol := protocol_of hrun hes
  rw [his.call_eq] at hprotocol
  obtain ⟨id, S, hread, hedited⟩ := hprotocol
  rw [hedited.id] at hrow
  obtain rfl := read_in_force hrun hes hread hrow (hrev.trans hedited.revision)
  exact ⟨hedited.kind, hedited.snapshot⟩

/-- **The snapshot of a source is that of its last committed sync.** -/
theorem baseline_of (hstart : StoredForm s db₀) (hes : es = pre ++ e :: post) {row : ProbeSource}
    (hrow : e.before.sources.find s = some row) : Baseline db₀ s pre row := by
  refine hrun.traced_before (I := fun pre db => ∀ row, db.sources.find s = some row →
    Baseline db₀ s pre row) ?_ ?_ hes row hrow
  · exact fun row hrow => ⟨row, hrow, rfl, .inl ⟨fun x hx => absurd hx List.not_mem_nil, rfl⟩⟩
  · intro pre e post hes hinv row hrow
    have he : e ∈ es := by simp [hes]
    cases hsync : syncOf s e with
    | some p =>
      obtain ⟨source, records⟩ := p
      obtain ⟨S, servers, last, h⟩ := synced_of hrun hes hsync
      obtain ⟨S₀, hS₀, hkind, -⟩ := hinv S (sync_in_force hrun hes hsync h).1
      rw [(sync_updated hrun he hsync).sources, if_pos (syncOf_eq_some hsync).1.symm] at hrow
      obtain rfl := Option.some.inj hrow
      exact ⟨S₀, hS₀, h.kind.trans hkind, .inr ⟨pre, e, [], source, records, rfl, hsync,
        fun x hx => absurd hx List.not_mem_nil, h.kind.trans hkind,
        E.codecs.filter_of_parse h.snapshot⟩⟩
    | none =>
      rcases row_change hrun he hsync hrow with hsame | ⟨source, rfl, his, hupdated, rfl⟩
      · exact (hinv row hsame).snoc hsync rfl rfl
      · obtain ⟨old, hold, hrev⟩ := hupdated.found
        obtain ⟨hkind, hsnapshot⟩ := edited_row hrun hes his hold hrev
        refine (hinv old hold).snoc hsync hkind ?_
        rw [← storedForm_before hrun hstart he old hold, ← hsnapshot]
        rfl

/-- A row with a lower revision was there earlier. -/
theorem ordered_of_revision_lt {g g' : CallEvent ι} {A B : ProbeSource}
    (hg : g ∈ es) (hg' : g' ∈ es) (hA : g.before.sources.find s = some A)
    (hB : g'.before.sources.find s = some B) (hlt : A.revision < B.revision) :
    [g, g'].Sublist es := by
  have hne : g ≠ g' := by
    intro heq
    rw [heq, hB] at hA
    cases hA
    omega
  refine (pair_or_pair hg hg' hne).resolve_right fun hrev => ?_
  have hstep := (ports_change (hrun.sem_of_mem hg')).revisionLe s
  obtain ⟨B', hB', hle, -⟩ := (hstep.trans (revisionLe_between hrun hrev s)) A hA
  obtain rfl : B = B' := Option.some.inj (hB.symm.trans hB')
  omega

/-- A committed sync leaves a higher revision than it has read. -/
theorem revision_lt_of_sync {d : CallEvent ι} {old mid : Trace ι}
    (hes : es = (old ++ d :: mid) ++ e :: post) (hsync : syncOf s d = some (source, records))
    {row : ProbeSource} (hrow : e.before.sources.find s = some row) :
    source.revision < row.revision := by
  have hd : d ∈ es := by simp [hes]
  have hde : [d, e].Sublist es := hes ▸ pair_sublist (List.mem_append_cons_self)
  obtain ⟨A, hA, hle, -⟩ := revisionLe_between hrun hde s row hrow
  rw [(sync_updated hrun hd hsync).sources, if_pos (syncOf_eq_some hsync).1.symm] at hA
  obtain rfl := Option.some.inj hA
  exact hle

/-! ## 3. Every interval once -/

end Runs

/-- The bytes that records name for a server. -/
def recordBytes (kind : ProbeSourceKind) (v : Str) (records : List TrafficRecord) : Bytes :=
  (records.map fun r =>
    if r.sourceRef = kind.asKebab ++ ':' :: v then (r.upload, r.download) else 0).sum

/-- The records an event commits. -/
def recordsOf (e : CallEvent ι) : List TrafficRecord :=
  (committed e.view.2).elim [] Prod.snd

/-- The bytes an event records for a server of the source. -/
def deltaOf (s : ProbeSourceId) (v : Str) (e : CallEvent ι) : Bytes :=
  (syncOf s e).elim 0 fun p => recordBytes p.1.kind v p.2

/-- The snapshot an event commits for the source. -/
def snapshotIn (E : Env) (s : ProbeSourceId) (e : CallEvent ι) :
    Option CounterSnapshot :=
  (syncOf s e).bind fun p =>
    (E.codecs.parseSnapshot p.1.kind p.1.lastCounterSnapshot).toOption

/-- The increase of the counters of a server between snapshots that both contain it. -/
def increase (v : Str) (prev current : CounterSnapshot) : Bytes :=
  match prev.lookup v, current.lookup v with
  | some p, some c => (c.1 - p.1, c.2 - p.2)
  | _, _ => 0

/-- No counter of a common server is lower. -/
def RisesTo (prev current : List (Str × Bytes)) : Prop :=
  ∀ v p c, prev.lookup v = some p → current.lookup v = some c → p.1 ≤ c.1 ∧ p.2 ≤ c.2

/-- **The panel at an endpoint lists each server once, and its counters never fall.** -/
structure Steady (kind : ProbeSourceKind) (endpoint : Str) (base : Option CounterSnapshot)
    (es : Trace ι) : Prop where
  once : ∀ g ∈ es, ∀ servers, reading g.view.2 = some (kind, endpoint, servers) →
    (servers.map Prod.fst).Nodup
  fromBase : ∀ b, base = some b → ∀ g ∈ es, ∀ servers,
    reading g.view.2 = some (kind, endpoint, servers) → RisesTo b servers
  rises : ∀ g g', [g, g'].Sublist es → ∀ servers servers',
    reading g.view.2 = some (kind, endpoint, servers) →
    reading g'.view.2 = some (kind, endpoint, servers') → RisesTo servers servers'

/-- The records of samples name the bytes of the samples. -/
theorem recordBytes_eq {kind : ProbeSourceKind} {sub : SubscriptionId} (v : Str)
    {samples : List ProbeTrafficSample}
    (h : List.Forall₂ (RecordOf sub kind.asKebab) samples records) :
    recordBytes kind v records = sampleBytes v samples := by
  induction h with
  | nil => rfl
  | @cons sample record samples records hrecord _ ih =>
    have href : record.sourceRef = kind.asKebab ++ ':' :: v ↔ sample.externalServerId = v := by
      rw [hrecord.sourceRef]
      simp
    rw [recordBytes, List.map_cons, List.sum_cons, sampleBytes, List.map_cons, List.sum_cons]
    simp only [href, hrecord.bytes]
    exact congrArg _ ih

/-- Where no counter falls the delta of a server is its increase. -/
theorem delta_eq_increase (v : Str) (hnodup : (servers.map Prod.fst).Nodup)
    (hrises : RisesTo last servers) :
    (servers.lookup v).elim 0 (serverDelta (last.lookup v)) = increase v last (snapshotOf servers) := by
  unfold increase
  rw [lookup_snapshotOf hnodup]
  cases hc : servers.lookup v with
  | none => cases last.lookup v <;> rfl
  | some c =>
    cases hp : last.lookup v with
    | none => rfl
    | some p =>
      obtain ⟨hup, hdown⟩ := hrises v p c hp hc
      exact Prod.ext (if_pos hup) (if_pos hdown)

omit [DecidableEq ι] in
/-- The last snapshot so far is the one a row holds. -/
theorem getLastD_snapshots {base : CounterSnapshot} {S₀ row : ProbeSource}
    (hS₀ : db₀.sources.find s = some S₀)
    (hbase : E.codecs.parseSnapshot S₀.kind S₀.lastCounterSnapshot = .ok base)
    (hrow : Baseline db₀ s pre row)
    (hlast : E.codecs.parseSnapshot row.kind row.lastCounterSnapshot = .ok last) :
    (pre.filterMap (snapshotIn E s)).getLastD base = last := by
  have hnone : ∀ l : Trace ι, (∀ x ∈ l, syncOf s x = none) →
      l.filterMap (snapshotIn E s) = [] := by
    intro l hl
    refine List.filterMap_eq_nil_iff.2 fun x hx => ?_
    rw [snapshotIn, hl x hx]
    rfl
  obtain ⟨S, hS, hkind, hfirst | ⟨old, d, mid, source, records, rfl, hd, hmid, hsource, hsame⟩⟩ := hrow
  · obtain rfl : S₀ = S := Option.some.inj (hS₀.symm.trans hS)
    rw [hkind, hfirst.2, hbase] at hlast
    rw [hnone pre hfirst.1]
    exact Except.ok.inj hlast
  · have hsnapshot : snapshotIn E s d = some last := by
      rw [hkind, hsame, ← hsource] at hlast
      rw [snapshotIn, hd, Option.bind_some, hlast]
      rfl
    rw [List.filterMap_append, List.filterMap_cons_some hsnapshot, hnone mid hmid]
    simp

section Telescope

variable (hrun : Run (ports E) (system E db₀ clients) es c)

include hrun

/-- **A sync measures from the reading of the committed sync before it.** -/
theorem previous_reading {d : CallEvent ι}
    {old mid : Trace ι} {source' : ProbeSource}
    {records' : List TrafficRecord} (hes : es = (old ++ d :: mid) ++ e :: post)
    (hd : syncOf s d = some (source', records')) (hsync : syncOf s e = some (source, records))
    (h : Synced E (own e.thread (old ++ d :: mid)) source records S servers last)
    (hkind : source'.kind = S.kind)
    (hsame : S.lastCounterSnapshot = source'.lastCounterSnapshot) :
    ∃ S' servers' g g', source'.kind = S'.kind ∧ source'.endpointUrl = S'.endpointUrl ∧
      source'.subscriptionId = S'.subscriptionId ∧ last = snapshotOf servers' ∧
      Taken s S' servers' g ∧ Taken s S servers g' ∧ [g, g'].Sublist es := by
  have hesD : es = old ++ d :: (mid ++ e :: post) := by simp [hes]
  obtain ⟨S', servers', last', h'⟩ := synced_of hrun hesD hd
  obtain ⟨now, hsource⟩ := h'.source
  obtain ⟨-, g, hg, htaken⟩ := sync_in_force hrun hesD hd h'
  obtain ⟨hrow, g', hg', htaken'⟩ := sync_in_force hrun hes hsync h
  have hlast : last = snapshotOf servers' := by
    have hparse := h.baseline
    rw [hsame, ← hkind, h'.snapshot] at hparse
    exact (Except.ok.inj hparse).symm
  have hlt : S'.revision < S.revision := by
    have hrev : source'.revision = S'.revision := by rw [hsource]
    rw [← hrev]
    exact revision_lt_of_sync hrun hes hd hrow
  have hmem : g ∈ es := by simp [hesD, hg]
  have hmem' : g' ∈ es := by rw [hes]; exact List.mem_append_left _ hg'
  exact ⟨S', servers', g, g', h'.kind, by rw [hsource], by rw [hsource], hlast, htaken, htaken',
    ordered_of_revision_lt hrun hmem hmem' htaken.2 htaken'.2 hlt⟩

/-- No counter falls between the baseline of a committed sync and its reading. -/
theorem sync_rises {S₀ : ProbeSource} {base : CounterSnapshot} (hstart : StoredForm s db₀)
    (hS₀ : db₀.sources.find s = some S₀)
    (hbase : E.codecs.parseSnapshot S₀.kind S₀.lastCounterSnapshot = .ok base)
    (hendpoint : ∀ e ∈ es, ∀ A, e.before.sources.find s = some A →
      A.endpointUrl = S₀.endpointUrl)
    (hsteady : Steady S₀.kind S₀.endpointUrl (some base) es) (hes : es = pre ++ e :: post)
    (hsync : syncOf s e = some (source, records))
    (h : Synced E (own e.thread pre) source records S servers last) :
    (servers.map Prod.fst).Nodup ∧ RisesTo last servers := by
  obtain ⟨hrow, g, hg, hreading, -⟩ := sync_in_force hrun hes hsync h
  have hmem : g ∈ es := by rw [hes]; exact List.mem_append_left _ hg
  have hurl := hendpoint e (by simp [hes]) S hrow
  obtain ⟨S₁, hS₁, hkind, hbaseline⟩ := baseline_of hrun hstart hes hrow
  obtain rfl : S₀ = S₁ := Option.some.inj (hS₀.symm.trans hS₁)
  rw [hurl, hkind] at hreading
  refine ⟨hsteady.once g hmem servers hreading, ?_⟩
  rcases hbaseline with ⟨-, hsame⟩ | ⟨old, d, mid, source', records', rfl, hd, -, hkind', hsame⟩
  · have hparse := h.baseline
    rw [hkind, hsame, hbase] at hparse
    obtain rfl := Except.ok.inj hparse
    exact hsteady.fromBase _ rfl g hmem servers hreading
  · obtain ⟨S', servers', f, g', hk, -, -, rfl, htaken, htaken', hfg⟩ :=
      previous_reading hrun hes hd hsync h (hkind'.trans hkind.symm) hsame
    have hf : f ∈ es := hfg.subset List.mem_cons_self
    have hreading' := htaken.1
    rw [← hk, hkind', hendpoint f hf S' htaken.2] at hreading'
    have hreading'' := htaken'.1
    rw [hkind, hurl] at hreading''
    have hrises := hsteady.rises f g' hfg servers' servers hreading' hreading''
    intro v p c hp hc
    rw [lookup_snapshotOf (hsteady.once f hf servers' hreading')] at hp
    exact hrises v p c hp hc

/-- **What the syncs record for a server telescopes.** -/
theorem deltas_telescope {S₀ : ProbeSource} {base : CounterSnapshot} (hstart : StoredForm s db₀)
    (hS₀ : db₀.sources.find s = some S₀)
    (hbase : E.codecs.parseSnapshot S₀.kind S₀.lastCounterSnapshot = .ok base)
    (hendpoint : ∀ e ∈ es, ∀ A, e.before.sources.find s = some A →
      A.endpointUrl = S₀.endpointUrl)
    (hsteady : Steady S₀.kind S₀.endpointUrl (some base) es) (v : Str) :
    (es.map (deltaOf s v)).sum =
      pairSum (increase v) (base :: es.filterMap (snapshotIn E s)) := by
  refine hrun.traced (I := fun pre _ => (pre.map (deltaOf s v)).sum =
    pairSum (increase v) (base :: pre.filterMap (snapshotIn E s))) rfl ?_
  intro pre e post hes hpre
  rw [List.map_append, List.sum_append, hpre, List.filterMap_append]
  cases hsync : syncOf s e with
  | none =>
    have hdelta : deltaOf s v e = 0 := by rw [deltaOf, hsync]; rfl
    have hsnapshot : snapshotIn E s e = none := by rw [snapshotIn, hsync]; rfl
    simp [hdelta, hsnapshot]
  | some p =>
    obtain ⟨source, records⟩ := p
    obtain ⟨S, servers, last, h⟩ := synced_of hrun hes hsync
    obtain ⟨hrow, -⟩ := sync_in_force hrun hes hsync h
    obtain ⟨hnodup, hrises⟩ := sync_rises hrun hstart hS₀ hbase hendpoint hsteady hes hsync h
    obtain ⟨sub, -, hrecords⟩ := h.records
    have hlast := getLastD_snapshots hS₀ hbase (baseline_of hrun hstart hes hrow) h.baseline
    have hsnapshot : snapshotIn E s e = some (snapshotOf servers) := by
      rw [snapshotIn, hsync, Option.bind_some, h.snapshot]
      rfl
    have hdelta : deltaOf s v e = increase v last (snapshotOf servers) := by
      rw [deltaOf, hsync, Option.elim_some, h.kind, recordBytes_eq v hrecords,
        sampleSum last v hnodup, delta_eq_increase v hnodup hrises]
    rw [List.filterMap_cons_some hsnapshot, List.filterMap_nil, pairSum_snoc, hlast]
    simp [hdelta]

/-- Where the snapshot cannot be read no sync commits. -/
theorem no_sync_of_unreadable {S₀ : ProbeSource} {err : ProbeError} (hstart : StoredForm s db₀)
    (hS₀ : db₀.sources.find s = some S₀)
    (hbase : E.codecs.parseSnapshot S₀.kind S₀.lastCounterSnapshot = .error err) :
    ∀ x ∈ es, syncOf s x = none := by
  refine hrun.traced (I := fun pre _ => ∀ x ∈ pre, syncOf s x = none) (by simp) ?_
  intro pre e post hes hpre x hx
  rcases List.mem_append.1 hx with hx | hx
  · exact hpre x hx
  obtain rfl := List.mem_singleton.1 hx
  refine Option.eq_none_iff_forall_ne_some.2 fun p hsync => ?_
  obtain ⟨S, servers, last, h⟩ := synced_of hrun hes hsync
  obtain ⟨S₁, hS₁, hkind, ⟨-, hsame⟩ | ⟨old, d, mid, source, records, rfl, hd, -⟩⟩ :=
    baseline_of hrun hstart hes (sync_in_force hrun hes hsync h).1
  · obtain rfl : S₀ = S₁ := Option.some.inj (hS₀.symm.trans hS₁)
    have hparse := h.baseline
    rw [hkind, hsame, hbase] at hparse
    cases hparse
  · rw [hpre d (by simp)] at hd
    cases hd

/-- An event adds the records it commits to the raw rows, and nothing else. -/
theorem rows_recorded (he : e ∈ es) : e.after.traffic.traffic.rows =
    e.before.traffic.traffic.rows ++ Probes.rowsOf E.formatTs (recordsOf e) := by
  cases hcommitted : committed e.view.2 with
  | some p =>
    have hsem := hrun.sem_of_is he (committed_eq_some hcommitted)
    rw [(Probes.commitSync_eq_ok (Writes.committed hsem)).2, recordsOf, hcommitted]
    rfl
  | none =>
    have hrecords : recordsOf e = [] := by rw [recordsOf, hcommitted]; rfl
    have hsame : e.after.traffic = e.before.traffic := by
      have hchange := ports_change (hrun.sem_of_mem he)
      obtain ⟨i, op, a, before, after⟩ := e
      cases hchange with
      | none => rfl
      | updated h htraffic => exact htraffic
      | synced h htraffic => cases hcommitted
      | deleted h htraffic => exact htraffic
    rw [hsame, hrecords]
    exact (List.append_nil _).symm

/-- A commit that fails changes nothing. -/
theorem failed_commit (he : e ∈ es) {err : ProbeError}
    (his : e.Is (.commitSync source records) (.error err)) : e.after = e.before := by
  rcases Writes.cases (hrun.sem_of_is he his) with ⟨r, hr, -⟩ | ⟨-, hsame⟩
  · cases hr
  · exact hsame

end Telescope

/-- **Concurrent syncs count every interval once.** Whatever the interleaving of syncs, edits,
    status marks and deletions, where the endpoint stays and its counters never fall: what is
    recorded for a server is the increase of its counters over the consecutive snapshots of the
    source. Only committed syncs record, and a commit that fails changes nothing. -/
theorem syncs_telescope {S₀ : ProbeSource} (hrun : Run (ports E) (system E db₀ clients) es c)
    (hstart : StoredForm s db₀) (hS₀ : db₀.sources.find s = some S₀)
    (hendpoint : ∀ e ∈ es, ∀ A, e.before.sources.find s = some A →
      A.endpointUrl = S₀.endpointUrl)
    (hsteady : Steady S₀.kind S₀.endpointUrl
      (E.codecs.parseSnapshot S₀.kind S₀.lastCounterSnapshot).toOption es) :
    (∀ v, (es.map (deltaOf s v)).sum = pairSum (increase v)
      ((E.codecs.parseSnapshot S₀.kind S₀.lastCounterSnapshot).toOption.toList ++
        es.filterMap (snapshotIn E s))) ∧
    (∀ e ∈ es, e.after.traffic.traffic.rows =
      e.before.traffic.traffic.rows ++ Probes.rowsOf E.formatTs (recordsOf e)) ∧
    ∀ e ∈ es, ∀ source records err, e.Is (.commitSync source records) (.error err) →
      e.after = e.before := by
  refine ⟨fun v => ?_, fun e he => rows_recorded hrun he,
    fun e he source records err his => failed_commit hrun he his⟩
  cases hbase : E.codecs.parseSnapshot S₀.kind S₀.lastCounterSnapshot with
  | ok base =>
    rw [hbase] at hsteady
    exact deltas_telescope hrun hstart hS₀ hbase hendpoint hsteady v
  | error err =>
    have hnone := no_sync_of_unreadable hrun hstart hS₀ hbase
    have hsnapshots : es.filterMap (snapshotIn E s) = [] :=
      List.filterMap_eq_nil_iff.2 fun x hx => by rw [snapshotIn, hnone x hx]; rfl
    rw [hsnapshots]
    refine List.sum_eq_zero fun m hm => ?_
    obtain ⟨x, hx, rfl⟩ := List.mem_map.1 hm
    rw [deltaOf, hnone x hx]
    rfl

/-! ## 4. Deltas after a change of endpoint or binding -/

/-- The event changes the endpoint or the binding of the source. -/
def Rebinds (s : ProbeSourceId) (x : CallEvent ι) : Prop :=
  ∃ A B, x.before.sources.find s = some A ∧ x.after.sources.find s = some B ∧
    (A.endpointUrl ≠ B.endpointUrl ∨ A.subscriptionId ≠ B.subscriptionId)

instance (s : ProbeSourceId) (x : CallEvent ι) : Decidable (Rebinds s x) :=
  decidable_of_iff ((x.before.sources.find s).any (fun A => (x.after.sources.find s).any fun B =>
    A.endpointUrl ≠ B.endpointUrl || A.subscriptionId ≠ B.subscriptionId) = true) (by
    simp [Rebinds, Option.any_eq_true])

/-- The record is the delta of two readings of a server, from one endpoint and while the source was
    bound to the subscription of the record. -/
def FromReadings (es : Trace ι) (s : ProbeSourceId)
    (record : TrafficRecord) : Prop :=
  ∃ g g' A A' servers servers' v prev current, [g, g'].Sublist es ∧
    Taken s A servers g ∧ Taken s A' servers' g' ∧
    A.endpointUrl = A'.endpointUrl ∧ A.subscriptionId = some record.subscriptionId ∧
    A'.subscriptionId = some record.subscriptionId ∧
    (v, prev) ∈ servers ∧ (v, current) ∈ servers' ∧
    record.sourceRef = A'.kind.asKebab ++ ':' :: v ∧
    (record.upload, record.download) = serverDelta (some prev) current

/-- The sync at this place is the first since a change of endpoint or binding. -/
def AfterChange (s : ProbeSourceId) (pre : Trace ι) : Prop :=
  ∃ old d mid p, pre = old ++ d :: mid ∧ syncOf s d = some p ∧ (∀ x ∈ mid, syncOf s x = none) ∧
    ∃ x ∈ mid, Rebinds s x

/-- **What a committed sync should record.** -/
structure DeltasSound (es pre : Trace ι) (s : ProbeSourceId)
    (records : List TrafficRecord) : Prop where
  fromReadings : ∀ record ∈ records, FromReadings es s record
  afterChange : AfterChange s pre → records = []

/-- A sample is recorded exactly if there is a delta. -/
theorem sampleOf_eq_none {server : Str × Bytes} :
    sampleOf last server = none ↔ serverDelta (last.lookup server.1) server.2 = 0 := by
  unfold sampleOf
  simp [Prod.ext_iff]

theorem sampleOf_eq_some {server : Str × Bytes} {sample : ProbeTrafficSample}
    (h : sampleOf last server = some sample) :
    ∃ prev, last.lookup server.1 = some prev ∧
      sample = ⟨server.1, serverDelta (some prev) server.2⟩ := by
  cases hlast : last.lookup server.1 with
  | none =>
    have hnone : sampleOf last server = none := sampleOf_eq_none.2 (by rw [hlast]; rfl)
    rw [hnone] at h
    cases h
  | some prev =>
    unfold sampleOf at h
    rw [hlast] at h
    dsimp only at h
    split at h
    · exact ⟨prev, rfl, (Option.some.inj h).symm⟩
    · cases h

/-- Nothing is recorded exactly if no server has a delta. -/
theorem records_eq_nil_iff {sub : SubscriptionId} {label : Str}
    (h : List.Forall₂ (RecordOf sub label) (servers.filterMap (sampleOf last)) records) :
    records = [] ↔ ∀ p ∈ servers, serverDelta (last.lookup p.1) p.2 = 0 := by
  have hsamples : servers.filterMap (sampleOf last) = [] ↔
      ∀ p ∈ servers, serverDelta (last.lookup p.1) p.2 = 0 := by
    rw [List.filterMap_eq_nil_iff]
    exact forall₂_congr fun p _ => sampleOf_eq_none
  rw [← hsamples]
  constructor
  · intro hnil
    subst hnil
    exact List.forall₂_nil_right_iff.1 h
  · intro hnil
    rw [hnil] at h
    exact List.forall₂_nil_left_iff.1 h

/-- Every record is that of a server of the reading and of the baseline. -/
theorem record_of_server {sub : SubscriptionId} {label : Str} {record : TrafficRecord}
    (h : List.Forall₂ (RecordOf sub label) (servers.filterMap (sampleOf last)) records)
    (hrecord : record ∈ records) : ∃ v prev current, (v, current) ∈ servers ∧ (v, prev) ∈ last ∧
      RecordOf sub label ⟨v, serverDelta (some prev) current⟩ record := by
  obtain ⟨i, hi, rfl⟩ := List.getElem_of_mem hrecord
  have hi' : i < (servers.filterMap (sampleOf last)).length := h.length_eq ▸ hi
  have hof := (List.forall₂_iff_get.1 h).2 i hi' hi
  obtain ⟨⟨v, current⟩, hserver, hsample⟩ := List.mem_filterMap.1 (List.getElem_mem hi')
  obtain ⟨prev, hprev, hsample⟩ := sampleOf_eq_some hsample
  obtain ⟨before, after, rfl, -⟩ := List.lookup_eq_some_iff.1 hprev
  refine ⟨v, prev, current, hserver, by simp, ?_⟩
  rw [← hsample]
  exact hof

section Rebinding

variable (hrun : Run (ports E) (system E db₀ clients) es c)

include hrun

/-- Without a change the endpoint and the binding stay. -/
theorem same_binding {d : CallEvent ι} {old mid : Trace ι}
    (hes : es = (old ++ d :: mid) ++ e :: post) (hmid : ∀ x ∈ mid, ¬ Rebinds s x) {A B : ProbeSource}
    (hA : d.after.sources.find s = some A) (hB : e.before.sources.find s = some B) :
    A.endpointUrl = B.endpointUrl ∧ A.subscriptionId = B.subscriptionId := by
  have hesD : es = old ++ d :: (mid ++ e :: post) := by simp [hes]
  obtain ⟨A', hA', hsame⟩ := hrun.segment
    (R := fun a b : ProbeDb => ∀ B, b.sources.find s = some B → ∃ A, a.sources.find s = some A ∧
      A.endpointUrl = B.endpointUrl ∧ A.subscriptionId = B.subscriptionId)
    (fun _ B hB => ⟨B, hB, rfl, rfl⟩)
    (fun _ _ _ hab hbc C hC => by
      obtain ⟨B, hB, hurl, hsub⟩ := hbc C hC
      obtain ⟨A, hA, hurl', hsub'⟩ := hab B hB
      exact ⟨A, hA, hurl'.trans hurl, hsub'.trans hsub⟩)
    hesD (fun x hx B hB => by
      have hmem : x ∈ es := by simp [hes, hx]
      obtain ⟨A, hA, -⟩ := (ports_change (hrun.sem_of_mem hmem)).revisionLe s B hB
      refine ⟨A, hA, ?_, ?_⟩
      · exact Classical.byContradiction fun hne => hmid x hx ⟨A, B, hA, hB, .inl hne⟩
      · exact Classical.byContradiction fun hne => hmid x hx ⟨A, B, hA, hB, .inr hne⟩) B hB
  rw [Option.some.inj (hA.symm.trans hA')]
  exact hsame

/-- Without a change since the committed sync before it, a sync records differences of readings. -/
theorem fromReadings_of_unchanged (hnew : ∀ S₀, db₀.sources.find s = some S₀ →
      S₀.lastCounterSnapshot = none) (hes : es = pre ++ e :: post)
    (hsync : syncOf s e = some (source, records))
    (h : Synced E (own e.thread pre) source records S servers last) (hsame : ¬ AfterChange s pre) :
    ∀ record ∈ records, FromReadings es s record := by
  intro record hrecord
  obtain ⟨sub, hsub, hrecords⟩ := h.records
  obtain ⟨v, prev, current, hcurrent, hprev, hof⟩ := record_of_server hrecords hrecord
  have hstart : StoredForm s db₀ := by
    intro row hrow
    rw [hnew row hrow]
    rfl
  obtain ⟨hrow, -⟩ := sync_in_force hrun hes hsync h
  obtain ⟨S₀, hS₀, hkind, ⟨-, hfirst⟩ | ⟨old, d, mid, source', records', rfl, hd, hmid, hkind', hlast⟩⟩ :=
    baseline_of hrun hstart hes hrow
  · -- without a snapshot no server has a delta
    have hparse := h.baseline
    rw [hfirst, hnew S₀ hS₀] at hparse
    obtain rfl := Except.ok.inj hparse
    cases hprev
  · obtain ⟨S', servers', g, g', -, hurl', hsub', rfl, htaken, htaken', hgg'⟩ :=
      previous_reading hrun hes hd hsync h (hkind'.trans hkind.symm) hlast
    have hunchanged : ∀ x ∈ mid, ¬ Rebinds s x :=
      fun x hx hx' => hsame ⟨old, d, mid, _, rfl, hd, hmid, x, hx, hx'⟩
    have hafter : d.after.sources.find s = some (Probes.stored source') := by
      rw [(sync_updated hrun (by simp [hes]) hd).sources, if_pos (syncOf_eq_some hd).1.symm]
    obtain ⟨hurl, hbound⟩ := same_binding hrun hes hunchanged hafter hrow
    refine ⟨g, g', S', S, servers', servers, v, prev, current, hgg', htaken, htaken',
      hurl'.symm.trans hurl, ?_, ?_, mem_snapshotOf hprev, hcurrent,
      hof.sourceRef, hof.bytes⟩
    · rw [← hsub', hof.subscriptionId, ← hsub]
      exact hbound
    · rw [hof.subscriptionId, hsub]

end Rebinding

/-- **The deltas after a change of endpoint or binding.** A source is created without a snapshot, and
    an edit leaves the snapshot in place. So a committed sync records only differences of readings
    of one endpoint under one binding, and nothing as the first after a change, exactly if after a
    change every counter of its reading that the snapshot knows stands where it stood before the
    change, or at zero. -/
theorem deltas_sound_iff (hrun : Run (ports E) (system E db₀ clients) es c)
    (hnew : ∀ S₀, db₀.sources.find s = some S₀ → S₀.lastCounterSnapshot = none)
    (hes : es = pre ++ e :: post) (hsync : syncOf s e = some (source, records))
    (h : Synced E (own e.thread pre) source records S servers last) :
    DeltasSound es pre s records ↔
      (AfterChange s pre → ∀ v current prev, (v, current) ∈ servers → last.lookup v = some prev →
        (current.1 = prev.1 ∨ current.1 = 0) ∧ (current.2 = prev.2 ∨ current.2 = 0)) := by
  obtain ⟨sub, -, hrecords⟩ := h.records
  constructor
  · intro hsound hchange v current prev hcurrent hprev
    have hzero := (records_eq_nil_iff hrecords).1 (hsound.afterChange hchange) _ hcurrent
    exact serverDelta_eq_zero.1 hzero prev hprev
  · intro hstill
    have hzero : AfterChange s pre → ∀ p ∈ servers, serverDelta (last.lookup p.1) p.2 = 0 :=
      fun hchange p hp => serverDelta_eq_zero.2 fun prev => hstill hchange p.1 p.2 prev hp
    have hnil : AfterChange s pre → records = [] :=
      fun hchange => (records_eq_nil_iff hrecords).2 (hzero hchange)
    refine ⟨fun record hrecord => ?_, hnil⟩
    by_cases hchange : AfterChange s pre
    · rw [hnil hchange] at hrecord
      cases hrecord
    · exact fromReadings_of_unchanged hrun hnew hes hsync h hchange record hrecord

/-! ## 5. Runs -/

/-- A plain text of a snapshot, with its numbers in unary. -/
def plainEntry (p : Str × Bytes) : Str :=
  p.1.flatMap (fun c => ['i', c]) ++ List.replicate p.2.1 'u' ++ List.replicate p.2.2 'd' ++ ['.']

/-- Reads the plain text, from the part of an entry that has been read. -/
def plainParse (id : Str) (n : Bytes) : Str → Option (List (Str × Bytes))
  | 'i' :: c :: rest => plainParse (id ++ [c]) n rest
  | 'u' :: rest => plainParse id (n.1 + 1, n.2) rest
  | 'd' :: rest => plainParse id (n.1, n.2 + 1) rest
  | '.' :: rest => (plainParse [] 0 rest).map ((id, n) :: ·)
  | [] => some []
  | _ => none

theorem plainParse_id (id v : Str) (n : Bytes) (rest : Str) :
    plainParse id n (v.flatMap (fun c => ['i', c]) ++ rest) = plainParse (id ++ v) n rest := by
  induction v generalizing id with
  | nil => simp
  | cons c v ih => simp [plainParse, ih]

theorem plainParse_up (id : Str) (n : Bytes) (k : Nat) (rest : Str) :
    plainParse id n (List.replicate k 'u' ++ rest) = plainParse id (n.1 + k, n.2) rest := by
  induction k generalizing n with
  | zero => rfl
  | succ k ih =>
    rw [List.replicate_succ, List.cons_append, plainParse, ih, Nat.add_right_comm, Nat.add_assoc]

theorem plainParse_down (id : Str) (n : Bytes) (k : Nat) (rest : Str) :
    plainParse id n (List.replicate k 'd' ++ rest) = plainParse id (n.1, n.2 + k) rest := by
  induction k generalizing n with
  | zero => rfl
  | succ k ih =>
    rw [List.replicate_succ, List.cons_append, plainParse, ih, Nat.add_right_comm, Nat.add_assoc]

theorem plainParse_flatMap (l : List (Str × Bytes)) :
    plainParse [] 0 (l.flatMap plainEntry) = some l := by
  induction l with
  | nil => rfl
  | cons p l ih =>
    obtain ⟨v, up, down⟩ := p
    rw [List.flatMap_cons, plainEntry]
    simp only [List.append_assoc]
    rw [plainParse_id, plainParse_up, plainParse_down, List.singleton_append, plainParse, ih]
    simp

/-- The plain text as a codec. -/
def plainCodec {α : Type} (counters : α → Bytes) (value : Bytes → α)
    (h : ∀ a, value (counters a) = a) : SnapshotCodec α where
  print l := 'm' :: (l.map fun p => (p.1, counters p.2)).flatMap plainEntry
  parse
    | 'm' :: rest => match plainParse [] 0 rest with
      | some l => .ok (l.map fun p => (p.1, value p.2))
      | none => .error []
    | _ => .error []
  parse_print l _ := by
    have hround : (fun p : Str × Bytes => (p.1, value p.2)) ∘ (fun p => (p.1, counters p.2)) = id :=
      funext fun p => Prod.ext rfl (h p.2)
    simp [plainParse_flatMap, hround]
  parse_nil _ := nofun

/-- The functions outside the commands, in a plain form. -/
def Env.plain : Env where
  codecs := ⟨plainCodec id id fun _ => rfl, plainCodec (fun n => (0, n)) Prod.snd fun _ => rfl⟩
  formatTs _ := "2026-01-01T00:00:00Z"
  urlValid _ := true

/-- A new Komari source at endpoint `a`, bound to the subscription 1. -/
def newSource : ProbeSource :=
  ⟨0, 7, .komari, "p", "a", [], some 1, true, none, none, none, 0⟩

def oneProbe : ProbeDb :=
  ⟨⟨[newSource], List.nodup_singleton _⟩, .empty ⟨[⟨1, 4⟩], List.nodup_singleton _⟩⟩

/-- The panel reports one node. -/
def Outside.node (n : Nat) (counters : Bytes) : Outside :=
  ⟨0, Fin.ofNat _ n, [], [], [("v", .ok (some counters))]⟩

/-- Two syncs side by side after a first one: both read, the first commits. -/
def racingTrace : Trace Nat × Config Call.Reply ProbeDb Nat Unit :=
  trace .plain oneProbe (fun _ => .sync 7)
    (List.replicate 4 (0, .node 0 (5, 5)) ++ List.replicate 2 (1, .node 1 (7, 6)) ++
      List.replicate 5 (2, .node 2 (9, 8)) ++ List.replicate 4 (1, .node 1 (7, 6)) ++
      [(2, .node 2 (9, 8))])

theorem risesTo_single {v : Str} {p c : Bytes} (h : p.1 ≤ c.1 ∧ p.2 ≤ c.2) :
    RisesTo [(v, p)] [(v, c)] := by
  intro w p' c' hp hc
  by_cases hw : w = v
  · simp only [List.lookup_cons, hw, beq_self_eq_true, Option.some.injEq] at hp hc
    rw [← hp, ← hc]
    exact h
  · simp [List.lookup_cons, List.lookup_nil, beq_false_of_ne hw] at hp

/-- The readings of a trace. -/
def readings (es : Trace ι) :
    List (ProbeSourceKind × Str × List (Str × Bytes)) :=
  es.filterMap fun g => reading g.view.2

/-- What the panel at endpoint `a` reports. -/
def nodeReading (counters : Bytes) : ProbeSourceKind × Str × List (Str × Bytes) :=
  (.komari, "a", [("v", counters)])

omit [DecidableEq ι] in
/-- A panel that reports one node is steady if its counters rise. -/
theorem steady_of_readings {kind : ProbeSourceKind} {endpoint v : Str} {base : CounterSnapshot}
    (hbase : base = []) (hsingle : ∀ r ∈ readings es, ∃ p, r.2.2 = [(v, p)])
    (hrises : (readings es).Pairwise fun r r' => RisesTo r.2.2 r'.2.2) :
    Steady kind endpoint (some base) es where
  once g hg servers hreading := by
    obtain ⟨p, hp⟩ := hsingle _ (List.mem_filterMap.2 ⟨g, hg, hreading⟩)
    simp only at hp
    simp [hp]
  fromBase b hb g hg servers hreading v p c hp := by
    rw [← Option.some.inj hb, hbase] at hp
    cases hp
  rises g g' hgg' servers servers' hreading hreading' := by
    have hpair : [(kind, endpoint, servers), (kind, endpoint, servers')].Sublist (readings es) := by
      have hmap := hgg'.filterMap fun g => reading g.view.2
      simpa [readings, hreading, hreading'] using hmap
    exact List.pairwise_iff_forall_sublist.1 hrises hpair

theorem syncs_telescope_racing :
    (racingTrace.1.map (deltaOf 7 "v")).sum =
      pairSum (increase "v") ([] :: racingTrace.1.filterMap (snapshotIn .plain 7)) ∧
    (racingTrace.1.map (deltaOf 7 "v")).sum = (2, 1) := by
  have hreadings : readings racingTrace.1 = [(5, 5), (7, 6), (9, 8)].map nodeReading := rfl
  have hendpoint : ∀ e ∈ racingTrace.1, ∀ A, e.before.sources.find 7 = some A →
      A.endpointUrl = newSource.endpointUrl := by
    have hall : racingTrace.1.all (fun e => (e.before.sources.find 7).all fun A =>
        A.endpointUrl = newSource.endpointUrl) = true := rfl
    intro e he A hA
    have hone := List.all_eq_true.1 hall e he
    rw [hA] at hone
    exact of_decide_eq_true hone
  have hsteady : Steady newSource.kind newSource.endpointUrl
      (Env.plain.codecs.parseSnapshot newSource.kind newSource.lastCounterSnapshot).toOption
      racingTrace.1 := by
    refine steady_of_readings (v := "v") rfl ?_ ?_
    · rw [hreadings]
      intro r hr
      obtain ⟨p, -, rfl⟩ := List.mem_map.1 hr
      exact ⟨p, rfl⟩
    · rw [hreadings, List.pairwise_map]
      simp [nodeReading, risesTo_single]
  exact ⟨(syncs_telescope (trace_run ..) (fun row hrow => by cases hrow; rfl) rfl hendpoint
    hsteady).1 "v", rfl⟩

/-- A sync, an edit of the source, and another sync. -/
def editedTrace (params : UpdateParams) :
    Trace Nat × Config Call.Reply ProbeDb Nat Unit :=
  trace .plain oneProbe (fun i => if i = 1 then .edit params else .sync 7)
    (List.replicate 4 (0, .node 0 (5, 5)) ++ List.replicate 3 (1, .node 1 (0, 0)) ++
      List.replicate 6 (2, .node 2 (9, 8)))

/-- The edit gives the source another name. -/
def toNameQ : UpdateParams := ⟨7, some "q", none, none, none, none⟩

/-- The edit moves the source to endpoint `b`. -/
def toEndpointB : UpdateParams := ⟨7, none, some "b", none, none, none⟩

/-- The sync after the edit commits this. -/
def secondSync (name endpointUrl : Str) : ProbeSource × List TrafficRecord :=
  ({ newSource with
      revision := 2, name, endpointUrl, lastSyncAt := some 0, lastSyncStatus := some .ok
      lastCounterSnapshot := some (Env.plain.codecs.printSnapshot .komari [("v", (9, 8))]) },
    [⟨2, 1, .probe, 4, 3, 0, "komari:v"⟩])

theorem deltas_sound_iff_renamed : ∃ pre e, (editedTrace toNameQ).1 = pre ++ [e] ∧
    syncOf 7 e = some (secondSync "q" "a") ∧
    DeltasSound (editedTrace toNameQ).1 pre 7 (secondSync "q" "a").2 := by
  have hcommit : (editedTrace toNameQ).1[12]?.map (syncOf 7) = some (some (secondSync "q" "a")) := rfl
  obtain ⟨e, he, hsync⟩ := Option.map_eq_some_iff.1 hcommit
  have hes := eq_take_append_of_getElem? he
  have hsame : ¬ AfterChange 7 ((editedTrace toNameQ).1.take 12) := by
    have hall : ∀ x ∈ (editedTrace toNameQ).1.take 12, ¬ Rebinds 7 x := by decide
    intro hchange
    obtain ⟨old, d, mid, p, hpre, -, -, x, hx, hrebinds⟩ := hchange
    exact hall x (hpre ▸ List.mem_append_right _ (List.mem_cons_of_mem _ hx)) hrebinds
  have hrun := trace_run .plain oneProbe (fun i : Nat => if i = 1 then .edit toNameQ else .sync 7)
    (List.replicate 4 (0, .node 0 (5, 5)) ++ List.replicate 3 (1, .node 1 (0, 0)) ++
      List.replicate 6 (2, .node 2 (9, 8)))
  obtain ⟨S, servers, last, h⟩ := synced_of hrun hes hsync
  refine ⟨_, e, hes, hsync, ?_⟩
  exact (deltas_sound_iff hrun (fun S₀ hS₀ => by cases hS₀; rfl) hes hsync h).2 fun hchange =>
    absurd hchange hsame

/-- The panel at endpoint `b` has nothing to do with the one at `a`, and yet their difference is
    recorded. -/
theorem rebound_delta_recorded :
    (∃ c, Run (ports .plain) (system .plain oneProbe fun i : Nat =>
      if i = 1 then .edit toEndpointB else .sync 7) (editedTrace toEndpointB).1 c) ∧
    ∃ pre e, (editedTrace toEndpointB).1 = pre ++ [e] ∧
      syncOf 7 e = some (secondSync "p" "b") ∧
      ¬ DeltasSound (editedTrace toEndpointB).1 pre 7 (secondSync "p" "b").2 := by
  have hcommit : (editedTrace toEndpointB).1[12]?.map (syncOf 7) =
      some (some (secondSync "p" "b")) := rfl
  obtain ⟨e, he, hsync⟩ := Option.map_eq_some_iff.1 hcommit
  refine ⟨⟨_, trace_run ..⟩, _, e, eq_take_append_of_getElem? he, hsync, fun hsound => ?_⟩
  have hfirst : ((editedTrace toEndpointB).1.take 12)[3]?.map (fun d => (syncOf 7 d).isSome) =
      some true := rfl
  obtain ⟨d, hd, hd'⟩ := Option.map_eq_some_iff.1 hfirst
  obtain ⟨p, hp⟩ := Option.isSome_iff_exists.1 hd'
  have hchange : AfterChange 7 ((editedTrace toEndpointB).1.take 12) := by
    refine ⟨_, d, _, p, eq_take_append_of_getElem? hd, hp, ?_, ?_⟩
    · decide
    · decide
  cases hsound.afterChange hchange

end DeveSub.Probe
