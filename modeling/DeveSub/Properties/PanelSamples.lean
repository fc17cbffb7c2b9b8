/-
  File:      DeveSub/Properties/PanelSamples.lean
  Subject:   What the samples of one sync add up to, however the panel lists its servers.

  An adapter compares every entry of the answer with the snapshot of the last sync, and keeps the
  entries in a map: of a server that is listed twice, the last. So each earlier entry of a known
  server adds what it has grown by to what the kept entry has grown by. DStatus answers with a map,
  where a server has one entry; the answers of Nezha and Komari are lists.

  * `replacedBytes_eq_zero` -- when the entries that are replaced add nothing;
  * `samples_count_rise_iff` -- when a sync counts the growth of every server once.
-/
import DeveSub.Properties.ProbeDeltas

namespace DeveSub.Probe

/-! ## 1. Servers that are listed again -/

/-- An entry that is replaced later has not grown. -/
def ReplacedIdle (last : CounterSnapshot) (servers : List (Str × Bytes)) : Prop :=
  ∀ pre p post, servers = pre ++ p :: post → p.1 ∈ post.map Prod.fst →
    serverDelta (last.lookup p.1) p.2 = 0

theorem replacedIdle_cons {last : CounterSnapshot} {p : Str × Bytes} {servers : List (Str × Bytes)} :
    ReplacedIdle last (p :: servers) ↔
      (p.1 ∈ servers.map Prod.fst → serverDelta (last.lookup p.1) p.2 = 0) ∧
        ReplacedIdle last servers := by
  constructor
  · intro h
    exact ⟨h [] p servers rfl, fun pre q post heq => h (p :: pre) q post (by rw [heq]; rfl)⟩
  · intro h pre q post heq hq
    cases pre with
    | nil =>
      cases heq
      exact h.1 hq
    | cons q' pre =>
      cases heq
      exact h.2 pre q post rfl hq

/-- Nothing comes on top exactly if the replaced entries have not grown. -/
theorem replacedBytes_eq_zero {last : CounterSnapshot} {servers : List (Str × Bytes)} :
    (∀ v, replacedBytes last v servers = 0) ↔ ReplacedIdle last servers := by
  induction servers with
  | nil =>
    refine ⟨fun _ pre p post h => ?_, fun _ v => rfl⟩
    cases pre <;> cases h
  | cons p servers ih =>
    rw [replacedIdle_cons, ← ih]
    constructor
    · intro h
      refine ⟨fun hp => ?_, fun v => (add_eq_zero.1 (h v)).2⟩
      have hone := (add_eq_zero.1 (h p.1)).1
      rwa [if_pos ⟨rfl, hp⟩] at hone
    · intro h v
      refine add_eq_zero.2 ⟨?_, h.2 v⟩
      split
      · rename_i hp
        rw [← hp.1]
        exact h.1 (hp.1 ▸ hp.2)
      · rfl

/-! ## 2. A sync -/

/-- The samples of every server are what its kept counters have grown by since the last sync. -/
def CountsRise (last kept : CounterSnapshot) (samples : List ProbeTrafficSample) : Prop :=
  ∀ v, sampleBytes v samples = (kept.lookup v).elim 0 (serverDelta (last.lookup v))

/-- **When a sync counts the growth of every server once**: always where the panel answers with a
    map, and otherwise exactly if no replaced entry of a known server has grown. -/
theorem samples_count_rise_iff {E : Env} {S : ProbeSource} {h : History Call.Reply}
    {panel : (c : Call) × c.Reply} {servers : List (Str × Bytes)} {result : ProbeSyncResult}
    (hran : (syncTraffic E S).run.Ran h (panel :: h) (.ok result))
    (hpanel : reading panel = some (S.kind, S.endpointUrl, servers))
    (hmap : S.kind = .dStatus → (servers.map Prod.fst).Nodup) :
    ∃ last kept, E.codecs.parseSnapshot S.kind S.lastCounterSnapshot = .ok last ∧
      E.codecs.parseSnapshot S.kind result.newCounterSnapshot = .ok kept ∧
      (CountsRise last kept result.samples ↔ (S.kind ≠ .dStatus → ReplacedIdle last servers)) := by
  have hanswer : AdapterAnswer E S h (panel :: h) result := follows_syncTraffic.ran hran
  obtain ⟨panel', servers', last, hcons, hpanel', hlast, rfl⟩ := hanswer.answer
  obtain rfl : panel' = panel := (List.cons.inj hcons).1.symm
  obtain rfl : servers' = servers := by
    rw [hpanel'] at hpanel
    cases hpanel
    rfl
  refine ⟨last, snapshotOf servers', hlast,
    E.codecs.parse_print (reading_reports hpanel).snapshotOf (nodup_snapshotOf _), ?_⟩
  have hidle : CountsRise last (snapshotOf servers') (servers'.filterMap (sampleOf last)) ↔
      ReplacedIdle last servers' := by
    rw [← replacedBytes_eq_zero]
    refine forall_congr' fun v => ?_
    rw [sampleBytes_eq]
    exact add_eq_left
  rw [hidle]
  refine ⟨fun h _ => h, fun h => ?_⟩
  by_cases hkind : S.kind = .dStatus
  · exact replacedBytes_eq_zero.1 fun v => replacedBytes_of_nodup last v (hmap hkind)
  · exact h hkind

/-- A sync of a Nezha source that gets an answer. -/
theorem ran_nezha {E : Env} {S : ProbeSource} {last : CounterSnapshot}
    (hkind : S.kind = .nezha) (htoken : S.authConfig.isEmpty = false)
    (hlast : E.codecs.parseSnapshot S.kind S.lastCounterSnapshot = .ok last)
    (h : History Call.Reply) (answer : List (Nat × Bytes)) :
    (syncTraffic E S).run.Ran h
      (⟨.fetchServers S.endpointUrl S.authConfig, .ok answer⟩ :: h)
      (.ok ⟨(answer.map nezhaBytes).filterMap (sampleOf last),
        some (E.codecs.printSnapshot S.kind (snapshotOf (answer.map nezhaBytes)))⟩) := by
  have htoken' : requireToken S = .ok () := by
    rw [requireToken, htoken]
    rfl
  have hfetch : fetchReading S = Program.ask (.fetchServers S.endpointUrl S.authConfig)
      (Except.map (List.map nezhaBytes)) := by
    rw [fetchReading, hkind]
  unfold syncTraffic
  rw [if_pos hkind, htoken', hlast, hfetch]
  refine ⟨.ok answer, rfl, ?_⟩
  simp only [computeSamples_eq, List.nil_append]
  rfl

/-- A Nezha source whose last sync has seen the server 1. -/
def countedSource : ProbeSource :=
  { newSource with
    kind := .nezha, authConfig := "t"
    lastCounterSnapshot := some (Env.plain.codecs.printSnapshot .nezha [("1", (100, 40))]) }

theorem countedSource_last :
    Env.plain.codecs.parseSnapshot countedSource.kind countedSource.lastCounterSnapshot =
      .ok [("1", (100, 40))] :=
  SnapshotCodecs.parse_print _ nofun (List.nodup_singleton _)

/-- The panel lists server 1 with these counters. -/
def serverOne (entries : List Bytes) : (c : Call) × c.Reply :=
  ⟨.fetchServers "a" "t", .ok (entries.map fun counters => (1, counters))⟩

theorem nezhaBytes_one (counters : Bytes) : nezhaBytes (1, counters) = (("1" : Str), counters) := by
  have htext : natText 1 = "1" := by decide +kernel
  simp only [nezhaBytes, htext]

/-- The server 1 is listed with the counters of the last sync, and again with higher ones. -/
theorem stale_entry_counts_rise : ∃ result last kept,
    (syncTraffic .plain countedSource).run.Ran [] [serverOne [(100, 40), (150, 45)]] (.ok result) ∧
    Env.plain.codecs.parseSnapshot .nezha countedSource.lastCounterSnapshot = .ok last ∧
    Env.plain.codecs.parseSnapshot .nezha result.newCounterSnapshot = .ok kept ∧
    CountsRise last kept result.samples := by
  have hran := ran_nezha rfl rfl countedSource_last [] [(1, (100, 40)), (1, (150, 45))]
  have hreading : reading (serverOne [(100, 40), (150, 45)]) =
      some (.nezha, ("a" : Str), [(("1" : Str), (100, 40)), (("1" : Str), (150, 45))]) := by
    simp [serverOne, reading, nezhaBytes_one]
  obtain ⟨last, kept, hlast, hkept, hiff⟩ := samples_count_rise_iff hran hreading nofun
  refine ⟨_, last, kept, hran, hlast, hkept, hiff.2 fun _ => ?_⟩
  obtain rfl : [(("1" : Str), (100, 40))] = last := Except.ok.inj (countedSource_last.symm.trans hlast)
  refine replacedIdle_cons.2 ⟨fun _ => by decide, replacedIdle_cons.2 ⟨nofun, ?_⟩⟩
  exact replacedBytes_eq_zero.1 fun v => rfl

/-- **The same entry twice is counted twice**: the counters have grown by 50 and 5, the samples
    say 100 and 10. -/
theorem listed_twice_counted_twice : ∃ result,
    (syncTraffic .plain countedSource).run.Ran [] [serverOne [(150, 45), (150, 45)]] (.ok result) ∧
    Env.plain.codecs.parseSnapshot .nezha result.newCounterSnapshot = .ok [("1", (150, 45))] ∧
    sampleBytes "1" result.samples = (100, 10) ∧
    ¬ CountsRise [("1", (100, 40))] [("1", (150, 45))] result.samples := by
  have hran := ran_nezha rfl rfl countedSource_last [] [(1, (150, 45)), (1, (150, 45))]
  simp only [List.map_cons, List.map_nil, nezhaBytes_one] at hran
  refine ⟨_, hran, SnapshotCodecs.parse_print _ nofun (List.nodup_singleton _), by decide, fun h => ?_⟩
  exact absurd (h "1") (by decide)

end DeveSub.Probe
