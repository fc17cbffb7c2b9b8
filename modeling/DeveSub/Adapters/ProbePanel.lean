/-
  File:      DeveSub/Adapters/ProbePanel.lean
  Subject:   Counter snapshots and deltas of the panel adapters (`nezha_probe.rs`,
             `komari_probe.rs`, `dstatus_probe.rs`).

  A panel reports cumulative counters by server. The three adapters compare them with the snapshot
  of the last sync in the same way; DStatus has one counter, which counts as download. A server that
  the snapshot does not name is a baseline, a counter below its last value has been reset.

  * `computeSamples`, `computeSamples_eq` -- the loop, and what it collects;
  * `lookup_snapshot_last` -- of a server that is listed again, the last entry is kept;
  * `sampleBytes_eq`, `sampleSum` -- what the samples of a server add up to.
-/
import DeveSub.Domain.Probe
import DeveSub.Lib.Aggregate

namespace DeveSub

/-! ## 1. Snapshots -/

/-- `CounterSnapshot`: the counters by server. -/
abbrev CounterSnapshot := List (Str × Bytes)

/-- `HashMap::insert`. -/
def CounterSnapshot.insert (id : Str) (counters : Bytes) : CounterSnapshot → CounterSnapshot
  | [] => [(id, counters)]
  | (k, c) :: rest => if k = id then (k, counters) :: rest else (k, c) :: insert id counters rest

theorem CounterSnapshot.lookup_insert (id v : Str) (counters : Bytes) (s : CounterSnapshot) :
    (s.insert id counters).lookup v = if v = id then some counters else s.lookup v := by
  induction s with
  | nil =>
    by_cases hv : v = id
    · simp [insert, hv]
    · simp [insert, List.lookup_cons, List.lookup_nil, hv, beq_false_of_ne hv]
  | cons p rest ih =>
    obtain ⟨k, c⟩ := p
    rw [insert]
    by_cases hk : k = id
    · subst hk
      rw [if_pos rfl]
      by_cases hv : v = k
      · simp [hv]
      · simp [List.lookup_cons, hv, beq_false_of_ne hv]
    · rw [if_neg hk]
      by_cases hv : v = k
      · subst hv
        simp [hk]
      · simp only [List.lookup_cons, beq_false_of_ne hv]
        exact ih

/-- `serde_json` on a map by server: what is written is read back, and nothing is not read. -/
structure SnapshotCodec (α : Type) where
  print : List (Str × α) → Str
  parse : Str → Except Str (List (Str × α))
  parse_print : ∀ s, (s.map Prod.fst).Nodup → parse (print s) = .ok s
  parse_nil : ∀ s, parse [] ≠ .ok s

/-- The two shapes of a snapshot: both counters (Nezha, Komari), or the bytes used (DStatus). -/
structure SnapshotCodecs where
  counters : SnapshotCodec Bytes
  usage : SnapshotCodec Nat

/-- The counters of a DStatus node: it has no upload. -/
def usageBytes (p : Str × Nat) : Str × Bytes := (p.1, (0, p.2))

/-- `parse_snapshot` of the adapter of a kind. -/
def SnapshotCodecs.parseSnapshot (codecs : SnapshotCodecs) (kind : ProbeSourceKind) :
    Option Str → Except ProbeError CounterSnapshot
  | none => .ok []
  | some json =>
    Except.mapError (fun e => .probeFailed ("counter snapshot parse failed: ".toList ++ e))
      (match kind with
      | .dStatus => (codecs.usage.parse json).map (List.map usageBytes)
      | .nezha | .komari => codecs.counters.parse json)

/-- The snapshot as the adapter of a kind writes it. -/
def SnapshotCodecs.printSnapshot (codecs : SnapshotCodecs) (kind : ProbeSourceKind)
    (snapshot : CounterSnapshot) : Str :=
  match kind with
  | .dStatus => codecs.usage.print (snapshot.map fun p => (p.1, p.2.2))
  | .nezha | .komari => codecs.counters.print snapshot

/-- The counters a panel of the kind can report. -/
def ProbeSourceKind.Reports (kind : ProbeSourceKind) (servers : List (Str × Bytes)) : Prop :=
  kind = .dStatus → ∀ p ∈ servers, p.2.1 = 0

/-- **A snapshot is read as it was written.** -/
theorem SnapshotCodecs.parse_print (codecs : SnapshotCodecs) {kind : ProbeSourceKind}
    {snapshot : CounterSnapshot} (h : kind.Reports snapshot)
    (hnodup : (snapshot.map Prod.fst).Nodup) :
    codecs.parseSnapshot kind (some (codecs.printSnapshot kind snapshot)) = .ok snapshot := by
  cases kind with
  | nezha | komari => simp only [parseSnapshot, printSnapshot, codecs.counters.parse_print _ hnodup]; rfl
  | dStatus =>
    have hmap : (snapshot.map fun p => (p.1, p.2.2)).map usageBytes = snapshot := by
      rw [List.map_map]
      refine (List.map_congr_left fun p hp => ?_).trans (List.map_id snapshot)
      exact Prod.ext rfl (Prod.ext (h rfl p hp).symm rfl)
    have hkeys : (snapshot.map fun p => (p.1, p.2.2)).map Prod.fst = snapshot.map Prod.fst := by simp
    simp only [parseSnapshot, printSnapshot, codecs.usage.parse_print _ (hkeys ▸ hnodup)]
    exact congrArg Except.ok hmap

/-- A snapshot that can be read is not empty, so it is stored as it is. -/
theorem SnapshotCodecs.filter_of_parse (codecs : SnapshotCodecs) {kind : ProbeSourceKind}
    {json : Option Str} {snapshot : CounterSnapshot}
    (h : codecs.parseSnapshot kind json = .ok snapshot) :
    json.filter (fun s => !s.isEmpty) = json := by
  cases json with
  | none => rfl
  | some json =>
    cases json with
    | cons c rest => rfl
    | nil =>
      have hparse := mapError_eq_ok.1 h
      cases kind with
      | nezha | komari => exact absurd hparse (codecs.counters.parse_nil _)
      | dStatus =>
        obtain ⟨usage, husage, -⟩ := map_eq_ok.1 hparse
        exact absurd husage (codecs.usage.parse_nil _)

/-! ## 2. Deltas -/

/-- The traffic between two values of a counter; a lower value is one after a reset. -/
def counterDelta (prev current : Nat) : Nat := if prev ≤ current then current - prev else current

/-- Both counters of a server; the first sighting is a baseline. -/
def serverDelta (prev : Option Bytes) (current : Bytes) : Bytes :=
  prev.elim 0 fun p => (counterDelta p.1 current.1, counterDelta p.2 current.2)

/-- **There is no delta** exactly if both counters stand where they stood, or at zero. -/
theorem serverDelta_eq_zero {prev : Option Bytes} {current : Bytes} :
    serverDelta prev current = 0 ↔ ∀ p, prev = some p →
      (current.1 = p.1 ∨ current.1 = 0) ∧ (current.2 = p.2 ∨ current.2 = 0) := by
  have hcounter : ∀ p c, counterDelta p c = 0 ↔ c = p ∨ c = 0 := by
    intro p c
    unfold counterDelta
    split <;> omega
  cases prev with
  | none => exact iff_of_true rfl nofun
  | some p => simp [serverDelta, Prod.ext_iff, hcounter]

/-- The loop of `compute_samples`. -/
def computeSamples (last : CounterSnapshot) :
    List ProbeTrafficSample → CounterSnapshot → List (Str × Bytes) →
      List ProbeTrafficSample × CounterSnapshot
  | samples, snapshot, [] => (samples, snapshot)
  | samples, snapshot, (id, current) :: servers =>
    let delta := serverDelta (last.lookup id) current
    computeSamples last (if 0 < delta.1 || 0 < delta.2 then samples ++ [⟨id, delta⟩] else samples)
      (snapshot.insert id current) servers

/-- The sample of a server, if there is one. -/
def sampleOf (last : CounterSnapshot) (server : Str × Bytes) : Option ProbeTrafficSample :=
  let delta := serverDelta (last.lookup server.1) server.2
  if 0 < delta.1 || 0 < delta.2 then some ⟨server.1, delta⟩ else none

/-- The snapshot of what a panel reported; of a server that is listed twice, the last entry. -/
def snapshotOf (servers : List (Str × Bytes)) : CounterSnapshot :=
  servers.foldl (fun snapshot p => snapshot.insert p.1 p.2) []

theorem mem_insert_snapshot {id : Str} {counters : Bytes} {s : CounterSnapshot} {p : Str × Bytes}
    (h : p ∈ s.insert id counters) : p = (id, counters) ∨ p ∈ s := by
  induction s with
  | nil => exact .inl (List.mem_singleton.1 h)
  | cons q rest ih =>
    obtain ⟨k, c⟩ := q
    rw [CounterSnapshot.insert] at h
    by_cases hk : k = id
    · rw [if_pos hk, hk] at h
      rcases List.mem_cons.1 h with rfl | h
      · exact .inl rfl
      · exact .inr (List.mem_cons_of_mem _ h)
    · rw [if_neg hk] at h
      rcases List.mem_cons.1 h with rfl | h
      · exact .inr List.mem_cons_self
      · exact (ih h).imp_right (List.mem_cons_of_mem _)

theorem nodup_insert_snapshot {id : Str} {counters : Bytes} {s : CounterSnapshot}
    (h : (s.map Prod.fst).Nodup) : ((s.insert id counters).map Prod.fst).Nodup := by
  induction s with
  | nil => exact List.nodup_singleton id
  | cons q rest ih =>
    obtain ⟨k, c⟩ := q
    obtain ⟨hk, hrest⟩ := List.nodup_cons.1 h
    rw [CounterSnapshot.insert]
    split
    · exact List.nodup_cons.2 ⟨hk, hrest⟩
    · rename_i hne
      refine List.nodup_cons.2 ⟨fun hmem => ?_, ih hrest⟩
      obtain ⟨p, hp, rfl⟩ := List.mem_map.1 hmem
      rcases mem_insert_snapshot hp with rfl | hp
      · exact hne rfl
      · exact hk (List.mem_map.2 ⟨p, hp, rfl⟩)

/-- The snapshot holds nothing that was not reported. -/
theorem mem_snapshotOf {servers : List (Str × Bytes)} {p : Str × Bytes} (h : p ∈ snapshotOf servers) :
    p ∈ servers := by
  have hfold : ∀ (l : List (Str × Bytes)) (s : CounterSnapshot),
      p ∈ l.foldl (fun snapshot p => snapshot.insert p.1 p.2) s → p ∈ l ∨ p ∈ s := by
    intro l
    induction l with
    | nil => exact fun s hp => .inr hp
    | cons q l ih =>
      intro s hp
      rcases ih _ hp with hp | hp
      · exact .inl (List.mem_cons_of_mem q hp)
      · rcases mem_insert_snapshot hp with rfl | hp
        · exact .inl List.mem_cons_self
        · exact .inr hp
  exact (hfold servers [] h).resolve_right List.not_mem_nil

theorem nodup_snapshotOf (servers : List (Str × Bytes)) :
    ((snapshotOf servers).map Prod.fst).Nodup :=
  List.foldlRecOn (motive := fun s : CounterSnapshot => (s.map Prod.fst).Nodup) servers _
    List.nodup_nil fun _ h _ _ => nodup_insert_snapshot h

theorem ProbeSourceKind.Reports.snapshotOf {kind : ProbeSourceKind} {servers : List (Str × Bytes)}
    (h : kind.Reports servers) : kind.Reports (snapshotOf servers) :=
  fun hkind p hp => h hkind p (mem_snapshotOf hp)

/-- **The loop collects the samples and the snapshot.** -/
theorem computeSamples_eq (last : CounterSnapshot) (samples : List ProbeTrafficSample)
    (snapshot : CounterSnapshot) (servers : List (Str × Bytes)) :
    computeSamples last samples snapshot servers =
      (samples ++ servers.filterMap (sampleOf last),
        servers.foldl (fun snapshot p => snapshot.insert p.1 p.2) snapshot) := by
  induction servers generalizing samples snapshot with
  | nil => simp [computeSamples]
  | cons p servers ih =>
    obtain ⟨id, current⟩ := p
    rw [computeSamples, ih, List.foldl_cons]
    by_cases hpos : (decide (0 < (serverDelta (last.lookup id) current).1) ||
        decide (0 < (serverDelta (last.lookup id) current).2)) = true
    · have hsample : sampleOf last (id, current) = some ⟨id, serverDelta (last.lookup id) current⟩ :=
        if_pos hpos
      rw [if_pos hpos, List.filterMap_cons_some hsample, List.append_assoc, List.singleton_append]
    · have hsample : sampleOf last (id, current) = none := if_neg hpos
      rw [if_neg hpos, List.filterMap_cons_none hsample]

theorem lookup_singleton (p : Str × Bytes) (v : Str) :
    [p].lookup v = if v = p.1 then some p.2 else none := by
  by_cases hv : v = p.1
  · rw [if_pos hv, List.lookup_cons, hv, beq_self_eq_true]
  · rw [if_neg hv, List.lookup_cons, beq_false_of_ne hv, List.lookup_nil]

/-- **What the snapshot says of a server**: its last entry. -/
theorem lookup_snapshot_last (servers : List (Str × Bytes)) (v : Str) :
    (snapshotOf servers).lookup v = servers.reverse.lookup v := by
  have hfold : ∀ (l : List (Str × Bytes)) (s : CounterSnapshot),
      (l.foldl (fun snapshot p => snapshot.insert p.1 p.2) s).lookup v =
        (l.reverse.lookup v).or (s.lookup v) := by
    intro l
    induction l with
    | nil => exact fun s => rfl
    | cons p l ih =>
      intro s
      rw [List.foldl_cons, ih, CounterSnapshot.lookup_insert, List.reverse_cons, List.lookup_append,
        Option.or_assoc, lookup_singleton]
      by_cases hv : v = p.1
      · rw [if_pos hv, if_pos hv, Option.some_or]
      · rw [if_neg hv, if_neg hv, Option.none_or]
  exact (hfold servers []).trans Option.or_none

theorem lookup_reverse_eq_none {servers : List (Str × Bytes)} {v : Str} :
    servers.reverse.lookup v = none ↔ v ∉ servers.map Prod.fst := by
  rw [List.lookup_eq_none_iff]
  simp only [List.mem_reverse, bne_iff_ne, List.mem_map, not_exists, not_and]
  exact ⟨fun h p hp heq => h p hp heq.symm, fun h p hp heq => h p hp heq.symm⟩

/-- Where the panel lists each server once, the last entry is the only one. -/
theorem lookup_snapshotOf {servers : List (Str × Bytes)} (hnodup : (servers.map Prod.fst).Nodup)
    (v : Str) : (snapshotOf servers).lookup v = servers.lookup v := by
  rw [lookup_snapshot_last]
  induction servers with
  | nil => rfl
  | cons p servers ih =>
    rw [List.map_cons, List.nodup_cons] at hnodup
    rw [List.reverse_cons, List.lookup_append, lookup_singleton, ih hnodup.2, List.lookup_cons]
    by_cases hv : v = p.1
    · have hnone : servers.lookup v = none := by
        rw [← ih hnodup.2, lookup_reverse_eq_none, hv]
        exact hnodup.1
      rw [hnone, if_pos hv, hv, beq_self_eq_true, Option.none_or]
    · rw [if_neg hv, beq_false_of_ne hv, Option.or_none]

/-- The bytes of the samples of a server. -/
def sampleBytes (v : Str) (samples : List ProbeTrafficSample) : Bytes :=
  (samples.map fun s => if s.externalServerId = v then s.bytes else 0).sum

/-- A sample or none: the bytes are the delta. -/
theorem sampleBytes_sampleOf (last : CounterSnapshot) (v : Str) (server : Str × Bytes)
    (samples : List ProbeTrafficSample) :
    sampleBytes v ((sampleOf last server).toList ++ samples) =
      (if server.1 = v then serverDelta (last.lookup v) server.2 else 0) + sampleBytes v samples := by
  unfold sampleOf
  by_cases hpos : (decide (0 < (serverDelta (last.lookup server.1) server.2).1) ||
      decide (0 < (serverDelta (last.lookup server.1) server.2).2)) = true
  · rw [if_pos hpos]
    by_cases hv : server.1 = v
    · simp [sampleBytes, hv]
    · simp [sampleBytes, hv]
  · rw [if_neg hpos]
    by_cases hv : server.1 = v
    · have hzero : serverDelta (last.lookup v) server.2 = 0 := by
        rw [hv] at hpos
        simp only [Bool.or_eq_true, decide_eq_true_eq, not_or, Nat.not_lt, Nat.le_zero] at hpos
        exact Prod.ext hpos.1 hpos.2
      simp [sampleBytes, hv, hzero]
    · simp [sampleBytes, hv]

/-- What the entries of a server that a later one replaces have grown by. -/
def replacedBytes (last : CounterSnapshot) (v : Str) : List (Str × Bytes) → Bytes
  | [] => 0
  | p :: servers =>
    (if p.1 = v ∧ v ∈ servers.map Prod.fst then serverDelta (last.lookup v) p.2 else 0) +
      replacedBytes last v servers

/-- **What the samples of a server add up to**: the growth of the entry that is kept, and that of
    the entries it replaces. -/
theorem sampleBytes_eq (last : CounterSnapshot) (v : Str) (servers : List (Str × Bytes)) :
    sampleBytes v (servers.filterMap (sampleOf last)) =
      ((snapshotOf servers).lookup v).elim 0 (serverDelta (last.lookup v)) +
        replacedBytes last v servers := by
  rw [lookup_snapshot_last]
  induction servers with
  | nil => rfl
  | cons p servers ih =>
    have hcons : (p :: servers).filterMap (sampleOf last) =
        (sampleOf last p).toList ++ servers.filterMap (sampleOf last) := by
      cases hs : sampleOf last p with
      | none => rw [List.filterMap_cons_none hs]; rfl
      | some x => rw [List.filterMap_cons_some hs]; rfl
    rw [hcons, sampleBytes_sampleOf, ih, replacedBytes, List.reverse_cons, List.lookup_append,
      lookup_singleton]
    by_cases hv : p.1 = v
    · by_cases hlater : v ∈ servers.map Prod.fst
      · obtain ⟨c, hc⟩ := Option.ne_none_iff_exists'.1 fun h => lookup_reverse_eq_none.1 h hlater
        have hreplaced : p.1 = v ∧ v ∈ servers.map Prod.fst := ⟨hv, hlater⟩
        rw [hc, if_pos hv, if_pos hreplaced, Option.some_or]
        exact add_left_comm ..
      · have hkept : ¬ (p.1 = v ∧ v ∈ servers.map Prod.fst) := fun h => hlater h.2
        rw [lookup_reverse_eq_none.2 hlater, if_pos hv, if_pos hv.symm, if_neg hkept]
        simp
    · have hother : ¬ (p.1 = v ∧ v ∈ servers.map Prod.fst) := fun h => hv h.1
      rw [if_neg hv, if_neg hother, if_neg (Ne.symm hv), Option.or_none, zero_add, zero_add]

/-- A panel that lists each server once replaces nothing. -/
theorem replacedBytes_of_nodup (last : CounterSnapshot) (v : Str) {servers : List (Str × Bytes)}
    (hnodup : (servers.map Prod.fst).Nodup) : replacedBytes last v servers = 0 := by
  induction servers with
  | nil => rfl
  | cons p servers ih =>
    rw [List.map_cons, List.nodup_cons] at hnodup
    have hkept : ¬ (p.1 = v ∧ v ∈ servers.map Prod.fst) := fun h => hnodup.1 (h.1 ▸ h.2)
    rw [replacedBytes, ih hnodup.2, if_neg hkept, zero_add]

/-- The samples of a server, where the panel lists each once. -/
theorem sampleSum (last : CounterSnapshot) (v : Str) {servers : List (Str × Bytes)}
    (hnodup : (servers.map Prod.fst).Nodup) :
    sampleBytes v (servers.filterMap (sampleOf last)) =
      (servers.lookup v).elim 0 (serverDelta (last.lookup v)) := by
  rw [sampleBytes_eq, replacedBytes_of_nodup last v hnodup, lookup_snapshotOf hnodup, add_zero]

end DeveSub
