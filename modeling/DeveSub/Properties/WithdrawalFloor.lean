/-
  File:      DeveSub/Properties/WithdrawalFloor.lean
  Subject:   A withdrawn source stays withdrawn.

  Deleting a source raises the floor past every revision read so far. From then on, in every run
  of the system, no read of the cache returns an entry from below the floor, and a generation
  that read its revision before the deletion can neither store nor publish its result
  (`withdrawal_floor_holds`).
-/
import DeveSub.Application.System
import DeveSub.Properties.RefreshLease

namespace DeveSub

variable {W : World} {ι : Type}

/-! ## 1. One call -/

/-- **A read returns nothing from below the floor.** -/
theorem floor_le_returned {e : CallEvent ι} {x : CacheEntry}
    (hs : ports W e.call e.before e.reply e.after) (hx : returned e = some x) :
    e.before.floor ≤ x.poolRevision := by
  unfold returned at hx
  split at hx
  · obtain rfl := hx
    exact (GenerationCache.findByKey_eq_some (Reads.value hs).symm).2.2
  · obtain rfl := hx
    exact (GenerationCache.findActive_eq_some (Reads.value hs).symm).2.2
  · obtain rfl := hx
    exact GenerationCache.Shape.floor_le (GenerationCache.findLatest_eq_some (Reads.value hs).symm).2.1
  · cases hx

/-- **A store from below the floor is refused** and changes nothing. -/
theorem store_below_floor {e : CallEvent ι} {x : CacheEntry}
    (hs : ports W e.call e.before e.reply e.after) (hcall : e.call = .store x)
    (hx : x.poolRevision < e.before.floor) : refused e = true ∧ e.after = e.before := by
  obtain ⟨i, c, a, before, after⟩ := e
  obtain rfl : c = .store x := hcall
  rcases Writes.cases hs with ⟨⟨⟩, -, h⟩ | ⟨⟨err, rfl⟩, hafter⟩
  · rw [GenerationCache.store_refused hx] at h
    cases h
  · exact ⟨rfl, hafter⟩

/-- **A publication from below the floor is refused** and changes nothing. -/
theorem activate_below_floor {e : CallEvent ι} {t : TemplateId} {p : Str} {id : CacheId}
    (hs : ports W e.call e.before e.reply e.after) (hcall : e.call = .activate t p id)
    (hx : ∀ x ∈ e.before.cache, x.id = id → x.poolRevision < e.before.floor) :
    refused e = true ∧ e.after = e.before := by
  obtain ⟨i, c, a, before, after⟩ := e
  obtain rfl : c = .activate t p id := hcall
  rcases Writes.cases hs with ⟨⟨⟩, -, h⟩ | ⟨⟨err, rfl⟩, hafter⟩
  · rw [GenerationCache.activate_refused hx] at h
    cases h
  · exact ⟨rfl, hafter⟩

/-- A committed deletion puts the floor past the revision it found. -/
theorem floor_of_sourceDeleted {d : CallEvent ι} {id : SourceId}
    (hs : ports W d.call d.before d.reply d.after) (hd : sourceDeleted d = some id) :
    d.after.floor = d.before.revision + 1 := by
  unfold sourceDeleted at hd
  split at hd
  · obtain ⟨-, m, -, hfloor, heq⟩ := Sources.delete_eq_ok (Writes.committed hs)
    rw [heq]
    exact hfloor
  · cases hd

theorem revisionRead_eq {g : CallEvent ι} {r : Nat}
    (hs : ports W g.call g.before g.reply g.after) (hr : revisionRead g = some r) :
    r = g.before.revision ∧ g.after = g.before := by
  unfold revisionRead at hr
  split at hr
  · obtain rfl := Option.some.inj hr
    exact ⟨Reads.value hs, hs.2⟩
  · cases hr

theorem revisionRead_of_mem_own [DecidableEq ι] {es : Trace ι} {i : ι} {r : Nat}
    (h : ⟨.getRevision, .ok r⟩ ∈ own i es) :
    ∃ g ∈ es, g.thread = i ∧ revisionRead g = some r := by
  obtain ⟨⟨j, c, a, before, after⟩, hg, hi, heq⟩ := mem_own.1 h
  cases heq
  exact ⟨_, hg, hi, rfl⟩

/-! ## 2. Runs -/

/-- The floor after the deletion `d`, at a later call `e` of a trace. -/
structure FloorHolds (es : Trace ι) (d e : CallEvent ι) : Prop where
  /-- Every revision up to the deletion is below the floor. -/
  raised : d.before.revision < e.before.floor
  read : ∀ x, returned e = some x → e.before.floor ≤ x.poolRevision
  store : ∀ x, e.call = .store x → x.poolRevision < e.before.floor →
    refused e = true ∧ e.after = e.before
  activate : ∀ t p id, e.call = .activate t p id →
    (∀ x ∈ e.before.cache, x.id = id → x.poolRevision < e.before.floor) →
    refused e = true ∧ e.after = e.before
  /-- What is stored was computed from a revision that its thread has read; read before the
      deletion, it comes too late. -/
  overtaken : ∀ x, e.call = .store x → ∃ g, [g, e].Sublist es ∧ g.thread = e.thread ∧
    revisionRead g = some x.poolRevision ∧
    ([g, d].Sublist es → refused e = true ∧ e.after = e.before)

/-- **After a source was deleted, nothing from before is read, stored or published.** -/
theorem withdrawal_floor_holds [DecidableEq ι] {E : Engine} {db : Db} {clients : ι → Client}
    {es : Trace ι} {c : Config Call.Reply Db ι Outcome}
    (h : Run (ports W) (system E db clients) es c) {d e : CallEvent ι} {id : SourceId}
    (hd : sourceDeleted d = some id) (hde : [d, e].Sublist es) : FloorHolds es d e := by
  have hsd := h.sem_of_mem (hde.subset List.mem_cons_self)
  have hse := h.sem_of_mem (hde.subset (List.mem_cons_of_mem _ List.mem_cons_self))
  have hraised : d.before.revision < e.before.floor := by
    have hfloor := (system_advance h hde).floor_le
    rw [floor_of_sourceDeleted hsd hd] at hfloor
    exact hfloor
  refine ⟨hraised, fun x => floor_le_returned hse, fun x => store_below_floor hse,
    fun t p id => activate_below_floor hse, fun x hx => ?_⟩
  obtain ⟨pre, post, hes, -⟩ := exists_append_of_pair hde
  have hpromise := system_promises h hes
  rw [hx] at hpromise
  obtain ⟨request, -, hstore⟩ := hpromise
  obtain ⟨g, hg, hthread, hread⟩ := revisionRead_of_mem_own hstore.read
  refine ⟨g, hes ▸ pair_sublist hg, hthread, hread, fun hgd => ?_⟩
  -- the revision was read before the deletion, so it is below the floor the deletion set
  obtain ⟨hrev, hafter⟩ := revisionRead_eq (h.sem_of_mem (hgd.subset List.mem_cons_self)) hread
  have hle : x.poolRevision ≤ d.before.revision := by
    rw [hrev, ← hafter]
    exact (system_advance h hgd).revision_le
  exact store_below_floor hse hx (Nat.lt_of_le_of_lt hle hraised)

/-- Who calls in `withdrawalTrace`. -/
inductive Caller where
  | deleting | storing | publishing | later | reading
  deriving DecidableEq

/-- One client imports a node and deletes the source, three generate, one reads the active entry. -/
def withdrawalClients : Caller → Client
  | .deleting => .other (do
      let _ ← Program.perform (.write (.importNodes [.plain 5]))
      let _ ← Program.perform (.write (.deleteSource 7))
      pure ()) ⟨rfl, fun _ => ⟨rfl, fun _ => trivial⟩⟩
  | .reading => .getActiveGeneration 0 "uri_list"
  | _ => .generate .plain

/-- The source with its node is deleted when one generation is about to store and another about to
    publish; the third one starts after it. -/
def withdrawalTrace : Trace Caller :=
  (execute Engine.plain publishingRun.2.store withdrawalClients
    ((.deleting :: List.replicate 8 .storing ++ List.replicate 9 .publishing ++
        [.deleting, .storing, .publishing] ++ List.replicate 10 .later ++ [.reading] :
      List Caller).map fun i => (i, Outside.plain (if i = .later then 20 else 10)))).1

/-- What is looked at in the trace: the source deleted and the nodes missing after it, the
    revision of an output that is stored or returned, a refusal. -/
structure FloorView where
  deleted : Option SourceId
  missing : List NodeId
  stored : Option Nat
  refused : Bool
  returned : Option Nat
  deriving DecidableEq

def Call.stores : Call → Option Nat
  | .store x => some x.poolRevision
  | _ => none

def floorView (e : CallEvent ι) : FloorView where
  deleted := sourceDeleted e
  missing := (e.after.nodes.rows.filter NodeRow.missingFromSource).map NodeRow.id
  stored := e.call.stores
  refused := refused e
  returned := (returned e).map CacheEntry.poolRevision

theorem withdrawal_floor_holds_trace : ∃ d store activate read,
    [d, store, activate, read].map floorView =
      [⟨some 7, [1], none, false, none⟩, ⟨none, [1], some 2, true, none⟩,
        ⟨none, [1], none, true, none⟩, ⟨none, [1], none, false, some 3⟩] ∧
    ∀ e ∈ [store, activate, read], FloorHolds withdrawalTrace d e := by
  have hviews : [18, 19, 20, 31].map (fun k => withdrawalTrace[k]?.map floorView) =
      [some ⟨some 7, [1], none, false, none⟩, some ⟨none, [1], some 2, true, none⟩,
        some ⟨none, [1], none, true, none⟩, some ⟨none, [1], none, false, some 3⟩] := by
    decide +kernel
  simp only [List.map_cons, List.map_nil, List.cons.injEq, Option.map_eq_some_iff] at hviews
  obtain ⟨⟨d, hd, hdv⟩, ⟨s, hs, hsv⟩, ⟨a, ha, hav⟩, ⟨r, hr, hrv⟩, -⟩ := hviews
  refine ⟨d, s, a, r, by rw [← hdv, ← hsv, ← hav, ← hrv]; rfl, fun e he => ?_⟩
  have hde : [d, e].Sublist withdrawalTrace := by
    simp only [List.mem_cons, List.not_mem_nil, or_false] at he
    rcases he with rfl | rfl | rfl
    · exact pair_of_getElem? (by decide) hd hs
    · exact pair_of_getElem? (by decide) hd ha
    · exact pair_of_getElem? (by decide) hd hr
  exact withdrawal_floor_holds (run_execute ..) (congrArg FloorView.deleted hdv) hde

end DeveSub
