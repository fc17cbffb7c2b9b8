/-
  File:      DeveSub/Properties/PoolListing.lean
  Subject:   The listing of active nodes by pages, while the pool moves.

  Every page is a query of its own, past the last id of the page before. Between two pages nodes
  may come, go and change, so the pages are no snapshot of the pool. What holds all the same:

  * `listPages_ran` -- by induction on the pages;
  * **`pages_cover`** -- no node is listed twice, every node that is listed was active when its
    page was read, and a node that was active all the time is listed;
  * **`same_revision_same_answer`** -- where the revision stands still, so does every answer.
-/
import DeveSub.Application.PoolEvolution
import DeveSub.Application.Selection

namespace DeveSub

open NodePool

/-! ## 1. One page -/

variable {db : Db} {filter : NodeFilter} {cursor : Option NodeId}

/-- The entries a page is taken from. -/
def listing (db : Db) (filter : NodeFilter) (cursor : Option NodeId) : List NodePoolEntry :=
  ((entries db).filter (visible filter cursor)).insertionSort fun a b => a.node.id ≤ b.node.id

theorem mem_listing {e : NodePoolEntry} :
    e ∈ listing db filter cursor ↔ e ∈ entries db ∧ visible filter cursor e = true := by
  rw [listing, List.mem_insertionSort, List.mem_filter]

/-- Ids are distinct, so the order is strict. -/
theorem pairwise_listing :
    (listing db filter cursor).Pairwise fun a b => a.node.id < b.node.id := by
  have hle : (listing db filter cursor).Pairwise fun a b => a.node.id ≤ b.node.id :=
    List.pairwise_insertionSort _ _
  have hids : ((entries db).map fun e => e.node.id).Nodup := by
    rw [entries, List.map_map]
    exact db.nodes.unique
  have hne : ((listing db filter cursor).map fun e => e.node.id).Nodup :=
    ((List.perm_insertionSort _ _).map _).nodup_iff.2 (hids.sublist (List.filter_sublist.map _))
  exact hle.imp₂ (fun a b hab hne => lt_of_le_of_ne hab hne) (List.pairwise_map.1 hne)

/-- The cursor is one more condition. -/
theorem visible_iff {e : NodePoolEntry} : visible filter cursor e = true ↔
    visible filter none e = true ∧ ∀ c ∈ cursor, c < e.node.id := by
  cases cursor <;> simp [visible]

/-- A page ends where the rest of the listing goes on. -/
theorem page_last {n : Nat} {page : List NodePoolEntry} {last : NodePoolEntry}
    (hpage : page = (listing db filter cursor).take n) (hlast : page.getLast? = some last) :
    (page.Pairwise fun a b => a.node.id < b.node.id) ∧ (∀ e ∈ page, e.node.id ≤ last.node.id) ∧
      ∀ e ∈ listing db filter cursor, e ∈ page ∨ last.node.id < e.node.id := by
  have hsplit := List.take_append_drop n (listing db filter cursor)
  have hsorted := hsplit ▸ pairwise_listing
  rw [← hpage] at hsplit hsorted
  obtain ⟨hinner, -, houter⟩ := List.pairwise_append.1 hsorted
  obtain ⟨init, rfl⟩ := List.getLast?_eq_some_iff.1 hlast
  refine ⟨hinner, fun e he => ?_, fun e he => ?_⟩
  · rcases List.mem_append.1 he with he | he
    · exact ((List.pairwise_append.1 hinner).2.2 e he last List.mem_cons_self).le
    · rw [List.mem_singleton.1 he]
  · rw [← hsplit] at he
    exact (List.mem_append.1 he).imp_right (houter last (by simp) e)

/-! ## 2. The pages -/

/-- There is fuel for every id past the cursor. -/
def Fuelled (fuel : Nat) (cursor : Option NodeId) : Prop :=
  2 ^ 128 < fuel + cursor.elim 0 fun c => c.val + 1

theorem Fuelled.next {fuel : Nat} {id : NodeId} (h : Fuelled (fuel + 1) cursor)
    (hid : ∀ c ∈ cursor, c < id) : Fuelled fuel (some id) := by
  cases cursor with
  | none => simp only [Fuelled, Option.elim_none, Option.elim_some] at h ⊢; omega
  | some c =>
    have hlt : c.val < id.val := hid c rfl
    simp only [Fuelled, Option.elim_some] at h ⊢
    omega

theorem not_fuelled_zero : ¬ Fuelled 0 cursor := by
  cases cursor with
  | none => simp [Fuelled]
  | some c =>
    have hc := c.isLt
    simp only [Fuelled, Option.elim_some]
    omega

/-- What the entries from a cursor on are worth, when query `q` was answered on `D q`. -/
structure Covers (D : NodePool.Query → Db) (filter : NodeFilter) (cursor : Option NodeId)
    (h : History QueryReply) (l : List NodePoolEntry) : Prop where
  increasing : l.Pairwise fun a b => a.node.id < b.node.id
  seen : ∀ e ∈ l, visible filter cursor e = true ∧ ∃ x ∈ h, e ∈ entries (D x.1)
  complete : ∀ id, (∀ c ∈ cursor, c < id) →
    (∀ x ∈ h, ∃ e ∈ entries (D x.1), e.node.id = id ∧ visible filter none e = true) →
    ∃ e ∈ l, e.node.id = id

/-- **The pages from a cursor on**, by induction on the pages that are left. -/
theorem listPages_ran {D : NodePool.Query → Db} {fuel : Nat} {h h' : History QueryReply}
    {l : List NodePoolEntry} (hfuel : Fuelled fuel cursor)
    (hran : (listPages filter fuel cursor).Ran h h' l)
    (hread : ∀ x ∈ h', x.2 = answer (entries (D x.1)) x.1) : Covers D filter cursor h' l := by
  induction fuel generalizing cursor h l with
  | zero => exact absurd hfuel not_fuelled_zero
  | succ fuel ih =>
    obtain ⟨page, hran⟩ := hran
    dsimp only [Program.bind] at hran
    cases hlast : page.getLast? with
    | none =>
      rw [hlast] at hran
      obtain ⟨rfl, rfl⟩ := hran
      refine ⟨.nil, fun e he => absurd he List.not_mem_nil, fun id hid hall => ?_⟩
      -- an empty page ends the listing: nothing is left past the cursor
      obtain ⟨e, he, rfl, hany⟩ := hall _ List.mem_cons_self
      have hmem := mem_listing.2 ⟨he, visible_iff.2 ⟨hany, hid⟩⟩
      have hpage : page = (listing _ filter cursor).take 1000 := hread _ List.mem_cons_self
      rw [List.getLast?_eq_none_iff.1 hlast, eq_comm, List.take_eq_nil_iff] at hpage
      rw [hpage.resolve_left (by decide)] at hmem
      cases hmem
    | some last =>
      rw [hlast] at hran
      obtain ⟨h₁, rest, hrest, rfl, rfl⟩ := Program.Ran.bind hran
      have hfirst := hrest.subset List.mem_cons_self
      have hpage : page = (listing _ filter cursor).take 1000 := hread _ hfirst
      obtain ⟨hinner, hmax, hbeyond⟩ := page_last hpage hlast
      have hfrom : ∀ e ∈ page, e ∈ entries _ ∧ visible filter cursor e = true := fun e he =>
        mem_listing.1 (List.mem_of_mem_take (hpage ▸ he))
      have hstep := (visible_iff.1 (hfrom last (List.mem_of_getLast? hlast)).2).2
      obtain ⟨hincreasing, hseen, hcomplete⟩ := ih (hfuel.next hstep) hrest
      constructor
      case increasing =>
        refine List.pairwise_append.2 ⟨hinner, hincreasing, fun a ha b hb => ?_⟩
        exact (hmax a ha).trans_lt ((visible_iff.1 (hseen b hb).1).2 _ rfl)
      case seen =>
        intro e he
        rcases List.mem_append.1 he with he | he
        · exact ⟨(hfrom e he).2, _, hfirst, (hfrom e he).1⟩
        · obtain ⟨hvisible, hread⟩ := hseen e he
          obtain ⟨hany, hlt⟩ := visible_iff.1 hvisible
          exact ⟨visible_iff.2 ⟨hany, fun c hc => (hstep c hc).trans (hlt _ rfl)⟩, hread⟩
      case complete =>
        intro id hid hall
        by_cases hlt : last.node.id < id
        · obtain ⟨e, he, heq⟩ := hcomplete id (fun c hc => Option.some.inj hc ▸ hlt) hall
          exact ⟨e, List.mem_append_right _ he, heq⟩
        · obtain ⟨e, he, rfl, hany⟩ := hall _ hfirst
          have hin := hbeyond e (mem_listing.2 ⟨he, visible_iff.2 ⟨hany, hid⟩⟩)
          exact ⟨e, List.mem_append_left _ (hin.resolve_right hlt), rfl⟩

/-- **What the pages are worth while the pool moves.** However the pool changes between the
    pages of a listing, no node is listed twice, a node that is listed was active and not missing
    when its page was read, and a node that was so at every page is listed. -/
theorem pages_cover {D : NodePool.Query → Db} {h : History QueryReply} {l : List NodePoolEntry}
    (hran : listActiveNodes.Ran [] h l) (hread : ∀ x ∈ h, x.2 = answer (entries (D x.1)) x.1) :
    Covers D .activeOnly none h l :=
  listPages_ran (by simp [Fuelled]) hran hread

/-- A pool with one node, which is gone when the second page is read. -/
def vanishing : NodePool.Query → Db
  | .listNodes _ none _ => { Db.empty with nodes := ⟨[newRow (.plain 5) [] []], by simp⟩ }
  | _ => Db.empty

theorem pages_cover_vanishing : ∃ h l, l.length = 1 ∧ Covers vanishing .activeOnly none h l := by
  refine ⟨[⟨.listNodes .activeOnly (some 5) 1000, []⟩, ⟨.listNodes .activeOnly none 1000, _⟩], _,
    rfl, pages_cover ⟨entries (vanishing (.listNodes .activeOnly none 1000)), [], rfl, rfl⟩ ?_⟩
  exact List.forall_mem_cons.2 ⟨rfl, List.forall_mem_singleton.2 rfl⟩

/-! ## 3. Revisions -/

/-- **One revision, one pool.** In every run of any programs neither the revision nor the floor
    falls, and a query that is asked twice under one revision is answered alike. -/
theorem same_revision_same_answer {W : World} {ι ρ : Type} [DecidableEq ι]
    {start c : Config Call.Reply Db ι ρ} {es : Trace ι}
    (h : Run (ports W) start es c) {d e : CallEvent ι} (hde : [d, e].Sublist es) :
    d.after.revision ≤ e.before.revision ∧ d.after.floor ≤ e.before.floor ∧
      ∀ q a b, d.Is (.pool q) (.ok a) → e.Is (.pool q) (.ok b) →
        d.before.revision = e.before.revision → a = b := by
  have hadv := h.between Advance.refl (fun _ _ _ => Advance.trans) (fun _ _ _ _ => ports_advance) hde
  refine ⟨hadv.revision_le, hadv.floor_le, fun q a b hd he hrev => ?_⟩
  have hfirst := h.sem_of_is (hde.subset List.mem_cons_self) hd
  have hsecond := h.sem_of_is (hde.subset (List.mem_cons_of_mem _ List.mem_cons_self)) he
  rw [Reads.value hfirst, Reads.value hsecond, hadv.entries_eq (by rw [hfirst.2, hrev]), hfirst.2]

def firstPage : NodePool.Query := .listNodes .activeOnly none 1000

/-- One program imports a node, adds a tag and imports another node; the other asks for the first
    page after each of these. -/
def askedPrograms : Bool → Program Call.Reply Unit
  | false => do
    let _ ← Program.perform (.write (.importNodes [.plain 5]))
    let _ ← Program.perform (.write (.createTag 9 "fast" none))
    let _ ← Program.perform (.write (.importNodes [.plain 6]))
    pure ()
  | true => do
    let _ ← Program.perform (.pool firstPage)
    let _ ← Program.perform (.pool firstPage)
    let _ ← Program.perform (.pool firstPage)
    pure ()

def askedRun : Trace Bool × Config Call.Reply Db Bool Unit :=
  Config.exec ⟨Db.empty, askedPrograms⟩ (([false, true, false, true, false, true].map fun i =>
    (i, Outside.plain 0)).map fun t => t.2.turn t.1)

-- The tag keeps the revision and the answer; the second node raises the revision.
theorem same_revision_same_answer_tagged : ∃ d e f, ∃ (page later : List NodePoolEntry),
    [d, e].Sublist askedRun.1 ∧ [e, f].Sublist askedRun.1 ∧
    d.before.tags.rows.length = 0 ∧ e.before.tags.rows.length = 1 ∧
    d.Is (.pool firstPage) (.ok page) ∧ e.Is (.pool firstPage) (.ok page) ∧
    page.map (·.node.id) = [5] ∧ e.before.revision < f.before.revision ∧
    f.Is (.pool firstPage) (.ok later) ∧ later.map (·.node.id) = [5, 6] := by
  obtain ⟨d, e, f, a, b, c, hd, he, hf, hrev, htags, hpage, his⟩ : ∃ d e f,
      ∃ (a b c : List NodePoolEntry),
      askedRun.1[1]? = some d ∧ askedRun.1[3]? = some e ∧ askedRun.1[5]? = some f ∧
      (d.before.revision = e.before.revision ∧ e.before.revision < f.before.revision) ∧
      (d.before.tags.rows.length = 0 ∧ e.before.tags.rows.length = 1) ∧
      (a.map (·.node.id) = [5] ∧ c.map (·.node.id) = [5, 6]) ∧
      d.Is (.pool firstPage) (.ok a) ∧ e.Is (.pool firstPage) (.ok b) ∧
      f.Is (.pool firstPage) (.ok c) :=
    ⟨_, _, _, _, _, _, rfl, rfl, rfl, ⟨rfl, by decide⟩, ⟨rfl, rfl⟩, ⟨rfl, rfl⟩, rfl, rfl, rfl⟩
  have hrun : Run (ports World.plain) _ askedRun.1 askedRun.2 := run_turns ..
  have hde := pair_of_getElem? (by decide) hd he
  obtain rfl := (same_revision_same_answer hrun hde).2.2 _ a b his.1 his.2.1 hrev.1
  exact ⟨d, e, f, a, c, hde, pair_of_getElem? (by decide) he hf, htags.1, htags.2, his.1, his.2.1,
    hpage.1, hrev.2, his.2.2, hpage.2⟩

end DeveSub
