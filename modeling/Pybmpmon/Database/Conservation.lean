import Pybmpmon.Lib.Fold
import Pybmpmon.Database.Interleaving

/-!
# No route lost and none written twice

Every COPY reads one list, and a list may go on growing, be read again or be thrown
away before it is read. In a run in which none of this happens to rows, each list that
ever held a route is read by exactly one COPY, in full.
-/
namespace Pybmpmon.Database.Conservation

open Pybmpmon.Lib.Fold Pybmpmon.Lib.Transition Pybmpmon.Python Pybmpmon.Models.Route
open Pybmpmon.Database.BatchWriter Pybmpmon.Database.Interleaving

/-- The flush ends when it goes on. -/
def ends (f : Flush) : Bool :=
  match f.point with
  | .releasing | .unwinding => true
  | _ => false

/-- A COPY has read rows from the list. -/
def RowsRead (s : State) (list : Nat) : Prop := ∃ c ∈ reads s, c.list = list ∧ c.rows ≠ []

/-- A COPY was passed the list and has still to read it. -/
def WillBeRead (s : State) (list : Nat) : Prop := ∃ f ∈ s.suspended, pendingList f = some list

/-- The steps that disturb no rows: a route is added while no COPY has read rows of the batch;
a COPY reads rows that none has read before; and a flush that ends throws away no rows
that no COPY has read or will read. There is no error and no cancellation. -/
def Undisturbed (s : State) : Label → Prop
  | .addRoute _ _ _ => ¬ RowsRead s s.shared.current
  | .read k => ∀ f ∈ s.suspended[k]?, ∀ list ∈ pendingList f,
      s.shared.content list = [] ∨ ¬ RowsRead s list
  | .resume k => ∀ f ∈ s.suspended[k]?, ends f = true →
      s.shared.writer.batch = [] ∨ RowsRead s s.shared.current ∨ WillBeRead s s.shared.current
  | .fail _ | .cancel _ _ => False
  | .timer _ | .flush _ | .stop => True

instance (s : State) (list : Nat) : Decidable (RowsRead s list) :=
  inferInstanceAs (Decidable (∃ c ∈ reads s, c.list = list ∧ c.rows ≠ []))

instance (s : State) (list : Nat) : Decidable (WillBeRead s list) :=
  inferInstanceAs (Decidable (∃ f ∈ s.suspended, pendingList f = some list))

instance (s : State) : (a : Label) → Decidable (Undisturbed s a)
  | .addRoute _ _ _ => inferInstanceAs (Decidable (¬ RowsRead s s.shared.current))
  | .read k => inferInstanceAs (Decidable (∀ f ∈ s.suspended[k]?, ∀ list ∈ pendingList f,
      s.shared.content list = [] ∨ ¬ RowsRead s list))
  | .resume k => inferInstanceAs (Decidable (∀ f ∈ s.suspended[k]?, ends f = true →
      s.shared.writer.batch = [] ∨ RowsRead s s.shared.current ∨
        WillBeRead s s.shared.current))
  | .fail _ | .cancel _ _ => inferInstanceAs (Decidable False)
  | .timer _ | .flush _ | .stop => inferInstanceAs (Decidable True)

/-- The lists that rows were read from, once for each COPY that read some. -/
def listsRead (s : State) : List Nat := ((reads s).filter fun c => c.rows ≠ []).map Copy.list

structure Conserved (s : State) : Prop where
  accepted : s.shared.accepted = (s.shared.older ++ [s.shared.writer.batch]).flatten
  exact : ∀ c ∈ reads s, c.rows ≠ [] → c.rows = s.shared.content c.list
  once : (listsRead s).Nodup
  covered : ∀ list < s.shared.current, s.shared.content list ≠ [] →
    RowsRead s list ∨ WillBeRead s list

theorem mem_listsRead {s : State} {list : Nat} : list ∈ listsRead s ↔ RowsRead s list := by
  simp only [listsRead, RowsRead, List.mem_map, List.mem_filter, decide_eq_true_eq]
  constructor
  · rintro ⟨c, ⟨hc, hne⟩, hlist⟩
    exact ⟨c, hc, hlist, hne⟩
  · rintro ⟨c, hc, hlist, hne⟩
    exact ⟨c, ⟨hc, hne⟩, hlist⟩

theorem undisturbed_clean {s : State} {a : Label} (h : Undisturbed s a) : a.isClean = true := by
  cases a with
  | fail k => cases h
  | cancel k landed => cases h
  | _ => rfl

/-! ## What a step does to the reads -/

theorem rowsRead_perm {s s' : State} (h : (reads s').Perm (reads s)) (list : Nat) :
    RowsRead s' list ↔ RowsRead s list :=
  exists_congr fun _ => and_congr_left' h.mem_iff

theorem listsRead_perm {s s' : State} (h : (reads s').Perm (reads s)) :
    (listsRead s').Perm (listsRead s) := (h.filter _).map _

/-- What will be read is still there when another flush has gone on. -/
theorem willBeRead_of_mem {s s' : State}
    (h : ∀ f ∈ s.suspended, pendingList f ≠ none → f ∈ s'.suspended) {list : Nat}
    (hlist : WillBeRead s list) : WillBeRead s' list := by
  obtain ⟨f, hf, hpending⟩ := hlist
  exact ⟨f, h f hf (by rw [hpending]; nofun), hpending⟩

theorem mem_of_pending {before after : List Flush} {f : Flush} (next : Option Flush)
    (hf : pendingList f = none) :
    ∀ g ∈ before ++ f :: after, pendingList g ≠ none → g ∈ before ++ (next.toList ++ after) := by
  intro g hg hpending
  rcases mem_before_after.mp hg with rfl | hg
  · exact absurd hf hpending
  · exact mem_next.mpr (.inr hg)

/-- A step that moves a read from one place to another, or none, and leaves the lists. -/
theorem conserved_of_perm {s s' : State} (hreads : (reads s').Perm (reads s))
    (hcontent : ∀ list, s'.shared.content list = s.shared.content list)
    (haccepted : s'.shared.accepted = (s'.shared.older ++ [s'.shared.writer.batch]).flatten)
    (hcovered : ∀ list < s'.shared.current, s.shared.content list ≠ [] →
      RowsRead s list ∨ WillBeRead s list)
    (hpending : ∀ list, WillBeRead s list → WillBeRead s' list) (h : Conserved s) :
    Conserved s' := by
  constructor
  · exact haccepted
  · intro c hc hne
    rw [hcontent]
    exact h.exact c (hreads.mem_iff.mp hc) hne
  · exact (listsRead_perm hreads).nodup_iff.mpr h.once
  · intro list hlt hne
    rw [hcontent] at hne
    rcases hcovered list hlt hne with hread | hpend
    · exact .inl ((rowsRead_perm hreads list).mpr hread)
    · exact .inr (hpending list hpend)

/-! ## Each step conserves -/

theorem conserved_accept {s : State} {route : RouteUpdate} {now : Timestamp}
    (hfresh : ¬ RowsRead s s.shared.current) (h : Conserved s) :
    Conserved ⟨s.shared.accept route now, s.suspended⟩ := by
  constructor
  · show s.shared.accepted ++ [routeTuple route] =
      (s.shared.older ++ [s.shared.writer.batch ++ [routeTuple route]]).flatten
    rw [h.accepted]
    simp
  · intro c hc hne
    have hlist : c.list ≠ s.shared.current := fun heq => hfresh ⟨c, hc, heq, hne⟩
    rw [content_accept_of_ne hlist]
    exact h.exact c hc hne
  · exact h.once
  · intro list hlt hne
    have hlist : list ≠ s.shared.current := Nat.ne_of_lt hlt
    rw [content_accept_of_ne hlist] at hne
    exact h.covered list hlt hne

theorem conserved_spawn {s : State} {f : Flush} (hf : f.point = .acquiring) (h : Conserved s) :
    Conserved (s.spawn f) := by
  refine conserved_of_perm (s := s) (by rw [reads_spawn hf]) (fun _ => rfl) h.accepted h.covered
    (fun _ => willBeRead_of_mem fun g hg _ => List.mem_append_left _ hg) h

/-- A flush that goes on, neither ends nor reads. -/
theorem conserved_go {before after : List Flush} {f f' : Flush} {shared shared' : Shared}
    (h : Conserved ⟨shared, before ++ f :: after⟩) (hpending : pendingList f = none)
    (holder : shared'.older = shared.older)
    (hbatch : shared'.writer.batch = shared.writer.batch)
    (haccepted : shared'.accepted = shared.accepted)
    (hreads : (reads ⟨shared', before ++ f' :: after⟩).Perm
      (reads ⟨shared, before ++ f :: after⟩)) :
    Conserved ⟨shared', before ++ f' :: after⟩ := by
  refine conserved_of_perm (s := ⟨shared, before ++ f :: after⟩) hreads ?_ ?_ ?_
    (fun _ => willBeRead_of_mem (mem_of_pending (some f') hpending)) h
  · exact content_eq holder hbatch
  · rw [haccepted, holder, hbatch]
    exact h.accepted
  · rw [Shared.current, holder]
    exact h.covered

/-- The end of a flush, which throws the batch away. -/
theorem conserved_discard {before after : List Flush} {f : Flush} {shared shared' : Shared}
    (h : Conserved ⟨shared, before ++ f :: after⟩)
    (hok : Undisturbed ⟨shared, before ++ f :: after⟩ (.resume before.length))
    (hf : ends f = true) (holder : shared'.older = shared.older)
    (hbatch : shared'.writer.batch = shared.writer.batch)
    (haccepted : shared'.accepted = shared.accepted) (hcopies : shared'.copies = shared.copies) :
    Conserved ⟨shared'.discard, before ++ after⟩ := by
  have hread := hok f (by simp) hf
  have hpending : pendingList f = none := by
    rw [ends] at hf
    rw [pendingList]
    split at hf <;> simp_all
  have hsent : sent f = [] := by
    rw [ends] at hf
    rw [sent]
    split at hf <;> simp_all
  have hreads : reads ⟨shared'.discard, before ++ after⟩ = reads ⟨shared, before ++ f :: after⟩ := by
    rw [reads_of_sent_nil hsent, reads, reads, ← hcopies]
    rfl
  refine conserved_of_perm (s := ⟨shared, before ++ f :: after⟩) (by rw [hreads]) ?_ ?_ ?_
    (fun _ => willBeRead_of_mem (mem_of_pending none hpending)) h
  · intro list
    rw [content_discard, content_eq holder hbatch]
  · show shared'.accepted = ((shared'.older ++ [shared'.writer.batch]) ++ [[]]).flatten
    rw [haccepted, holder, hbatch, h.accepted]
    simp
  · intro list hlt hne
    rw [current_discard, current_eq holder] at hlt
    rcases Nat.lt_or_eq_of_le (Nat.lt_succ_iff.mp hlt) with hlt | rfl
    · exact h.covered list hlt hne
    · have hbatch' : shared.writer.batch ≠ [] := by
        rwa [← content_current]
      exact hread.resolve_left hbatch'

theorem conserved_read {before after : List Flush} {f : Flush} {shared : Shared} {list : Nat}
    (hok : Undisturbed ⟨shared, before ++ f :: after⟩ (.read before.length))
    (hf : f.point = .copying list none) (h : Conserved ⟨shared, before ++ f :: after⟩) :
    Conserved ⟨shared,
      before ++ { f with point := .copying list (some (shared.content list)) } :: after⟩ := by
  have hpending : pendingList f = some list := by rw [pendingList, hf]
  have hread : shared.content list = [] ∨ ¬ RowsRead ⟨shared, before ++ f :: after⟩ list :=
    hok f (by simp) list hpending
  have hreads := reads_read hf shared before after (shared.content list)
  constructor
  · exact h.accepted
  · intro c hc hne
    rcases List.mem_cons.mp (hreads.mem_iff.mp hc) with rfl | hc
    · rfl
    · exact h.exact c hc hne
  · have hlists := (hreads.filter fun c => c.rows ≠ []).map Copy.list
    apply hlists.nodup_iff.mpr
    by_cases hempty : shared.content list = []
    · rw [List.filter_cons_of_neg (by simp [hempty])]
      exact h.once
    · have hfresh := hread.resolve_left hempty
      rw [List.filter_cons_of_pos (by simp [hempty]), List.map_cons, List.nodup_cons]
      exact ⟨fun hmem => hfresh (mem_listsRead.mp hmem), h.once⟩
  · intro older hlt hne
    by_cases heq : older = list
    · subst heq
      exact .inl ⟨_, hreads.mem_iff.mpr List.mem_cons_self, rfl, hne⟩
    · rcases h.covered older hlt hne with ⟨c, hc, hlist, hrows⟩ | ⟨g, hg, holder⟩
      · exact .inl ⟨c, hreads.mem_iff.mpr (List.mem_cons_of_mem _ hc), hlist, hrows⟩
      · refine .inr ⟨g, ?_, holder⟩
        rcases mem_before_after.mp hg with rfl | hg
        · rw [hpending, Option.some_inj] at holder
          exact absurd holder.symm heq
        · exact mem_before_after.mpr (.inr hg)

/-- Every undisturbed step conserves. -/
theorem conserved_kept : Kept Undisturbed Conserved where
  stopped := fun _ h => ⟨h.accepted, h.exact, h.once, h.covered⟩
  accepted := fun _ _ _ _ hok h => conserved_accept hok h
  spawned := fun _ _ _ hf h => conserved_spawn hf h
  acquired := fun shared before f after hf h => by
    apply conserved_go h (by rw [pendingList, hf]) rfl rfl rfl
    rw [reads_of_sent_nil rfl, reads_of_sent_nil (by rw [sent, hf])]
  read := fun _ _ _ _ _ hok hf h => conserved_read hok hf h
  copied := fun shared before f after list rows hf h =>
    conserved_go h (by rw [pendingList, hf]) rfl rfl rfl (reads_copied hf shared before after 0)
  updated := fun shared before f after list index hf h => by
    refine conserved_go h (by rw [pendingList, hf]) rfl rfl rfl ?_
    rw [reads_of_sent_nil (sent_iterate f shared list _), reads_of_sent_nil (by rw [sent, hf])]
    exact List.Perm.refl _
  released := fun _ _ _ _ hok hf h => conserved_discard h hok (by rw [ends, hf]) rfl rfl rfl rfl
  unwound := fun _ _ _ _ hok hf h => conserved_discard h hok (by rw [ends, hf]) rfl rfl rfl rfl

theorem conserved_initial (batchSize : Nat) (batchTimeout : Timestamp) :
    Conserved (initial batchSize batchTimeout) := by
  constructor
  · rfl
  · intro c hc
    cases hc
  · exact List.nodup_nil
  · intro list hlt
    cases hlt

/-! ## Whole runs -/

/-- The rows of `route_updates`. -/
def rowsWritten (s : State) : List RouteTuple := s.shared.copies.flatMap Copy.rows

/-- With no flush under way and the batch empty, everything accepted has been written once. -/
theorem written_of_conserved {s : State} (h : Conserved s) (hquiet : s.suspended = [])
    (hempty : s.shared.writer.batch = []) : (rowsWritten s).Perm s.shared.accepted := by
  have hreads : reads s = s.shared.copies := by
    rw [reads, hquiet, List.flatMap_nil, List.append_nil]
  have hrows : rowsWritten s = (listsRead s).flatMap s.shared.content := by
    rw [rowsWritten, ← flatMap_filter_ne_nil, listsRead, hreads, List.flatMap_map]
    refine List.flatMap_congr fun c hc => ?_
    obtain ⟨hc, hne⟩ := List.mem_filter.mp hc
    exact h.exact c (hreads ▸ hc) (of_decide_eq_true hne)
  rw [hrows, h.accepted]
  refine flatMap_perm_flatten h.once ?_ ?_
  · intro list hlist
    obtain ⟨c, hc, rfl, hne⟩ := mem_listsRead.mp hlist
    have hcontent := h.exact c hc hne
    rw [hcontent] at hne
    exact hne
  · intro list hlt hne
    rw [List.length_append, List.length_singleton] at hlt
    rcases Nat.lt_or_eq_of_le (Nat.lt_succ_iff.mp hlt) with hlt | rfl
    · rcases h.covered list hlt hne with hread | ⟨f, hf, _⟩
      · exact mem_listsRead.mpr hread
      · rw [hquiet] at hf
        cases hf
    · have hcurrent := content_current s.shared
      exact absurd (hcurrent.trans hempty) hne

/-- In every run whose steps disturb no rows, `route_updates` holds each accepted route exactly
once whenever no flush is under way and the batch is empty. -/
theorem each_route_written_once {batchSize : Nat} {batchTimeout : Timestamp} {labels : List Label}
    {s : State} (hok : Throughout step Undisturbed (initial batchSize batchTimeout) labels)
    (hrun : run step (initial batchSize batchTimeout) labels = some s)
    (hquiet : s.suspended = []) (hempty : s.shared.writer.batch = []) :
    (rowsWritten s).Perm s.shared.accepted :=
  written_of_conserved (run_keeps (step_keeps (fun _ _ => undisturbed_clean) conserved_kept) hok hrun
    (conserved_initial _ _)) hquiet hempty

/-- A timed flush of one route; another is added while the flush waits for its connection, or
during the COPY. -/
def timedFlush (duringCopy : Bool) : List Label :=
  [.addRoute 0 (sampleRoute 10) 0, .timer 500] ++
    (if duringCopy then [.resume 0, .read 0, .addRoute 1 (sampleRoute 11) 500]
      else [.addRoute 1 (sampleRoute 11) 500, .resume 0, .read 0]) ++
    [.resume 0, .resume 0, .resume 0, .resume 0]

theorem each_route_written_once_two :
    ∃ s, run step (initial 1000 500) (timedFlush false) = some s ∧
      (rowsWritten s).Perm s.shared.accepted :=
  ⟨_, rfl, @each_route_written_once 1000 500 (timedFlush false) _ (by decide) rfl (by decide)
    (by decide)⟩

/-- A route added during the COPY is accepted, the batch is emptied, and the route is not in
`route_updates`. -/
theorem route_lost_during_copy :
    ∃ s, (∀ a ∈ timedFlush true, a.isClean = true) ∧
      run step (initial 1000 500) (timedFlush true) = some s ∧
      s.suspended = [] ∧ s.shared.writer.batch = [] ∧
      s.shared.accepted = [routeTuple (sampleRoute 10), routeTuple (sampleRoute 11)] ∧
      rowsWritten s = [routeTuple (sampleRoute 10)] ∧ ¬ (rowsWritten s).Perm s.shared.accepted :=
  ⟨_, by decide, rfl, by decide, by decide, by decide, by decide,
    fun hperm => by cases hperm.length_eq⟩

end Pybmpmon.Database.Conservation
