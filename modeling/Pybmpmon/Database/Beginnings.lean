import Mathlib.Data.List.Flatten
import Pybmpmon.Database.Conservation

/-!
# What every run of the batch writer keeps

Whatever overlaps, fails or is cancelled: the accepted routes are the lists one after
the other that `self.batch` has been, and what a COPY reads is a beginning of one of
them. A list may be read more than once, and not to its end. While no COPY reads rows
of a list that another has read, nothing is written twice.
-/
namespace Pybmpmon.Database.Beginnings

open Pybmpmon.Lib.Fold Pybmpmon.Lib.Transition Pybmpmon.Models.Route
open Pybmpmon.Database.BatchWriter Pybmpmon.Database.Interleaving Pybmpmon.Database.Conservation

structure Begins (s : State) : Prop where
  accepted : s.shared.accepted = (s.shared.older ++ [s.shared.writer.batch]).flatten
  begins : ∀ c ∈ reads s, c.rows <+: s.shared.content c.list

/-! ## Errors and cancellations -/

/-- The lists, what was accepted, and the COPYs are the same. -/
structure SameLists (shared shared' : Shared) : Prop where
  older : shared'.older = shared.older
  batch : shared'.writer.batch = shared.writer.batch
  accepted : shared'.accepted = shared.accepted
  copies : shared'.copies = shared.copies

theorem SameLists.refl (shared : Shared) : SameLists shared shared := ⟨rfl, rfl, rfl, rfl⟩

/-- An error or a cancellation ends a flush that has no COPY under way, or the flush gives up what it was
at and unwinds. -/
theorem interrupted {s s' : State} {a : Label} (ha : a.isClean = false) (hstep : step s a = some s') :
    ∃ before f after shared, s.suspended = before ++ f :: after ∧ SameLists s.shared shared ∧
      (s' = ⟨shared.discard, before ++ after⟩ ∧ sent f = [] ∨
        s' = ⟨shared, before ++ { f with point := .unwinding } :: after⟩) := by
  cases a with
  | fail k =>
    obtain ⟨before, f, after, shared, next, hs, _, hnext, rfl⟩ := go_split hstep
    refine ⟨before, f, after, s.shared, hs, .refl _, ?_⟩
    cases hpoint : f.point with
    | acquiring =>
      simp only [fail, hpoint] at hnext
      cases hnext
      exact .inl ⟨rfl, by rw [sent, hpoint]⟩
    | copying list rows =>
      simp only [fail, hpoint] at hnext
      cases hnext
      exact .inr rfl
    | updating list index =>
      simp only [fail, hpoint] at hnext
      cases hnext
      exact .inr rfl
    | _ => simp [fail, hpoint] at hnext
  | cancel k landed =>
    obtain ⟨before, f, after, shared, next, hs, _, hnext, rfl⟩ := go_split hstep
    cases hpoint : f.point with
    | copying list rows =>
      simp only [cancel, hpoint] at hnext
      cases hnext
      exact ⟨before, f, after, s.shared, hs, .refl _, .inr rfl⟩
    | updating list index =>
      simp only [cancel, hpoint] at hnext
      cases hnext
      refine ⟨before, f, after, _, hs, ?_, .inr rfl⟩
      cases landed <;> exact ⟨rfl, rfl, rfl, rfl⟩
    | _ =>
      simp only [cancel, hpoint] at hnext
      cases hnext
      exact ⟨before, f, after, s.shared, hs, .refl _, .inl ⟨rfl, by rw [sent, hpoint]⟩⟩
  | _ => cases ha

/-- What is read of a flush that unwinds is given up. -/
theorem reads_unwinding (f : Flush) (shared : Shared) (before after : List Flush) :
    (reads ⟨shared, before ++ { f with point := .unwinding } :: after⟩).Sublist
      (reads ⟨shared, before ++ f :: after⟩) := by
  have hsent : sent { f with point := .unwinding } = [] := rfl
  rw [reads_of_sent_nil hsent, reads, reads]
  refine List.Sublist.append_left (List.Sublist.flatMap ?_ sent) _
  exact List.Sublist.append_left (List.sublist_cons_self f after) before

theorem reads_same {shared shared' : Shared} (h : shared'.copies = shared.copies) (suspended : List Flush) :
    reads ⟨shared', suspended⟩ = reads ⟨shared, suspended⟩ := by
  rw [reads, reads, h]

/-- An interrupted flush reads nothing more, and its lists are what they were. -/
theorem interrupted_reads {s s' : State} {a : Label} (ha : a.isClean = false) (hstep : step s a = some s') :
    (reads s').Sublist (reads s) ∧ (∀ list, s'.shared.content list = s.shared.content list) ∧
      s'.shared.accepted = s.shared.accepted ∧
      (s'.shared.older ++ [s'.shared.writer.batch]).flatten =
        (s.shared.older ++ [s.shared.writer.batch]).flatten := by
  obtain ⟨before, f, after, shared, hs, hsame, ⟨rfl, hsent⟩ | rfl⟩ := interrupted ha hstep
  · refine ⟨?_, ?_, hsame.accepted, ?_⟩
    · have hstate : s = ⟨s.shared, before ++ f :: after⟩ := by rw [← hs]
      have hreads : reads ⟨shared.discard, before ++ after⟩ = reads ⟨s.shared, before ++ after⟩ :=
        reads_same hsame.copies _
      rw [hstate, reads_of_sent_nil hsent, hreads]
    · intro list
      exact (content_discard shared list).trans (content_eq hsame.older hsame.batch list)
    · simp only [Shared.discard, Writer.clear, hsame.older, hsame.batch]
      simp
  · refine ⟨?_, content_eq hsame.older hsame.batch, hsame.accepted, ?_⟩
    · have hstate : s = ⟨s.shared, before ++ f :: after⟩ := by rw [← hs]
      rw [hstate, reads_same hsame.copies]
      exact reads_unwinding f s.shared before after
    · rw [hsame.older, hsame.batch]

/-! ## Each step keeps the beginnings -/

theorem begins_of_reads {s s' : State} (h : Begins s)
    (haccepted : s'.shared.accepted = (s'.shared.older ++ [s'.shared.writer.batch]).flatten)
    (hcontent : ∀ list, s.shared.content list <+: s'.shared.content list)
    (hreads : ∀ c ∈ reads s', c ∈ reads s ∨ c.rows <+: s.shared.content c.list) : Begins s' where
  accepted := haccepted
  begins := fun c hc => by
    rcases hreads c hc with hc | hc
    · exact (h.begins c hc).trans (hcontent c.list)
    · exact hc.trans (hcontent c.list)

/-- A step that changes no list. -/
theorem begins_same {s s' : State} (h : Begins s)
    (hcontent : ∀ list, s'.shared.content list = s.shared.content list)
    (haccepted : s'.shared.accepted = s.shared.accepted)
    (hlists : (s'.shared.older ++ [s'.shared.writer.batch]).flatten =
      (s.shared.older ++ [s.shared.writer.batch]).flatten)
    (hreads : ∀ c ∈ reads s', c ∈ reads s ∨ c.rows <+: s.shared.content c.list) : Begins s' :=
  begins_of_reads h (by rw [haccepted, hlists, h.accepted])
    (fun list => (hcontent list).symm ▸ List.prefix_rfl) hreads

theorem flatten_discard (shared : Shared) :
    (shared.discard.older ++ [shared.discard.writer.batch]).flatten =
      (shared.older ++ [shared.writer.batch]).flatten := by
  simp [Shared.discard, Writer.clear]

theorem begins_kept : Kept (fun _ a => a.isClean = true) Begins where
  stopped := fun s h => begins_same h (fun _ => rfl) rfl rfl fun c hc => .inl hc
  accepted := fun s n route now _ h => by
    refine begins_of_reads h ?_ (fun list => content_accept s.shared list route now) fun c hc => .inl hc
    show s.shared.accepted ++ [routeTuple route] =
      (s.shared.older ++ [s.shared.writer.batch ++ [routeTuple route]]).flatten
    rw [h.accepted]
    simp
  spawned := fun s f _ hf h => by
    refine begins_same h (fun _ => rfl) rfl rfl fun c hc => .inl ?_
    rwa [reads_spawn hf] at hc
  acquired := fun shared before f after hf h => by
    refine begins_same h (fun _ => rfl) rfl rfl fun c hc => .inl ?_
    rwa [reads_of_sent_nil rfl, ← reads_of_sent_nil (f := f) (by rw [sent, hf])] at hc
  read := fun shared before f after list _ hf h => by
    refine begins_same h (fun _ => rfl) rfl rfl fun c hc => ?_
    rcases List.mem_cons.mp ((reads_read hf shared before after _).mem_iff.mp hc) with rfl | hc
    · exact .inr List.prefix_rfl
    · exact .inl hc
  copied := fun shared before f after list rows hf h => by
    refine begins_same h (fun _ => rfl) rfl rfl fun c hc => .inl ?_
    exact (reads_copied hf shared before after 0).mem_iff.mp hc
  updated := fun shared before f after list index hf h => by
    refine begins_same h (fun _ => rfl) rfl rfl fun c hc => .inl ?_
    rw [reads_of_sent_nil (sent_iterate f shared list (index + 1))] at hc
    rwa [reads_of_sent_nil (by rw [sent, hf])]
  released := fun shared before f after _ hf h => by
    refine begins_same h (fun list => content_discard _ list) rfl (flatten_discard _) fun c hc => .inl ?_
    rwa [reads_of_sent_nil (by rw [sent, hf])]
  unwound := fun shared before f after _ hf h => by
    refine begins_same h (fun list => content_discard _ list) rfl (flatten_discard _) fun c hc => .inl ?_
    rwa [reads_of_sent_nil (by rw [sent, hf])]

theorem begins_step {s s' : State} {a : Label} (hstep : step s a = some s') (h : Begins s) : Begins s' := by
  by_cases ha : a.isClean = true
  · exact step_keeps (fun _ _ => id) begins_kept s a s' ha hstep h
  · obtain ⟨hreads, hcontent, haccepted, hlists⟩ := interrupted_reads (Bool.eq_false_iff.mpr ha) hstep
    exact begins_same h hcontent haccepted hlists fun c hc => .inl (hreads.subset hc)

theorem begins_initial (batchSize : Nat) (batchTimeout : Timestamp) :
    Begins (initial batchSize batchTimeout) :=
  ⟨rfl, fun c hc => by cases hc⟩

/-! ## No list read twice -/

/-- A COPY reads rows only of a list that no COPY has read rows of and not failed. -/
def ReadsFresh (s : State) : Label → Prop
  | .read k => ∀ f ∈ s.suspended[k]?, ∀ list ∈ pendingList f, s.shared.content list = [] ∨ ¬RowsRead s list
  | _ => True

instance (s : State) : (a : Label) → Decidable (ReadsFresh s a)
  | .read k => inferInstanceAs (Decidable (∀ f ∈ s.suspended[k]?, ∀ list ∈ pendingList f,
      s.shared.content list = [] ∨ ¬RowsRead s list))
  | .addRoute _ _ _ | .timer _ | .flush _ | .stop | .resume _ | .fail _ | .cancel _ _ =>
      inferInstanceAs (Decidable True)

def ReadOnce (s : State) : Prop := (listsRead s).Nodup

theorem readOnce_of_reads {s s' : State} (h : ReadOnce s) (hreads : (reads s').Perm (reads s)) :
    ReadOnce s' :=
  (listsRead_perm hreads).nodup_iff.mpr h

theorem readOnce_kept : Kept (fun s a => a.isClean = true ∧ ReadsFresh s a) ReadOnce where
  stopped := fun _ h => h
  accepted := fun _ _ _ _ _ h => h
  spawned := fun s f _ hf h => readOnce_of_reads h (by rw [reads_spawn hf])
  acquired := fun shared before f after hf h => by
    apply readOnce_of_reads h
    rw [reads_of_sent_nil rfl, reads_of_sent_nil (by rw [sent, hf])]
  read := fun shared before f after list hok hf h => by
    have hpending : pendingList f = some list := by rw [pendingList, hf]
    have hread : shared.content list = [] ∨ ¬RowsRead ⟨shared, before ++ f :: after⟩ list :=
      hok.2 f (by simp) list hpending
    have hlists := ((reads_read hf shared before after (shared.content list)).filter fun c =>
      c.rows ≠ []).map Copy.list
    apply hlists.nodup_iff.mpr
    by_cases hempty : shared.content list = []
    · rw [List.filter_cons_of_neg (by simp [hempty])]
      exact h
    · have hfresh := hread.resolve_left hempty
      rw [List.filter_cons_of_pos (by simp [hempty]), List.map_cons, List.nodup_cons]
      exact ⟨fun hmem => hfresh (mem_listsRead.mp hmem), h⟩
  copied := fun shared before f after list rows hf h =>
    readOnce_of_reads h (reads_copied hf shared before after 0)
  updated := fun shared before f after list index hf h => by
    apply readOnce_of_reads h
    rw [reads_of_sent_nil (sent_iterate f shared list _), reads_of_sent_nil (by rw [sent, hf])]
    exact List.Perm.refl _
  released := fun shared before f after _ hf h => by
    apply readOnce_of_reads h
    rw [reads_of_sent_nil (f := f) (by rw [sent, hf])]
    exact List.Perm.refl _
  unwound := fun shared before f after _ hf h => by
    apply readOnce_of_reads h
    rw [reads_of_sent_nil (f := f) (by rw [sent, hf])]
    exact List.Perm.refl _

theorem readOnce_step {s s' : State} {a : Label} (hfresh : ReadsFresh s a) (hstep : step s a = some s')
    (h : ReadOnce s) : ReadOnce s' := by
  by_cases ha : a.isClean = true
  · exact step_keeps (fun _ _ hok => hok.1) readOnce_kept s a s' ⟨ha, hfresh⟩ hstep h
  · obtain ⟨hreads, _⟩ := interrupted_reads (Bool.eq_false_iff.mpr ha) hstep
    exact ((hreads.filter _).map _).nodup h

/-- Then nothing is written that was not accepted, and nothing more often. -/
theorem written_subperm {s : State} (h : Begins s) (honce : ReadOnce s) :
    (rowsWritten s).Subperm s.shared.accepted := by
  let written := s.shared.copies.filter fun c => c.rows ≠ []
  have hmem : ∀ c ∈ written, c ∈ reads s ∧ c.rows ≠ [] := by
    intro c hc
    obtain ⟨hc, hne⟩ := List.mem_filter.mp hc
    exact ⟨List.mem_append_left _ hc, of_decide_eq_true hne⟩
  have hrows : rowsWritten s = written.flatMap Copy.rows := (flatMap_filter_ne_nil _).symm
  have hbegins : (written.flatMap Copy.rows).Sublist ((written.map Copy.list).flatMap s.shared.content) := by
    rw [List.flatMap_map]
    exact List.Sublist.flatMap_right written fun c hc => (h.begins c (hmem c hc).1).sublist
  have hnodup : (written.map Copy.list).Nodup := by
    have hsub : written.Sublist ((reads s).filter fun c => c.rows ≠ []) :=
      (List.sublist_append_left s.shared.copies _).filter _
    exact (hsub.map Copy.list).nodup honce
  rw [hrows, h.accepted]
  refine hbegins.subperm.trans (flatMap_subperm_flatten hnodup ?_)
  intro list hlist
  obtain ⟨c, hc, rfl⟩ := List.mem_map.mp hlist
  obtain ⟨hread, hne⟩ := hmem c hc
  rw [List.length_append, List.length_singleton, Nat.lt_succ_iff]
  by_contra hbeyond
  have hnone := h.begins c hread
  rw [content_beyond (Nat.lt_of_not_le hbeyond), List.prefix_nil] at hnone
  exact hne hnone

end Pybmpmon.Database.Beginnings
