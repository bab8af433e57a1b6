import Pybmpmon.Database.Interleaving

/-!
# What every run without errors keeps

How the suspended flushes, the committed COPYs and the applied updates belong
together in every state that is reached without a database error and without a
cancellation: each read is a beginning of its list, each loop has applied what is
behind it, and a COPY of the newest list still has its flush.
-/
namespace Pybmpmon.Database.Coherence

open Pybmpmon.Lib.Transition Pybmpmon.Python Pybmpmon.Models.Route
open Pybmpmon.Database.BatchWriter Pybmpmon.Database.Interleaving

/-- The batch is what was accepted since a flush last ran to its end, and no read runs ahead of
its list. -/
structure Sound (s : State) : Prop where
  unflushed : s.shared.unflushed = s.shared.writer.batch
  calm : ∀ f ∈ s.suspended, f.point ≠ .unwinding
  bounded : ∀ c ∈ reads s, c.list ≤ s.shared.current
  pending : ∀ f ∈ s.suspended, ∀ list ∈ pendingList f, list ≤ s.shared.current
  grows : ∀ c ∈ reads s, c.rows <+: s.shared.content c.list

/-- The flush is past the position in its loop over the list. -/
def Past (list : Nat) (f : Flush) (position : Nat) : Prop :=
  f.point = .releasing ∨ ∃ index, f.point = .updating list index ∧ position < index

/-- The state update at a position is applied exactly when the loop is past it. -/
structure Looping (s : State) : Prop where
  loops : ∀ f ∈ s.suspended, ∀ list index, f.point = .updating list index →
    list ≤ s.shared.current ∧ index < (s.shared.content list).length ∧
      ∀ i < index, (list, i) ∈ s.shared.applied
  appliedBy : ∀ a ∈ s.shared.applied, a.1 ≤ s.shared.current ∧
    (a.1 = s.shared.current → ∃ f ∈ s.suspended, Past s.shared.current f a.2)

/-- The flush has its COPY behind it. -/
def pastCopy (f : Flush) : Bool :=
  match f.point with
  | .updating _ _ | .releasing => true
  | _ => false

/-- The flush of a COPY of the newest list is in its loop over it, or has applied all of it. -/
def Follows (s : State) (c : Copy) (f : Flush) : Prop :=
  (∃ index, f.point = .updating s.shared.current index) ∨
    f.point = .releasing ∧ ∀ i < c.rows.length, (s.shared.current, i) ∈ s.shared.applied

/-- Each COPY of the newest list has a flush of its own under way. -/
structure Followed (s : State) : Prop where
  followed : ∀ c ∈ s.shared.copies, c.list = s.shared.current → ∃ f ∈ s.suspended, Follows s c f
  count : s.shared.copies.countP (fun c => c.list = s.shared.current) ≤ s.suspended.countP pastCopy

/-- The steps that are taken here. -/
def clean (_ : State) (a : Label) : Prop := a.isClean = true

/-- A flush that goes on and does not end. -/
theorem sound_go {before after : List Flush} {f f' : Flush} {shared shared' : Shared}
    (h : Sound ⟨shared, before ++ f :: after⟩) (holder : shared'.older = shared.older)
    (hwriter : shared'.writer = shared.writer) (hunflushed : shared'.unflushed = shared.unflushed)
    (hcalm : f'.point ≠ .unwinding)
    (hpending : ∀ list ∈ pendingList f', list ≤ shared.current)
    (hreads : ∀ c ∈ reads ⟨shared', before ++ f' :: after⟩,
      c ∈ reads ⟨shared, before ++ f :: after⟩ ∨
        c.list ≤ shared.current ∧ c.rows <+: shared.content c.list) :
    Sound ⟨shared', before ++ f' :: after⟩ := by
  have hcurrent := current_eq holder
  have hcontent := content_eq holder (congrArg Writer.batch hwriter)
  constructor
  · rw [hunflushed, hwriter]
    exact h.unflushed
  · intro g hg
    rcases mem_before_after.mp hg with rfl | hg
    · exact hcalm
    · exact h.calm g (mem_before_after.mpr (.inr hg))
  · intro c hc
    rw [hcurrent]
    rcases hreads c hc with hc | hc
    · exact h.bounded c hc
    · exact hc.1
  · intro g hg list hlist
    rw [hcurrent]
    rcases mem_before_after.mp hg with rfl | hg
    · exact hpending list hlist
    · exact h.pending g (mem_before_after.mpr (.inr hg)) list hlist
  · intro c hc
    rw [hcontent]
    rcases hreads c hc with hc | hc
    · exact h.grows c hc
    · exact hc.2

/-- The end of a flush without an error. -/
theorem sound_released {before after : List Flush} {f : Flush} {shared : Shared}
    (hf : f.point = .releasing) (h : Sound ⟨shared, before ++ f :: after⟩) (n : Nat) :
    Sound ⟨Shared.discard { shared with writer := shared.writer.countBatch n, unflushed := [] },
      before ++ after⟩ := by
  have hreads : reads ⟨Shared.discard { shared with
        writer := shared.writer.countBatch n, unflushed := [] }, before ++ after⟩ =
      reads ⟨shared, before ++ f :: after⟩ := by
    rw [reads_of_sent_nil (by rw [sent, hf])]
    rfl
  constructor
  · rfl
  · exact fun g hg => h.calm g (mem_before_after.mpr (.inr hg))
  · intro c hc
    rw [current_discard]
    exact Nat.le_succ_of_le (h.bounded c (hreads ▸ hc))
  · intro g hg list hlist
    rw [current_discard]
    exact Nat.le_succ_of_le (h.pending g (mem_before_after.mpr (.inr hg)) list hlist)
  · intro c hc
    rw [content_discard]
    exact h.grows c (hreads ▸ hc)

theorem iterate_ne_unwinding (s : Shared) (list index : Nat) : s.iterate list index ≠ .unwinding := by
  intro h
  rw [Shared.iterate] at h
  split at h <;> cases h

theorem sound_kept : Kept clean Sound where
  stopped := fun _ h => ⟨h.unflushed, h.calm, h.bounded, h.pending, h.grows⟩
  accepted := fun s n route now _ h => {
    unflushed := by
      show s.shared.unflushed ++ _ = s.shared.writer.batch ++ _
      rw [h.unflushed]
    calm := h.calm
    bounded := h.bounded
    pending := h.pending
    grows := fun c hc => (h.grows c hc).trans (content_accept s.shared c.list route now) }
  spawned := fun s f _ hf h => {
    unflushed := h.unflushed
    calm := by
      intro g hg
      rcases List.mem_append.mp hg with hg | hg
      · exact h.calm g hg
      · rw [List.mem_singleton.mp hg, hf]
        intro hpoint
        cases hpoint
    bounded := by
      rw [reads_spawn hf]
      exact h.bounded
    pending := by
      intro g hg list hlist
      rcases List.mem_append.mp hg with hg | hg
      · exact h.pending g hg list hlist
      · rw [List.mem_singleton.mp hg, pendingList, hf] at hlist
        cases hlist
    grows := by
      rw [reads_spawn hf]
      exact h.grows }
  acquired := fun shared before f after hf h => by
    refine sound_go h rfl rfl rfl (fun hpoint => by cases hpoint) ?_ fun c hc => .inl ?_
    · intro list hlist
      cases hlist
      exact Nat.le_refl _
    · rw [reads_of_sent_nil rfl] at hc
      rw [reads_of_sent_nil (by rw [sent, hf])]
      exact hc
  read := fun shared before f after list _ hf h => by
    have hlist : list ≤ shared.current :=
      h.pending f (mem_before_after.mpr (.inl rfl)) list (by rw [pendingList, hf]; rfl)
    refine sound_go h rfl rfl rfl (fun hpoint => by cases hpoint) (fun _ hnone => by cases hnone)
      fun c hc => ?_
    rcases List.mem_cons.mp ((reads_read hf shared before after _).mem_iff.mp hc) with rfl | hc
    · exact .inr ⟨hlist, List.prefix_rfl⟩
    · exact .inl hc
  copied := fun shared before f after list rows hf h => by
    refine sound_go h rfl rfl rfl (iterate_ne_unwinding _ _ _) ?_ fun c hc =>
      .inl ((reads_copied hf shared before after 0).mem_iff.mp hc)
    rw [pendingList_iterate]
    exact fun _ hnone => by cases hnone
  updated := fun shared before f after list index hf h => by
    refine sound_go h rfl rfl rfl (iterate_ne_unwinding _ _ _) ?_ fun c hc => .inl ?_
    · rw [pendingList_iterate]
      exact fun _ hnone => by cases hnone
    · rw [reads_of_sent_nil (sent_iterate f shared list _)] at hc
      rw [reads_of_sent_nil (by rw [sent, hf])]
      exact hc
  released := fun shared before f after _ hf h => sound_released hf h f.batchCount
  unwound := fun shared before f after _ hf h =>
    absurd hf (h.calm f (mem_before_after.mpr (.inl rfl)))

/-! ## The loops -/

/-- The position the loop goes on with is in its list. -/
theorem iterate_updating {s : Shared} {list index list' index' : Nat}
    (h : s.iterate list index = .updating list' index') :
    list' = list ∧ index' = index ∧ index < (s.content list).length := by
  rw [Shared.iterate] at h
  split at h
  · cases h
    exact ⟨rfl, rfl, ‹_›⟩
  · cases h

theorem iterate_cases (s : Shared) (list index : Nat) :
    s.iterate list index = .updating list index ∨
      s.iterate list index = .releasing ∧ (s.content list).length ≤ index := by
  rw [Shared.iterate]
  by_cases h : index < (s.content list).length
  · exact .inl (if_pos h)
  · exact .inr ⟨if_neg h, Nat.not_lt.mp h⟩

/-- A flush that goes on and does not end. -/
theorem looping_go {before after : List Flush} {f f' : Flush} {shared shared' : Shared}
    (h : Looping ⟨shared, before ++ f :: after⟩) (holder : shared'.older = shared.older)
    (hbatch : shared'.writer.batch = shared.writer.batch)
    (hmono : ∀ a ∈ shared.applied, a ∈ shared'.applied)
    (hloop : ∀ list index, f'.point = .updating list index → list ≤ shared.current ∧
      index < (shared.content list).length ∧ ∀ i < index, (list, i) ∈ shared'.applied)
    (hpast : ∀ position, Past shared.current f position → Past shared.current f' position)
    (hnew : ∀ a ∈ shared'.applied, a ∈ shared.applied ∨
      a.1 ≤ shared.current ∧ (a.1 = shared.current → Past shared.current f' a.2)) :
    Looping ⟨shared', before ++ f' :: after⟩ := by
  have hcurrent := current_eq holder
  have hcontent := content_eq holder hbatch
  constructor
  · intro g hg list index hpoint
    rw [hcurrent, hcontent]
    rcases mem_before_after.mp hg with rfl | hg
    · exact hloop list index hpoint
    · obtain ⟨hlist, hindex, happlied⟩ :=
        h.loops g (mem_before_after.mpr (.inr hg)) list index hpoint
      exact ⟨hlist, hindex, fun i hi => hmono _ (happlied i hi)⟩
  · intro a ha
    rw [hcurrent]
    rcases hnew a ha with ha | ⟨hle, hself⟩
    · obtain ⟨hle, hby⟩ := h.appliedBy a ha
      refine ⟨hle, fun heq => ?_⟩
      obtain ⟨g, hg, hgpast⟩ := hby heq
      rcases mem_before_after.mp hg with rfl | hg
      · exact ⟨f', mem_before_after.mpr (.inl rfl), hpast _ hgpast⟩
      · exact ⟨g, mem_before_after.mpr (.inr hg), hgpast⟩
    · exact ⟨hle, fun heq => ⟨f', mem_before_after.mpr (.inl rfl), hself heq⟩⟩

/-- The end of a flush: nothing has been applied for the list that begins. -/
theorem looping_discard {before after : List Flush} {f : Flush} {shared shared' : Shared}
    (h : Looping ⟨shared, before ++ f :: after⟩) (holder : shared'.older = shared.older)
    (hbatch : shared'.writer.batch = shared.writer.batch)
    (happlied : shared'.applied = shared.applied) :
    Looping ⟨shared'.discard, before ++ after⟩ := by
  have hcurrent : shared'.discard.current = shared.current + 1 := by
    rw [current_discard, current_eq holder]
  have hcontent : ∀ list, shared'.discard.content list = shared.content list := by
    intro list
    rw [content_discard, content_eq holder hbatch]
  constructor
  · intro g hg list index hpoint
    obtain ⟨hlist, hindex, hdone⟩ := h.loops g (mem_before_after.mpr (.inr hg)) list index hpoint
    rw [hcurrent, hcontent]
    exact ⟨Nat.le_succ_of_le hlist, hindex, fun i hi => happlied.symm ▸ hdone i hi⟩
  · intro a ha
    have hle := (h.appliedBy a (happlied ▸ ha)).1
    rw [hcurrent]
    exact ⟨Nat.le_succ_of_le hle, fun heq => absurd heq (Nat.ne_of_lt (Nat.lt_succ_of_le hle))⟩

theorem looping_kept : Kept clean Looping where
  stopped := fun _ h => ⟨h.loops, h.appliedBy⟩
  accepted := fun s n route now _ h => {
    loops := by
      intro f hf list index hpoint
      obtain ⟨hlist, hindex, happlied⟩ := h.loops f hf list index hpoint
      exact ⟨hlist, Nat.lt_of_lt_of_le hindex (content_accept s.shared list route now).length_le,
        happlied⟩
    appliedBy := h.appliedBy }
  spawned := fun s f _ hf h => {
    loops := by
      intro g hg list index hpoint
      rcases List.mem_append.mp hg with hg | hg
      · exact h.loops g hg list index hpoint
      · rw [List.mem_singleton.mp hg, hf] at hpoint
        cases hpoint
    appliedBy := by
      intro a ha
      obtain ⟨hlist, hby⟩ := h.appliedBy a ha
      refine ⟨hlist, fun hcurrent => ?_⟩
      obtain ⟨g, hg, hpoint⟩ := hby hcurrent
      exact ⟨g, List.mem_append_left _ hg, hpoint⟩ }
  acquired := fun shared before f after hf h =>
    looping_go h rfl rfl (fun _ => id) (fun _ _ hpoint => by cases hpoint) (by simp [Past, hf])
      fun _ => .inl
  read := fun shared before f after list _ hf h =>
    looping_go h rfl rfl (fun _ => id) (fun _ _ hpoint => by cases hpoint) (by simp [Past, hf])
      fun _ => .inl
  copied := fun shared before f after list rows hf h => by
    refine looping_go h rfl rfl (fun _ => id) ?_ (by simp [Past, hf]) fun _ => .inl
    intro list' index' hpoint
    obtain ⟨rfl, rfl, hlt⟩ := iterate_updating hpoint
    exact ⟨Nat.le_refl _, hlt, fun i hi => absurd hi (Nat.not_lt_zero i)⟩
  updated := fun shared before f after list index hf h => by
    obtain ⟨hlist, hindex, hdone⟩ :=
      h.loops f (mem_before_after.mpr (.inl rfl)) list index hf
    refine looping_go h rfl rfl (fun _ ha => List.mem_append_left _ ha) ?_ ?_ ?_
    · intro list' index' hpoint
      obtain ⟨rfl, rfl, hlt⟩ := iterate_updating hpoint
      refine ⟨hlist, hlt, fun i hi => ?_⟩
      rcases Nat.lt_or_eq_of_le (Nat.lt_succ_iff.mp hi) with hi | rfl
      · exact List.mem_append_left _ (hdone i hi)
      · exact List.mem_append_right _ (List.mem_singleton.mpr rfl)
    · rintro position (hpast | ⟨index', hpoint, hlt⟩)
      · rw [hf] at hpast
        cases hpast
      · rw [hf, Point.updating.injEq] at hpoint
        obtain ⟨hcurrent, hsame⟩ := hpoint
        rcases iterate_cases shared list (index + 1) with hnext | ⟨hnext, _⟩
        · exact .inr ⟨index + 1, hcurrent ▸ hnext, by omega⟩
        · exact .inl hnext
    · intro a ha
      rcases List.mem_append.mp ha with ha | ha
      · exact .inl ha
      · rw [List.mem_singleton.mp ha]
        refine .inr ⟨hlist, fun heq => ?_⟩
        simp only at heq
        subst heq
        rcases iterate_cases shared shared.current (index + 1) with hnext | ⟨hnext, _⟩
        · exact .inr ⟨index + 1, hnext, Nat.lt_succ_self _⟩
        · exact .inl hnext
  released := fun _ _ _ _ _ _ h => looping_discard h rfl rfl rfl
  unwound := fun _ _ _ _ _ _ h => looping_discard h rfl rfl rfl

/-! ## COPYs of the newest list -/

/-- Every COPY so far is of an older list than the one that begins. -/
theorem followed_discard {before after : List Flush} {shared shared' : Shared}
    (hbounded : ∀ c ∈ shared.copies, c.list ≤ shared.current)
    (holder : shared'.older = shared.older) (hcopies : shared'.copies = shared.copies) :
    Followed ⟨shared'.discard, before ++ after⟩ := by
  have hcurrent : shared'.discard.current = shared.current + 1 := by
    rw [current_discard, current_eq holder]
  have hnone : ∀ c ∈ shared'.discard.copies, c.list ≠ shared'.discard.current := by
    intro c hc
    have hle := hbounded c (hcopies ▸ hc)
    rw [hcurrent]
    omega
  constructor
  · exact fun c hc heq => absurd heq (hnone c hc)
  · rw [List.countP_eq_zero.mpr fun c hc => by simpa using hnone c hc]
    exact Nat.zero_le _

/-- A flush that goes on and commits no COPY. -/
theorem followed_go {before after : List Flush} {f f' : Flush} {shared shared' : Shared}
    (h : Followed ⟨shared, before ++ f :: after⟩) (holder : shared'.older = shared.older)
    (hcopies : shared'.copies = shared.copies) (hmono : ∀ a ∈ shared.applied, a ∈ shared'.applied)
    (hpast : pastCopy f = true → pastCopy f' = true)
    (hfollows : ∀ c ∈ shared.copies, c.list = shared.current →
      Follows ⟨shared, before ++ f :: after⟩ c f → Follows ⟨shared', before ++ f' :: after⟩ c f') :
    Followed ⟨shared', before ++ f' :: after⟩ := by
  have hcurrent := current_eq holder
  constructor
  · intro c hc heq
    rw [hcurrent] at heq
    obtain ⟨g, hg, hgc⟩ := h.followed c (hcopies ▸ hc) heq
    rcases mem_before_after.mp hg with rfl | hg
    · exact ⟨f', mem_before_after.mpr (.inl rfl), hfollows c (hcopies ▸ hc) heq hgc⟩
    · refine ⟨g, mem_before_after.mpr (.inr hg), ?_⟩
      rcases hgc with ⟨index, hpoint⟩ | ⟨hpoint, hdone⟩
      · exact .inl ⟨index, by rw [hcurrent]; exact hpoint⟩
      · exact .inr ⟨hpoint, fun i hi => by rw [hcurrent]; exact hmono _ (hdone i hi)⟩
  · have hcount := h.count
    have hle : (if pastCopy f = true then 1 else 0) ≤ (if pastCopy f' = true then 1 else 0) := by
      by_cases hf : pastCopy f = true
      · rw [if_pos hf, if_pos (hpast hf)]
      · rw [if_neg hf]
        exact Nat.zero_le _
    simp only [hcopies, hcurrent, List.countP_append, List.countP_cons] at hcount ⊢
    omega

/-- A COPY that commits: its flush is past it, and goes on over the newest list. -/
theorem followed_copied {before after : List Flush} {f : Flush} {shared : Shared} {list : Nat}
    {rows : List RouteTuple} (hf : f.point = .copying list (some rows))
    (hgrows : rows <+: shared.content list) (h : Followed ⟨shared, before ++ f :: after⟩) :
    Followed ⟨{ shared with copies := shared.copies ++ [⟨list, rows⟩] },
      before ++ { f with point := shared.iterate shared.current 0 } :: after⟩ := by
  have hpast : pastCopy { f with point := shared.iterate shared.current 0 } = true := by
    rcases iterate_cases shared shared.current 0 with hnext | ⟨hnext, _⟩ <;> rw [pastCopy, hnext]
  have hnot : pastCopy f = false := by rw [pastCopy, hf]
  constructor
  · intro c hc heq
    rcases List.mem_append.mp hc with hc | hc
    · obtain ⟨g, hg, hgc⟩ := h.followed c hc heq
      rcases mem_before_after.mp hg with rfl | hg
      · rcases hgc with ⟨index, hpoint⟩ | ⟨hpoint, _⟩ <;> rw [hf] at hpoint <;> cases hpoint
      · exact ⟨g, mem_before_after.mpr (.inr hg), hgc⟩
    · rw [List.mem_singleton.mp hc] at heq ⊢
      refine ⟨_, mem_before_after.mpr (.inl rfl), ?_⟩
      change list = shared.current at heq
      rcases iterate_cases shared shared.current 0 with hnext | ⟨hnext, hempty⟩
      · exact .inl ⟨0, hnext⟩
      · refine .inr ⟨hnext, fun i hi => ?_⟩
        have hlen := hgrows.length_le
        rw [heq] at hlen
        change i < rows.length at hi
        omega
  · have hcount := h.count
    have hcurrent : Shared.current { shared with copies := shared.copies ++ [⟨list, rows⟩] } =
        shared.current := rfl
    simp only [hcurrent, List.countP_append, List.countP_cons, List.countP_nil, hpast, hnot]
      at hcount ⊢
    split <;> simp_all <;> omega

/-- The loop goes on, or ends when the rows of the COPY are behind it. -/
theorem followed_updated {before after : List Flush} {f : Flush} {shared : Shared}
    {list index : Nat} (hf : f.point = .updating list index)
    (hsound : Sound ⟨shared, before ++ f :: after⟩)
    (hlooping : Looping ⟨shared, before ++ f :: after⟩)
    (h : Followed ⟨shared, before ++ f :: after⟩) :
    Followed ⟨{ shared with applied := shared.applied ++ [(list, index)] },
      before ++ { f with point := shared.iterate list (index + 1) } :: after⟩ := by
  obtain ⟨_, _, hdone⟩ := hlooping.loops f (mem_before_after.mpr (.inl rfl)) list index hf
  refine followed_go h rfl rfl (fun _ ha => List.mem_append_left _ ha) ?_ ?_
  · intro _
    rcases iterate_cases shared list (index + 1) with hnext | ⟨hnext, _⟩ <;> rw [pastCopy, hnext]
  · rintro c hc heq (⟨index', hpoint⟩ | ⟨hpoint, _⟩)
    · rw [hf, Point.updating.injEq] at hpoint
      obtain ⟨rfl, rfl⟩ := hpoint
      rcases iterate_cases shared shared.current (index + 1) with hnext | ⟨hnext, hend⟩
      · exact .inl ⟨index + 1, hnext⟩
      · refine .inr ⟨hnext, fun i hi => ?_⟩
        have hlen := (hsound.grows c (List.mem_append_left _ hc)).length_le
        rw [heq] at hlen
        have hle : i ≤ index :=
          Nat.lt_succ_iff.mp (Nat.lt_of_lt_of_le hi (Nat.le_trans hlen hend))
        rcases Nat.lt_or_eq_of_le hle with hlt | rfl
        · exact List.mem_append_left _ (hdone i hlt)
        · exact List.mem_append_right _ (List.mem_singleton.mpr rfl)
    · rw [hf] at hpoint
      cases hpoint

theorem followed_kept : Kept clean (fun s => Sound s ∧ Looping s ∧ Followed s) where
  stopped := fun s h => ⟨sound_kept.stopped s h.1, looping_kept.stopped s h.2.1,
    h.2.2.followed, h.2.2.count⟩
  accepted := fun s n route now hok h => ⟨sound_kept.accepted s n route now hok h.1,
    looping_kept.accepted s n route now hok h.2.1, h.2.2.followed, h.2.2.count⟩
  spawned := fun s f hfree hf h => ⟨sound_kept.spawned s f hfree hf h.1,
    looping_kept.spawned s f hfree hf h.2.1, {
      followed := by
        intro c hc heq
        obtain ⟨g, hg, hgc⟩ := h.2.2.followed c hc heq
        exact ⟨g, List.mem_append_left _ hg, hgc⟩
      count := by
        show s.shared.copies.countP _ ≤ (s.suspended ++ [f]).countP pastCopy
        rw [List.countP_append]
        exact Nat.le_trans h.2.2.count (Nat.le_add_right _ _) }⟩
  acquired := fun shared before f after hf h =>
    ⟨sound_kept.acquired shared before f after hf h.1,
      looping_kept.acquired shared before f after hf h.2.1,
      followed_go h.2.2 rfl rfl (fun _ => id) (by simp [pastCopy, hf]) (by simp [Follows, hf])⟩
  read := fun shared before f after list hok hf h =>
    ⟨sound_kept.read shared before f after list hok hf h.1,
      looping_kept.read shared before f after list hok hf h.2.1,
      followed_go h.2.2 rfl rfl (fun _ => id) (by simp [pastCopy, hf]) (by simp [Follows, hf])⟩
  copied := fun shared before f after list rows hf h =>
    ⟨sound_kept.copied shared before f after list rows hf h.1,
      looping_kept.copied shared before f after list rows hf h.2.1,
      followed_copied hf (h.1.grows ⟨list, rows⟩ ((reads_split shared before f after).mem_iff.mpr
        (List.mem_append_left _ (by rw [sent, hf]; exact List.mem_singleton.mpr rfl)))) h.2.2⟩
  updated := fun shared before f after list index hf h =>
    ⟨sound_kept.updated shared before f after list index hf h.1,
      looping_kept.updated shared before f after list index hf h.2.1,
      followed_updated hf h.1 h.2.1 h.2.2⟩
  released := fun shared before f after hok hf h =>
    ⟨sound_kept.released shared before f after hok hf h.1,
      looping_kept.released shared before f after hok hf h.2.1,
      followed_discard (fun c hc => h.1.bounded c (List.mem_append_left _ hc)) rfl rfl⟩
  unwound := fun shared before f after hok hf h =>
    ⟨sound_kept.unwound shared before f after hok hf h.1,
      looping_kept.unwound shared before f after hok hf h.2.1,
      followed_discard (fun c hc => h.1.bounded c (List.mem_append_left _ hc)) rfl rfl⟩

/-! ## One flush for each task -/

def Distinct (s : State) : Prop := (s.suspended.map Flush.task).Nodup

theorem distinct_go {before after : List Flush} {f f' : Flush} {shared shared' : Shared}
    (htask : f'.task = f.task) (h : Distinct ⟨shared, before ++ f :: after⟩) :
    Distinct ⟨shared', before ++ f' :: after⟩ := by
  simp only [Distinct, List.map_append, List.map_cons, htask] at h ⊢
  exact h

theorem distinct_end {before after : List Flush} {f : Flush} {shared shared' : Shared}
    (h : Distinct ⟨shared, before ++ f :: after⟩) : Distinct ⟨shared', before ++ after⟩ :=
  h.sublist ((List.Sublist.append_left (List.sublist_cons_self f after) before).map Flush.task)

theorem distinct_kept : Kept clean Distinct where
  stopped := fun _ h => h
  accepted := fun _ _ _ _ _ h => h
  spawned := fun s f hfree _ h => by
    have hnew : f.task ∉ s.suspended.map Flush.task := by
      intro hmem
      obtain ⟨g, hg, htask⟩ := List.mem_map.mp hmem
      have hbusy : busy f.task s = true := List.any_eq_true.mpr ⟨g, hg, beq_iff_eq.mpr htask⟩
      rw [hfree] at hbusy
      cases hbusy
    show ((s.suspended ++ [f]).map Flush.task).Nodup
    rw [List.map_append, List.map_singleton, ← List.concat_eq_append]
    exact h.concat hnew
  acquired := fun _ _ f _ _ h => distinct_go (f := f) rfl h
  read := fun _ _ f _ _ _ _ h => distinct_go (f := f) rfl h
  copied := fun _ _ f _ _ _ _ h => distinct_go (f := f) rfl h
  updated := fun _ _ f _ _ _ _ h => distinct_go (f := f) rfl h
  released := fun _ _ _ _ _ _ h => distinct_end h
  unwound := fun _ _ _ _ _ _ h => distinct_end h

/-- With one task at most, there is one flush at most. -/
theorem distinct_single {s : State} {task : Task} (h : Distinct s)
    (htask : ∀ f ∈ s.suspended, f.task = task) : s.suspended = [] ∨ ∃ f, s.suspended = [f] := by
  match hs : s.suspended with
  | [] => exact .inl rfl
  | [f] => exact .inr ⟨f, rfl⟩
  | f :: g :: rest =>
    rw [Distinct, hs] at h
    have hf := htask f (by simp [hs])
    have hg := htask g (by simp [hs])
    simp [hf, hg] at h

/-! ## Every state that is reached -/

structure Coherent (s : State) : Prop where
  sound : Sound s
  looping : Looping s
  followed : Followed s
  distinct : Distinct s

theorem coherent_initial (batchSize : Nat) (batchTimeout : Timestamp) :
    Coherent (initial batchSize batchTimeout) := by
  have hflush : ∀ f, f ∉ (initial batchSize batchTimeout).suspended := fun _ => List.not_mem_nil
  have hread : ∀ c, c ∉ reads (initial batchSize batchTimeout) := fun _ => List.not_mem_nil
  have hcopy : ∀ c, c ∉ (initial batchSize batchTimeout).shared.copies := fun _ => List.not_mem_nil
  have happlied : ∀ a, a ∉ (initial batchSize batchTimeout).shared.applied :=
    fun _ => List.not_mem_nil
  constructor
  · exact ⟨rfl, fun f hf => absurd hf (hflush f), fun c hc => absurd hc (hread c),
      fun f hf => absurd hf (hflush f), fun c hc => absurd hc (hread c)⟩
  · exact ⟨fun f hf => absurd hf (hflush f), fun a ha => absurd ha (happlied a)⟩
  · exact ⟨fun c hc => absurd hc (hcopy c), Nat.le_refl 0⟩
  · exact List.nodup_nil

/-- Every state that is reached without a database error and without a cancellation. -/
theorem coherent_of_reachable {batchSize : Nat} {batchTimeout : Timestamp} {s : State}
    (h : Reachable step (initial batchSize batchTimeout) (fun a => a.isClean = true) s) :
    Coherent s := by
  have hclean : ∀ s a, clean s a → a.isClean = true := fun _ _ => id
  have hkept := reachable_keeps (p := fun s => (Sound s ∧ Looping s ∧ Followed s) ∧ Distinct s)
    (fun s a s' ha hstep hs => ⟨step_keeps hclean followed_kept s a s' ha hstep hs.1,
      step_keeps hclean distinct_kept s a s' ha hstep hs.2⟩) ?_ h
  · exact ⟨hkept.1.1, hkept.1.2.1, hkept.1.2.2, hkept.2⟩
  · have hinitial := coherent_initial batchSize batchTimeout
    exact ⟨⟨hinitial.sound, hinitial.looping, hinitial.followed⟩, hinitial.distinct⟩

end Pybmpmon.Database.Coherence
