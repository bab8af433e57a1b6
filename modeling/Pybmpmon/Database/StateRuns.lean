import Pybmpmon.Database.ManyCalls

/-!
# `route_state` over whole runs

Calls of every family and with any prefix, one after another, a call that fails among
them. What every row says of its route after any of them; that calls which confirm what
the rows say move nothing but the time a route was last seen; when none fails; and that
the order of calls for different routes does not matter.
-/
namespace Pybmpmon.Database.StateRuns

open Pybmpmon.Lib.KeyedTable Pybmpmon.Lib.Outcome Pybmpmon.Python Pybmpmon.Models.Route
open Pybmpmon.Database.RouteState Pybmpmon.Database.StateTable Pybmpmon.Database.StateHistory
open Pybmpmon.Database.StateRows Pybmpmon.Database.ManyCalls

/-! ## Every row -/

/-- The counters of a row take turns, the one that counted last says whether the route stands, and
neither they nor the sum of them have left their type. -/
structure TakesTurns (r : StateRow) : Prop where
  standing : r.isWithdrawn = false → r.learnCount = r.withdrawCount ∨ r.learnCount = r.withdrawCount + 1
  withdrawn : r.isWithdrawn = true → r.withdrawCount = r.learnCount ∨ r.withdrawCount = r.learnCount + 1
  counted : 1 ≤ r.learnCount + r.withdrawCount
  limit : r.learnCount + r.withdrawCount ≤ 2147483647

theorem takesTurns_newRow (p : StateCall) : TakesTurns (newRow p) := by
  constructor <;> cases hp : p.isWithdrawn <;> simp [newRow, hp]

theorem takesTurns_update {p : StateCall} {r r' : StateRow} (h : TakesTurns r)
    (hupdate : updateRow p r = .ok r') : TakesTurns r' := by
  have hroom := writeRow_room hupdate
  obtain ⟨_, _, _, _, rfl, _⟩ := writeRow_ok hupdate
  obtain ⟨hstanding, hwithdrawn, hcounted, _⟩ := h
  constructor
  · cases hr : r.isWithdrawn <;> cases hp : p.isWithdrawn <;> simp [touched, hr, hp] at * <;> omega
  · cases hr : r.isWithdrawn <;> cases hp : p.isWithdrawn <;> simp [touched, hr, hp] at * <;> omega
  · simp only [touched]
    omega
  · exact hroom

/-- The times of a row are times of its calls, in the order of their names. -/
structure Timed (calls : List StateCall) (r : StateRow) : Prop where
  first : r.firstSeen ≤ r.lastStateChange
  change : r.lastStateChange ≤ r.lastSeen
  seen : r.lastSeen ∈ calls.map StateCall.time

theorem Timed.mono {calls : List StateCall} {r : StateRow} (h : Timed calls r) (p : StateCall) :
    Timed (calls ++ [p]) r := by
  refine ⟨h.first, h.change, ?_⟩
  rw [List.map_append]
  exact List.mem_append_left _ h.seen

theorem timed_update {calls : List StateCall} {p : StateCall} {r r' : StateRow} (h : Timed calls r)
    (hlater : ∀ q ∈ calls, q.time ≤ p.time) (hupdate : updateRow p r = .ok r') :
    Timed (calls ++ [p]) r' := by
  obtain ⟨_, _, _, _, rfl, _⟩ := writeRow_ok hupdate
  obtain ⟨q, hq, hseen⟩ := List.mem_map.mp h.seen
  have hnow : r.lastSeen ≤ p.time := by
    rw [← hseen]
    exact hlater q hq
  refine ⟨?_, ?_, by simp [touched]⟩
  · simp only [touched]
    split
    · exact Int.le_trans h.first (Int.le_trans h.change hnow)
    · exact h.first
  · simp only [touched]
    split
    · exact Int.le_refl _
    · exact Int.le_trans h.change hnow

/-- What a call leaves of the rows: those that were there, one that is new or one that is updated. -/
theorem rows_applyCall {holds holds' : StateRow → Prop} {p : StateCall} {t : Table}
    (hnodup : IndexedNodup t) (hkept : ∀ r, holds r → holds' r) (hnew : holds' (newRow p))
    (hupdate : ∀ r r', holds r → updateRow p r = .ok r' → holds' r') (ht : ∀ r ∈ t, holds r) :
    ∀ r ∈ applyCall t p, holds' r := by
  intro x hx
  rcases call_cases hnodup p with ⟨hinsert, _⟩ |
    ⟨_, a, r, b, rfl, _, ⟨r', hwritten, hok⟩ | ⟨d, _, herror⟩⟩
  · rw [applyCall, hinsert] at hx
    rcases List.mem_append.mp hx with hx | hx
    · exact hkept x (ht x hx)
    · rw [List.mem_singleton.mp hx]
      exact hnew
  · rw [applyCall, hok] at hx
    rcases List.mem_append.mp hx with hx | hx
    · exact hkept x (ht x (List.mem_append_left _ hx))
    · rcases List.mem_cons.mp hx with rfl | hx
      · exact hupdate r x (ht r (by simp)) hwritten
      · exact hkept x (ht x (List.mem_append_right _ (List.mem_cons_of_mem _ hx)))
  · rw [applyCall, herror] at hx
    exact hkept x (ht x hx)

theorem rows_take_turns (calls : List StateCall) : ∀ r ∈ tableAfter calls, TakesTurns r := by
  induction calls using List.reverseRecOn with
  | nil => exact fun r hr => absurd hr List.not_mem_nil
  | append_singleton calls p ih =>
    rw [tableAfter_concat]
    exact rows_applyCall (kept_tableAfter calls).nodup (fun _ h => h) (takesTurns_newRow p)
      (fun _ _ => takesTurns_update) ih

theorem rows_timed {calls : List StateCall} (hsorted : calls.Pairwise fun p q => p.time ≤ q.time) :
    ∀ r ∈ tableAfter calls, Timed calls r := by
  induction calls using List.reverseRecOn with
  | nil => exact fun r hr => absurd hr List.not_mem_nil
  | append_singleton calls p ih =>
    obtain ⟨hbefore, _, hlater⟩ := List.pairwise_append.mp hsorted
    have hlast : ∀ q ∈ calls, q.time ≤ p.time := fun q hq => hlater q hq p List.mem_cons_self
    rw [tableAfter_concat]
    exact rows_applyCall (kept_tableAfter calls).nodup (fun _ h => h.mono p)
      ⟨Int.le_refl _, Int.le_refl _, by simp [newRow]⟩ (fun _ _ h => timed_update h hlast) (ih hbefore)

/-- After any calls the counters of every row have taken turns and say whether its route stands; and
its times are in order when the calls come in the order of their times. -/
theorem rows_consistent (calls : List StateCall) :
    (∀ r ∈ tableAfter calls, TakesTurns r) ∧
      ((calls.Pairwise fun p q => p.time ≤ q.time) → ∀ r ∈ tableAfter calls, Timed calls r) :=
  ⟨rows_take_turns calls, rows_timed⟩

theorem rows_consistent_flap :
    (∀ r ∈ tableAfter (flaps 2), TakesTurns r) ∧
      ((flaps 2).Pairwise (fun p q => p.time ≤ q.time) ∧ ∀ r ∈ tableAfter (flaps 2), Timed (flaps 2) r) := by
  have hsorted : (flaps 2).Pairwise fun p q => p.time ≤ q.time := by decide
  exact ⟨(rows_consistent (flaps 2)).1, hsorted, (rows_consistent (flaps 2)).2 hsorted⟩

/-! ## Calls that confirm what the rows say -/

/-- The call says of a route what its row says. -/
def Confirms (t : Table) (q : StateCall) : Prop :=
  Indexed q.family q.prefixCidr ∧ ∃ r ∈ t, rowKey r = callKey q ∧ r.isWithdrawn = q.isWithdrawn

/-- The columns of a row that count changes: all but when it was last seen and its attributes. -/
structure Changes where
  key : RouteKey
  firstSeen : Timestamp
  lastStateChange : Timestamp
  isWithdrawn : Bool
  learnCount : Nat
  withdrawCount : Nat
  deriving DecidableEq, Repr

def changes (r : StateRow) : Changes :=
  ⟨rowKey r, r.firstSeen, r.lastStateChange, r.isWithdrawn, r.learnCount, r.withdrawCount⟩

/-- A call that confirms its row succeeds and moves none of these columns. -/
theorem confirms_step {t : Table} {q : StateCall} (hnodup : IndexedNodup t)
    (hturns : ∀ r ∈ t, TakesTurns r) (h : Confirms t q) :
    ∃ t', updateRouteState q t = .ok t' ∧ t'.map changes = t.map changes := by
  obtain ⟨hindexed, x, hx, hxkey, hflag⟩ := h
  have hq : indexedCall q = true := decide_eq_true hindexed
  have hsame : ∀ r ∈ t, rowKey r = callKey q → r.isWithdrawn = q.isWithdrawn := by
    intro r hr hkey
    rw [row_unique hnodup hq hx hr hxkey hkey]
    exact hflag
  rcases call_cases hnodup q with ⟨_, hfresh⟩ | ⟨_, a, r, b, rfl, hr, hcase⟩
  · exact absurd hxkey (hfresh hq x hx)
  · have hflag := hsame r (by simp) hr
    have hturn := hturns r (by simp)
    rcases hcase with ⟨r', hwritten, hok⟩ | ⟨d, herror, _⟩
    · refine ⟨_, hok, ?_⟩
      have hkey := (writeRow_key hr hwritten).trans hr.symm
      obtain ⟨_, _, _, _, rfl, _⟩ := writeRow_ok hwritten
      simp only [List.map_append, List.map_cons]
      congr 2
      rw [changes, hkey, changes]
      simp [touched, hflag]
    · have hroom : churn (touched q (r.isWithdrawn != q.isWithdrawn) r) ≤ 2147483647 := by
        rw [churn_touched, if_pos hflag]
        exact hturn.limit
      obtain ⟨r', hwritten⟩ := writeRow_fits hroom
      have hupdate : updateRow q r = .ok r' := hwritten
      rw [herror] at hupdate
      cases hupdate

theorem confirms_after {t t' : Table} {q : StateCall} (hsame : t'.map changes = t.map changes)
    (h : Confirms t q) : Confirms t' q := by
  obtain ⟨hindexed, r, hr, hkey, hflag⟩ := h
  have hmem : changes r ∈ t'.map changes := by
    rw [hsame]
    exact List.mem_map_of_mem hr
  obtain ⟨r', hr', hchanges⟩ := List.mem_map.mp hmem
  have hkey' := congrArg Changes.key hchanges
  have hflag' := congrArg Changes.isWithdrawn hchanges
  exact ⟨hindexed, r', hr', hkey'.trans hkey, hflag'.trans hflag⟩

/-- A router that sends its table again, after a new connection or a refresh: calls that confirm what
the rows say all succeed, and no row is added or removed, counts a change or changes a time but the
last one. -/
theorem sent_again (calls again : List StateCall)
    (h : ∀ q ∈ again, Confirms (tableAfter calls) q) :
    again.foldlM (fun t q => updateRouteState q t) (tableAfter calls) = .ok (tableAfter (calls ++ again)) ∧
      (tableAfter (calls ++ again)).map changes = (tableAfter calls).map changes := by
  induction again using List.reverseRecOn with
  | nil =>
    rw [List.append_nil]
    exact ⟨rfl, rfl⟩
  | append_singleton again q ih =>
    obtain ⟨hbefore, hsame⟩ := ih fun p hp => h p (List.mem_append_left _ hp)
    have hq := confirms_after hsame (h q (by simp))
    obtain ⟨t', hok, hchanges⟩ := confirms_step (kept_tableAfter _).nodup (rows_take_turns _) hq
    have happly : tableAfter (calls ++ (again ++ [q])) = t' := by
      rw [← List.append_assoc, tableAfter_concat, applyCall, hok]
    rw [List.foldlM_append, hbefore, ok_bind, happly, hchanges]
    refine ⟨?_, hsame⟩
    rw [List.foldlM_cons, hok]
    rfl

theorem sent_again_once :
    [sampleCall false].foldlM (fun t q => updateRouteState q t) (tableAfter (flaps 1 ++ [sampleCall false])) =
        .ok (tableAfter (flaps 1 ++ [sampleCall false] ++ [sampleCall false])) ∧
      (tableAfter (flaps 1 ++ [sampleCall false] ++ [sampleCall false])).map changes =
        (tableAfter (flaps 1 ++ [sampleCall false])).map changes := by
  apply sent_again
  intro q hq
  rw [List.mem_singleton.mp hq]
  refine ⟨.inl ⟨rfl, rfl⟩, (tableAfter (flaps 1 ++ [sampleCall false])).head (by decide),
    List.head_mem _, by decide, by decide⟩

/-! ## Calls that all succeed -/

/-- No route that an index covers changes more often than its counters can count. -/
def AllCountable (calls : List StateCall) : Prop :=
  ∀ k : RouteKey, Indexed k.family k.prefixCidr → Countable (historyOf k calls)

theorem allCountable_of_concat {calls : List StateCall} {p : StateCall} (h : AllCountable (calls ++ [p])) :
    AllCountable calls := by
  intro k hk
  have hhistory := h k hk
  rw [historyOf_concat] at hhistory
  split at hhistory
  · exact countable_of_concat hhistory
  · rwa [List.append_nil] at hhistory

theorem countable_single (p : StateCall) : Countable [p] :=
  countable_iff.mpr (Nat.le_trans (switchesFrom_length_le none [p]) (by rw [List.length_singleton]; decide))

/-- The row a call finds is the summary of the calls before it. -/
theorem found_summarises {calls : List StateCall} {p : StateCall} {r : StateRow}
    (hp : indexedCall p = true) (hr : r ∈ tableAfter calls) (hkey : rowKey r = callKey p)
    (hcount : Countable (historyOf (callKey p) calls)) : Summarises (historyOf (callKey p) calls) r := by
  have hindexed : Indexed p.family p.prefixCidr := of_decide_eq_true hp
  have hrow : row rowKey (callKey p) (tableAfter calls) = some r := by
    have hmem : r ∈ (tableAfter calls).filter indexedRow :=
      List.mem_filter.mpr ⟨hr, (indexedRow_of_key hkey).trans hp⟩
    rw [← row_indexed (k := callKey p) hindexed, ← hkey]
    exact row_of_mem (kept_tableAfter calls).nodup hmem
  have hfold := row_tableAfter_any calls (k := callKey p) hindexed
  rw [hrow, ← historyOf] at hfold
  have hne : historyOf (callKey p) calls ≠ [] := by
    intro hnil
    rw [hnil] at hfold
    cases hfold
  obtain ⟨x, hx, hsum⟩ := track_summarises hne hcount
  rw [hx, Option.some_inj] at hfold
  rw [hfold]
  exact hsum

/-- A call the counters can count succeeds. -/
theorem updateRouteState_counted {calls : List StateCall} {p : StateCall}
    (h : AllCountable (calls ++ [p])) :
    updateRouteState p (tableAfter calls) = .ok (tableAfter (calls ++ [p])) := by
  rw [tableAfter_concat, applyCall]
  rcases call_cases (kept_tableAfter calls).nodup p with ⟨hinsert, _⟩ |
    ⟨hp, a, r, b, hsplit, hr, ⟨r', _, hok⟩ | ⟨d, hfails, _⟩⟩
  · rw [hinsert]
  · rw [hok]
  · exfalso
    have hindexed : Indexed p.family p.prefixCidr := of_decide_eq_true hp
    have hmem : r ∈ tableAfter calls := by rw [hsplit]; simp
    have hsum := found_summarises hp hmem hr (allCountable_of_concat h (callKey p) hindexed)
    have hhistory := h (callKey p) hindexed
    rw [historyOf_concat, if_pos rfl] at hhistory
    have hnext := summarises_concat hsum p
    obtain ⟨r', hwritten⟩ := writeRow_fits (hnext.churn_le hhistory)
    have hupdate : updateRow p r = .ok r' := hwritten
    rw [hfails] at hupdate
    cases hupdate

/-- The counters can count a call that succeeds. -/
theorem counted_of_updateRouteState {calls : List StateCall} {p : StateCall} {t : Table}
    (h : AllCountable calls) (hok : updateRouteState p (tableAfter calls) = .ok t) :
    AllCountable (calls ++ [p]) := by
  intro k hk
  rw [historyOf_concat]
  by_cases hkey : callKey p = k
  · rw [if_pos hkey]
    subst hkey
    have hp : indexedCall p = true := decide_eq_true hk
    rcases call_cases (kept_tableAfter calls).nodup p with ⟨_, hfresh⟩ |
      ⟨_, a, r, b, hsplit, hr, ⟨r', hwritten, _⟩ | ⟨d, _, hfails⟩⟩
    · have hrow := row_tableAfter_any calls (k := callKey p) hk
      rw [row_eq_none.mpr (hfresh hp), ← historyOf] at hrow
      have hnil : historyOf (callKey p) calls = [] := by
        by_contra hne
        obtain ⟨x, hx⟩ := Option.isSome_iff_exists.mp (foldl_track_isSome newRow updateRow hne none)
        rw [hx] at hrow
        cases hrow
      rw [hnil]
      exact countable_single p
    · have hmem : r ∈ tableAfter calls := by rw [hsplit]; simp
      have hnext := summarises_concat (found_summarises hp hmem hr (h (callKey p) hk)) p
      have hroom := writeRow_room hwritten
      rw [churn, hnext.learnCount, hnext.withdrawCount] at hroom
      exact hroom
    · rw [hfails] at hok
      cases hok
  · rw [if_neg hkey, List.append_nil]
    exact h k hk

theorem allCountable_of_run {calls : List StateCall} {t : Table}
    (h : calls.foldlM (fun t p => updateRouteState p t) [] = .ok t) :
    t = tableAfter calls ∧ AllCountable calls := by
  induction calls using List.reverseRecOn generalizing t with
  | nil =>
    cases h
    exact ⟨rfl, fun k _ => Nat.zero_le _⟩
  | append_singleton calls p ih =>
    rw [List.foldlM_append] at h
    obtain ⟨t₀, hbefore, hlast⟩ := bind_ok_iff.mp h
    obtain ⟨rfl, hcount⟩ := ih hbefore
    rw [List.foldlM_cons] at hlast
    obtain ⟨t₁, hcall, hpure⟩ := bind_ok_iff.mp hlast
    cases hpure
    have hall := counted_of_updateRouteState hcount hcall
    rw [updateRouteState_counted hall] at hcall
    cases hcall
    exact ⟨rfl, hall⟩

theorem run_of_allCountable {calls : List StateCall} (h : AllCountable calls) :
    calls.foldlM (fun t p => updateRouteState p t) [] = .ok (tableAfter calls) := by
  induction calls using List.reverseRecOn with
  | nil => rfl
  | append_singleton calls p ih =>
    rw [List.foldlM_append, ih (allCountable_of_concat h), ok_bind, List.foldlM_cons,
      updateRouteState_counted h]
    rfl

/-- Calls one after another, of any families and with any prefixes, all succeed exactly when the sum of
no route's `learn_count` and `withdraw_count` has to leave its type. -/
theorem calls_succeed_iff (calls : List StateCall) :
    (∃ t, calls.foldlM (fun t p => updateRouteState p t) [] = .ok t) ↔ AllCountable calls := by
  constructor
  · rintro ⟨t, h⟩
    exact (allCountable_of_run h).2
  · intro h
    exact ⟨tableAfter calls, run_of_allCountable h⟩

/-! ## The order of calls for different routes -/

/-- The rows of the calls no index covers, in their order. -/
theorem outside_rows (calls : List StateCall) :
    ((tableAfter calls).filter fun r => !indexedRow r) =
      (calls.filter fun p => !indexedCall p).map newRow := by
  induction calls using List.reverseRecOn with
  | nil => rfl
  | append_singleton calls p ih =>
    rw [tableAfter_concat]
    rcases call_cases (kept_tableAfter calls).nodup p with ⟨hinsert, _⟩ |
      ⟨hp, a, r, b, hsplit, hr, hcase⟩
    · rw [applyCall, hinsert, List.filter_append, ih, List.filter_append, List.map_append]
      congr 1
      by_cases hp : indexedCall p = true
      · rw [List.filter_cons_of_neg (by simp [indexedRow_newRow, hp]),
          List.filter_cons_of_neg (by simp [hp])]
        rfl
      · rw [List.filter_cons_of_pos (by simp [indexedRow_newRow, hp]),
          List.filter_cons_of_pos (by simp [hp])]
        rfl
    · rw [indexed_not_outside hp, ← ih]
      have hindexed : indexedRow r = true := (indexedRow_of_key hr).trans hp
      rcases hcase with ⟨r', hwritten, hok⟩ | ⟨d, _, herror⟩
      · have hindexed' : indexedRow r' = true :=
          (indexedRow_of_key (writeRow_key hr hwritten)).trans hp
        rw [applyCall, hok, hsplit, List.filter_append, List.filter_append,
          List.filter_cons_of_neg (by simp [hindexed']), List.filter_cons_of_neg (by simp [hindexed])]
      · rw [applyCall, herror]

/-- Calls in two orders that are the same for each route leave the same rows. -/
theorem rows_of_histories {calls calls' : List StateCall}
    (h : ∀ k, historyOf k calls = historyOf k calls') : (tableAfter calls).Perm (tableAfter calls') := by
  have hindexed : ((tableAfter calls).filter indexedRow).Perm ((tableAfter calls').filter indexedRow) := by
    apply perm_of_rows (kept_tableAfter calls).nodup (kept_tableAfter calls').nodup
    intro k
    by_cases hk : Indexed k.family k.prefixCidr
    · rw [row_indexed hk, row_indexed hk, row_tableAfter_any calls hk, row_tableAfter_any calls' hk]
      exact congrArg _ (h k)
    · have hnone : ∀ t : Table, row rowKey k (t.filter indexedRow) = none := by
        intro t
        rw [row_eq_none]
        rintro r hr rfl
        exact hk (of_decide_eq_true (List.mem_filter.mp hr).2)
      rw [hnone, hnone]
  have hcalls : calls.Perm calls' := @perm_of_histories _ _ _ callKey _ _ _ h
  have houtside : ((tableAfter calls).filter fun r => !indexedRow r).Perm
      ((tableAfter calls').filter fun r => !indexedRow r) := by
    rw [outside_rows, outside_rows]
    exact (hcalls.filter _).map newRow
  exact (List.filter_append_perm indexedRow _).symm.trans
    ((hindexed.append houtside).trans (List.filter_append_perm indexedRow _))

end Pybmpmon.Database.StateRuns
