import Pybmpmon.Database.StateTable

/-!
# `route_state` as a summary of the event history

What the row of a route says about the events of that route: when it was first and
last seen, whether it stands, how often it was learned and withdrawn, and the
attributes of its latest announcement. The counters and the sum of them are `INTEGER`s;
the summary holds while they can count.
-/
namespace Pybmpmon.Database.StateHistory

open Pybmpmon.Lib.KeyedTable Pybmpmon.Lib.Outcome Pybmpmon.Python
open Pybmpmon.Models.Route Pybmpmon.Database.RouteState Pybmpmon.Database.StateTable

/-- The calls that come first or follow a call of the other kind, after a call of kind `last`. -/
def switchesFrom (last : Option Bool) : List StateCall → List StateCall
  | [] => []
  | p :: calls =>
      if last == some p.isWithdrawn then switchesFrom last calls
      else p :: switchesFrom (some p.isWithdrawn) calls

def switches (calls : List StateCall) : List StateCall := switchesFrom none calls

/-- The announcements among the switching calls. -/
def learns (calls : List StateCall) : List StateCall :=
  (switches calls).filter fun p => !p.isWithdrawn

def withdraws (calls : List StateCall) : List StateCall :=
  (switches calls).filter fun p => p.isWithdrawn

/-- The latest announcement, or the first call when there is none. -/
def attributeSource (calls : List StateCall) : Option StateCall :=
  (calls.filter fun p => !p.isWithdrawn).getLast?.or calls.head?

structure RouteAttributes where
  nextHop : Option IpAddress
  asPath : Option (List Nat)
  communities : Option (List String)
  extendedCommunities : Option (List String)
  med : Option Nat
  localPref : Option Nat
  deriving DecidableEq, Repr

def callAttributes (p : StateCall) : RouteAttributes :=
  ⟨p.nextHop, p.asPath, p.communities, p.extendedCommunities, p.med, p.localPref⟩

def rowAttributes (r : StateRow) : RouteAttributes :=
  ⟨r.nextHop, r.asPath, r.communities, r.extendedCommunities, r.med, r.localPref⟩

/-- The row is the summary of the calls. -/
structure Summarises (calls : List StateCall) (r : StateRow) : Prop where
  firstSeen : calls.head?.map StateCall.time = some r.firstSeen
  lastSeen : calls.getLast?.map StateCall.time = some r.lastSeen
  isWithdrawn : calls.getLast?.map StateCall.isWithdrawn = some r.isWithdrawn
  learnCount : r.learnCount = (learns calls).length
  withdrawCount : r.withdrawCount = (withdraws calls).length
  lastStateChange : (switches calls).getLast?.map StateCall.time = some r.lastStateChange
  attributes : (attributeSource calls).map callAttributes = some (rowAttributes r)

/-- The sum of both counts fits an `INTEGER`. -/
def Countable (calls : List StateCall) : Prop :=
  (learns calls).length + (withdraws calls).length ≤ 2147483647

instance (calls : List StateCall) : Decidable (Countable calls) :=
  inferInstanceAs (Decidable (_ ≤ _))

/-- Each switching call is counted once. -/
theorem counts_switches (calls : List StateCall) :
    (learns calls).length + (withdraws calls).length = (switches calls).length := by
  rw [learns, withdraws, Nat.add_comm]
  exact (List.length_eq_length_filter_add StateCall.isWithdrawn).symm

theorem switchesFrom_concat (last : Option Bool) (calls : List StateCall) (p : StateCall) :
    switchesFrom last (calls ++ [p]) = switchesFrom last calls ++
      if (calls.getLast?.map StateCall.isWithdrawn).or last == some p.isWithdrawn then [] else [p] := by
  induction calls generalizing last with
  | nil => simp [switchesFrom]
  | cons q calls ih =>
    have hlast : ((q :: calls).getLast?.map StateCall.isWithdrawn).or last =
        (calls.getLast?.map StateCall.isWithdrawn).or (some q.isWithdrawn) := by
      rw [List.getLast?_cons]
      cases calls.getLast? <;> rfl
    rw [hlast, List.cons_append, switchesFrom, switchesFrom]
    by_cases hq : last = some q.isWithdrawn
    · rw [hq, beq_self_eq_true, if_pos rfl, if_pos rfl, ih]
    · rw [beq_eq_false_iff_ne.mpr hq, if_neg (by decide), if_neg (by decide), ih, List.cons_append]

/-- A call after others switches when its kind is not the kind of the last. -/
theorem switches_concat {calls : List StateCall} {current : Bool} (p : StateCall)
    (hcurrent : calls.getLast?.map StateCall.isWithdrawn = some current) :
    switches (calls ++ [p]) = switches calls ++ if current != p.isWithdrawn then [p] else [] := by
  rw [switches, switchesFrom_concat, hcurrent, switches]
  cases current <;> cases p.isWithdrawn <;> rfl

theorem switchesFrom_length_le (last : Option Bool) (calls : List StateCall) :
    (switchesFrom last calls).length ≤ calls.length := by
  induction calls generalizing last with
  | nil => exact Nat.le_refl 0
  | cons p calls ih =>
    rw [switchesFrom]
    split
    · exact Nat.le_succ_of_le (ih last)
    · exact Nat.succ_le_succ (ih _)

theorem countable_iff {calls : List StateCall} : Countable calls ↔ (switches calls).length ≤ 2147483647 := by
  rw [Countable, counts_switches]

theorem countable_of_concat {calls : List StateCall} {p : StateCall}
    (h : Countable (calls ++ [p])) : Countable calls := by
  rw [countable_iff, switches, switchesFrom_concat, List.length_append] at h
  exact countable_iff.mpr (Nat.le_trans (Nat.le_add_right _ _) h)

theorem summarises_first (p : StateCall) : Summarises [p] (newRow p) where
  firstSeen := rfl
  lastSeen := rfl
  isWithdrawn := rfl
  learnCount := by
    cases h : p.isWithdrawn <;> simp [newRow, learns, switches, switchesFrom, h]
  withdrawCount := by
    cases h : p.isWithdrawn <;> simp [newRow, withdraws, switches, switchesFrom, h]
  lastStateChange := rfl
  attributes := by
    cases h : p.isWithdrawn <;>
      simp [attributeSource, h, callAttributes, rowAttributes, newRow]

/-- One more call keeps the summary. -/
theorem summarises_concat {calls : List StateCall} {r : StateRow} (hsum : Summarises calls r)
    (p : StateCall) : Summarises (calls ++ [p]) (touched p (r.isWithdrawn != p.isWithdrawn) r) := by
  have hne : calls ≠ [] := by
    rintro rfl
    cases hsum.lastSeen
  have hswitches := switches_concat p hsum.isWithdrawn
  have hlast : (calls ++ [p]).getLast? = some p := List.getLast?_concat ..
  constructor
  · rw [List.head?_append, Option.map_or, hsum.firstSeen]
    rfl
  · rw [hlast]
    rfl
  · rw [hlast]
    rfl
  · rw [learns, hswitches, List.filter_append, List.length_append, ← learns, ← hsum.learnCount]
    cases h : p.isWithdrawn <;> cases r.isWithdrawn <;> simp [touched, h]
  · rw [withdraws, hswitches, List.filter_append, List.length_append, ← withdraws,
      ← hsum.withdrawCount]
    cases h : p.isWithdrawn <;> cases r.isWithdrawn <;> simp [touched, h]
  · rw [hswitches]
    cases r.isWithdrawn != p.isWithdrawn with
    | true =>
      rw [if_pos rfl, List.getLast?_concat]
      rfl
    | false =>
      rw [if_neg (by decide), List.append_nil, hsum.lastStateChange]
      rfl
  · have hsource := hsum.attributes
    simp only [attributeSource] at hsource ⊢
    rw [List.filter_append]
    cases h : p.isWithdrawn with
    | true =>
      have hhead : (calls ++ [p]).head? = calls.head? := by
        cases calls with
        | nil => exact absurd rfl hne
        | cons q calls => rfl
      rw [List.filter_cons_of_neg (by simp [h]), List.filter_nil, List.append_nil, hhead, hsource]
      simp [touched, rowAttributes, h]
    | false =>
      rw [List.filter_cons_of_pos (by simp [h]), List.filter_nil, List.getLast?_concat]
      simp [touched, rowAttributes, callAttributes, h]

theorem Summarises.churn_le {calls : List StateCall} {r : StateRow} (h : Summarises calls r)
    (hcount : Countable calls) : churn r ≤ 2147483647 := by
  rw [churn, h.learnCount, h.withdrawCount]
  exact hcount

/-- The fold of the calls of one key is their summary, while the counts fit. -/
theorem track_summarises {calls : List StateCall} (hne : calls ≠ []) (hcount : Countable calls) :
    ∃ r, calls.foldl (fun o p => track newRow updateRow p o) none = some r ∧
      Summarises calls r := by
  induction calls using List.reverseRecOn with
  | nil => exact absurd rfl hne
  | append_singleton calls p ih =>
    rw [List.foldl_concat]
    cases calls with
    | nil => exact ⟨newRow p, rfl, summarises_first p⟩
    | cons q calls =>
      obtain ⟨r, hfold, hsum⟩ := ih (List.cons_ne_nil _ _) (countable_of_concat hcount)
      have hnext := summarises_concat hsum p
      obtain ⟨r', hr'⟩ := writeRow_fits (hnext.churn_le hcount)
      have hupdate : updateRow p r = .ok r' := hr'
      refine ⟨r', by rw [hfold, track, hupdate], ?_⟩
      -- the EVPN columns are no part of the summary
      obtain ⟨_, _, _, _, rfl, _⟩ := writeRow_ok hr'
      exact ⟨hnext.firstSeen, hnext.lastSeen, hnext.isWithdrawn, hnext.learnCount,
        hnext.withdrawCount, hnext.lastStateChange, hnext.attributes⟩

/-- The calls for one route. -/
def historyOf (key : RouteKey) (calls : List StateCall) : List StateCall :=
  calls.filter fun p => callKey p = key

/-- After any calls for indexed routes, none of which fails on a unique index, a route has
one row exactly when it occurs, and the row is the summary of the route's calls while
their counts fit the counters. -/
theorem route_state_summary {calls : List StateCall}
    (hcalls : ∀ p ∈ calls, Indexed p.family p.prefixCidr) :
    (∀ before p after, calls = before ++ p :: after →
        updateRouteState p (tableAfter before) ≠ .error .uniqueViolation) ∧
      ∀ key, ((tableAfter calls).filter fun r => rowKey r = key).length =
          (if (historyOf key calls).isEmpty then 0 else 1) ∧
        (Countable (historyOf key calls) → ∀ r ∈ tableAfter calls, rowKey r = key →
          Summarises (historyOf key calls) r) := by
  have hnodup := tableAfter_nodup hcalls
  refine ⟨?_, fun key => ⟨?_, ?_⟩⟩
  · rintro before p after rfl
    exact no_unique_violation (fun q hq => hcalls q (List.mem_append_left _ hq))
      (hcalls p (List.mem_append_right _ List.mem_cons_self))
  · rw [filter_key hnodup, row_tableAfter hcalls, ← historyOf]
    cases hhistory : historyOf key calls with
    | nil => rfl
    | cons p history =>
      obtain ⟨r, hr⟩ := Option.isSome_iff_exists.mp
        (foldl_track_isSome newRow updateRow (List.cons_ne_nil p history) none)
      rw [hr]
      rfl
  · intro hcount r hr hkey
    have hrow := row_of_mem hnodup hr
    rw [hkey, row_tableAfter hcalls, ← historyOf] at hrow
    have hne : historyOf key calls ≠ [] := by
      intro hnil
      rw [hnil] at hrow
      cases hrow
    obtain ⟨r', hr', hsum⟩ := track_summarises hne hcount
    rw [hrow, Option.some_inj] at hr'
    rw [hr']
    exact hsum

/-! ## The counters at their limit -/

/-- An announcement or a withdrawal of 10.0.0.0/8, for use in examples. -/
def sampleCall (isWithdrawn : Bool) : StateCall where
  time := 0
  bmpPeerIp := .v4 (.ofOctets 192 0 2 1)
  bgpPeerIp := .v4 (.ofOctets 10 0 0 1)
  family := .ipv4Unicast
  prefixCidr := some (.ofOctet 10)
  nextHop := none
  asPath := none
  communities := none
  extendedCommunities := none
  med := none
  localPref := none
  isWithdrawn := isWithdrawn
  policyStage := .prePolicy
  evpnRouteType := none
  evpnRd := none
  evpnEsi := none
  macAddress := none

/-- The prefix is announced and withdrawn `n` times. -/
def flaps : Nat → List StateCall
  | 0 => []
  | n + 1 => flaps n ++ [sampleCall false, sampleCall true]

/-- A flap and one announcement more. -/
theorem route_state_summary_two :
    Countable (historyOf (callKey (sampleCall false)) (flaps 1 ++ [sampleCall false])) ∧
      ∀ r ∈ tableAfter (flaps 1 ++ [sampleCall false]), rowKey r = callKey (sampleCall false) →
        Summarises (historyOf (callKey (sampleCall false)) (flaps 1 ++ [sampleCall false])) r :=
  ⟨by decide, ((@route_state_summary (flaps 1 ++ [sampleCall false]) (by decide)).2 _).2 (by decide)⟩

theorem historyOf_flaps (n : Nat) : historyOf (callKey (sampleCall false)) (flaps n) = flaps n := by
  induction n with
  | zero => rfl
  | succ n ih =>
    rw [flaps, historyOf, List.filter_append, ← historyOf, ih]
    rfl

theorem indexed_sampleCall (isWithdrawn : Bool) :
    Indexed (sampleCall isWithdrawn).family (sampleCall isWithdrawn).prefixCidr := .inl ⟨rfl, rfl⟩

theorem indexed_flaps (n : Nat) : ∀ p ∈ flaps n, Indexed p.family p.prefixCidr := by
  induction n with
  | zero =>
    intro p hp
    cases hp
  | succ n ih =>
    intro p hp
    rw [flaps, List.mem_append, List.mem_cons, List.mem_singleton] at hp
    rcases hp with hp | hp | hp
    · exact ih p hp
    · rw [hp]
      exact indexed_sampleCall false
    · rw [hp]
      exact indexed_sampleCall true

/-- Every call of a flapping route switches. -/
theorem switches_flaps (n : Nat) : switches (flaps n) = flaps n := by
  induction n with
  | zero => rfl
  | succ n ih =>
    have hlast : (flaps n).getLast?.map StateCall.isWithdrawn = none ∨
        (flaps n).getLast?.map StateCall.isWithdrawn = some true := by
      cases n with
      | zero => exact .inl rfl
      | succ n =>
        rw [flaps, List.getLast?_append_cons]
        exact .inr rfl
    have hsplit : flaps (n + 1) = (flaps n ++ [sampleCall false]) ++ [sampleCall true] := by
      rw [flaps, List.append_assoc]
      rfl
    rw [switches] at ih
    rw [hsplit, switches, switchesFrom_concat, switchesFrom_concat, ih, List.getLast?_concat]
    rcases hlast with hlast | hlast <;> rw [hlast] <;> rfl

theorem counts_flaps (n : Nat) : (learns (flaps n)).length = n ∧ (withdraws (flaps n)).length = n := by
  rw [learns, withdraws, switches_flaps]
  induction n with
  | zero => exact ⟨rfl, rfl⟩
  | succ n ih =>
    rw [flaps, List.filter_append, List.filter_append, List.length_append, List.length_append,
      ih.1, ih.2]
    exact ⟨rfl, rfl⟩

theorem length_flaps (n : Nat) : (flaps n).length = 2 * n := by
  induction n with
  | zero => rfl
  | succ n ih =>
    rw [flaps, List.length_append, ih]
    rfl

/-- With the sum of the counters at its limit the next withdrawal fails, and the row keeps the flag of
the announcement before it. -/
theorem limit_not_summarised {n : Nat} (hn : n + 1 = 1073741824) :
    ¬ ∀ r ∈ tableAfter (flaps (n + 1)), rowKey r = callKey (sampleCall false) →
      Summarises (historyOf (callKey (sampleCall false)) (flaps (n + 1))) r := by
  have hsplit : flaps (n + 1) = (flaps n ++ [sampleCall false]) ++ [sampleCall true] := by
    rw [flaps, List.append_assoc]
    rfl
  have hcount : Countable (flaps n ++ [sampleCall false]) := by
    refine countable_iff.mpr (Nat.le_trans (switchesFrom_length_le _ _) ?_)
    rw [List.length_append, length_flaps, List.length_singleton]
    omega
  obtain ⟨r, hfold, hsum⟩ := track_summarises (by simp) hcount
  have hfails : ∃ d, updateRow (sampleCall true) r = .error d := by
    have hnext := summarises_concat hsum (sampleCall true)
    rw [← hsplit] at hnext
    have hlearn := hnext.learnCount
    have hwithdraw := hnext.withdrawCount
    rw [(counts_flaps (n + 1)).1] at hlearn
    rw [(counts_flaps (n + 1)).2] at hwithdraw
    cases hupdate : updateRow (sampleCall true) r with
    | error d => exact ⟨d, rfl⟩
    | ok r' =>
      have hroom := writeRow_room hupdate
      rw [churn, hlearn, hwithdraw] at hroom
      omega
  have hrow : row rowKey (callKey (sampleCall false)) (tableAfter (flaps (n + 1))) = some r := by
    obtain ⟨d, hfails⟩ := hfails
    rw [row_tableAfter (indexed_flaps (n + 1)), ← historyOf, historyOf_flaps, hsplit, List.foldl_concat,
      hfold, track, hfails]
  intro hall
  have hstanding := hsum.isWithdrawn
  have hstale := (hall r (List.mem_of_find?_eq_some hrow) (rowKey_of_row hrow)).isWithdrawn
  rw [List.getLast?_concat, Option.map_some] at hstanding
  rw [historyOf_flaps, hsplit, List.getLast?_concat, Option.map_some, ← hstanding] at hstale
  cases hstale

/-- 1073741824 flaps: the row is not the summary of the calls. -/
theorem churn_limit :
    ∃ calls : List StateCall, (∀ p ∈ calls, Indexed p.family p.prefixCidr) ∧
      ∃ key, ¬ ∀ r ∈ tableAfter calls, rowKey r = key → Summarises (historyOf key calls) r :=
  ⟨flaps 1073741824, indexed_flaps _, callKey (sampleCall false), limit_not_summarised rfl⟩

end Pybmpmon.Database.StateHistory
