import Pybmpmon.Database.StateRuns

/-!
# `route_state` apart from its times

Nothing `update_route_state` looks at is a time. So the table without its times is what
the calls without their times leave, and neither the times nor the order of calls for
different routes have a part in it.
-/
namespace Pybmpmon.Database.Timeless

open Pybmpmon.Lib.Outcome Pybmpmon.Python Pybmpmon.Models.Route
open Pybmpmon.Database.RouteState Pybmpmon.Database.StateTable Pybmpmon.Database.StateHistory
open Pybmpmon.Database.StateRuns

def callTimeless (p : StateCall) : StateCall := { p with time := 0 }

def rowTimeless (r : StateRow) : StateRow := { r with firstSeen := 0, lastSeen := 0, lastStateChange := 0 }

/-! ## One call -/

theorem updateIpRoute_timeless (p : StateCall) (stateChanged : Bool) (r : StateRow) :
    updateIpRoute (callTimeless p) stateChanged (rowTimeless r) =
      (updateIpRoute p stateChanged r).map rowTimeless := by
  have hadded : ∀ {a b : Nat} {f g : Nat → Except DbError StateRow},
      (∀ n, f n = (g n).map rowTimeless) →
        (addInteger a b >>= f) = (addInteger a b >>= g).map rowTimeless := by
    intro a b f g h
    cases addInteger a b with
    | error d => rfl
    | ok n => exact h n
  rw [updateIpRoute, updateIpRoute]
  refine hadded fun learnCount => hadded fun withdrawCount => hadded fun _ => ?_
  cases stateChanged <;> rfl

theorem updateEvpnRoute_timeless (p : StateCall) (stateChanged : Bool) (r : StateRow) :
    updateEvpnRoute (callTimeless p) stateChanged (rowTimeless r) =
      (updateEvpnRoute p stateChanged r).map rowTimeless := by
  rw [updateEvpnRoute, updateIpRoute_timeless, updateEvpnRoute]
  cases updateIpRoute p stateChanged r with
  | error d => rfl
  | ok r' => rfl

theorem checkUnique_timeless (t : Table) :
    checkUnique (t.map rowTimeless) = (checkUnique t).map (List.map rowTimeless) := by
  have hip : (t.map rowTimeless).filterMap ipIndexKey = t.filterMap ipIndexKey := by
    rw [List.filterMap_map]
    rfl
  have hevpn : (t.map rowTimeless).filterMap evpnIndexKey = t.filterMap evpnIndexKey := by
    rw [List.filterMap_map]
    rfl
  rw [checkUnique, checkUnique, hip, hevpn]
  split
  · rfl
  · rfl

theorem updateWhere_timeless {selected selected' : StateRow → Bool}
    {set set' : StateRow → Except DbError StateRow} (hselected : ∀ r, selected' (rowTimeless r) = selected r)
    (hset : ∀ r, set' (rowTimeless r) = (set r).map rowTimeless) (t : Table) :
    updateWhere selected' set' (t.map rowTimeless) =
      (updateWhere selected set t).map (List.map rowTimeless) := by
  have hrows : (t.map rowTimeless).mapM (fun r => if selected' r then set' r else .ok r) =
      (t.mapM fun r => if selected r then set r else .ok r).map (List.map rowTimeless) := by
    induction t with
    | nil => rfl
    | cons r t ih =>
      rw [List.map_cons, List.mapM_cons, List.mapM_cons, ih, hselected, hset]
      cases selected r with
      | false => cases t.mapM fun r => if selected r then set r else .ok r <;> rfl
      | true =>
        cases set r with
        | error d => rfl
        | ok r' => cases t.mapM fun r => if selected r then set r else .ok r <;> rfl
  rw [updateWhere, hrows, updateWhere]
  cases t.mapM fun r => if selected r then set r else .ok r with
  | error d => rfl
  | ok t' => exact checkUnique_timeless t'

theorem currentWithdrawn_timeless (p : StateCall) (t : Table) :
    currentWithdrawn (callTimeless p) (t.map rowTimeless) = currentWithdrawn p t := by
  have hip : ((t.map rowTimeless).find? (sameIpRoute (callTimeless p))).map StateRow.isWithdrawn =
      (t.find? (sameIpRoute p)).map StateRow.isWithdrawn := by
    rw [List.find?_map, Option.map_map]
    rfl
  have hevpn : ((t.map rowTimeless).find? (sameEvpnRoute (callTimeless p))).map StateRow.isWithdrawn =
      (t.find? (sameEvpnRoute p)).map StateRow.isWithdrawn := by
    rw [List.find?_map, Option.map_map]
    rfl
  rw [currentWithdrawn, hip, hevpn]
  rfl

/-- The call does to the table without its times what it does to the table. -/
theorem updateRouteState_timeless (p : StateCall) (t : Table) :
    updateRouteState (callTimeless p) (t.map rowTimeless) =
      (updateRouteState p t).map (List.map rowTimeless) := by
  rw [updateRouteState, currentWithdrawn_timeless, updateRouteState]
  cases currentWithdrawn p t with
  | none =>
    have hnew := checkUnique_timeless (t ++ [newRow p])
    rw [List.map_append] at hnew
    exact hnew
  | some current =>
    have hip : updateWhere (sameIpRoute (callTimeless p))
          (updateIpRoute (callTimeless p) (current != p.isWithdrawn)) (t.map rowTimeless) =
        (updateWhere (sameIpRoute p) (updateIpRoute p (current != p.isWithdrawn)) t).map
          (List.map rowTimeless) :=
      updateWhere_timeless (fun _ => rfl) (updateIpRoute_timeless p _) t
    have hevpn : updateWhere (sameEvpnRoute (callTimeless p))
          (updateEvpnRoute (callTimeless p) (current != p.isWithdrawn)) (t.map rowTimeless) =
        (updateWhere (sameEvpnRoute p) (updateEvpnRoute p (current != p.isWithdrawn)) t).map
          (List.map rowTimeless) :=
      updateWhere_timeless (fun _ => rfl) (updateEvpnRoute_timeless p _) t
    have hfamily : (callTimeless p).family = p.family := rfl
    simp only [writeRoute, hfamily]
    split
    · exact hip
    · split
      · exact hevpn
      · rfl

/-! ## Whole runs -/

/-- The table after calls without their times is the table after the calls, without its times. -/
theorem tableAfter_timeless (calls : List StateCall) :
    tableAfter (calls.map callTimeless) = (tableAfter calls).map rowTimeless := by
  induction calls using List.reverseRecOn with
  | nil => rfl
  | append_singleton calls p ih =>
    rw [List.map_append, List.map_singleton, StateRows.tableAfter_concat, StateRows.tableAfter_concat, ih,
      applyCall, updateRouteState_timeless, applyCall]
    cases updateRouteState p (tableAfter calls) with
    | error d => rfl
    | ok t => rfl

theorem historyOf_timeless (k : RouteKey) (calls : List StateCall) :
    historyOf k (calls.map callTimeless) = (historyOf k calls).map callTimeless := by
  rw [historyOf, List.filter_map]
  rfl

/-- Calls at other times and in another order, a call that fails among them: when each route's calls
come in the same order, the tables hold the same rows up to the times. -/
theorem orders_agree {calls calls' : List StateCall}
    (h : ∀ k, (historyOf k calls).map callTimeless = (historyOf k calls').map callTimeless) :
    ((tableAfter calls).map rowTimeless).Perm ((tableAfter calls').map rowTimeless) := by
  rw [← tableAfter_timeless, ← tableAfter_timeless]
  apply rows_of_histories
  intro k
  rw [historyOf_timeless, historyOf_timeless, h]

/-- The call about 11.0.0.0/8, at another time. -/
def otherCall (isWithdrawn : Bool) (time : Timestamp) : StateCall :=
  { sampleCall isWithdrawn with prefixCidr := some (.ofOctet 11), time := time }

theorem orders_agree_two :
    ((tableAfter [sampleCall false, otherCall false 5, sampleCall true]).map rowTimeless).Perm
      ((tableAfter [otherCall false 9, sampleCall false, sampleCall true]).map rowTimeless) := by
  apply orders_agree
  intro k
  by_cases hsample : callKey (sampleCall false) = k
  · subst hsample
    rfl
  · by_cases hother : callKey (otherCall false 0) = k
    · subst hother
      rfl
    · have hkey : ∀ isWithdrawn time, callKey (otherCall isWithdrawn time) = callKey (otherCall false 0) :=
        fun _ _ => rfl
      have hkey' : ∀ isWithdrawn, callKey (sampleCall isWithdrawn) = callKey (sampleCall false) := fun _ => rfl
      simp [historyOf, hkey, hkey', hsample, hother]

end Pybmpmon.Database.Timeless
