import Pybmpmon.Database.OverlappingCalls
import Pybmpmon.Lib.Transactions

/-!
# Any number of calls at once

Overlapping flushes call `update_route_state` on connections of their own. A call looks its
row up, writes by the flag it has found, and commits; the steps of any number of calls come
in any order. Calls for different routes do not disturb each other. Calls for one route may
miscount its changes, and nothing else: whether the route stands, when it was seen and its
attributes are those of the calls in the order of their commits.
-/
namespace Pybmpmon.Database.ManyCalls

open Pybmpmon.Lib.KeyedTable Pybmpmon.Lib.Outcome Pybmpmon.Lib.Transition
open Pybmpmon.Lib.CheckThenAct Pybmpmon.Lib.Transactions Pybmpmon.Python Pybmpmon.Models.Route
open Pybmpmon.Database.RouteState Pybmpmon.Database.StateTable Pybmpmon.Database.StateHistory
open Pybmpmon.Database.StateRows Pybmpmon.Database.OverlappingCalls

/-- The two calls write one row, or one entry of an index. -/
def sameRoute (p q : StateCall) : Bool := indexedCall p && callKey p == callKey q

def routeStateCalls : Calls Table (Option Bool) DbError StateCall := ⟨call, sameRoute⟩

/-- The calls are for different routes, or no index covers them. -/
def Apart (p q : StateCall) : Prop := sameRoute p q = false

instance : DecidableRel Apart := fun p q => inferInstanceAs (Decidable (sameRoute p q = false))

/-! ## Calls that are apart -/

/-- A call that succeeds leaves what every call apart from it finds. -/
theorem found_after {p q : StateCall} (hapart : Apart p q) {t t' : Table} (hnodup : IndexedNodup t)
    (h : updateRouteState p t = .ok t') : currentWithdrawn q t' = currentWithdrawn q t := by
  by_cases hq : Indexed q.family q.prefixCidr
  · have hkey : callKey p ≠ callKey q := by
      intro hkey
      have hp : indexedCall p = true := by
        simpa [indexedCall] using indexed_of_key hkey.symm hq
      simp [Apart, sameRoute, hp, hkey] at hapart
    have hrow := row_applyCall hnodup p (k := callKey q) hq
    rw [if_neg hkey, applyCall, h] at hrow
    rw [currentWithdrawn_eq hq, currentWithdrawn_eq hq, hrow]
  · rw [currentWithdrawn_outside hq, currentWithdrawn_outside hq]

theorem indexedNodup_after {p : StateCall} {t t' : Table} (hnodup : IndexedNodup t)
    (h : updateRouteState p t = .ok t') : IndexedNodup t' := by
  rcases call_cases hnodup p with ⟨hinsert, hfresh⟩ |
    ⟨hp, a, r, b, rfl, hr, ⟨r', hwritten, hupdate⟩ | ⟨d, _, hupdate⟩⟩
  · rw [hinsert] at h
    cases h
    exact indexedNodup_insert hnodup hfresh
  · rw [hupdate] at h
    cases h
    have hkey := (writeRow_key hr hwritten).trans hr.symm
    exact indexedNodup_replace hnodup hkey
      ((indexedRow_of_key (writeRow_key hr hwritten)).trans (indexedRow_of_key hr).symm)
  · rw [hupdate] at h
    cases h

/-- A call with nothing beside it fails on a counter only. -/
theorem fails_on_counter {p : StateCall} {t : Table} {e : DbError} (hnodup : IndexedNodup t)
    (h : updateRouteState p t = .error e) : e = .integerOutOfRange := by
  rcases call_cases hnodup p with ⟨hinsert, _⟩ |
    ⟨_, a, r, b, rfl, _, ⟨r', _, hupdate⟩ | ⟨d, hwritten, hupdate⟩⟩
  · rw [hinsert] at h
    cases h
  · rw [hupdate] at h
    cases h
  · rw [hupdate] at h
    cases h
    exact writeRow_raises p _ r e hwritten

theorem independent : Independent routeStateCalls IndexedNodup Apart (· = .integerOutOfRange) where
  keeps := fun _ _ _ hnodup h => indexedNodup_after hnodup h
  reads := fun _ _ _ _ hapart hnodup h => found_after hapart hnodup h
  fails := fun _ _ _ hnodup h => fails_on_counter hnodup h

/-- When no call commits while another call for its route has looked its row up and not ended, the
table is what the committed calls leave one after the other, and no call fails on a unique index. -/
theorem serial_when_apart (t : StoredTable) {labels : List (Label StateCall)}
    {w : World Table (Option Bool) DbError StateCall}
    (hapart : Throughout routeStateCalls.step (CommitsApart Apart) (.start t.rows) labels)
    (hrun : run routeStateCalls.step (.start t.rows) labels = some w) :
    w.log.foldlM (fun rows p => updateRouteState p rows) t.rows = .ok w.shared ∧
      ∀ b ∈ w.begun, b.phase ≠ .failed .uniqueViolation := by
  have hserial := serial_of_apart independent (indexedNodup_of_unique t.unique) hapart hrun
  refine ⟨hserial.1, fun b hb hfailed => ?_⟩
  have hcounter : DbError.uniqueViolation = .integerOutOfRange := hserial.2 b hb _ hfailed
  cases hcounter

def emptyTable : StoredTable where
  rows := []
  unique := by decide
  counters := by simp

/-- The same announcement for another route. -/
def otherCall : StateCall := { sampleCall false with prefixCidr := some (.ofOctet 20) }

/-- Two calls for different routes, each of which looks its row up before either commits. -/
def twoRoutes : List (Label StateCall) :=
  [.begin (sampleCall false), .begin otherCall, .act 0 .read, .act 1 .read, .act 0 .write, .act 1 .write,
    .act 1 .commit, .act 0 .commit]

theorem serial_when_apart_two :
    let w := (run routeStateCalls.step (.start emptyTable.rows) twoRoutes).get (by decide)
    w.log.foldlM (fun rows p => updateRouteState p rows) emptyTable.rows = .ok w.shared ∧
      ∀ b ∈ w.begun, b.phase ≠ .failed .uniqueViolation :=
  @serial_when_apart emptyTable twoRoutes _ (by decide) (Option.some_get _).symm

/-! ## Calls for one route -/

/-- What the row of a route says of the committed calls for it, in the order of their commits,
however they overlap. -/
structure Reflects (calls : List StateCall) (r : StateRow) : Prop where
  firstSeen : calls.head?.map StateCall.time = some r.firstSeen
  lastSeen : calls.getLast?.map StateCall.time = some r.lastSeen
  isWithdrawn : calls.getLast?.map StateCall.isWithdrawn = some r.isWithdrawn
  attributes : (attributeSource calls).map callAttributes = some (rowAttributes r)
  learnCount : r.learnCount ≤ (calls.filter fun p => !p.isWithdrawn).length
  withdrawCount : r.withdrawCount ≤ (calls.filter fun p => p.isWithdrawn).length
  counted : 1 ≤ r.learnCount + r.withdrawCount
  lastStateChange : r.lastStateChange ∈ calls.map StateCall.time

theorem reflects_first (p : StateCall) : Reflects [p] (newRow p) := by
  have h := summarises_first p
  refine ⟨h.firstSeen, h.lastSeen, h.isWithdrawn, h.attributes, ?_, ?_, ?_, List.mem_singleton_self _⟩
  · cases hw : p.isWithdrawn <;> simp [newRow, hw]
  · cases hw : p.isWithdrawn <;> simp [newRow, hw]
  · cases hw : p.isWithdrawn <;> simp [newRow, hw]

/-- One more commit, by whatever flag was found. -/
theorem reflects_concat {calls : List StateCall} {p : StateCall} {current : Bool} {r r' : StateRow}
    (h : Reflects calls r) (hwritten : writeRow p current r = .ok r') : Reflects (calls ++ [p]) r' := by
  obtain ⟨_, _, _, _, rfl, _⟩ := writeRow_ok hwritten
  have hlast : (calls ++ [p]).getLast? = some p := List.getLast?_concat ..
  have hhead : (calls ++ [p]).head? = calls.head? := by
    cases calls with
    | nil => cases h.firstSeen
    | cons q calls => rfl
  constructor
  · rw [hhead, h.firstSeen]
    rfl
  · rw [hlast]
    rfl
  · rw [hlast]
    rfl
  · have hsource := h.attributes
    simp only [attributeSource] at hsource ⊢
    rw [List.filter_append]
    cases hw : p.isWithdrawn with
    | true =>
      rw [List.filter_cons_of_neg (by simp [hw]), List.filter_nil, List.append_nil, hhead, hsource]
      simp [touched, rowAttributes, hw]
    | false =>
      rw [List.filter_cons_of_pos (by simp [hw]), List.filter_nil, List.getLast?_concat]
      simp [touched, rowAttributes, callAttributes, hw]
  · have hbefore := h.learnCount
    rw [List.filter_append, List.length_append]
    cases hw : p.isWithdrawn <;> cases current <;> simp [touched, hw] <;> omega
  · have hbefore := h.withdrawCount
    rw [List.filter_append, List.length_append]
    cases hw : p.isWithdrawn <;> cases current <;> simp [touched, hw] <;> omega
  · have hbefore := h.counted
    simp only [touched]
    omega
  · rw [List.map_append, List.mem_append]
    cases hchanged : current != p.isWithdrawn with
    | true => exact .inr (by simp [touched])
    | false => exact .inl h.lastStateChange

/-- The indexes hold, and the row of each indexed key reflects the calls for it. -/
structure Reflected (log : List StateCall) (t : Table) : Prop where
  nodup : IndexedNodup t
  rows : ∀ k : RouteKey, Indexed k.family k.prefixCidr →
    (historyOf k log = [] ∧ row rowKey k t = none) ∨
      ∃ r, row rowKey k t = some r ∧ Reflects (historyOf k log) r

/-- A call that has found a row will find one when it writes. -/
def Knows (p : StateCall) (found : Option Bool) (t : Table) : Prop :=
  found ≠ none → Indexed p.family p.prefixCidr ∧ row rowKey (callKey p) t ≠ none

theorem historyOf_concat (k : RouteKey) (log : List StateCall) (p : StateCall) :
    historyOf k (log ++ [p]) = historyOf k log ++ if callKey p = k then [p] else [] := by
  rw [historyOf, List.filter_append, ← historyOf]
  by_cases hk : callKey p = k
  · rw [if_pos hk, List.filter_cons_of_pos (by simpa using hk), List.filter_nil]
  · rw [if_neg hk, List.filter_cons_of_neg (by simpa using hk), List.filter_nil]

theorem knows_read (p : StateCall) (log : List StateCall) (t : Table) (_ : Reflected log t) :
    Knows p (currentWithdrawn p t) t := by
  intro hfound
  by_cases hp : Indexed p.family p.prefixCidr
  · rw [currentWithdrawn_eq hp] at hfound
    exact ⟨hp, fun hrow => hfound (by rw [hrow]; rfl)⟩
  · exact absurd (currentWithdrawn_outside hp t) hfound

/-- An insertion that the indexes allow. -/
theorem reflected_insert {log : List StateCall} {p : StateCall} {t t' : Table}
    (h : Reflected log t) (hwrite : writeRoute p none t = .ok t') :
    Reflected (log ++ [p]) t' ∧ ∀ k, row rowKey k t ≠ none → row rowKey k t' ≠ none := by
  have hunique : checkUnique (t ++ [newRow p]) = .ok t' := hwrite
  have ht' : t' = t ++ [newRow p] := by
    rw [checkUnique] at hunique
    split at hunique
    · cases hunique
      rfl
    · cases hunique
  have hnodup := indexedNodup_of_unique hunique
  subst ht'
  have hrow : ∀ k, row rowKey k (t ++ [newRow p]) =
      (row rowKey k t).or (if callKey p = k then some (newRow p) else none) := by
    intro k
    have hkey : rowKey (newRow p) = callKey p := rfl
    by_cases hk : callKey p = k <;> simp [row, List.find?_append, hkey, hk]
  refine ⟨⟨hnodup, fun k hk => ?_⟩, fun k hne => ?_⟩
  · rw [hrow, historyOf_concat]
    by_cases hkey : callKey p = k
    · subst hkey
      have hp : indexedRow (newRow p) = true := decide_eq_true hk
      have hfresh := other_keys_before hnodup hp
      have hnone : row rowKey (callKey p) t = none := row_eq_none.mpr hfresh
      rcases h.rows (callKey p) hk with ⟨hnil, _⟩ | ⟨r, hr, _⟩
      · rw [if_pos rfl, if_pos rfl, hnil, hnone]
        exact .inr ⟨newRow p, rfl, reflects_first p⟩
      · rw [hnone] at hr
        cases hr
    · rw [if_neg hkey, if_neg hkey, List.append_nil, Option.or_none]
      exact h.rows k hk
  · rw [hrow]
    cases hold : row rowKey k t with
    | none => exact absurd hold hne
    | some r => exact Option.some_ne_none r

/-- An update of the row of an indexed key. -/
theorem reflected_update {log : List StateCall} {p : StateCall} {current : Bool} {t t' : Table}
    (h : Reflected log t) (hp : Indexed p.family p.prefixCidr) (hrow : row rowKey (callKey p) t ≠ none)
    (hwrite : writeRoute p (some current) t = .ok t') :
    Reflected (log ++ [p]) t' ∧ ∀ k, row rowKey k t ≠ none → row rowKey k t' ≠ none := by
  obtain ⟨r, hr⟩ := Option.ne_none_iff_exists'.mp hrow
  have hkey := rowKey_of_row hr
  obtain ⟨a, b, rfl, ha, hb⟩ := indexed_split h.nodup (decide_eq_true hp) hr
  rw [writeRoute_split hp hkey ha hb] at hwrite
  obtain ⟨r', hwritten, hunique⟩ := bind_ok_iff.mp hwrite
  have hkey' := writeRow_key hkey hwritten
  have hnodup := indexedNodup_replace h.nodup (hkey'.trans hkey.symm)
    ((indexedRow_of_key hkey').trans (indexedRow_of_key hkey).symm)
  rw [checkUnique_indexed hnodup] at hunique
  cases hunique
  have hself : row rowKey (callKey p) (a ++ r' :: b) = some r' := by
    rw [row_append_other ha, ← hkey', row_cons_self]
  have hother : ∀ k, callKey p ≠ k → row rowKey k (a ++ r' :: b) = row rowKey k (a ++ r :: b) :=
    fun k hk => row_replace (fun h => hk (hkey.symm.trans h)) fun h => hk (hkey'.symm.trans h)
  refine ⟨⟨hnodup, fun k hk => ?_⟩, fun k hne => ?_⟩
  · rw [historyOf_concat]
    by_cases hsame : callKey p = k
    · subst hsame
      rw [if_pos rfl, hself]
      rcases h.rows (callKey p) hk with ⟨_, hnone⟩ | ⟨x, hx, hreflects⟩
      · exact absurd hnone hrow
      · rw [hr, Option.some_inj] at hx
        subst hx
        exact .inr ⟨r', rfl, reflects_concat hreflects hwritten⟩
    · rw [if_neg hsame, List.append_nil, hother k hsame]
      exact h.rows k hk
  · by_cases hsame : callKey p = k
    · rw [← hsame, hself]
      exact Option.some_ne_none r'
    · rw [hother k hsame]
      exact hne

/-- The step lemma: a commit by what was found when the call looked its row up. -/
theorem reflected_commit (p : StateCall) (found : Option Bool) (log : List StateCall) (t t' : Table)
    (h : Reflected log t) (hknows : Knows p found t) (hwrite : writeRoute p found t = .ok t') :
    Reflected (log ++ [p]) t' ∧ ∀ q u, True → Knows q u t → Knows q u t' := by
  have hcommit : Reflected (log ++ [p]) t' ∧ ∀ k, row rowKey k t ≠ none → row rowKey k t' ≠ none := by
    cases found with
    | none => exact reflected_insert h hwrite
    | some current =>
      obtain ⟨hp, hrow⟩ := hknows (Option.some_ne_none current)
      exact reflected_update h hp hrow hwrite
  exact ⟨hcommit.1, fun q u _ hq hu => ⟨(hq hu).1, hcommit.2 (callKey q) (hq hu).2⟩⟩

theorem indexedRow_of_indexed {k : RouteKey} (hk : Indexed k.family k.prefixCidr) :
    (fun r => decide (rowKey r = k)) = fun r => indexedRow r && decide (rowKey r = k) := by
  funext r
  by_cases hr : rowKey r = k
  · have hindexed : indexedRow r = true := by
      subst hr
      exact decide_eq_true hk
    rw [hindexed, Bool.true_and]
  · rw [decide_eq_false hr, Bool.and_false]

theorem row_indexed {k : RouteKey} (hk : Indexed k.family k.prefixCidr) (t : Table) :
    row rowKey k (t.filter indexedRow) = row rowKey k t := by
  rw [row, row, List.find?_filter, indexedRow_of_indexed hk]
  simp only [Bool.decide_and, Bool.decide_eq_true]

/-- All rows of an indexed key: one or none. -/
theorem filter_indexed {t : Table} (hnodup : IndexedNodup t) {k : RouteKey}
    (hk : Indexed k.family k.prefixCidr) : (t.filter fun r => rowKey r = k) = (row rowKey k t).toList := by
  have hfilter : (t.filter fun r => rowKey r = k) =
      (t.filter indexedRow).filter fun r => rowKey r = k := by
    rw [List.filter_filter]
    refine List.filter_congr fun r _ => ?_
    rw [congrFun (indexedRow_of_indexed hk) r, Bool.and_comm]
    simp only [Bool.and_assoc, Bool.and_self]
  rw [hfilter, ← row_indexed hk]
  exact filter_key hnodup k

/-- In every order of the steps of any number of calls on an empty table, an indexed route has one row
when a call for it has committed and none before, and the row reflects the committed calls. -/
theorem reflects_committed_calls {labels : List (Label StateCall)}
    {w : World Table (Option Bool) DbError StateCall}
    (hrun : run routeStateCalls.step (.start []) labels = some w) (k : RouteKey)
    (hk : Indexed k.family k.prefixCidr) :
    (w.shared.filter fun r => rowKey r = k).length = (if (historyOf k w.log).isEmpty then 0 else 1) ∧
      ∀ r ∈ w.shared, rowKey r = k → Reflects (historyOf k w.log) r := by
  have hstart : Reflected [] [] := ⟨List.nodup_nil, fun _ _ => .inl ⟨rfl, rfl⟩⟩
  have hapart : Throughout routeStateCalls.step (CommitsApart fun _ _ => True) (.start []) labels :=
    throughout_of_always commitsApart_true labels _
  have hreflected : Reflected w.log w.shared :=
    (run_knowing knows_read reflected_commit (fun _ _ _ _ _ _ _ _ => True.intro) hstart hapart hrun).inv
  rw [filter_indexed hreflected.nodup hk]
  rcases hreflected.rows k hk with ⟨hnil, hrow⟩ | ⟨x, hx, hreflects⟩
  · rw [hrow, hnil]
    exact ⟨rfl, fun r hr hkey => absurd hkey (row_eq_none.mp hrow r hr)⟩
  · have hne : historyOf k w.log ≠ [] := by
      intro hnil
      rw [hnil] at hreflects
      cases hreflects.firstSeen
    refine ⟨by rw [hx, if_neg (by simpa using hne)]; rfl, fun r hr hkey => ?_⟩
    have hmem : r ∈ w.shared.filter fun r => rowKey r = k := List.mem_filter.mpr ⟨hr, by simpa using hkey⟩
    rw [filter_indexed hreflected.nodup hk, hx, Option.toList_some, List.mem_singleton] at hmem
    rw [hmem]
    exact hreflects

/-- A withdrawal and an announcement of one route that stands, each by what it found then: the
announcement comes last, and is not counted. -/
def missedChange : List (Label StateCall) :=
  [.begin (sampleCall false), .act 0 .read, .act 0 .write, .act 0 .commit, .begin (sampleCall true),
    .begin (sampleCall false), .act 1 .read, .act 2 .read, .act 1 .write, .act 1 .commit, .act 2 .write,
    .act 2 .commit]

theorem reflects_missed_change :
    let w := (run routeStateCalls.step (.start []) missedChange).get (by decide)
    let k := callKey (sampleCall false)
    (w.shared.filter fun r => rowKey r = k).length = (if (historyOf k w.log).isEmpty then 0 else 1) ∧
      ∀ r ∈ w.shared, rowKey r = k → Reflects (historyOf k w.log) r :=
  @reflects_committed_calls missedChange _ (Option.some_get _).symm _ (by decide)

end Pybmpmon.Database.ManyCalls
