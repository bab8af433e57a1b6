import Pybmpmon.Database.BatchWriter
import Pybmpmon.Database.StateTable
import Pybmpmon.Listener.RouteMonitoring
import Pybmpmon.Protocol.BmpEncoding
import Pybmpmon.Protocol.UpdateEncoding

/-!
# One row for each route

Calls of every family and with any prefix, one after another. A call no unique index
covers never finds a row: the table keeps one row for each such call. A call an index
covers inserts the one row of its key or updates it. So two rows for one route come from
calls outside the indexes only, and from each repetition of one.
-/
namespace Pybmpmon.Database.StateRows

open Pybmpmon.Lib.KeyedTable Pybmpmon.Lib.Outcome Pybmpmon.Python
open Pybmpmon.Models.Route Pybmpmon.Protocol.BmpEncoding Pybmpmon.Protocol.UpdateEncoding
open Pybmpmon.Listener.RouteMonitoring Pybmpmon.Database.BatchWriter
open Pybmpmon.Database.RouteState Pybmpmon.Database.StateTable

/-- The eight columns that name a route. Two NULLs are equal here. -/
structure Combination where
  bmpPeerIp : IpAddress
  bgpPeerIp : IpAddress
  family : Family
  prefixCidr : Option Cidr
  policyStage : PolicyStage
  evpnRd : Option String
  evpnEsi : Option String
  macAddress : Option String
  deriving DecidableEq, Repr

def callCombination (p : StateCall) : Combination :=
  ⟨p.bmpPeerIp, p.bgpPeerIp, p.family, p.prefixCidr, p.policyStage, p.evpnRd, p.evpnEsi, p.macAddress⟩

def rowCombination (r : StateRow) : Combination :=
  ⟨r.bmpPeerIp, r.bgpPeerIp, r.family, r.prefixCidr, r.policyStage, r.evpnRd, r.evpnEsi, r.macAddress⟩

/-- No two rows agree on the eight columns. -/
def OneRowEach (t : Table) : Prop := (t.map rowCombination).Nodup

instance (t : Table) : Decidable (OneRowEach t) := inferInstanceAs (Decidable (List.Nodup _))

/-- The call writes the row of its route where it stands. -/
def UpdatesExisting (p : StateCall) (t : Table) : Prop :=
  ∃ a r r' b, t = a ++ r :: b ∧ rowKey r = callKey p ∧ updateRouteState p t = .ok (a ++ r' :: b)

/-- After every call there is one row each, and a call that is not the first of its combination
updates the row. -/
def RowsStayUnique (calls : List StateCall) : Prop :=
  ∀ before p after, calls = before ++ p :: after →
    OneRowEach (tableAfter (before ++ [p])) ∧
      (callCombination p ∈ before.map callCombination → UpdatesExisting p (tableAfter before))

/-- The counters of the row of the call can take it: the call changes no state, or their sum is below
the limit. -/
def HasRoom (p : StateCall) (t : Table) : Prop :=
  ∀ r ∈ t, rowKey r = callKey p →
    r.learnCount + r.withdrawCount + (if r.isWithdrawn = p.isWithdrawn then 0 else 1) ≤ 2147483647

/-- Only combinations that an index covers come again, and then their counters have room. -/
def RepeatsIndexed (calls : List StateCall) : Prop :=
  ∀ before p after, calls = before ++ p :: after →
    callCombination p ∈ before.map callCombination →
      Indexed p.family p.prefixCidr ∧ HasRoom p (tableAfter before)

/-! ## The two kinds of rows -/

def indexedRow (r : StateRow) : Bool := Indexed r.family r.prefixCidr

def indexedCall (p : StateCall) : Bool := Indexed p.family p.prefixCidr

theorem indexedRow_of_key {r : StateRow} {p : StateCall} (h : rowKey r = callKey p) :
    indexedRow r = indexedCall p := by
  rw [rowKey, callKey, RouteKey.mk.injEq] at h
  rw [indexedRow, indexedCall, h.2.2.1, h.2.2.2.1]

theorem rowKey_of_combination {r r' : StateRow} (h : rowCombination r = rowCombination r') :
    rowKey r = rowKey r' := by
  simp only [rowCombination, Combination.mk.injEq] at h
  obtain ⟨hbmp, hbgp, hfamily, hcidr, hpolicy, hrd, hesi, hmac⟩ := h
  simp only [rowKey, hbmp, hbgp, hfamily, hcidr, hpolicy, hrd, hesi, hmac]

theorem callKey_of_combination {p q : StateCall} (h : callCombination p = callCombination q) :
    callKey p = callKey q := @rowKey_of_combination (newRow p) (newRow q) h

/-- The rows an index covers have one each of their keys. -/
def IndexedNodup (t : Table) : Prop := ((t.filter indexedRow).map rowKey).Nodup

/-- An index has no entry for a row outside the indexes. -/
theorem filterMap_indexed {κ : Type} {index : StateRow → Option κ}
    (h : ∀ r, ¬Indexed r.family r.prefixCidr → index r = none) (t : Table) :
    t.filterMap index = (t.filter indexedRow).filterMap index := by
  rw [List.filterMap_filter]
  apply List.filterMap_congr
  intro r _
  by_cases hr : indexedRow r = true
  · rw [if_pos hr]
  · rw [if_neg hr]
    exact h r (by simpa [indexedRow] using hr)

theorem checkUnique_indexed {t : Table} (h : IndexedNodup t) : checkUnique t = .ok t := by
  have hip : ∀ r, ¬Indexed r.family r.prefixCidr → ipIndexKey r = none := by
    intro r hnot
    rw [ipIndexKey]
    split
    · cases hcidr : r.prefixCidr with
      | none => rfl
      | some c => exact absurd (.inl ⟨‹_›, by rw [hcidr]; rfl⟩) hnot
    · rfl
  have hevpn : ∀ r, ¬Indexed r.family r.prefixCidr → evpnIndexKey r = none := by
    intro r hnot
    rw [evpnIndexKey, if_neg fun hfamily => hnot (.inr hfamily)]
  rw [checkUnique, if_pos]
  rw [filterMap_indexed hip, filterMap_indexed hevpn]
  exact ⟨nodup_filterMap (fun _ _ => ipIndexKey_some) h, nodup_filterMap (fun _ _ => evpnIndexKey_some) h⟩

/-- Where the row of an indexed call stands. -/
theorem indexed_split {t : Table} (hnodup : IndexedNodup t) {p : StateCall} {r : StateRow}
    (hp : indexedCall p = true) (h : row rowKey (callKey p) t = some r) :
    ∃ a b, t = a ++ r :: b ∧ (∀ x ∈ a, rowKey x ≠ callKey p) ∧ ∀ x ∈ b, rowKey x ≠ callKey p := by
  obtain ⟨_, a, b, rfl, ha⟩ := List.find?_eq_some_iff_append.mp h
  have hr : rowKey r = callKey p := rowKey_of_row h
  refine ⟨a, b, rfl, fun x hx => by simpa using ha x hx, fun x hx hk => ?_⟩
  have hindexed : ∀ x, rowKey x = callKey p → indexedRow x = true :=
    fun x hx => (indexedRow_of_key hx).trans hp
  rw [IndexedNodup, List.filter_append, List.filter_cons_of_pos (hindexed r hr), List.map_append,
    List.map_cons, List.nodup_append] at hnodup
  have hcons := (List.nodup_cons.mp hnodup.2.1).1
  exact hcons (List.mem_map.mpr ⟨x, List.mem_filter.mpr ⟨hx, hindexed x hk⟩, hk.trans hr.symm⟩)

/-- A call outside the indexes finds nothing. -/
theorem currentWithdrawn_outside {p : StateCall} (hp : ¬Indexed p.family p.prefixCidr) (t : Table) :
    currentWithdrawn p t = none := by
  have hevpn : p.family ≠ .evpn := fun h => hp (.inr h)
  by_cases hip : isIpFamily p.family = true
  · have hcidr : p.prefixCidr = none := by
      cases hc : p.prefixCidr with
      | none => rfl
      | some c => exact absurd (.inl ⟨hip, by rw [hc]; rfl⟩) hp
    have hmiss : t.find? (sameIpRoute p) = none := by
      rw [List.find?_eq_none]
      intro r _ hsame
      simp only [sameIpRoute, hcidr, Bool.and_eq_true, beq_iff_eq] at hsame
      obtain ⟨⟨_, hsome, hnone⟩, _⟩ := hsame
      rw [hnone] at hsome
      cases hsome
    rw [currentWithdrawn, if_pos hip, hmiss]
    rfl
  · rw [currentWithdrawn, if_neg hip, if_neg hevpn]

/-! ## One call -/

theorem indexedRow_newRow (p : StateCall) : indexedRow (newRow p) = indexedCall p := rfl

theorem indexedNodup_insert {t : Table} (hnodup : IndexedNodup t) {p : StateCall}
    (hfresh : indexedCall p = true → ∀ r ∈ t, rowKey r ≠ callKey p) :
    IndexedNodup (t ++ [newRow p]) := by
  rw [IndexedNodup, List.filter_append]
  by_cases hp : indexedRow (newRow p) = true
  · rw [List.filter_cons_of_pos hp, List.filter_nil, List.map_append, List.nodup_append]
    refine ⟨hnodup, List.nodup_singleton _, ?_⟩
    intro k hk k' hk'
    obtain ⟨r, hr, rfl⟩ := List.mem_map.mp hk
    rw [List.map_singleton, List.mem_singleton] at hk'
    rw [hk']
    exact hfresh hp r (List.mem_of_mem_filter hr)
  · rw [List.filter_cons_of_neg hp, List.filter_nil, List.append_nil]
    exact hnodup

theorem indexedNodup_replace {a b : Table} {r r' : StateRow} (hnodup : IndexedNodup (a ++ r :: b))
    (hkey : rowKey r' = rowKey r) (hindexed : indexedRow r' = indexedRow r) :
    IndexedNodup (a ++ r' :: b) := by
  rw [IndexedNodup, List.filter_append] at hnodup ⊢
  by_cases hr : indexedRow r = true
  · rw [List.filter_cons_of_pos hr] at hnodup
    rw [List.filter_cons_of_pos (hindexed.trans hr), List.map_append, List.map_cons, hkey,
      ← List.map_cons, ← List.map_append]
    exact hnodup
  · rw [List.filter_cons_of_neg hr] at hnodup
    rw [List.filter_cons_of_neg (by rw [hindexed]; exact hr)]
    exact hnodup

/-- All that a call can do to a table: insert its row, or update the row of its key, which fails on
a counter only. -/
theorem call_cases {t : Table} (hnodup : IndexedNodup t) (p : StateCall) :
    (updateRouteState p t = .ok (t ++ [newRow p]) ∧
        (indexedCall p = true → ∀ r ∈ t, rowKey r ≠ callKey p)) ∨
      indexedCall p = true ∧ ∃ a r b, t = a ++ r :: b ∧ rowKey r = callKey p ∧
        ((∃ r', updateRow p r = .ok r' ∧ updateRouteState p t = .ok (a ++ r' :: b)) ∨
          ∃ d, updateRow p r = .error d ∧ updateRouteState p t = .error d) := by
  by_cases hp : indexedCall p = true
  · have hindexed : Indexed p.family p.prefixCidr := by simpa [indexedCall] using hp
    cases hrow : row rowKey (callKey p) t with
    | none =>
      have hfresh := row_eq_none.mp hrow
      have hunique := checkUnique_indexed (indexedNodup_insert hnodup fun _ => hfresh)
      left
      refine ⟨?_, fun _ => hfresh⟩
      rw [updateRouteState, currentWithdrawn_eq hindexed, hrow]
      exact hunique
    | some r =>
      have hr := rowKey_of_row hrow
      obtain ⟨a, b, rfl, ha, hb⟩ := indexed_split hnodup hp hrow
      have hsplit := updateRouteState_split hindexed hr ha hb
      refine .inr ⟨hp, a, r, b, rfl, hr, ?_⟩
      cases hupdate : updateRow p r with
      | error d => exact .inr ⟨d, rfl, by rw [hsplit, hupdate, error_bind]⟩
      | ok r' =>
        have hkey := writeRow_key hr hupdate
        have hunique := checkUnique_indexed (indexedNodup_replace hnodup (hkey.trans hr.symm)
          ((indexedRow_of_key hkey).trans (indexedRow_of_key hr).symm))
        exact .inl ⟨r', rfl, by rw [hsplit, hupdate, ok_bind, hunique]⟩
  · have hnot : ¬Indexed p.family p.prefixCidr := by simpa [indexedCall] using hp
    have hunique := checkUnique_indexed (indexedNodup_insert hnodup fun h => absurd h hp)
    left
    refine ⟨?_, fun h => absurd h hp⟩
    rw [updateRouteState, currentWithdrawn_outside hnot]
    exact hunique

/-! ## Any calls -/

/-- What the table keeps of the calls: one row of each indexed key that was called, and one row for
each other call. -/
structure Kept (calls : List StateCall) (t : Table) : Prop where
  nodup : IndexedNodup t
  found : ∀ p ∈ calls, indexedCall p = true → ∃ r ∈ t, rowKey r = callKey p
  outside : (t.filter fun r => !indexedRow r).map rowCombination =
    (calls.filter fun p => !indexedCall p).map callCombination

theorem tableAfter_concat (calls : List StateCall) (p : StateCall) :
    tableAfter (calls ++ [p]) = applyCall (tableAfter calls) p := by
  rw [tableAfter, List.foldl_concat, ← tableAfter]

/-- A call for a key that has a row finds one for every call so far. -/
theorem Kept.found_concat {calls : List StateCall} {t : Table} (h : Kept calls t) {p : StateCall}
    {r : StateRow} (hmem : r ∈ t) (hr : rowKey r = callKey p) :
    ∀ q ∈ calls ++ [p], indexedCall q = true → ∃ x ∈ t, rowKey x = callKey q := by
  intro q hq hindexed
  rcases List.mem_append.mp hq with hq | hq
  · exact h.found q hq hindexed
  · rw [List.mem_singleton.mp hq]
    exact ⟨r, hmem, hr⟩

theorem indexed_not_outside {calls : List StateCall} {p : StateCall} (hp : indexedCall p = true) :
    ((calls ++ [p]).filter fun p => !indexedCall p) = calls.filter fun p => !indexedCall p := by
  rw [List.filter_append, List.filter_cons_of_neg (by simp [hp]), List.filter_nil, List.append_nil]

theorem kept_insert {calls : List StateCall} {t : Table} (h : Kept calls t) {p : StateCall}
    (hfresh : indexedCall p = true → ∀ r ∈ t, rowKey r ≠ callKey p) :
    Kept (calls ++ [p]) (t ++ [newRow p]) := by
  constructor
  · exact indexedNodup_insert h.nodup hfresh
  · intro q hq hindexed
    rcases List.mem_append.mp hq with hq | hq
    · obtain ⟨r, hr, hkey⟩ := h.found q hq hindexed
      exact ⟨r, List.mem_append_left _ hr, hkey⟩
    · rw [List.mem_singleton.mp hq]
      exact ⟨newRow p, List.mem_append_right _ List.mem_cons_self, rfl⟩
  · rw [List.filter_append, List.filter_append, List.map_append, List.map_append, h.outside]
    congr 1
    by_cases hp : indexedCall p = true
    · rw [List.filter_cons_of_neg (by simp [indexedRow_newRow, hp]),
        List.filter_cons_of_neg (by simp [hp])]
      rfl
    · rw [List.filter_cons_of_pos (by simp [indexedRow_newRow, hp]),
        List.filter_cons_of_pos (by simp [hp])]
      rfl

theorem kept_replace {calls : List StateCall} {a b : Table} {r r' : StateRow} {p : StateCall}
    (h : Kept calls (a ++ r :: b)) (hp : indexedCall p = true) (hr : rowKey r = callKey p)
    (hr' : rowKey r' = callKey p) : Kept (calls ++ [p]) (a ++ r' :: b) := by
  have hindexed : indexedRow r = true := (indexedRow_of_key hr).trans hp
  have hindexed' : indexedRow r' = true := (indexedRow_of_key hr').trans hp
  constructor
  · exact indexedNodup_replace h.nodup (hr'.trans hr.symm) (hindexed'.trans hindexed.symm)
  · intro q hq hq'
    obtain ⟨x, hx, hxkey⟩ := h.found_concat (by simp) hr q hq hq'
    rw [List.mem_append, List.mem_cons] at hx
    rcases hx with hx | rfl | hx
    · exact ⟨x, by simp [hx], hxkey⟩
    · exact ⟨r', by simp, (hr'.trans hr.symm).trans hxkey⟩
    · exact ⟨x, by simp [hx], hxkey⟩
  · have houtside := h.outside
    rw [List.filter_append, List.filter_cons_of_neg (by simp [hindexed])] at houtside
    rw [List.filter_append, List.filter_cons_of_neg (by simp [hindexed']), indexed_not_outside hp]
    exact houtside

/-- The step lemma. -/
theorem kept_applyCall {calls : List StateCall} {t : Table} (h : Kept calls t) (p : StateCall) :
    Kept (calls ++ [p]) (applyCall t p) := by
  rcases call_cases h.nodup p with ⟨hinsert, hfresh⟩ |
    ⟨hp, a, r, b, rfl, hr, ⟨r', hwritten, hupdate⟩ | ⟨d, _, hupdate⟩⟩
  · rw [applyCall, hinsert]
    exact kept_insert h hfresh
  · rw [applyCall, hupdate]
    exact kept_replace h hp hr (writeRow_key hr hwritten)
  · rw [applyCall, hupdate]
    exact kept_replace h hp hr hr

/-- The run lemma. -/
theorem kept_tableAfter (calls : List StateCall) : Kept calls (tableAfter calls) := by
  induction calls using List.reverseRecOn with
  | nil =>
    refine ⟨List.nodup_nil, ?_, rfl⟩
    intro p hp
    cases hp
  | append_singleton calls p ih =>
    rw [tableAfter_concat]
    exact kept_applyCall ih p

/-- The rows before the one row of an indexed key are of other keys. -/
theorem other_keys_before {a b : Table} {r : StateRow} (hnodup : IndexedNodup (a ++ r :: b))
    (hr : indexedRow r = true) : ∀ x ∈ a, rowKey x ≠ rowKey r := by
  intro x hx hkey
  have hindexed : indexedRow x = true := by
    rw [rowKey, rowKey, RouteKey.mk.injEq] at hkey
    rw [indexedRow, hkey.2.2.1, hkey.2.2.2.1]
    exact hr
  rw [IndexedNodup, List.filter_append, List.filter_cons_of_pos hr, List.map_append, List.map_cons,
    List.nodup_append] at hnodup
  have hbefore : rowKey x ∈ (a.filter indexedRow).map rowKey :=
    List.mem_map.mpr ⟨x, List.mem_filter.mpr ⟨hx, hindexed⟩, rfl⟩
  exact hnodup.2.2 _ hbefore _ List.mem_cons_self hkey

/-- What a call of any kind makes of the row of an indexed key. -/
theorem row_applyCall {t : Table} (hnodup : IndexedNodup t) (p : StateCall) {k : RouteKey}
    (hk : Indexed k.family k.prefixCidr) :
    row rowKey k (applyCall t p) =
      if callKey p = k then track newRow updateRow p (row rowKey k t) else row rowKey k t := by
  rcases call_cases hnodup p with ⟨hinsert, hfresh⟩ |
    ⟨hp, a, r, b, rfl, hr, hcase⟩
  · rw [applyCall, hinsert]
    by_cases hkey : callKey p = k
    · subst hkey
      have hnone := hfresh (decide_eq_true hk)
      rw [if_pos rfl, row_eq_none.mpr hnone, row_append_other hnone]
      exact row_cons_self rowKey (newRow p) []
    · rw [if_neg hkey]
      have hother : rowKey (newRow p) ≠ k := hkey
      simp [row, List.find?_append, hother]
  · have ha := other_keys_before hnodup ((indexedRow_of_key hr).trans hp)
    rw [hr] at ha
    by_cases hkey : callKey p = k
    · subst hkey
      have hself := row_cons_self rowKey r b
      rw [hr] at hself
      rw [if_pos rfl, row_append_other ha, hself]
      rcases hcase with ⟨r', hupdate, hok⟩ | ⟨d, hupdate, herror⟩
      · have hself' := row_cons_self rowKey r' b
        rw [writeRow_key hr hupdate] at hself'
        rw [applyCall, hok, track, hupdate]
        simp only
        rw [row_append_other ha, hself']
      · rw [applyCall, herror, track, hupdate]
        simp only
        rw [row_append_other ha, hself]
    · rw [if_neg hkey]
      rcases hcase with ⟨r', hupdate, hok⟩ | ⟨d, hupdate, herror⟩
      · rw [applyCall, hok]
        have hr' := writeRow_key hr hupdate
        exact row_replace (fun h => hkey (hr.symm.trans h)) fun h => hkey (hr'.symm.trans h)
      · rw [applyCall, herror]

/-- The row of an indexed key after calls of any kind is what the key's own calls make of it. -/
theorem row_tableAfter_any (calls : List StateCall) {k : RouteKey}
    (hk : Indexed k.family k.prefixCidr) :
    row rowKey k (tableAfter calls) =
      (calls.filter fun p => callKey p = k).foldl (fun o p => track newRow updateRow p o) none := by
  induction calls using List.reverseRecOn with
  | nil => rfl
  | append_singleton calls p ih =>
    rw [tableAfter_concat, row_applyCall (kept_tableAfter calls).nodup p hk, ih, List.filter_append]
    by_cases hkey : callKey p = k
    · rw [if_pos hkey, List.filter_cons_of_pos (by simpa using hkey), List.filter_nil,
        List.foldl_concat]
    · rw [if_neg hkey, List.filter_cons_of_neg (by simpa using hkey), List.filter_nil,
        List.append_nil]

/-- Rows of two kinds that no combination shares have no combination twice when neither kind has. -/
theorem nodup_of_kinds {t : Table} (hindexed : IndexedNodup t)
    (houtside : ((t.filter fun r => !indexedRow r).map rowCombination).Nodup) : OneRowEach t := by
  induction t with
  | nil => exact List.nodup_nil
  | cons r t ih =>
    have hkind : ∀ x, rowCombination x = rowCombination r → indexedRow x = indexedRow r := by
      intro x hx
      simp only [rowCombination, Combination.mk.injEq] at hx
      rw [indexedRow, indexedRow, hx.2.2.1, hx.2.2.2.1]
    rw [OneRowEach, List.map_cons, List.nodup_cons]
    cases hr : indexedRow r with
    | true =>
      rw [IndexedNodup, List.filter_cons_of_pos hr, List.map_cons, List.nodup_cons] at hindexed
      rw [List.filter_cons_of_neg (by simp [hr])] at houtside
      refine ⟨?_, ih hindexed.2 houtside⟩
      intro hmem
      obtain ⟨x, hx, hsame⟩ := List.mem_map.mp hmem
      have hkept : x ∈ t.filter indexedRow := List.mem_filter.mpr ⟨hx, (hkind x hsame).trans hr⟩
      exact hindexed.1 (List.mem_map.mpr ⟨x, hkept, rowKey_of_combination hsame⟩)
    | false =>
      rw [IndexedNodup, List.filter_cons_of_neg (by simp [hr])] at hindexed
      rw [List.filter_cons_of_pos (by simp [hr]), List.map_cons, List.nodup_cons] at houtside
      refine ⟨?_, ih hindexed houtside.2⟩
      intro hmem
      obtain ⟨x, hx, hsame⟩ := List.mem_map.mp hmem
      have hkept : x ∈ t.filter fun r => !indexedRow r :=
        List.mem_filter.mpr ⟨hx, by rw [hkind x hsame, hr]; rfl⟩
      exact houtside.1 (List.mem_map.mpr ⟨x, hkept, hsame⟩)

/-- There are two rows for one route exactly when a call outside the indexes has come twice. -/
theorem oneRowEach_iff (calls : List StateCall) :
    OneRowEach (tableAfter calls) ↔
      ((calls.filter fun p => !indexedCall p).map callCombination).Nodup := by
  have hkept := kept_tableAfter calls
  constructor
  · intro h
    rw [← hkept.outside]
    exact List.Nodup.sublist (List.filter_sublist.map rowCombination) h
  · intro h
    exact nodup_of_kinds hkept.nodup (by rw [hkept.outside]; exact h)

theorem churn_touched (p : StateCall) (r : StateRow) :
    churn (touched p (r.isWithdrawn != p.isWithdrawn) r) =
      r.learnCount + r.withdrawCount + if r.isWithdrawn = p.isWithdrawn then 0 else 1 := by
  cases hr : r.isWithdrawn <;> cases hp : p.isWithdrawn <;> simp [churn, touched, hp] <;> omega

theorem row_unique {t : Table} (hnodup : IndexedNodup t) {p : StateCall} (hp : indexedCall p = true)
    {r x : StateRow} (hr : r ∈ t) (hx : x ∈ t) (hrkey : rowKey r = callKey p)
    (hxkey : rowKey x = callKey p) : x = r := by
  have hmem : ∀ y ∈ t, rowKey y = callKey p → y ∈ t.filter indexedRow :=
    fun y hy hkey => List.mem_filter.mpr ⟨hy, (indexedRow_of_key hkey).trans hp⟩
  exact List.inj_on_of_nodup_map hnodup (hmem x hx hxkey) (hmem r hr hrkey) (hxkey.trans hrkey.symm)

/-- A call that is not the first of its combination writes an existing row exactly when an index
covers it and the counters of the row have room. -/
theorem updatesExisting_iff {before : List StateCall} {p : StateCall}
    (hrepeat : callCombination p ∈ before.map callCombination) :
    UpdatesExisting p (tableAfter before) ↔
      Indexed p.family p.prefixCidr ∧ HasRoom p (tableAfter before) := by
  have hkept := kept_tableAfter before
  have hcases := call_cases hkept.nodup p
  constructor
  · rintro ⟨a, r, r', b, ht, hr, hupdate⟩
    rcases hcases with ⟨hinsert, _⟩ | ⟨hp, a', x, b', ht', hx, ⟨x', hwritten, _⟩ | ⟨d, _, herror⟩⟩
    · -- an insertion makes the table longer
      have hlength := congrArg List.length ht
      rw [hinsert, Except.ok.injEq] at hupdate
      have hgrown := congrArg List.length hupdate
      simp only [List.length_append, List.length_cons, List.length_nil] at hgrown hlength
      omega
    · refine ⟨by simpa [indexedCall] using hp, fun y hy hkey => ?_⟩
      have hxmem : x ∈ tableAfter before := by rw [ht']; simp
      rw [row_unique hkept.nodup hp hxmem hy hx hkey, ← churn_touched]
      exact writeRow_room hwritten
    · rw [herror] at hupdate
      cases hupdate
  · rintro ⟨hindexed, hroom⟩
    have hp : indexedCall p = true := by simpa [indexedCall] using hindexed
    obtain ⟨q, hq, hsame⟩ := List.mem_map.mp hrepeat
    have hkey : callKey q = callKey p := callKey_of_combination hsame
    have hqindexed : indexedCall q = true := (indexedRow_of_key (r := newRow q) hkey).trans hp
    obtain ⟨r, hr, hrkey⟩ := hkept.found q hq hqindexed
    rcases hcases with ⟨_, hfresh⟩ | ⟨_, a, x, b, ht, hx, ⟨x', hwritten, hupdate⟩ | ⟨d, herror, _⟩⟩
    · exact absurd (hrkey.trans hkey) (hfresh hp r hr)
    · exact ⟨a, x, x', b, ht, hx, hupdate⟩
    · have hxroom := hroom x (by rw [ht]; simp) hx
      rw [← churn_touched] at hxroom
      obtain ⟨x', hwritten⟩ := writeRow_fits hxroom
      have hupdate : updateRow p x = .ok x' := hwritten
      rw [herror] at hupdate
      cases hupdate

/-- Calls whose repetitions are all indexed have no other call twice. -/
theorem nodup_outside {calls : List StateCall}
    (h : ∀ before p after, calls = before ++ p :: after →
      callCombination p ∈ before.map callCombination → indexedCall p = true) :
    ((calls.filter fun p => !indexedCall p).map callCombination).Nodup := by
  induction calls using List.reverseRecOn with
  | nil => exact List.nodup_nil
  | append_singleton calls p ih =>
    have hbefore := ih fun before q after hsplit => h before q (after ++ [p]) (by simp [hsplit])
    rw [List.filter_append, List.map_append]
    by_cases hp : indexedCall p = true
    · rw [List.filter_cons_of_neg (by simp [hp]), List.filter_nil, List.map_nil, List.append_nil]
      exact hbefore
    · rw [List.filter_cons_of_pos (by simp [hp]), List.filter_nil, List.nodup_append]
      refine ⟨hbefore, List.nodup_singleton _, ?_⟩
      intro k hk k' hk'
      rw [List.map_singleton, List.mem_singleton] at hk'
      rintro rfl
      obtain ⟨q, hq, hsame⟩ := List.mem_map.mp hk
      exact hp (h calls p [] rfl (List.mem_map.mpr ⟨q, List.mem_of_mem_filter hq, hsame.trans hk'⟩))

/-- The calls the routes of the listener are written with. -/
def stateCalls (updates : List RouteUpdate) : List StateCall :=
  updates.map fun route => stateCall (routeTuple route)

/-- The table keeps one row for each route and later calls update it exactly when no call comes again
but one that an index covers, while the counters of its row have room. -/
theorem rowsStayUnique_iff (updates : List RouteUpdate) :
    RowsStayUnique (stateCalls updates) ↔ RepeatsIndexed (stateCalls updates) := by
  generalize stateCalls updates = calls
  constructor
  · intro h before p after hsplit hrepeat
    exact (updatesExisting_iff hrepeat).mp ((h before p after hsplit).2 hrepeat)
  · intro h before p after hsplit
    have hnodup : (((before ++ [p]).filter fun p => !indexedCall p).map callCombination).Nodup := by
      apply nodup_outside
      intro first q rest hstart hrepeat
      have hwhole : calls = first ++ q :: (rest ++ after) := by
        rw [hsplit, List.append_cons, hstart, List.append_assoc, List.cons_append]
      have hindexed := (h first q _ hwhole hrepeat).1
      simpa [indexedCall] using hindexed
    exact ⟨(oneRowEach_iff _).mpr hnodup, fun hrepeat =>
      (updatesExisting_iff hrepeat).mpr (h before p after hsplit hrepeat)⟩

/-- The routes of a Route Monitoring message with one withdrawal of 10.0.0.0/8 in the Withdrawn
Routes field. -/
def classicWithdrawal (time : Timestamp) : List RouteUpdate :=
  (handleRouteMonitoring recorder (fun _ => time)
    (encodeRouteMonitoring samplePeer (encodeUpdate [8, 10] [] [])) samplePeer.peerAddress []).2

/-- The same withdrawal twice leaves two rows that agree on the eight columns. -/
theorem classicWithdrawal_two_rows :
    ¬ RowsStayUnique (stateCalls (classicWithdrawal 0 ++ classicWithdrawal 1)) := by
  intro h
  have hcalls : stateCalls (classicWithdrawal 0 ++ classicWithdrawal 1) =
      stateCalls (classicWithdrawal 0) ++ stateCalls (classicWithdrawal 1) := List.map_append
  obtain ⟨p, hp⟩ : ∃ p, stateCalls (classicWithdrawal 1) = [p] :=
    ⟨_, show _ = [(stateCalls (classicWithdrawal 1)).head (by decide)] by decide⟩
  rw [hcalls, hp] at h
  have hrow := (h _ p [] rfl).1
  rw [← hp, ← hcalls] at hrow
  exact absurd hrow (by decide)

end Pybmpmon.Database.StateRows
