import Pybmpmon.Database.RouteState

/-!
# `update_route_state` as an upsert

For the calls that one of the two unique indexes covers, the two lookups are a
comparison of keys and the function inserts or updates the one row of the call's key.
No such call fails on an index.
-/
namespace Pybmpmon.Database.StateTable

open Pybmpmon.Lib.KeyedTable Pybmpmon.Lib.Outcome Pybmpmon.Python
open Pybmpmon.Models.Route Pybmpmon.Database.Schema Pybmpmon.Database.RouteState

/-- What identifies a route. An EVPN route has three parts more, a NULL read as `''`. -/
structure RouteKey where
  bmpPeerIp : IpAddress
  bgpPeerIp : IpAddress
  family : Family
  prefixCidr : Option Cidr
  policyStage : PolicyStage
  evpnRd : String
  evpnEsi : String
  macAddress : String
  deriving DecidableEq, Repr

/-- A part of the key that only EVPN routes have. -/
def evpnPart (family : Family) (text : Option String) : String :=
  if family = .evpn then coalesce text else ""

def callKey (p : StateCall) : RouteKey :=
  ⟨p.bmpPeerIp, p.bgpPeerIp, p.family, p.prefixCidr, p.policyStage,
    evpnPart p.family p.evpnRd, evpnPart p.family p.evpnEsi, evpnPart p.family p.macAddress⟩

def rowKey (r : StateRow) : RouteKey :=
  ⟨r.bmpPeerIp, r.bgpPeerIp, r.family, r.prefixCidr, r.policyStage,
    evpnPart r.family r.evpnRd, evpnPart r.family r.evpnEsi, evpnPart r.family r.macAddress⟩

/-- The routes the unique indexes cover. -/
def Indexed (family : Family) (prefixCidr : Option Cidr) : Prop :=
  isIpFamily family = true ∧ prefixCidr.isSome = true ∨ family = .evpn

instance (family : Family) (prefixCidr : Option Cidr) : Decidable (Indexed family prefixCidr) :=
  inferInstanceAs (Decidable (_ ∨ _))

/-- The update of a row by the flag that was found. -/
def writeRow (p : StateCall) (current : Bool) (r : StateRow) : Except DbError StateRow :=
  let stateChanged := current != p.isWithdrawn
  if isIpFamily p.family then updateIpRoute p stateChanged r else updateEvpnRoute p stateChanged r

/-- The update of the row that was found, by its own flag. -/
def updateRow (p : StateCall) (r : StateRow) : Except DbError StateRow := writeRow p r.isWithdrawn r

theorem isIpFamily_ne_evpn {family : Family} (h : isIpFamily family = true) : family ≠ .evpn := by
  rintro rfl
  cases h

theorem sameIpRoute_iff {p : StateCall} (hip : isIpFamily p.family = true)
    (hcidr : p.prefixCidr.isSome = true) (r : StateRow) :
    sameIpRoute p r = true ↔ rowKey r = callKey p := by
  have hne := isIpFamily_ne_evpn hip
  obtain ⟨c, hc⟩ := Option.isSome_iff_exists.mp hcidr
  simp only [sameIpRoute, rowKey, callKey, evpnPart, RouteKey.mk.injEq, Bool.and_eq_true,
    beq_iff_eq, hne]
  constructor
  · rintro ⟨⟨⟨⟨hbmp, hbgp⟩, hfamily⟩, _, hpre⟩, hpolicy⟩
    simp [hbmp, hbgp, hfamily, hpre, hpolicy, hne]
  · rintro ⟨hbmp, hbgp, hfamily, hpre, hpolicy, _⟩
    exact ⟨⟨⟨⟨hbmp, hbgp⟩, hfamily⟩, by rw [hpre]; exact hcidr, hpre⟩, hpolicy⟩

theorem sameEvpnRoute_iff {p : StateCall} (hevpn : p.family = .evpn) (r : StateRow) :
    sameEvpnRoute p r = true ↔ rowKey r = callKey p := by
  simp only [sameEvpnRoute, rowKey, callKey, evpnPart, RouteKey.mk.injEq, Bool.and_eq_true,
    beq_iff_eq, hevpn]
  constructor
  · rintro ⟨⟨⟨⟨⟨⟨⟨hbmp, hbgp⟩, hfamily⟩, hrd⟩, hesi⟩, hmac⟩, hpre⟩, hpolicy⟩
    simp [hbmp, hbgp, hfamily, hrd, hesi, hmac, hpre, hpolicy]
  · rintro ⟨hbmp, hbgp, hfamily, hpre, hpolicy, hrd, hesi, hmac⟩
    simp only [hfamily, ↓reduceIte] at hrd hesi hmac
    exact ⟨⟨⟨⟨⟨⟨⟨hbmp, hbgp⟩, hfamily⟩, hrd⟩, hesi⟩, hmac⟩, hpre⟩, hpolicy⟩

/-! ## What an update writes -/

/-- The row both updates write when no counter overflows. -/
def touched (p : StateCall) (stateChanged : Bool) (r : StateRow) : StateRow :=
  { r with
    lastSeen := p.time
    lastStateChange := if stateChanged then p.time else r.lastStateChange
    isWithdrawn := p.isWithdrawn
    learnCount := r.learnCount + if stateChanged && !p.isWithdrawn then 1 else 0
    withdrawCount := r.withdrawCount + if stateChanged && p.isWithdrawn then 1 else 0
    nextHop := if !p.isWithdrawn then p.nextHop else r.nextHop
    asPath := if !p.isWithdrawn then p.asPath else r.asPath
    communities := if !p.isWithdrawn then p.communities else r.communities
    extendedCommunities := if !p.isWithdrawn then p.extendedCommunities else r.extendedCommunities
    med := if !p.isWithdrawn then p.med else r.med
    localPref := if !p.isWithdrawn then p.localPref else r.localPref }

theorem addInteger_ok_iff {a b n : Nat} :
    addInteger a b = .ok n ↔ a + b ≤ 2147483647 ∧ n = a + b := by
  rw [addInteger, fitsInteger_natCast]
  by_cases h : a + b < 2 ^ 31
  · rw [decide_eq_true h, if_pos rfl, Except.ok.injEq]
    omega
  · rw [decide_eq_false h, if_neg (by decide)]
    constructor
    · intro hok
      cases hok
    · rintro ⟨hle, _⟩
      omega

theorem updateIpRoute_ok {p : StateCall} {changed : Bool} {r r' : StateRow}
    (h : updateIpRoute p changed r = .ok r') : r' = touched p changed r := by
  obtain ⟨learnCount, hlearn, h⟩ := bind_ok_iff.mp h
  obtain ⟨withdrawCount, hwithdraw, h⟩ := bind_ok_iff.mp h
  obtain ⟨_, _, h⟩ := bind_ok_iff.mp h
  cases h
  rw [(addInteger_ok_iff.mp hlearn).2, (addInteger_ok_iff.mp hwithdraw).2]
  rfl

/-- The changes of a route that its row has counted, which the index adds up. -/
def churn (r : StateRow) : Nat := r.learnCount + r.withdrawCount

theorem updateIpRoute_fits {p : StateCall} {changed : Bool} {r : StateRow}
    (h : churn (touched p changed r) ≤ 2147483647) :
    updateIpRoute p changed r = .ok (touched p changed r) := by
  have hlearn : addInteger r.learnCount (if changed && !p.isWithdrawn then 1 else 0) =
      .ok (touched p changed r).learnCount :=
    addInteger_ok_iff.mpr ⟨Nat.le_trans (Nat.le_add_right _ _) h, rfl⟩
  have hwithdraw : addInteger r.withdrawCount (if changed && p.isWithdrawn then 1 else 0) =
      .ok (touched p changed r).withdrawCount :=
    addInteger_ok_iff.mpr ⟨Nat.le_trans (Nat.le_add_left _ _) h, rfl⟩
  rw [updateIpRoute, hlearn, ok_bind, hwithdraw, ok_bind, addInteger_ok_iff.mpr ⟨h, rfl⟩]
  rfl

theorem updateIpRoute_room {p : StateCall} {changed : Bool} {r r' : StateRow}
    (h : updateIpRoute p changed r = .ok r') : churn (touched p changed r) ≤ 2147483647 := by
  obtain ⟨learnCount, hlearn, h⟩ := bind_ok_iff.mp h
  obtain ⟨withdrawCount, hwithdraw, h⟩ := bind_ok_iff.mp h
  obtain ⟨_, hchurn, _⟩ := bind_ok_iff.mp h
  rw [(addInteger_ok_iff.mp hlearn).2, (addInteger_ok_iff.mp hwithdraw).2] at hchurn
  exact (addInteger_ok_iff.mp hchurn).1

/-- The row a write leaves agrees with `touched` but for the EVPN columns. -/
theorem writeRow_ok {p : StateCall} {current : Bool} {r r' : StateRow} (h : writeRow p current r = .ok r') :
    ∃ evpnRouteType evpnRd evpnEsi macAddress,
      r' = { touched p (current != p.isWithdrawn) r with
        evpnRouteType := evpnRouteType
        evpnRd := evpnRd
        evpnEsi := evpnEsi
        macAddress := macAddress } ∧
      (evpnRd = r.evpnRd ∨ evpnRd = p.evpnRd) ∧ (evpnEsi = r.evpnEsi ∨ evpnEsi = p.evpnEsi) ∧
      (macAddress = r.macAddress ∨ macAddress = p.macAddress) := by
  simp only [writeRow] at h
  by_cases hip : isIpFamily p.family = true
  · rw [if_pos hip] at h
    exact ⟨_, _, _, _, updateIpRoute_ok h, .inl rfl, .inl rfl, .inl rfl⟩
  · rw [if_neg hip] at h
    obtain ⟨written, hwritten, h⟩ := bind_ok_iff.mp h
    cases h
    cases updateIpRoute_ok hwritten
    refine ⟨_, _, _, _, rfl, ?_⟩
    cases p.isWithdrawn with
    | true => exact ⟨.inl rfl, .inl rfl, .inl rfl⟩
    | false => exact ⟨.inr rfl, .inr rfl, .inr rfl⟩

theorem addInteger_raises (a b : Nat) : Raises (· = .integerOutOfRange) (addInteger a b) :=
  raises_ite (fun _ => raises_ok _) (fun _ => raises_error.mpr rfl)

/-- The only way a write fails. -/
theorem writeRow_raises (p : StateCall) (current : Bool) (r : StateRow) :
    Raises (· = .integerOutOfRange) (writeRow p current r) := by
  have hip : ∀ changed, Raises (· = .integerOutOfRange) (updateIpRoute p changed r) := fun changed =>
    raises_bind (addInteger_raises _ _) fun _ _ =>
      raises_bind (addInteger_raises _ _) fun _ _ =>
        raises_bind (addInteger_raises _ _) fun _ _ => raises_ok _
  exact raises_ite (fun _ => hip _) (fun _ => raises_bind (hip _) fun _ _ => raises_ok _)

theorem writeRow_fits {p : StateCall} {current : Bool} {r : StateRow}
    (h : churn (touched p (current != p.isWithdrawn) r) ≤ 2147483647) :
    ∃ r', writeRow p current r = .ok r' := by
  simp only [writeRow, updateEvpnRoute, updateIpRoute_fits h, ok_bind]
  split
  · exact ⟨_, rfl⟩
  · exact ⟨_, rfl⟩

/-- The counters of a row that was written had room. -/
theorem writeRow_room {p : StateCall} {current : Bool} {r r' : StateRow}
    (h : writeRow p current r = .ok r') : churn (touched p (current != p.isWithdrawn) r) ≤ 2147483647 := by
  simp only [writeRow] at h
  by_cases hip : isIpFamily p.family = true
  · rw [if_pos hip] at h
    exact updateIpRoute_room h
  · rw [if_neg hip] at h
    obtain ⟨written, hwritten, _⟩ := bind_ok_iff.mp h
    exact updateIpRoute_room hwritten

theorem evpnPart_kept {family family' : Family} {old new written : Option String}
    (hfamily : family = family') (hsame : evpnPart family old = evpnPart family' new)
    (h : written = old ∨ written = new) : evpnPart family written = evpnPart family' new := by
  rcases h with rfl | rfl
  · exact hsame
  · rw [hfamily]

/-- A write leaves the row under the key of the call. -/
theorem writeRow_key {p : StateCall} {current : Bool} {r r' : StateRow} (hkey : rowKey r = callKey p)
    (h : writeRow p current r = .ok r') : rowKey r' = callKey p := by
  obtain ⟨_, rd, esi, mac, rfl, hrd, hesi, hmac⟩ := writeRow_ok h
  rw [rowKey, callKey, RouteKey.mk.injEq] at hkey
  obtain ⟨hbmp, hbgp, hfamily, hpre, hpolicy, hkrd, hkesi, hkmac⟩ := hkey
  rw [rowKey, callKey, RouteKey.mk.injEq]
  exact ⟨hbmp, hbgp, hfamily, hpre, hpolicy, evpnPart_kept hfamily hkrd hrd,
    evpnPart_kept hfamily hkesi hesi, evpnPart_kept hfamily hkmac hmac⟩

theorem keepsKeys : KeepsKeys callKey rowKey newRow updateRow where
  insert := fun _ => rfl
  update := fun _ _ _ hkey h => writeRow_key hkey h

/-! ## The table -/

theorem ipIndexKey_some {r : StateRow} {k : IpIndexKey} (h : ipIndexKey r = some k) :
    rowKey r = ⟨k.bmpPeerIp, k.bgpPeerIp, k.family, some k.prefixCidr, k.policyStage, "", "", ""⟩ := by
  rw [ipIndexKey] at h
  by_cases hip : isIpFamily r.family = true
  · rw [if_pos hip, Option.map_eq_some_iff] at h
    obtain ⟨c, hc, rfl⟩ := h
    have hne := isIpFamily_ne_evpn hip
    simp [rowKey, evpnPart, hc, hne]
  · rw [if_neg hip] at h
    cases h

theorem evpnIndexKey_some {r : StateRow} {k : EvpnIndexKey} (h : evpnIndexKey r = some k) :
    rowKey r = ⟨k.bmpPeerIp, k.bgpPeerIp, k.family, k.prefixCidr, k.policyStage, k.evpnRd,
      k.evpnEsi, k.macAddress⟩ := by
  rw [evpnIndexKey] at h
  by_cases hevpn : r.family = .evpn
  · rw [if_pos hevpn, Option.some_inj] at h
    cases h
    simp [rowKey, evpnPart, hevpn]
  · rw [if_neg hevpn] at h
    cases h

/-- Index entries that determine the key are unique where the keys are. -/
theorem nodup_filterMap {β : Type} {index : StateRow → Option β} {keyOf : β → RouteKey}
    (hindex : ∀ r k, index r = some k → rowKey r = keyOf k) {t : Table}
    (hnodup : (t.map rowKey).Nodup) : (t.filterMap index).Nodup := by
  rw [List.Nodup, List.pairwise_map] at hnodup
  rw [List.Nodup, List.pairwise_filterMap]
  apply hnodup.imp
  rintro a b hne k hk k' hk' rfl
  exact hne ((hindex a k hk).trans (hindex b k hk').symm)

theorem checkUnique_ok {t : Table} (hnodup : (t.map rowKey).Nodup) : checkUnique t = .ok t := by
  rw [checkUnique, if_pos]
  exact ⟨nodup_filterMap (fun _ _ => ipIndexKey_some) hnodup,
    nodup_filterMap (fun _ _ => evpnIndexKey_some) hnodup⟩

/-- The lookup of an indexed call finds the row of its key. -/
theorem currentWithdrawn_eq {p : StateCall} (hp : Indexed p.family p.prefixCidr) (t : Table) :
    currentWithdrawn p t = (row rowKey (callKey p) t).map StateRow.isWithdrawn := by
  rw [currentWithdrawn, row]
  rcases hp with ⟨hip, hcidr⟩ | hevpn
  · have hsame : sameIpRoute p = fun r => decide (rowKey r = callKey p) := by
      funext r
      exact Bool.eq_iff_iff.mpr (by rw [sameIpRoute_iff hip hcidr, decide_eq_true_iff])
    rw [if_pos hip, hsame]
  · have hsame : sameEvpnRoute p = fun r => decide (rowKey r = callKey p) := by
      funext r
      exact Bool.eq_iff_iff.mpr (by rw [sameEvpnRoute_iff hevpn, decide_eq_true_iff])
    rw [if_neg (by rw [hevpn]; decide), if_pos hevpn, hsame]

/-- An `UPDATE` of the one selected row. -/
theorem updateWhere_split {selected : StateRow → Bool} {set : StateRow → Except DbError StateRow}
    {a b : Table} {r : StateRow} (hr : selected r = true) (ha : ∀ x ∈ a, selected x ≠ true)
    (hb : ∀ x ∈ b, selected x ≠ true) :
    updateWhere selected set (a ++ r :: b) = set r >>= fun r' => checkUnique (a ++ r' :: b) := by
  have hamend : amend (fun _ : Unit => true) selected (fun _ => set) () (a ++ r :: b) =
      (fun r' => a ++ r' :: b) <$> set r := amend_split (fun _ => set) hr ha hb
  show amend (fun _ : Unit => true) selected (fun _ => set) () (a ++ r :: b) >>= checkUnique = _
  rw [hamend]
  cases set r <;> rfl

/-- The `UPDATE` of an indexed call writes the one row of its key, whatever flag was found. -/
theorem writeRoute_split {p : StateCall} (hp : Indexed p.family p.prefixCidr) {current : Bool} {a b : Table} {r : StateRow} (hr : rowKey r = callKey p)
    (ha : ∀ x ∈ a, rowKey x ≠ callKey p) (hb : ∀ x ∈ b, rowKey x ≠ callKey p) :
    writeRoute p (some current) (a ++ r :: b) =
      writeRow p current r >>= fun r' => checkUnique (a ++ r' :: b) := by
  rw [writeRoute, writeRow]
  rcases hp with ⟨hip, hcidr⟩ | hevpn
  · simp only [if_pos hip]
    exact updateWhere_split ((sameIpRoute_iff hip hcidr r).mpr hr)
      (fun x hx hsame => ha x hx ((sameIpRoute_iff hip hcidr x).mp hsame))
      (fun x hx hsame => hb x hx ((sameIpRoute_iff hip hcidr x).mp hsame))
  · have hip : ¬ isIpFamily p.family = true := by rw [hevpn]; decide
    simp only [if_neg hip, if_pos hevpn]
    exact updateWhere_split ((sameEvpnRoute_iff hevpn r).mpr hr)
      (fun x hx hsame => ha x hx ((sameEvpnRoute_iff hevpn x).mp hsame))
      (fun x hx hsame => hb x hx ((sameEvpnRoute_iff hevpn x).mp hsame))

/-- The update that the found row gets is the one of its own flag. -/
theorem updateRouteState_split {p : StateCall} (hp : Indexed p.family p.prefixCidr) {a b : Table}
    {r : StateRow} (hr : rowKey r = callKey p) (ha : ∀ x ∈ a, rowKey x ≠ callKey p)
    (hb : ∀ x ∈ b, rowKey x ≠ callKey p) :
    updateRouteState p (a ++ r :: b) = updateRow p r >>= fun r' => checkUnique (a ++ r' :: b) := by
  have hrow : row rowKey (callKey p) (a ++ r :: b) = some r := by
    rw [row_append_other ha, ← hr, row_cons_self]
  rw [updateRouteState, currentWithdrawn_eq hp, hrow, Option.map_some]
  exact writeRoute_split hp hr ha hb

/-- In a table with one row for each key the function is an upsert by key, and the unique
indexes never refuse it. -/
theorem updateRouteState_eq_upsert {p : StateCall} (hp : Indexed p.family p.prefixCidr) {t : Table}
    (hnodup : (t.map rowKey).Nodup) :
    updateRouteState p t = upsert callKey rowKey newRow updateRow p t := by
  have hwritten := nodup_apply keepsKeys hnodup p
  rcases apply_cases newRow updateRow t hnodup p with
    ⟨hnone, hupsert, happly⟩ | ⟨a, r, b, rfl, hr, ha, hb, hcase⟩
  · rw [happly] at hwritten
    rw [hupsert, updateRouteState, currentWithdrawn_eq hp, hnone]
    exact checkUnique_ok hwritten
  · rw [updateRouteState_split hp hr ha hb]
    rcases hcase with ⟨r', hupdate, hupsert, happly⟩ | ⟨d, hupdate, hupsert, _⟩
    · rw [happly] at hwritten
      rw [hupsert, hupdate, ok_bind]
      exact checkUnique_ok hwritten
    · rw [hupsert, hupdate, error_bind]

/-- The table after a call; a call that fails has no effect. -/
def applyCall (t : Table) (p : StateCall) : Table :=
  match updateRouteState p t with
  | .ok t' => t'
  | .error _ => t

/-- The table after calls one after another, from an empty table. -/
def tableAfter (calls : List StateCall) : Table := calls.foldl applyCall []

theorem foldl_applyCall {calls : List StateCall}
    (hcalls : ∀ p ∈ calls, Indexed p.family p.prefixCidr) {t : Table}
    (hnodup : (t.map rowKey).Nodup) :
    calls.foldl applyCall t = replay callKey rowKey newRow updateRow calls t := by
  induction calls generalizing t with
  | nil => rfl
  | cons p calls ih =>
    have hp := hcalls p List.mem_cons_self
    have happly : applyCall t p = apply callKey rowKey newRow updateRow p t := by
      rw [applyCall, updateRouteState_eq_upsert hp hnodup, apply]
      cases upsert callKey rowKey newRow updateRow p t <;> rfl
    rw [List.foldl_cons, happly]
    exact ih (fun q hq => hcalls q (List.mem_cons_of_mem _ hq)) (nodup_apply keepsKeys hnodup p)

/-- The table after any indexed calls has one row for each key. -/
theorem tableAfter_nodup {calls : List StateCall}
    (hcalls : ∀ p ∈ calls, Indexed p.family p.prefixCidr) :
    ((tableAfter calls).map rowKey).Nodup := by
  have hempty : (([] : Table).map rowKey).Nodup := List.nodup_nil
  rw [tableAfter, foldl_applyCall hcalls hempty]
  exact nodup_replay keepsKeys calls hempty

/-- The row of a key is what its own calls make of it. -/
theorem row_tableAfter {calls : List StateCall}
    (hcalls : ∀ p ∈ calls, Indexed p.family p.prefixCidr) (k : RouteKey) :
    row rowKey k (tableAfter calls) =
      (calls.filter fun p => callKey p = k).foldl (fun o p => track newRow updateRow p o) none := by
  have hempty : (([] : Table).map rowKey).Nodup := List.nodup_nil
  rw [tableAfter, foldl_applyCall hcalls hempty]
  exact row_replay keepsKeys calls hempty k

/-- No call of a sequence of indexed calls fails on a unique index. -/
theorem no_unique_violation {before : List StateCall} {p : StateCall}
    (hbefore : ∀ q ∈ before, Indexed q.family q.prefixCidr)
    (hp : Indexed p.family p.prefixCidr) :
    updateRouteState p (tableAfter before) ≠ .error .uniqueViolation := by
  rw [updateRouteState_eq_upsert hp (tableAfter_nodup hbefore)]
  rcases apply_cases newRow updateRow _ (tableAfter_nodup hbefore) p with
    ⟨_, hupsert, _⟩ | ⟨a, r, b, _, _, _, _, ⟨r', _, hupsert, _⟩ | ⟨d, hupdate, hupsert, _⟩⟩
  · rw [hupsert]
    nofun
  · rw [hupsert]
    nofun
  · rw [hupsert, writeRow_raises p _ r d hupdate]
    nofun

end Pybmpmon.Database.StateTable
