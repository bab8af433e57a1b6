import Mathlib.Algebra.Group.Prod
import Pybmpmon.Lib.CheckThenAct
import Pybmpmon.Database.StateHistory
import Pybmpmon.Database.StateRows

/-!
# Two calls at once

Two flushes on two connections call `update_route_state` for one key. Each call looks
its row up and then writes by the flag it has found. A write waits while the other call
has the row, or the entry of the index, and then goes by the row as it is. The flag it
found is not read again.
-/
namespace Pybmpmon.Database.OverlappingCalls

open Pybmpmon.Lib.KeyedTable Pybmpmon.Lib.Outcome Pybmpmon.Lib.CheckThenAct Pybmpmon.Python
open Pybmpmon.Models.Route Pybmpmon.Database.RouteState Pybmpmon.Database.StateTable
open Pybmpmon.Database.StateHistory Pybmpmon.Database.StateRows

/-- A table as PostgreSQL keeps it: the unique indexes hold, and the sum of the counters of a row is an
`INTEGER`, so they are. -/
structure StoredTable where
  rows : Table
  unique : checkUnique rows = .ok rows
  counters : ∀ r ∈ rows, churn r ≤ 2147483647

def call (p : StateCall) : Transaction Table (Option Bool) DbError := ⟨currentWithdrawn p, writeRoute p⟩

/-- Two calls for one key write the same row, or the same entry of an index. Without an index both
insert. -/
def overlap (p q : StateCall) : Race Table (Option Bool) DbError :=
  ⟨call p, call q, Indexed p.family p.prefixCidr⟩

/-! ## What one write does -/

theorem indexed_of_key {p q : StateCall} (hkey : callKey p = callKey q)
    (hp : Indexed p.family p.prefixCidr) : Indexed q.family q.prefixCidr := by
  rw [callKey, callKey, RouteKey.mk.injEq] at hkey
  rw [← hkey.2.2.1, ← hkey.2.2.2.1]
  exact hp

theorem overlap_swap {p q : StateCall} (hkey : callKey p = callKey q) :
    (overlap p q).swap = overlap q p := by
  have hindexed : Indexed p.family p.prefixCidr ↔ Indexed q.family q.prefixCidr :=
    ⟨indexed_of_key hkey, indexed_of_key hkey.symm⟩
  simp only [Race.swap, overlap, hindexed]

/-- What a write adds to the two counters. -/
def gain (current withdrawn : Bool) : Nat × Nat :=
  (if current != withdrawn && !withdrawn then 1 else 0, if current != withdrawn && withdrawn then 1 else 0)

def counts (r : StateRow) : Nat × Nat := (r.learnCount, r.withdrawCount)

/-- The gain tells what was found. -/
theorem gain_inj : ∀ {current current' withdrawn : Bool},
    gain current withdrawn = gain current' withdrawn → current = current' := by decide

theorem gain_self (withdrawn : Bool) : gain withdrawn withdrawn = (0, 0) := by
  cases withdrawn <;> rfl

/-- A row that is written has the flag of the call, its key and the counters one change further. -/
theorem writeRow_counts {p : StateCall} {current : Bool} {r r' : StateRow} (hkey : rowKey r = callKey p)
    (h : writeRow p current r = .ok r') :
    rowKey r' = callKey p ∧ r'.isWithdrawn = p.isWithdrawn ∧
      counts r' = counts r + gain current p.isWithdrawn := by
  have hwritten := writeRow_key hkey h
  obtain ⟨_, _, _, _, rfl, _⟩ := writeRow_ok h
  exact ⟨hwritten, rfl, rfl⟩

/-- A write that changes no flag leaves the counters, so it does not fail. -/
theorem writeRow_same {p : StateCall} {r : StateRow} (h : churn r ≤ 2147483647) :
    ∃ r', writeRow p p.isWithdrawn r = .ok r' := by
  apply writeRow_fits
  simpa [churn, touched] using h

/-! ## What the unique indexes say of the rows -/

theorem indexKeys_of_key {r r' : StateRow} (hkey : rowKey r = rowKey r') :
    ipIndexKey r = ipIndexKey r' ∧ evpnIndexKey r = evpnIndexKey r' := by
  rw [rowKey, rowKey, RouteKey.mk.injEq] at hkey
  obtain ⟨hbmp, hbgp, hfamily, hcidr, hpolicy, hrd, hesi, hmac⟩ := hkey
  rw [ipIndexKey, ipIndexKey, evpnIndexKey, evpnIndexKey, hbmp, hbgp, hfamily, hcidr, hpolicy]
  refine ⟨rfl, ?_⟩
  by_cases hevpn : r'.family = .evpn
  · simp only [evpnPart, hfamily, hevpn, ↓reduceIte] at hrd hesi hmac
    rw [hrd, hesi, hmac]
  · rw [if_neg hevpn, if_neg hevpn]

/-- An indexed row has an entry in one of the indexes. -/
theorem indexEntry_of_indexed {r : StateRow} (h : indexedRow r = true) :
    (∃ k, ipIndexKey r = some k) ∨ ∃ k, evpnIndexKey r = some k := by
  have hr : Indexed r.family r.prefixCidr := by simpa [indexedRow] using h
  rcases hr with ⟨hip, hcidr⟩ | hevpn
  · obtain ⟨c, hc⟩ := Option.isSome_iff_exists.mp hcidr
    exact .inl ⟨_, by rw [ipIndexKey, if_pos hip, hc]; rfl⟩
  · exact .inr ⟨_, by rw [evpnIndexKey, if_pos hevpn]⟩

/-- Where the indexes hold, the rows they cover have one each of their keys. -/
theorem indexedNodup_of_unique {t t' : Table} (h : checkUnique t = .ok t') : IndexedNodup t := by
  rw [checkUnique] at h
  split at h
  · rename_i hunique
    obtain ⟨hip, hevpn⟩ := hunique
    rw [List.Nodup, List.pairwise_filterMap] at hip hevpn
    rw [IndexedNodup, List.Nodup, List.pairwise_map, List.pairwise_filter]
    apply (hip.and hevpn).imp
    rintro r r' ⟨hip, hevpn⟩ hindexed _ hkey
    obtain ⟨hsameip, hsameevpn⟩ := indexKeys_of_key hkey
    rcases indexEntry_of_indexed hindexed with ⟨k, hk⟩ | ⟨k, hk⟩
    · exact hip k hk k (hsameip ▸ hk) rfl
    · exact hevpn k hk k (hsameevpn ▸ hk) rfl
  · cases h

/-! ## Calls that find what the row says -/

/-- Calls no index covers insert, whatever the other does. -/
theorem steady_outside {p : StateCall} (hp : ¬Indexed p.family p.prefixCidr) :
    Steady IndexedNodup (call p) none := by
  constructor
  · intro t _
    exact currentWithdrawn_outside hp t
  · intro t ht
    have hinsert : IndexedNodup (t ++ [newRow p]) :=
      indexedNodup_insert ht fun h => absurd h (by simpa [indexedCall] using hp)
    exact ⟨_, checkUnique_indexed hinsert, hinsert⟩

/-- The row of the key has the flag, and counters whose sum is an `INTEGER`. -/
structure HasFlag (k : RouteKey) (flag : Bool) (t : Table) : Prop where
  nodup : IndexedNodup t
  found : ∃ r ∈ t, rowKey r = k ∧ r.isWithdrawn = flag ∧ churn r ≤ 2147483647

/-- Where an indexed call finds its row. -/
theorem row_split {p : StateCall} (hp : Indexed p.family p.prefixCidr) {t : Table}
    (hnodup : IndexedNodup t) {r : StateRow} (hmem : r ∈ t) (hr : rowKey r = callKey p) :
    currentWithdrawn p t = some r.isWithdrawn ∧
      ∃ a b, t = a ++ r :: b ∧ (∀ x ∈ a, rowKey x ≠ callKey p) ∧ ∀ x ∈ b, rowKey x ≠ callKey p := by
  have hcall : indexedCall p = true := by simpa [indexedCall] using hp
  cases hrow : row rowKey (callKey p) t with
  | none => exact absurd hr (row_eq_none.mp hrow r hmem)
  | some x =>
    have hx := rowKey_of_row hrow
    obtain ⟨a, b, ht, ha, hb⟩ := indexed_split hnodup hcall hrow
    have hsame : x = r := row_unique hnodup hcall hmem (by rw [ht]; simp) hr hx
    rw [← hsame]
    exact ⟨by rw [currentWithdrawn_eq hp, hrow]; rfl, a, b, ht, ha, hb⟩

/-- A call that carries the flag of its row finds it and leaves it. -/
theorem steady_same {p : StateCall} (hp : Indexed p.family p.prefixCidr) :
    Steady (HasFlag (callKey p) p.isWithdrawn) (call p) (some p.isWithdrawn) := by
  constructor
  · rintro t ⟨hnodup, r, hmem, hr, hflag, _⟩
    rw [← hflag]
    exact (row_split hp hnodup hmem hr).1
  · rintro t ⟨hnodup, r, hmem, hr, _, hchurn⟩
    obtain ⟨_, a, b, rfl, ha, hb⟩ := row_split hp hnodup hmem hr
    obtain ⟨r', hwritten⟩ := writeRow_same (p := p) hchurn
    obtain ⟨hkey, hflag, hcounts⟩ := writeRow_counts hr hwritten
    rw [gain_self] at hcounts
    have hlearn : r'.learnCount = r.learnCount := congrArg Prod.fst hcounts
    have hwithdraw : r'.withdrawCount = r.withdrawCount := congrArg Prod.snd hcounts
    have hnodup' : IndexedNodup (a ++ r' :: b) := indexedNodup_replace hnodup (hkey.trans hr.symm)
      ((indexedRow_of_key hkey).trans (indexedRow_of_key hr).symm)
    refine ⟨a ++ r' :: b, ?_, hnodup', r', by simp, hkey, hflag, ?_⟩
    · show writeRoute p (some p.isWithdrawn) (a ++ r :: b) = _
      rw [writeRoute_split hp hr ha hb, hwritten, ok_bind]
      exact checkUnique_indexed hnodup'
    · rw [churn, hlearn, hwithdraw]
      exact hchurn

/-! ## Calls that find something else -/

/-- What the statement of an indexed call leaves where its row is, when it succeeds. -/
theorem writeRoute_ok {p : StateCall} (hp : Indexed p.family p.prefixCidr) {current : Bool}
    {a b t : Table} {r : StateRow} (hr : rowKey r = callKey p) (ha : ∀ x ∈ a, rowKey x ≠ callKey p)
    (hb : ∀ x ∈ b, rowKey x ≠ callKey p) (h : writeRoute p (some current) (a ++ r :: b) = .ok t) :
    ∃ r', t = a ++ r' :: b ∧ rowKey r' = callKey p ∧ r'.isWithdrawn = p.isWithdrawn ∧
      counts r' = counts r + gain current p.isWithdrawn := by
  rw [writeRoute_split hp hr ha hb] at h
  obtain ⟨r', hwritten, hunique⟩ := bind_ok_iff.mp h
  rw [checkUnique] at hunique
  split at hunique
  · cases hunique
    exact ⟨r', rfl, writeRow_counts hr hwritten⟩
  · cases hunique

/-- A call alone finds the flag of the row. -/
theorem alone_ok {p : StateCall} (hp : Indexed p.family p.prefixCidr) {a b t : Table} {r : StateRow}
    (hr : rowKey r = callKey p) (ha : ∀ x ∈ a, rowKey x ≠ callKey p)
    (hb : ∀ x ∈ b, rowKey x ≠ callKey p) (h : (call p).alone (a ++ r :: b) = .ok t) :
    ∃ r', t = a ++ r' :: b ∧ rowKey r' = callKey p ∧ r'.isWithdrawn = p.isWithdrawn ∧
      counts r' = counts r + gain r.isWithdrawn p.isWithdrawn := by
  have hrow : row rowKey (callKey p) (a ++ r :: b) = some r := by
    rw [row_append_other ha, ← hr, row_cons_self]
  have hfound : currentWithdrawn p (a ++ r :: b) = some r.isWithdrawn := by
    rw [currentWithdrawn_eq hp, hrow]
    rfl
  apply writeRoute_ok hp hr ha hb
  rw [← hfound]
  exact h

/-- The same for two calls one after the other. -/
theorem inOrder_ok {p q : StateCall} (hp : Indexed p.family p.prefixCidr)
    (hkey : callKey p = callKey q) {a b t : Table} {r : StateRow} (hr : rowKey r = callKey p)
    (ha : ∀ x ∈ a, rowKey x ≠ callKey p) (hb : ∀ x ∈ b, rowKey x ≠ callKey p)
    (h : inOrder (call p) (call q) (a ++ r :: b) = .ok t) :
    ∃ r', t = a ++ r' :: b ∧ r'.isWithdrawn = q.isWithdrawn ∧
      counts r' = counts r + gain r.isWithdrawn p.isWithdrawn + gain p.isWithdrawn q.isWithdrawn := by
  obtain ⟨m, hfirst, hsecond⟩ := bind_ok_iff.mp h
  obtain ⟨r₁, rfl, hr₁, hflag₁, hcounts₁⟩ := alone_ok hp hr ha hb hfirst
  rw [hkey] at hr₁ ha hb
  obtain ⟨r₂, rfl, _, hflag₂, hcounts₂⟩ := alone_ok (indexed_of_key hkey hp) hr₁ ha hb hsecond
  exact ⟨r₂, rfl, hflag₂, by rw [hcounts₂, hcounts₁, hflag₁]⟩

/-- Where neither call can see the other insert, the second insertion is refused. -/
theorem not_serialisable_absent {p q : StateCall} (hp : Indexed p.family p.prefixCidr)
    (hkey : callKey p = callKey q) {t : Table} (hrow : row rowKey (callKey p) t = none) :
    ¬ Serialisable (overlap p q) t := by
  intro h
  have hreadp : currentWithdrawn p t = none := by rw [currentWithdrawn_eq hp, hrow]; rfl
  have hreadq : currentWithdrawn q t = none := by
    rw [currentWithdrawn_eq (indexed_of_key hkey hp), ← hkey, hrow]
    rfl
  obtain ⟨m, t', hfirst, hsecond, _⟩ := stale_of_serialisable h
  change writeRoute p (currentWithdrawn p t) t = .ok m at hfirst
  change writeRoute q (currentWithdrawn q t) m = .ok t' at hsecond
  rw [hreadp, writeRoute, checkUnique] at hfirst
  rw [hreadq, writeRoute] at hsecond
  split at hfirst
  · cases hfirst
    have hnodup := indexedNodup_of_unique hsecond
    have hnewp : indexedRow (newRow p) = true := by simpa [indexedRow_newRow, indexedCall] using hp
    have hnewq : indexedRow (newRow q) = true := by
      simpa [indexedRow_newRow, indexedCall] using indexed_of_key hkey hp
    rw [IndexedNodup, List.append_assoc, List.filter_append, List.singleton_append,
      List.filter_cons_of_pos hnewp, List.filter_cons_of_pos hnewq, List.map_append, List.map_cons,
      List.map_cons, List.nodup_append] at hnodup
    have hdistinct := (List.nodup_cons.mp hnodup.2.1).1
    exact hdistinct (List.mem_cons.mpr (.inl hkey))
  · cases hfirst

/-- When the order of the two writes can be the order of the calls, the call that writes second
has found what it would find then: the first has left the flag as it was. -/
theorem flag_of_serialisable {p q : StateCall} (hp : Indexed p.family p.prefixCidr)
    (hkey : callKey p = callKey q) {t : Table} (hnodup : IndexedNodup t) {r : StateRow} (hmem : r ∈ t)
    (hr : rowKey r = callKey p) (h : Serialisable (overlap p q) t) :
    p.isWithdrawn = r.isWithdrawn := by
  have hq := indexed_of_key hkey hp
  obtain ⟨hfoundp, a, b, rfl, ha, hb⟩ := row_split hp hnodup hmem hr
  obtain ⟨hfoundq, _⟩ := row_split hq hnodup hmem (hr.trans hkey)
  obtain ⟨m, t', hfirst, hsecond, horder⟩ := stale_of_serialisable h
  change writeRoute p (currentWithdrawn p (a ++ r :: b)) (a ++ r :: b) = .ok m at hfirst
  change writeRoute q (currentWithdrawn q (a ++ r :: b)) m = .ok t' at hsecond
  rw [hfoundp] at hfirst
  rw [hfoundq] at hsecond
  obtain ⟨r₁, rfl, hr₁, hflag₁, hcounts₁⟩ := writeRoute_ok hp hr ha hb hfirst
  have hrq : rowKey r = callKey q := hr.trans hkey
  have haq := hkey ▸ ha
  have hbq := hkey ▸ hb
  obtain ⟨r₂, rfl, _, hflag₂, hcounts₂⟩ := writeRoute_ok hq (hr₁.trans hkey) haq hbq hsecond
  rw [hcounts₁] at hcounts₂
  rcases horder with horder | horder
  · obtain ⟨x, hx, _, hcounts⟩ := inOrder_ok hp hkey hr ha hb horder
    rw [List.append_cancel_left_eq, List.cons.injEq] at hx
    rw [← hx.1, hcounts₂] at hcounts
    exact (gain_inj (add_left_cancel hcounts)).symm
  · obtain ⟨x, hx, hflag, hcounts⟩ := inOrder_ok hq hkey.symm hrq haq hbq horder
    rw [List.append_cancel_left_eq, List.cons.injEq] at hx
    have hsame : q.isWithdrawn = p.isWithdrawn := by rw [← hflag₂, hx.1, hflag]
    rw [← hx.1, hcounts₂, hsame] at hcounts
    exact (gain_inj (add_left_cancel hcounts)).symm

/-- Two calls for one key are serialisable exactly when no index covers them, or the row is there
and both carry its flag. -/
theorem serialisable_iff (p q : StateCall) (hkey : callKey p = callKey q) (t : StoredTable) :
    Serialisable (overlap p q) t.rows ↔
      ¬Indexed p.family p.prefixCidr ∨
        ∃ r ∈ t.rows, rowKey r = callKey p ∧ p.isWithdrawn = r.isWithdrawn ∧
          q.isWithdrawn = r.isWithdrawn := by
  have hnodup := indexedNodup_of_unique t.unique
  constructor
  · intro h
    by_cases hp : Indexed p.family p.prefixCidr
    · right
      cases hrow : row rowKey (callKey p) t.rows with
      | none => exact absurd h (not_serialisable_absent hp hkey hrow)
      | some r =>
        have hr := rowKey_of_row hrow
        have hmem := List.mem_of_find?_eq_some hrow
        have hswap := serialisable_swap h
        rw [overlap_swap hkey] at hswap
        exact ⟨r, hmem, hr, flag_of_serialisable hp hkey hnodup hmem hr h,
          flag_of_serialisable (indexed_of_key hkey hp) hkey.symm hnodup hmem (hr.trans hkey) hswap⟩
    · exact .inl hp
  · rintro (hp | ⟨r, hmem, hr, hflagp, hflagq⟩)
    · have hq : ¬Indexed q.family q.prefixCidr := fun hq => hp (indexed_of_key hkey.symm hq)
      exact serialisable_of_steady (steady_outside hp) (steady_outside hq) hnodup
    · by_cases hp : Indexed p.family p.prefixCidr
      · have hright := steady_same (indexed_of_key hkey hp)
        rw [← hkey, hflagq, ← hflagp] at hright
        exact serialisable_of_steady (steady_same hp) hright
          ⟨hnodup, r, hmem, hr, hflagp.symm, t.counters r hmem⟩
      · have hq : ¬Indexed q.family q.prefixCidr := fun hq => hp (indexed_of_key hkey.symm hq)
        exact serialisable_of_steady (steady_outside hp) (steady_outside hq) hnodup

/-- The table of one announcement, or of one withdrawal. -/
def storedCall (isWithdrawn : Bool) : StoredTable where
  rows := [newRow (sampleCall isWithdrawn)]
  unique := by cases isWithdrawn <;> decide
  counters := by cases isWithdrawn <;> decide

/-- Two announcements of a route that is announced. -/
theorem serialisable_iff_announced :
    Serialisable (overlap (sampleCall false) (sampleCall false)) (storedCall false).rows :=
  (serialisable_iff (sampleCall false) (sampleCall false) rfl (storedCall false)).mpr
    (.inr ⟨newRow (sampleCall false), List.mem_singleton_self _, rfl, rfl, rfl⟩)

/-- Two announcements of a route that has no row, and of one that is withdrawn. -/
theorem announcements_not_serialisable :
    ¬ Serialisable (overlap (sampleCall false) (sampleCall false)) [] ∧
      ¬ Serialisable (overlap (sampleCall false) (sampleCall false)) (storedCall true).rows := by
  constructor
  · exact not_serialisable_absent (indexed_sampleCall false) rfl rfl
  · intro h
    have hflag := flag_of_serialisable (indexed_sampleCall false) rfl
      (indexedNodup_of_unique (storedCall true).unique) (List.mem_singleton_self _) rfl h
    cases hflag

end Pybmpmon.Database.OverlappingCalls
