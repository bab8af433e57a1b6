import Mathlib.Data.List.Nodup
import Mathlib.Data.List.Induction

/-!
# Tables with one row for each key

An event inserts the row of its key, or updates it when it is there. An update may
fail, and a failed event leaves the table as it was. In a table built so, the row of
a key is the fold of the events of that key alone.
-/
namespace Pybmpmon.Lib.KeyedTable

variable {κ ε ρ δ : Type} [DecidableEq κ]
variable (eventKey : ε → κ) (rowKey : ρ → κ) (insert : ε → ρ) (update : ε → ρ → Except δ ρ)

/-- The row of a key. -/
def row (k : κ) (t : List ρ) : Option ρ := t.find? fun r => rowKey r = k

/-- Every row with the event's key is updated, or none is. -/
def amend (e : ε) (t : List ρ) : Except δ (List ρ) :=
  t.mapM fun r => if rowKey r = eventKey e then update e r else .ok r

def upsert (e : ε) (t : List ρ) : Except δ (List ρ) :=
  if (row rowKey (eventKey e) t).isSome then amend eventKey rowKey update e t
  else .ok (t ++ [insert e])

/-- A failed event has no effect. -/
def apply (e : ε) (t : List ρ) : List ρ :=
  match upsert eventKey rowKey insert update e t with
  | .ok t' => t'
  | .error _ => t

/-- What an event of a key makes of its row. -/
def track (e : ε) : Option ρ → Option ρ
  | none => some (insert e)
  | some r =>
      match update e r with
      | .ok r' => some r'
      | .error _ => some r

/-- Insertion gives a row of the event's key, and an update keeps the key. -/
structure KeepsKeys : Prop where
  insert : ∀ e, rowKey (insert e) = eventKey e
  update : ∀ e r r', rowKey r = eventKey e → update e r = .ok r' → rowKey r' = eventKey e

variable {eventKey rowKey insert update}

theorem row_eq_none {k : κ} {t : List ρ} : row rowKey k t = none ↔ ∀ r ∈ t, rowKey r ≠ k := by
  simp [row]

theorem rowKey_of_row {k : κ} {t : List ρ} {r : ρ} (h : row rowKey k t = some r) : rowKey r = k := by
  simpa using List.find?_some h

/-- Where the row of a key stands in a table with one row for each key. -/
theorem row_split {k : κ} {t : List ρ} {r : ρ} (hnodup : (t.map rowKey).Nodup)
    (h : row rowKey k t = some r) :
    ∃ a b, t = a ++ r :: b ∧ (∀ x ∈ a, rowKey x ≠ k) ∧ ∀ x ∈ b, rowKey x ≠ k := by
  obtain ⟨_, a, b, rfl, ha⟩ := List.find?_eq_some_iff_append.mp h
  have hr : rowKey r = k := rowKey_of_row h
  refine ⟨a, b, rfl, fun x hx => by simpa using ha x hx, fun x hx hk => ?_⟩
  rw [List.map_append, List.map_cons, List.nodup_append] at hnodup
  have hcons := (List.nodup_cons.mp hnodup.2.1).1
  exact hcons (List.mem_map.mpr ⟨x, hx, hk.trans hr.symm⟩)

theorem amend_other (update : ε → ρ → Except δ ρ) {e : ε} {t : List ρ} (h : ∀ x ∈ t, rowKey x ≠ eventKey e) :
    amend eventKey rowKey update e t = .ok t := by
  induction t with
  | nil => rfl
  | cons x t ih =>
    have hx := h x List.mem_cons_self
    have ht := ih fun y hy => h y (List.mem_cons_of_mem _ hy)
    simp only [amend] at ht
    simp [amend, hx, ht]
    rfl

/-- The update of the one row with the key decides about the whole statement. -/
theorem amend_split (update : ε → ρ → Except δ ρ) {e : ε} {a b : List ρ} {r : ρ}
    (hr : rowKey r = eventKey e) (ha : ∀ x ∈ a, rowKey x ≠ eventKey e) (hb : ∀ x ∈ b, rowKey x ≠ eventKey e) :
    amend eventKey rowKey update e (a ++ r :: b) =
      (fun r' => a ++ r' :: b) <$> update e r := by
  have hbefore := amend_other update ha
  have hafter := amend_other update hb
  simp only [amend] at hbefore hafter ⊢
  rw [List.mapM_append, hbefore, List.mapM_cons, if_pos hr, hafter]
  cases update e r <;> rfl

/-- The table after an event, in a table with one row for each key. -/
theorem apply_cases (insert : ε → ρ) (update : ε → ρ → Except δ ρ) (t : List ρ)
    (hnodup : (t.map rowKey).Nodup) (e : ε) :
    (row rowKey (eventKey e) t = none ∧
      upsert eventKey rowKey insert update e t = .ok (t ++ [insert e]) ∧
      apply eventKey rowKey insert update e t = t ++ [insert e]) ∨
    ∃ a r b, t = a ++ r :: b ∧ rowKey r = eventKey e ∧
      (∀ x ∈ a, rowKey x ≠ eventKey e) ∧ (∀ x ∈ b, rowKey x ≠ eventKey e) ∧
      ((∃ r', update e r = .ok r' ∧
          upsert eventKey rowKey insert update e t = .ok (a ++ r' :: b) ∧
          apply eventKey rowKey insert update e t = a ++ r' :: b) ∨
        ∃ d, update e r = .error d ∧ upsert eventKey rowKey insert update e t = .error d ∧
          apply eventKey rowKey insert update e t = t) := by
  cases hrow : row rowKey (eventKey e) t with
  | none => exact .inl ⟨rfl, by simp [upsert, hrow], by simp [apply, upsert, hrow]⟩
  | some r =>
    obtain ⟨a, b, rfl, ha, hb⟩ := row_split hnodup hrow
    have hr := rowKey_of_row hrow
    have hamend := amend_split update hr ha hb
    refine .inr ⟨a, r, b, rfl, hr, ha, hb, ?_⟩
    cases hu : update e r with
    | ok r' =>
      rw [hu] at hamend
      exact .inl ⟨r', rfl, by simp [upsert, hrow, hamend], by
        simp [apply, upsert, hrow, hamend]⟩
    | error d =>
      rw [hu] at hamend
      exact .inr ⟨d, rfl, by simp [upsert, hrow, hamend], by
        simp [apply, upsert, hrow, hamend]⟩

theorem row_append_other {k : κ} {a : List ρ} (ha : ∀ x ∈ a, rowKey x ≠ k) (t : List ρ) :
    row rowKey k (a ++ t) = row rowKey k t := by
  rw [row, row, List.find?_append, List.find?_eq_none.mpr (by simpa using ha), Option.none_or]

theorem row_cons_self (rowKey : ρ → κ) (r : ρ) (t : List ρ) : row rowKey (rowKey r) (r :: t) = some r := by
  simp [row]

/-- A row of another key is where it was when one row is replaced by one of its own key. -/
theorem row_replace {k : κ} {a b : List ρ} {r r' : ρ} (hr : rowKey r ≠ k) (hr' : rowKey r' ≠ k) :
    row rowKey k (a ++ r' :: b) = row rowKey k (a ++ r :: b) := by
  simp [row, List.find?_append, hr, hr']

/-- The row of each key after an event. -/
theorem row_apply (hkeys : KeepsKeys eventKey rowKey insert update) {t : List ρ}
    (hnodup : (t.map rowKey).Nodup) (e : ε) (k : κ) :
    row rowKey k (apply eventKey rowKey insert update e t) =
      if eventKey e = k then track insert update e (row rowKey k t) else row rowKey k t := by
  rcases apply_cases insert update t hnodup e with
    ⟨hnone, _, happly⟩ | ⟨a, r, b, rfl, hr, ha, hb, hcase⟩
  · rw [happly]
    by_cases hk : eventKey e = k
    · subst hk
      rw [if_pos rfl, hnone, row_append_other (row_eq_none.mp hnone)]
      have hself := row_cons_self rowKey (insert e) []
      rw [hkeys.insert] at hself
      exact hself
    · rw [if_neg hk]
      have hother : rowKey (insert e) ≠ k := by
        rw [hkeys.insert]
        exact hk
      simp [row, List.find?_append, hother]
  · by_cases hk : eventKey e = k
    · subst hk
      rw [if_pos rfl, row_append_other ha, ← hr, row_cons_self, hr]
      rcases hcase with ⟨r', hupdate, _, happly⟩ | ⟨d, hupdate, _, happly⟩
      · have hself := row_cons_self rowKey r' b
        rw [hkeys.update e r r' hr hupdate] at hself
        rw [happly, row_append_other ha, hself]
        simp [track, hupdate]
      · have hself := row_cons_self rowKey r b
        rw [hr] at hself
        rw [happly, row_append_other ha, hself]
        simp [track, hupdate]
    · rw [if_neg hk]
      rcases hcase with ⟨r', hupdate, _, happly⟩ | ⟨d, hupdate, _, happly⟩
      · rw [happly]
        apply row_replace (by rw [hr]; exact hk)
        rw [hkeys.update e r r' hr hupdate]
        exact hk
      · rw [happly]

theorem nodup_apply (hkeys : KeepsKeys eventKey rowKey insert update) {t : List ρ}
    (hnodup : (t.map rowKey).Nodup) (e : ε) :
    ((apply eventKey rowKey insert update e t).map rowKey).Nodup := by
  rcases apply_cases insert update t hnodup e with
    ⟨hnone, _, happly⟩ | ⟨a, r, b, rfl, hr, ha, hb, hcase⟩
  · rw [happly, List.map_append, List.nodup_append]
    refine ⟨hnodup, List.nodup_singleton _, ?_⟩
    intro k hk k' hk'
    obtain ⟨x, hx, rfl⟩ := List.mem_map.mp hk
    rw [List.map_singleton, List.mem_singleton] at hk'
    rw [hk', hkeys.insert]
    exact row_eq_none.mp hnone x hx
  · rcases hcase with ⟨r', hupdate, _, happly⟩ | ⟨d, hupdate, _, happly⟩
    · have hr' := hkeys.update e r r' hr hupdate
      rw [happly, List.map_append, List.map_cons, hr', ← hr, ← List.map_cons, ← List.map_append]
      exact hnodup
    · rw [happly]
      exact hnodup

variable (eventKey rowKey insert update) in
/-- The table after events one after another. -/
def replay (events : List ε) (t : List ρ) : List ρ :=
  events.foldl (fun t e => apply eventKey rowKey insert update e t) t

/-- There is one row for each key after any events. -/
theorem nodup_replay (hkeys : KeepsKeys eventKey rowKey insert update) (events : List ε)
    {t : List ρ} (hnodup : (t.map rowKey).Nodup) :
    ((replay eventKey rowKey insert update events t).map rowKey).Nodup := by
  induction events generalizing t with
  | nil => exact hnodup
  | cons e events ih => exact ih (nodup_apply hkeys hnodup e)

/-- The row of a key is the fold of the key's own events. -/
theorem row_replay (hkeys : KeepsKeys eventKey rowKey insert update) (events : List ε)
    {t : List ρ} (hnodup : (t.map rowKey).Nodup) (k : κ) :
    row rowKey k (replay eventKey rowKey insert update events t) =
      (events.filter fun e => eventKey e = k).foldl (fun o e => track insert update e o)
        (row rowKey k t) := by
  induction events generalizing t with
  | nil => rfl
  | cons e events ih =>
    have hrow := row_apply hkeys hnodup e k
    have hreplay := ih (nodup_apply hkeys hnodup e)
    rw [hrow] at hreplay
    by_cases hk : eventKey e = k
    · rw [if_pos hk] at hreplay
      rw [List.filter_cons_of_pos (by simpa using hk), List.foldl_cons]
      exact hreplay
    · rw [if_neg hk] at hreplay
      rw [List.filter_cons_of_neg (by simpa using hk)]
      exact hreplay

/-- All rows of a key: one or none. -/
theorem filter_key {t : List ρ} (hnodup : (t.map rowKey).Nodup) (k : κ) :
    (t.filter fun r => rowKey r = k) = (row rowKey k t).toList := by
  cases hrow : row rowKey k t with
  | none => simpa [List.filter_eq_nil_iff] using row_eq_none.mp hrow
  | some r =>
    obtain ⟨a, b, rfl, ha, hb⟩ := row_split hnodup hrow
    have hr := rowKey_of_row hrow
    rw [List.filter_append, List.filter_cons_of_pos (by simpa using hr),
      List.filter_eq_nil_iff.mpr (by simpa using ha), List.filter_eq_nil_iff.mpr (by simpa using hb)]
    rfl

/-- A key that has events has a row, even when updates of it fail. -/
theorem foldl_track_isSome (insert : ε → ρ) (update : ε → ρ → Except δ ρ) {events : List ε} (hne : events ≠ []) (o : Option ρ) :
    (events.foldl (fun o e => track insert update e o) o).isSome = true := by
  induction events using List.reverseRecOn with
  | nil => exact absurd rfl hne
  | append_singleton events e _ =>
    rw [List.foldl_concat]
    generalize events.foldl (fun o e => track insert update e o) o = current
    cases current with
    | none => rfl
    | some r =>
      rw [track]
      cases update e r <;> rfl

theorem row_of_mem {t : List ρ} (hnodup : (t.map rowKey).Nodup) {r : ρ} (hr : r ∈ t) :
    row rowKey (rowKey r) t = some r := by
  have hmem : r ∈ t.filter fun x => rowKey x = rowKey r := by simp [hr]
  rw [filter_key hnodup, Option.mem_toList] at hmem
  exact hmem

/-- Two tables with one row for each key that have the same row for each key have the same rows. -/
theorem perm_of_rows {t t' : List ρ} (hnodup : (t.map rowKey).Nodup) (hnodup' : (t'.map rowKey).Nodup)
    (h : ∀ k, row rowKey k t = row rowKey k t') : t.Perm t' := by
  have hmem : ∀ {a b : List ρ}, (a.map rowKey).Nodup → (∀ k, row rowKey k a = row rowKey k b) →
      ∀ r ∈ a, r ∈ b := by
    intro a b ha hab r hr
    have hrow := row_of_mem ha hr
    rw [hab] at hrow
    exact List.mem_of_find?_eq_some hrow
  exact (List.perm_ext_iff_of_nodup (List.Nodup.of_map rowKey hnodup)
    (List.Nodup.of_map rowKey hnodup')).mpr fun r =>
      ⟨hmem hnodup h r, hmem hnodup' (fun k => (h k).symm) r⟩

/-- Events that are the same for each key are the same events. -/
theorem perm_of_histories [DecidableEq ε] {events events' : List ε}
    (h : ∀ k, (events.filter fun e => eventKey e = k) = events'.filter fun e => eventKey e = k) :
    events.Perm events' := by
  rw [List.perm_iff_count]
  intro e
  have hcount : ∀ l : List ε, l.count e = (l.filter fun x => eventKey x = eventKey e).count e := by
    intro l
    rw [List.count_filter (by simp)]
  rw [hcount events, hcount events', h]

end Pybmpmon.Lib.KeyedTable
