import Mathlib.Data.List.Flatten
import Mathlib.Data.List.Induction
import Mathlib.Data.List.Nodup
import Mathlib.Data.List.Perm.Subperm
import Mathlib.Data.List.Range

/-!
# Folds seen through one projection, and lists in pieces

A loop that overwrites a variable leaves the last value written; a loop that
appends leaves the values in order. Each is stated for one projection of the
loop's state, so that a state of many variables is read one variable at a time.
Pieces taken once each, in any order, make up the whole.
-/
namespace Pybmpmon.Lib.Fold

variable {σ α β γ : Type} {step : σ → α → σ}

/-- A variable that is overwritten holds the last value written, or its first value. -/
theorem foldl_last_getD (proj : σ → γ) (get : α → Option β) (value : β → γ)
    (h : ∀ s a, proj (step s a) = ((get a).map value).getD (proj s)) (l : List α) (s : σ) :
    proj (l.foldl step s) = ((l.filterMap get).getLast?.map value).getD (proj s) := by
  induction l generalizing s with
  | nil => rfl
  | cons a l ih =>
    rw [List.foldl_cons, ih, h, List.filterMap_cons]
    cases get a with
    | none => rfl
    | some b =>
      cases hl : l.filterMap get with
      | nil => rfl
      | cons c cs => simp [List.getLast?_cons]

/-- The same for a variable that may have no value. -/
theorem foldl_last (proj : σ → Option β) (get : α → Option β)
    (h : ∀ s a, proj (step s a) = (get a).or (proj s)) (l : List α) (s : σ) :
    proj (l.foldl step s) = (l.filterMap get).getLast?.or (proj s) := by
  have hor : ∀ o p : Option β, o.or p = (o.map some).getD p := by
    intro o p
    cases o <;> rfl
  rw [foldl_last_getD proj get some (fun s a => (h s a).trans (hor _ _)), hor]

/-- A variable that some steps append to holds everything appended, in order. -/
theorem foldl_appended (proj : σ → List β) (get : α → Option γ) (items : γ → List β)
    (h : ∀ s a, proj (step s a) = proj s ++ ((get a).map items).getD []) (l : List α) (s : σ) :
    proj (l.foldl step s) = proj s ++ (l.filterMap get).flatMap items := by
  induction l generalizing s with
  | nil => simp
  | cons a l ih =>
    rw [List.foldl_cons, ih, h, List.filterMap_cons]
    cases get a with
    | none => simp
    | some c => simp

/-- A list of at most one value has one order. -/
theorem eq_of_perm_toList {l : List β} {o : Option β} (h : l.Perm o.toList) : l = o.toList := by
  cases o with
  | none => exact List.perm_nil.mp h
  | some b => exact List.perm_singleton.mp h

theorem filterMap_guard {p : α → Bool} {f : α → β} {get : α → Option β}
    (h : ∀ a, get a = if p a then some (f a) else none) (l : List α) :
    l.filterMap get = (l.filter p).map f := by
  induction l with
  | nil => rfl
  | cons a l ih =>
    cases hp : p a <;> simp [h a, hp, ih]

theorem appended_ne_nil {get : α → Option γ} {items : γ → List β} {l : List α} :
    (l.filterMap get).flatMap items ≠ [] ↔ ∃ a ∈ l, ∃ c, get a = some c ∧ items c ≠ [] := by
  rw [ne_eq, List.flatMap_eq_nil_iff]
  constructor
  · intro h
    by_contra hnone
    refine h (fun c hc => ?_)
    obtain ⟨a, ha, hget⟩ := List.mem_filterMap.mp hc
    by_contra hne
    exact hnone ⟨a, ha, c, hget, hne⟩
  · rintro ⟨a, ha, c, hget, hne⟩ h
    exact hne (h c (List.mem_filterMap.mpr ⟨a, ha, hget⟩))

theorem filterMap_toList (o : Option α) (g : α → Option β) :
    o.toList.filterMap g = (o.bind g).toList := by
  cases o with
  | none => rfl
  | some a => cases h : g a <;> simp [h]

theorem getLast?_toList (o : Option β) : o.toList.getLast? = o := by cases o <;> rfl

/-! ## Writes in any order -/

/-- Two writes to one variable that are not of different values. -/
def Agreeing (o o' : Option β) : Prop := ∀ x y, o = some x → o' = some y → x = y

theorem Agreeing.or_swap {o o' : Option β} (h : Agreeing o o') (z : Option β) :
    o.or (o'.or z) = o'.or (o.or z) := by
  cases o with
  | none => rfl
  | some x =>
    cases o' with
    | none => rfl
    | some y => rw [h x y rfl rfl]

theorem Agreeing.getD_swap {o o' : Option β} (h : Agreeing o o') (value : β → γ) (z : γ) :
    (o.map value).getD ((o'.map value).getD z) = (o'.map value).getD ((o.map value).getD z) := by
  cases o with
  | none => rfl
  | some x =>
    cases o' with
    | none => rfl
    | some y => rw [h x y rfl rfl]

theorem Agreeing.append_swap {o o' : Option (List β)} (h : Agreeing o o') (z : List β) :
    z ++ o'.getD [] ++ o.getD [] = z ++ o.getD [] ++ o'.getD [] := by
  cases o with
  | none => simp
  | some x =>
    cases o' with
    | none => simp
    | some y => rw [h x y rfl rfl]

theorem Agreeing.map {o o' : Option β} (h : Agreeing o o') (f : β → γ) :
    Agreeing (o.map f) (o'.map f) := by
  intro x y hx hy
  obtain ⟨a, ha, rfl⟩ := Option.map_eq_some_iff.mp hx
  obtain ⟨b, hb, rfl⟩ := Option.map_eq_some_iff.mp hy
  rw [h a b ha hb]

/-- Where the last write is the same in every order, all writes agree: each can be the last. -/
theorem agreeing_of_last {get : α → Option β} {l : List α} [DecidableEq α] (last : Option β)
    (h : ∀ l' : List α, l'.Perm l → (l'.filterMap get).getLast? = last) :
    ∀ a ∈ l, ∀ b ∈ l, Agreeing (get a) (get b) := by
  have hlast : ∀ a ∈ l, ∀ x, get a = some x → last = some x := by
    intro a ha x hx
    have hperm : (l.erase a ++ [a]).Perm l :=
      (List.perm_append_singleton a _).trans (List.perm_cons_erase ha).symm
    rw [← h _ hperm, List.filterMap_append]
    simp [hx]
  intro a ha b hb x y hx hy
  have hboth := (hlast a ha x hx).symm.trans (hlast b hb y hy)
  exact Option.some.inj hboth

/-! ## Pieces -/

theorem flatMap_filter_ne_nil {f : α → List β} [∀ a, Decidable (f a ≠ [])] (l : List α) :
    (l.filter fun a => f a ≠ []).flatMap f = l.flatMap f := by
  induction l with
  | nil => rfl
  | cons a l ih =>
    by_cases h : f a = []
    · rw [List.filter_cons_of_neg (by simpa using h), ih, List.flatMap_cons, h, List.nil_append]
    · rw [List.filter_cons_of_pos (by simpa using h), List.flatMap_cons, List.flatMap_cons, ih]

theorem map_getD_range (pieces : List (List β)) :
    (List.range pieces.length).map (fun i => pieces.getD i []) = pieces := by
  apply List.ext_getElem
  · simp
  · intro i h h'
    simp [List.getElem?_eq_getElem h']

/-- A list read by its positions. -/
theorem filterMap_getElem? (l : List α) : (List.range l.length).filterMap (fun i => l[i]?) = l := by
  induction l using List.reverseRecOn with
  | nil => rfl
  | append_singleton l a ih =>
    have hbefore : (List.range l.length).filterMap (fun i => (l ++ [a])[i]?) =
        (List.range l.length).filterMap (fun i => l[i]?) := by
      refine List.filterMap_congr fun i hi => ?_
      exact List.getElem?_append_left (List.mem_range.mp hi)
    rw [List.length_append, List.length_singleton, List.range_succ, List.filterMap_append, hbefore, ih]
    simp

/-- The pieces that hold something, each taken once, hold what the whole holds. -/
theorem flatMap_perm_flatten [DecidableEq β] {pieces : List (List β)} {taken : List Nat}
    (hnodup : taken.Nodup) (hholds : ∀ i ∈ taken, pieces.getD i [] ≠ [])
    (hall : ∀ i < pieces.length, pieces.getD i [] ≠ [] → i ∈ taken) :
    (taken.flatMap fun i => pieces.getD i []).Perm pieces.flatten := by
  have hperm : taken.Perm ((List.range pieces.length).filter fun i => pieces.getD i [] ≠ []) := by
    refine (List.perm_ext_iff_of_nodup hnodup (List.nodup_range.filter _)).mpr fun i => ?_
    rw [List.mem_filter, List.mem_range, decide_eq_true_eq]
    constructor
    · intro hi
      refine ⟨?_, hholds i hi⟩
      by_contra hlen
      exact hholds i hi (by simp [List.getElem?_eq_none (Nat.not_lt.mp hlen)])
    · exact fun hi => hall i hi.1 hi.2
  apply (hperm.flatMap_right _).trans
  rw [flatMap_filter_ne_nil, List.flatMap_def, map_getD_range]

/-- Pieces taken at most once each are part of the whole. -/
theorem flatMap_subperm_flatten {pieces : List (List β)} {taken : List Nat} (hnodup : taken.Nodup)
    (hlt : ∀ i ∈ taken, i < pieces.length) :
    (taken.flatMap fun i => pieces.getD i []).Subperm pieces.flatten := by
  obtain ⟨l, hperm, hsub⟩ := List.subperm_of_subset hnodup fun i hi => List.mem_range.mpr (hlt i hi)
  have hwhole : (List.range pieces.length).flatMap (fun i => pieces.getD i []) = pieces.flatten := by
    rw [List.flatMap_def, map_getD_range]
  exact ⟨_, hperm.flatMap_right _, hwhole ▸ hsub.flatMap fun i => pieces.getD i []⟩

end Pybmpmon.Lib.Fold
