import Mathlib.Data.List.Forall2

/-!
# Batches that lose the rest of an offer

What is offered waits until the batch is full, with `n` in it, or is taken before that.
An offer that fills the batch ends there, and the rest of it is lost. What is kept of
the offers is the start of each of them, and an offer is cut only where a full batch was
taken; offers of one element are kept whole.
-/
namespace Pybmpmon.Lib.Batching

variable {α : Type}

structure Batches (α : Type) where
  taken : List (List α)
  waiting : List α

namespace Batches

def empty : Batches α := ⟨[], []⟩

def take (b : Batches α) : Batches α :=
  if b.waiting.isEmpty then b else ⟨b.taken ++ [b.waiting], []⟩

def offer (n : Nat) (xs : List α) (b : Batches α) : Batches α :=
  if xs.length < n - b.waiting.length then ⟨b.taken, b.waiting ++ xs⟩
  else ⟨b.taken ++ [b.waiting ++ xs.take (n - b.waiting.length)], []⟩

/-- All that was offered and not lost, in its order. -/
def kept (b : Batches α) : List α := b.taken.flatten ++ b.waiting

theorem take_of_nil {b : Batches α} (h : b.waiting = []) : b.take = b := by
  rw [take, h]
  rfl

theorem take_of_ne_nil {b : Batches α} (h : b.waiting ≠ []) : b.take = ⟨b.taken ++ [b.waiting], []⟩ := by
  rw [take, if_neg (by simpa using h)]

@[simp] theorem take_waiting (b : Batches α) : b.take.waiting = [] := by
  by_cases h : b.waiting = []
  · rw [take_of_nil h, h]
  · rw [take_of_ne_nil h]

@[simp] theorem take_kept (b : Batches α) : b.take.kept = b.kept := by
  by_cases h : b.waiting = []
  · rw [take_of_nil h]
  · rw [take_of_ne_nil h, kept, kept]
    simp

theorem offer_of_lt {n : Nat} {xs : List α} {b : Batches α} (h : xs.length < n - b.waiting.length) :
    b.offer n xs = ⟨b.taken, b.waiting ++ xs⟩ := by
  rw [offer, if_pos h]

theorem offer_of_le {n : Nat} {xs : List α} {b : Batches α} (h : n - b.waiting.length ≤ xs.length) :
    b.offer n xs = ⟨b.taken ++ [b.waiting ++ xs.take (n - b.waiting.length)], []⟩ := by
  rw [offer, if_neg (Nat.not_lt.mpr h)]

theorem offer_nil {n : Nat} {b : Batches α} (h : b.waiting.length < n) : b.offer n [] = b := by
  rw [offer_of_lt (Nat.sub_pos_of_lt h), List.append_nil]

/-- What is taken stays taken. -/
theorem offer_taken (n : Nat) (xs : List α) (b : Batches α) : b.taken <+: (b.offer n xs).taken := by
  rw [offer]
  split
  · exact List.prefix_rfl
  · exact List.prefix_append _ _

theorem take_taken (b : Batches α) : b.taken <+: b.take.taken := by
  rw [take]
  split
  · exact List.prefix_rfl
  · exact List.prefix_append _ _

/-- What an offer keeps is the start of it. -/
theorem offer_kept (n : Nat) (xs : List α) (b : Batches α) :
    (b.offer n xs).kept = b.kept ++ xs.take (n - b.waiting.length) := by
  by_cases h : xs.length < n - b.waiting.length
  · rw [offer_of_lt h, List.take_of_length_le (Nat.le_of_lt h), kept, kept, List.append_assoc]
  · rw [offer_of_le (Nat.le_of_not_lt h), kept, kept]
    simp

/-- The first element of an offer fills the batch: the others are lost. -/
theorem offer_cons_full {n : Nat} {x : α} {b : Batches α} (h : b.waiting.length + 1 = n) (xs : List α) :
    b.offer n (x :: xs) = b.offer n [x] := by
  have hroom : n - b.waiting.length = 1 := by omega
  rw [offer_of_le (by simp [hroom]), offer_of_le (by simp [hroom]), hroom]
  rfl

/-- The first element of an offer leaves room: the others are offered after it. -/
theorem offer_cons_room {n : Nat} {x : α} {b : Batches α} (h : b.waiting.length + 1 < n) (xs : List α) :
    b.offer n (x :: xs) = (b.offer n [x]).offer n xs := by
  have hone : b.offer n [x] = ⟨b.taken, b.waiting ++ [x]⟩ :=
    offer_of_lt (by rw [List.length_singleton]; omega)
  obtain ⟨room, hroom⟩ : ∃ room, n - b.waiting.length = room + 1 := ⟨n - b.waiting.length - 1, by omega⟩
  have hnext : n - (b.waiting ++ [x]).length = room := by
    rw [List.length_append, List.length_singleton]
    omega
  rw [hone]
  by_cases hxs : xs.length < room
  · rw [offer_of_lt (by rw [hroom]; exact Nat.succ_lt_succ hxs), offer_of_lt (by rw [hnext]; exact hxs)]
    simp
  · have hle := Nat.le_of_not_lt hxs
    rw [offer_of_le (by rw [hroom]; exact Nat.succ_le_succ hle), offer_of_le (by rw [hnext]; exact hle),
      hroom, hnext, List.take_succ_cons]
    simp

/-- How much of an offer does not fill the batch. -/
def accepted (n : Nat) (xs : List α) (b : Batches α) : Nat :=
  if xs.length < n - b.waiting.length then xs.length else n - b.waiting.length - 1

theorem accepted_nil (n : Nat) (b : Batches α) : b.accepted n [] = 0 := by
  rw [accepted, List.length_nil]
  split
  · rfl
  · omega

theorem accepted_cons_full {n : Nat} {x : α} {b : Batches α} (h : b.waiting.length + 1 = n) (xs : List α) :
    b.accepted n (x :: xs) = 0 := by
  rw [accepted, List.length_cons, if_neg (by omega)]
  omega

theorem accepted_cons_room {n : Nat} {x : α} {b : Batches α} (h : b.waiting.length + 1 < n) (xs : List α) :
    b.accepted n (x :: xs) = (b.offer n [x]).accepted n xs + 1 := by
  rw [offer_of_lt (by rw [List.length_singleton]; omega), accepted, accepted, List.length_append,
    List.length_singleton, List.length_cons]
  split
  · rw [if_pos (by omega)]
  · rw [if_neg (by omega)]
    omega

/-- The batches that were full when they were taken, by what is looked for in their last element. -/
def filled (n : Nat) (p : α → Bool) (b : Batches α) : Nat :=
  b.taken.countP fun batch => batch.length = n && batch.getLast?.any p

/-- Of an offer all of one kind, what is kept is accepted or fills a batch. -/
theorem accepted_offer {n : Nat} {p : α → Bool} {xs : List α} {b : Batches α} (hroom : b.waiting.length < n)
    (hxs : ∀ x ∈ xs, p x = true) :
    (b.offer n xs).kept.countP p + b.filled n p =
      b.kept.countP p + (b.offer n xs).filled n p + b.accepted n xs := by
  have hall : (xs.take (n - b.waiting.length)).countP p = (xs.take (n - b.waiting.length)).length :=
    List.countP_eq_length.mpr fun x hx => hxs x (List.mem_of_mem_take hx)
  rw [offer_kept, List.countP_append, hall, List.length_take, accepted]
  by_cases hlt : xs.length < n - b.waiting.length
  · rw [offer_of_lt hlt, if_pos hlt, Nat.min_eq_right (Nat.le_of_lt hlt), filled, filled]
    simp only
    omega
  · have hle := Nat.le_of_not_lt hlt
    obtain ⟨last, hlast, hmem⟩ : ∃ last, (xs.take (n - b.waiting.length)).getLast? = some last ∧ last ∈ xs := by
      have hne : xs.take (n - b.waiting.length) ≠ [] := by
        apply List.ne_nil_of_length_pos
        rw [List.length_take]
        omega
      exact ⟨_, List.getLast?_eq_some_getLast hne, List.mem_of_mem_take (List.getLast_mem hne)⟩
    have hlength : (b.waiting ++ xs.take (n - b.waiting.length)).length = n := by
      rw [List.length_append, List.length_take]
      omega
    rw [offer_of_le hle, if_neg hlt, Nat.min_eq_left hle, filled, filled]
    simp only [List.countP_append, List.countP_singleton, hlength, List.getLast?_append, hlast, Option.some_or,
      Option.any_some, hxs last hmem, decide_true, Bool.and_self, if_true]
    omega

/-- Of an offer of another kind nothing counts. -/
theorem other_offer {n : Nat} {p : α → Bool} {xs : List α} {b : Batches α} (hroom : b.waiting.length < n)
    (hxs : ∀ x ∈ xs, p x = false) :
    (b.offer n xs).kept.countP p = b.kept.countP p ∧ (b.offer n xs).filled n p = b.filled n p := by
  constructor
  · have hnone : (xs.take (n - b.waiting.length)).countP p = 0 :=
      List.countP_eq_zero.mpr fun x hx => by simp [hxs x (List.mem_of_mem_take hx)]
    rw [offer_kept, List.countP_append, hnone, Nat.add_zero]
  · by_cases hlt : xs.length < n - b.waiting.length
    · rw [offer_of_lt hlt]
      rfl
    · have hle := Nat.le_of_not_lt hlt
      have hne : xs.take (n - b.waiting.length) ≠ [] := by
        apply List.ne_nil_of_length_pos
        rw [List.length_take]
        omega
      have hlast := List.getLast?_eq_some_getLast hne
      have hother := hxs _ (List.mem_of_mem_take (List.getLast_mem hne))
      rw [offer_of_le hle, filled, filled]
      simp [List.countP_append, List.getLast?_append, hlast, hother]

/-- An offer fills at most one batch, and none when there is room. -/
theorem offer_filled (n : Nat) (p : α → Bool) (xs : List α) (b : Batches α) :
    (b.offer n xs).filled n p ≤ b.filled n p + if xs.length < n - b.waiting.length then 0 else 1 := by
  rw [offer]
  split
  · exact Nat.le_refl _
  · rw [filled, filled, List.countP_append, List.countP_singleton]
    refine Nat.add_le_add_left ?_ _
    split
    · exact Nat.le_refl 1
    · exact Nat.zero_le 1

theorem take_filled {n : Nat} {p : α → Bool} {b : Batches α} (hroom : b.waiting.length < n) :
    b.take.filled n p = b.filled n p := by
  by_cases h : b.waiting = []
  · rw [take_of_nil h]
  · rw [take_of_ne_nil h, filled, filled]
    simp [List.countP_append, Nat.ne_of_lt hroom]

end Batches

/-! ## Runs of offers -/

/-- The offers so far, one after the other, with the batch taken in between now and then. -/
inductive Batched (n : Nat) : List (List α) → Batches α → Prop where
  | empty : Batched n [] .empty
  | offer {offers : List (List α)} {b : Batches α} (xs : List α) :
      Batched n offers b → Batched n (offers ++ [xs]) (b.offer n xs)
  | take {offers : List (List α)} {b : Batches α} : Batched n offers b → Batched n offers b.take

/-- How many of the offers are not kept whole. -/
def cut (parts offers : List (List α)) : Nat :=
  (parts.zip offers).countP fun (part, offer) => part.length < offer.length

theorem cut_concat {parts offers : List (List α)} (h : parts.length = offers.length) (part offer : List α) :
    cut (parts ++ [part]) (offers ++ [offer]) =
      cut parts offers + if part.length < offer.length then 1 else 0 := by
  rw [cut, List.zip_append h, List.countP_append, ← cut]
  simp [List.countP_singleton]

theorem eq_of_cut {parts offers : List (List α)}
    (h : List.Forall₂ (fun part offer => part <+: offer) parts offers) (hcut : cut parts offers = 0) :
    parts = offers := by
  induction h with
  | nil => rfl
  | @cons part offer parts offers hpart _ ih =>
    rw [cut, List.zip_cons_cons, List.countP_cons, ← cut] at hcut
    have hwhole : ¬part.length < offer.length := by
      intro hlt
      rw [if_pos (decide_eq_true hlt)] at hcut
      omega
    rw [ih (by omega), hpart.eq_of_length (Nat.le_antisymm hpart.length_le (Nat.not_lt.mp hwhole))]

variable {n : Nat} {offers : List (List α)} {b : Batches α}

theorem Batched.waiting_lt (h : Batched n offers b) (hn : 0 < n) : b.waiting.length < n := by
  induction h with
  | empty => exact hn
  | @offer offers b xs _ ih =>
    by_cases hxs : xs.length < n - b.waiting.length
    · rw [Batches.offer_of_lt hxs, List.length_append]
      omega
    · rw [Batches.offer_of_le (Nat.le_of_not_lt hxs)]
      exact hn
  | take _ _ =>
    rw [Batches.take_waiting]
    exact hn

/-- A batch that is taken is not empty, and no larger than a full one. -/
theorem Batched.sizes (h : Batched n offers b) (hn : 0 < n) :
    ∀ batch ∈ b.taken, batch ≠ [] ∧ batch.length ≤ n := by
  have hconcat : ∀ {taken : List (List α)} {last : List α},
      (∀ batch ∈ taken, batch ≠ [] ∧ batch.length ≤ n) → last ≠ [] ∧ last.length ≤ n →
        ∀ batch ∈ taken ++ [last], batch ≠ [] ∧ batch.length ≤ n := by
    intro taken last htaken hlast batch hmem
    rcases List.mem_append.mp hmem with hmem | hmem
    · exact htaken batch hmem
    · rw [List.mem_singleton.mp hmem]
      exact hlast
  induction h with
  | empty =>
    intro batch hmem
    cases hmem
  | @offer offers b xs hb ih =>
    by_cases hxs : xs.length < n - b.waiting.length
    · rw [Batches.offer_of_lt hxs]
      exact ih
    · have hlt := hb.waiting_lt hn
      have hlength : (b.waiting ++ xs.take (n - b.waiting.length)).length = n := by
        rw [List.length_append, List.length_take]
        omega
      rw [Batches.offer_of_le (Nat.le_of_not_lt hxs)]
      exact hconcat ih ⟨List.ne_nil_of_length_pos (by omega), Nat.le_of_eq hlength⟩
  | @take offers b hb ih =>
    by_cases hwaiting : b.waiting = []
    · rw [Batches.take_of_nil hwaiting]
      exact ih
    · rw [Batches.take_of_ne_nil hwaiting]
      exact hconcat ih ⟨hwaiting, Nat.le_of_lt (hb.waiting_lt hn)⟩

/-- What is kept is the start of each offer, and no more offers are cut than full batches taken. -/
theorem Batched.parts (h : Batched n offers b) (hn : 0 < n) :
    ∃ parts : List (List α), List.Forall₂ (fun part offer => part <+: offer) parts offers ∧
      b.kept = parts.flatten ∧
      cut parts offers ≤ b.taken.countP fun batch => batch.length = n := by
  induction h with
  | empty => exact ⟨[], .nil, rfl, Nat.le_refl 0⟩
  | @offer offers b xs hb ih =>
    obtain ⟨parts, hparts, hkept, hcut⟩ := ih
    have hconcat := cut_concat hparts.length_eq (xs.take (n - b.waiting.length)) xs
    rw [List.length_take] at hconcat
    refine ⟨parts ++ [xs.take (n - b.waiting.length)],
      List.rel_append hparts (.cons (List.take_prefix _ _) .nil), ?_, ?_⟩
    · rw [Batches.offer_kept, hkept, List.flatten_append, List.flatten_singleton]
    · rw [hconcat]
      by_cases hxs : xs.length < n - b.waiting.length
      · rw [Batches.offer_of_lt hxs, if_neg (by omega)]
        exact hcut
      · have hlt := hb.waiting_lt hn
        have hfull : (b.waiting ++ xs.take (n - b.waiting.length)).length = n := by
          rw [List.length_append, List.length_take]
          omega
        rw [Batches.offer_of_le (Nat.le_of_not_lt hxs), List.countP_append, List.countP_singleton,
          if_pos (decide_eq_true hfull)]
        refine Nat.add_le_add hcut ?_
        split
        · exact Nat.le_refl 1
        · exact Nat.zero_le 1
  | @take offers b hb ih =>
    obtain ⟨parts, hparts, hkept, hcut⟩ := ih
    refine ⟨parts, hparts, (Batches.take_kept b).trans hkept, Nat.le_trans hcut ?_⟩
    by_cases hwaiting : b.waiting = []
    · simp only [Batches.take_of_nil hwaiting, Nat.le_refl]
    · rw [Batches.take_of_ne_nil hwaiting, List.countP_append]
      exact Nat.le_add_right _ _

theorem flatten_sublist {parts : List (List α)}
    (h : List.Forall₂ (fun part offer => part <+: offer) parts offers) :
    parts.flatten.Sublist offers.flatten := by
  induction h with
  | nil => exact List.Sublist.refl []
  | cons hpart _ ih => exact hpart.sublist.append ih

/-- Nothing is kept that was not offered, and nothing twice or out of its order. -/
theorem Batched.kept_sublist (h : Batched n offers b) (hn : 0 < n) : b.kept.Sublist offers.flatten := by
  obtain ⟨parts, hparts, hkept, _⟩ := h.parts hn
  rw [hkept]
  exact flatten_sublist hparts

/-- Offers of at most one element are all kept. -/
theorem Batched.kept_all (h : Batched n offers b) (hn : 0 < n) (hone : ∀ xs ∈ offers, xs.length ≤ 1) :
    b.kept = offers.flatten := by
  induction h with
  | empty => rfl
  | @offer offers b xs hb ih =>
    have hlt := hb.waiting_lt hn
    have hxs : xs.length ≤ 1 := hone xs (List.mem_append_right _ (List.mem_singleton_self xs))
    rw [Batches.offer_kept, ih fun ys hys => hone ys (List.mem_append_left _ hys),
      List.take_of_length_le (by omega), List.flatten_append, List.flatten_singleton]
  | take _ ih => rw [Batches.take_kept, ih hone]

end Pybmpmon.Lib.Batching
