import Mathlib.Logic.Basic

/-!
# Fallible computations and the errors they can end with

`Raises p x` bounds the errors of `x` by the predicate `p` and says nothing of
its result; `Returns x` says that it has one. The rules follow the computation: a
bind is bounded when both parts are, a guard when the raised error satisfies `p`, a
handler when every error it lets through does.
-/
namespace Pybmpmon.Lib.Outcome

variable {ε α β : Type}

@[simp] theorem ok_bind (a : α) (f : α → Except ε β) : (Except.ok a >>= f) = f a := rfl

@[simp] theorem error_bind (e : ε) (f : α → Except ε β) :
    (Except.error e >>= f) = .error e := rfl

@[simp] theorem pure_ok (a : α) : (pure a : Except ε α) = .ok a := rfl

@[simp] theorem ok_map (a : α) (f : α → β) : (f <$> (Except.ok a : Except ε α)) = .ok (f a) := rfl

@[simp] theorem error_map (e : ε) (f : α → β) :
    (f <$> (Except.error e : Except ε α)) = .error e := rfl

/-- A bind that returns has a first part that returns. -/
theorem bind_ok_iff {x : Except ε α} {f : α → Except ε β} {b : β} :
    (x >>= f) = .ok b ↔ ∃ a, x = .ok a ∧ f a = .ok b := by
  cases x with
  | error e => simp
  | ok a => simp

theorem map_ok_iff {x : Except ε α} {f : α → β} {b : β} :
    f <$> x = .ok b ↔ ∃ a, x = .ok a ∧ f a = b := by
  cases x with
  | error e => simp
  | ok a => simp

/-- Every error `x` can end with satisfies `p`. -/
def Raises (p : ε → Prop) (x : Except ε α) : Prop := ∀ e, x = .error e → p e

variable {p q : ε → Prop}

@[simp] theorem raises_ok (a : α) : Raises p (Except.ok a : Except ε α) := by
  intro e h
  cases h

@[simp] theorem raises_error {e : ε} : Raises p (Except.error e : Except ε α) ↔ p e := by
  constructor
  · intro h
    exact h e rfl
  · intro hp e' he
    cases he
    exact hp

theorem raises_of_ok {x : Except ε α} {a : α} (h : x = .ok a) : Raises p x := by
  rw [h]
  exact raises_ok a

theorem raises_mono {x : Except ε α} (hpq : ∀ e, p e → q e) (h : Raises p x) : Raises q x :=
  fun e he => hpq e (h e he)

theorem raises_bind {x : Except ε α} {f : α → Except ε β}
    (hx : Raises p x) (hf : ∀ a, x = .ok a → Raises p (f a)) : Raises p (x >>= f) := by
  cases x with
  | error e => exact raises_error.mpr (hx e rfl)
  | ok a => exact hf a rfl

/-- Bind after a computation that is known to return. -/
theorem raises_bind_ok {x : Except ε α} {f : α → Except ε β} {a : α}
    (hx : x = .ok a) (hf : Raises p (f a)) : Raises p (x >>= f) := by
  rw [hx]
  exact hf

theorem raises_ite {c : Prop} [Decidable c] {x y : Except ε α}
    (hx : c → Raises p x) (hy : ¬c → Raises p y) : Raises p (if c then x else y) := by
  split
  · exact hx ‹_›
  · exact hy ‹_›

theorem raises_map {x : Except ε α} {f : α → β} (hx : Raises p x) : Raises p (f <$> x) := by
  cases x with
  | error e => exact raises_error.mpr (hx e rfl)
  | ok a => exact raises_ok _

/-- A computation either returns or ends with an error that satisfies the bound. -/
theorem raises_cases {x : Except ε α} (h : Raises p x) :
    (∃ a, x = .ok a) ∨ ∃ e, x = .error e ∧ p e := by
  cases x with
  | ok a => exact .inl ⟨a, rfl⟩
  | error e => exact .inr ⟨e, rfl, h e rfl⟩

/-! ## Computations that return -/

def Returns (x : Except ε α) : Prop := ∃ a, x = .ok a

theorem returns_ok (a : α) : Returns (Except.ok a : Except ε α) := ⟨a, rfl⟩

theorem returns_bind_ok {x : Except ε α} {f : α → Except ε β} {a : α} (hx : x = .ok a)
    (hf : Returns (f a)) : Returns (x >>= f) := by
  rw [hx]
  exact hf

theorem returns_ite {c : Prop} [Decidable c] {x y : Except ε α} (hx : c → Returns x)
    (hy : ¬c → Returns y) : Returns (if c then x else y) := by
  split
  · exact hx ‹_›
  · exact hy ‹_›

theorem returns_map {x : Except ε α} {f : α → β} : Returns (f <$> x) ↔ Returns x := by
  constructor
  · rintro ⟨b, hb⟩
    obtain ⟨a, ha, -⟩ := map_ok_iff.mp hb
    exact ⟨a, ha⟩
  · rintro ⟨a, rfl⟩
    exact ⟨f a, rfl⟩

theorem returns_bind {x : Except ε α} {f : α → Except ε β} :
    Returns (x >>= f) ↔ ∃ a, x = .ok a ∧ Returns (f a) := by
  constructor
  · rintro ⟨b, hb⟩
    obtain ⟨a, ha, hb⟩ := bind_ok_iff.mp hb
    exact ⟨a, ha, b, hb⟩
  · rintro ⟨a, ha, b, hb⟩
    exact ⟨b, bind_ok_iff.mpr ⟨a, ha, hb⟩⟩

/-- A check passes and the rest returns. -/
theorem returns_check {c : Prop} [Decidable c] {e : ε} {x : Except ε α} :
    Returns (if c then .error e else x) ↔ ¬c ∧ Returns x := by
  by_cases hc : c
  · rw [if_pos hc]
    constructor
    · rintro ⟨a, ha⟩
      cases ha
    · exact fun h => absurd hc h.1
  · rw [if_neg hc, and_iff_right hc]

/-! ## The same result, whatever the error -/

/-- Both return the same, or both raise. -/
def Same (x y : Except ε α) : Prop := x.toOption = y.toOption

theorem same_refl (x : Except ε α) : Same x x := rfl

theorem same_error (e e' : ε) : Same (Except.error e : Except ε α) (.error e') := rfl

theorem same_ok_iff {x : Except ε α} {a : α} : Same x (.ok a) ↔ x = .ok a := by
  cases x with
  | error e => simp [Same, Except.toOption]
  | ok b => simp [Same, Except.toOption]

theorem same_bind {x y : Except ε α} {f g : α → Except ε β} (hx : Same x y)
    (hf : ∀ a, y = .ok a → Same (f a) (g a)) : Same (x >>= f) (y >>= g) := by
  cases y with
  | ok a =>
    rw [same_ok_iff.mp hx]
    exact hf a rfl
  | error e =>
    cases x with
    | ok a => cases hx
    | error e' => rfl

/-- Bind after a computation whose result differs by `g`. -/
theorem same_bind_map {γ : Type} {x : Except ε γ} {y : Except ε α} {g : α → γ}
    {f : γ → Except ε β} {f' : α → Except ε β} (hx : Same x (g <$> y))
    (hf : ∀ a, y = .ok a → Same (f (g a)) (f' a)) : Same (x >>= f) (y >>= f') := by
  cases y with
  | ok a =>
    rw [same_ok_iff.mp hx]
    exact hf a rfl
  | error e =>
    cases x with
    | ok a => cases hx
    | error e' => rfl

/-- Bind of two computations whose final results differ by `g`. -/
theorem same_map_bind {γ : Type} {x y : Except ε α} {g : β → γ} {f : α → Except ε γ}
    {f' : α → Except ε β} (hx : Same x y) (hf : ∀ a, y = .ok a → Same (f a) (g <$> f' a)) :
    Same (x >>= f) (g <$> (y >>= f')) := by
  cases y with
  | ok a =>
    rw [same_ok_iff.mp hx]
    exact hf a rfl
  | error e =>
    cases x with
    | ok a => cases hx
    | error e' => rfl

theorem same_ite {c d : Prop} [Decidable c] [Decidable d] {x y x' y' : Except ε α} (hc : c ↔ d)
    (hx : c → Same x x') (hy : ¬c → Same y y') :
    Same (if c then x else y) (if d then x' else y') := by
  by_cases h : c
  · rw [if_pos h, if_pos (hc.mp h)]
    exact hx h
  · rw [if_neg h, if_neg (mt hc.mpr h)]
    exact hy h

end Pybmpmon.Lib.Outcome
