import Mathlib.Logic.Basic

/-!
# Texts made of fields

A text of fields joined with a separator determines the fields, when the separator is in
none of them; digits of equal size and decimal numerals determine what they write. The
texts are lists of characters: strings are compared by theirs.
-/
namespace Pybmpmon.Lib.Text

section Fields

variable {α : Type} [BEq α] [LawfulBEq α] {separator : α}

/-- The fields of a joined text. -/
theorem intercalate_inj {fields fields' : List (List α)} (hne : fields ≠ []) (hne' : fields' ≠ [])
    (h : ∀ f ∈ fields, separator ∉ f) (h' : ∀ f ∈ fields', separator ∉ f)
    (heq : [separator].intercalate fields = [separator].intercalate fields') : fields = fields' := by
  rw [← List.splitOn_intercalate separator h hne, heq, List.splitOn_intercalate separator h' hne']

omit [BEq α] [LawfulBEq α] in
/-- A joined text has only what the separator and the fields have. -/
theorem mem_of_mem_intercalate {a : α} {fields : List (List α)}
    (h : a ∈ [separator].intercalate fields) : a = separator ∨ ∃ f ∈ fields, a ∈ f := by
  induction fields with
  | nil => cases h
  | cons f fields ih =>
    cases fields with
    | nil =>
      rw [List.intercalate_singleton] at h
      exact Or.inr ⟨f, List.mem_singleton_self f, h⟩
    | cons g fields =>
      rw [List.intercalate_cons_cons, List.mem_append, List.mem_append, List.mem_singleton] at h
      rcases h with (h | h) | h
      · exact Or.inr ⟨f, List.mem_cons_self, h⟩
      · exact Or.inl h
      · rcases ih h with h | ⟨k, hk, h⟩
        · exact Or.inl h
        · exact Or.inr ⟨k, List.mem_cons_of_mem f hk, h⟩

end Fields

section Blocks

variable {α β : Type} {block : α → List β} {size : Nat}

/-- Blocks of one size, one after another. -/
theorem flatMap_inj (hsize : ∀ a, (block a).length = size) (hinj : ∀ a b, block a = block b → a = b)
    {as bs : List α} (hlength : as.length = bs.length) (h : as.flatMap block = bs.flatMap block) :
    as = bs := by
  induction as generalizing bs with
  | nil => exact (List.eq_nil_of_length_eq_zero hlength.symm).symm
  | cons a as ih =>
    cases bs with
    | nil => cases hlength
    | cons b bs =>
      rw [List.flatMap_cons, List.flatMap_cons] at h
      obtain ⟨hhead, htail⟩ := List.append_inj h ((hsize a).trans (hsize b).symm)
      rw [hinj a b hhead, ih (Nat.succ.inj hlength) htail]

end Blocks

/-! ## Numerals -/

theorem toString_toList (n : Nat) : (toString n).toList = Nat.toDigits 10 n := Nat.toList_repr

theorem toDigits_inj {m n : Nat} (h : Nat.toDigits 10 m = Nat.toDigits 10 n) : m = n := by
  rw [← @Nat.ofDigitChars_ten_toDigits m, h, Nat.ofDigitChars_ten_toDigits]

/-- A numeral has no character that is not a digit. -/
theorem not_mem_toDigits {c : Char} (hc : c.isDigit = false) (n : Nat) : c ∉ Nat.toDigits 10 n := by
  intro h
  rw [Nat.isDigit_of_mem_toDigits (by decide) (by decide) h] at hc
  cases hc

/-- The hexadecimal digits are distinct, and no punctuation is one. -/
theorem digitChar_inj : ∀ {m n : Nat}, m < 16 → n < 16 → Nat.digitChar m = Nat.digitChar n → m = n := by
  have hall : ∀ m n : Fin 16, Nat.digitChar m = Nat.digitChar n → m = n := by decide
  intro m n hm hn h
  exact congrArg Fin.val (hall ⟨m, hm⟩ ⟨n, hn⟩ h)

theorem digitChar_ne_colon {n : Nat} (hn : n < 16) : ':' ≠ Nat.digitChar n := by
  have hall : ∀ k : Fin 16, ':' ≠ Nat.digitChar k := by decide
  exact hall ⟨n, hn⟩

end Pybmpmon.Lib.Text
