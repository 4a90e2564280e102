import Cvere.Text.Basic

/-!
# The order of texts

Texts are ordered by the code points of their characters, the first difference deciding.

**Main results.** `le_total`, `le_trans` and `le_antisymm`: the order is linear.
-/

namespace Cvere

namespace Text

/-- A text comes before another, or is the same, by code points. -/
def le : Text → Text → Bool
  | [], _ => true
  | _ :: _, [] => false
  | a :: s, b :: t => a.toNat < b.toNat || (a == b && le s t)

@[simp] theorem nil_le (t : Text) : le [] t = true := by
  cases t <;> rfl

@[simp] theorem not_cons_le_nil (c : Char) (t : Text) : le (c :: t) [] = false := rfl

theorem cons_le_cons_iff {a b : Char} {s t : Text} :
    le (a :: s) (b :: t) = true ↔ a.toNat < b.toNat ∨ a = b ∧ le s t = true := by
  simp [le]

theorem le_total (s t : Text) : le s t = true ∨ le t s = true := by
  induction s generalizing t with
  | nil => simp
  | cons a s ih =>
    cases t with
    | nil => simp
    | cons b t =>
      simp only [cons_le_cons_iff]
      by_cases hab : a = b
      · subst hab
        rcases ih t with h | h <;> simp [h]
      · have hne : a.toNat ≠ b.toNat := fun h => hab (Char.toNat_inj.mp h)
        omega

theorem le_trans {s t u : Text} (h₁ : le s t = true) (h₂ : le t u = true) : le s u = true := by
  induction s generalizing t u with
  | nil => simp
  | cons a s ih =>
    cases t with
    | nil => simp at h₁
    | cons b t =>
      cases u with
      | nil => simp at h₂
      | cons c u =>
        rw [cons_le_cons_iff] at h₁ h₂ ⊢
        rcases h₁ with h₁ | ⟨rfl, h₁⟩
        · rcases h₂ with h₂ | ⟨rfl, -⟩
          · exact .inl (Nat.lt_trans h₁ h₂)
          · exact .inl h₁
        · rcases h₂ with h₂ | ⟨rfl, h₂⟩
          · exact .inl h₂
          · exact .inr ⟨rfl, ih h₁ h₂⟩

theorem le_antisymm {s t : Text} (h₁ : le s t = true) (h₂ : le t s = true) : s = t := by
  induction s generalizing t with
  | nil =>
    cases t with
    | nil => rfl
    | cons b t => simp at h₂
  | cons a s ih =>
    cases t with
    | nil => simp at h₁
    | cons b t =>
      rw [cons_le_cons_iff] at h₁ h₂
      rcases h₁ with h₁ | ⟨rfl, h₁⟩
      · rcases h₂ with h₂ | ⟨rfl, -⟩ <;> omega
      · rcases h₂ with h₂ | ⟨-, h₂⟩
        · omega
        · rw [ih h₁ h₂]

end Text

end Cvere
