import Mathlib.Logic.Function.Basic

/-! # Handles with one owner each

An assignment of handles to owners under which no two owners hold the same handle. -/

namespace OtelBootstrap

variable {α η : Type*}

/-- No handle has two owners. -/
def Exclusive (own : α → Option η) : Prop :=
  ∀ a b h, own a = some h → own b = some h → a = b

namespace Exclusive

variable [DecidableEq α] {own : α → Option η}

/-- An owner gives up what it holds. -/
theorem release (h : Exclusive own) (a : α) : Exclusive (Function.update own a none) := by
  intro b c x hb hc
  have hba : b ≠ a := by
    rintro rfl
    simp at hb
  have hca : c ≠ a := by
    rintro rfl
    simp at hc
  rw [Function.update_of_ne hba] at hb
  rw [Function.update_of_ne hca] at hc
  exact h b c x hb hc

/-- An owner takes a handle that nobody holds, and lets go of its own. -/
theorem acquire (h : Exclusive own) (a : α) {x : η} (hfree : ∀ b, own b ≠ some x) :
    Exclusive (Function.update own a (some x)) := by
  intro b c y hb hc
  by_cases hba : b = a
  · subst hba
    by_cases hcb : c = b
    · exact hcb.symm
    · rw [Function.update_self] at hb
      rw [Function.update_of_ne hcb, ← hb] at hc
      exact (hfree c hc).elim
  · rw [Function.update_of_ne hba] at hb
    by_cases hca : c = a
    · subst hca
      rw [Function.update_self] at hc
      rw [← hc] at hb
      exact (hfree b hb).elim
    · rw [Function.update_of_ne hca] at hc
      exact h b c y hb hc

/-- An owner hands what it holds to another and takes a handle that nobody holds. -/
theorem handOver (h : Exclusive own) {a : α} (b : α) {x y : η} (ha : own a = some x)
    (hfree : ∀ c, own c ≠ some y) :
    Exclusive (Function.update (Function.update own a (some y)) b (some x)) := by
  apply (h.acquire a hfree).acquire b
  intro c hc
  by_cases hca : c = a
  · subst hca
    rw [Function.update_self] at hc
    rw [hc] at hfree
    exact hfree c ha
  · rw [Function.update_of_ne hca] at hc
    exact hca (h c a x hc ha)

end Exclusive

end OtelBootstrap
