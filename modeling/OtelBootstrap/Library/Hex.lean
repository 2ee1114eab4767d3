import Mathlib.Algebra.Group.Nat.Defs
import Mathlib.Data.List.Basic

/-! # Hexadecimal numbers of a fixed width -/

namespace OtelBootstrap.Hex

/-- The last `width` digits of a number. -/
def digits : ℕ → ℕ → List Char
  | 0, _ => []
  | width + 1, n => digits width (n / 16) ++ [(n % 16).digitChar]

def digitValue (c : Char) : ℕ :=
  if c.toNat < 97 then c.toNat - 48 else c.toNat - 87

def value (cs : List Char) : ℕ :=
  cs.foldl (fun n c => 16 * n + digitValue c) 0

@[simp] theorem length_digits (width n : ℕ) : (digits width n).length = width := by
  induction width generalizing n with
  | zero => rfl
  | succ width ih => simp [digits, ih]

theorem digit_of_mem_digits {width n : ℕ} {c : Char} (h : c ∈ digits width n) :
    ∃ d < 16, c = d.digitChar := by
  induction width generalizing n with
  | zero => cases h
  | succ width ih =>
      rcases List.mem_append.mp h with h | h
      · exact ih h
      · exact ⟨n % 16, Nat.mod_lt n (by decide), List.mem_singleton.mp h⟩

theorem digitValue_digitChar {d : ℕ} (h : d < 16) : digitValue d.digitChar = d := by
  have hall : ∀ d < 16, digitValue d.digitChar = d := by decide
  exact hall d h

theorem value_digits (width n : ℕ) : value (digits width n) = n % 16 ^ width := by
  induction width generalizing n with
  | zero => simp [digits, value, Nat.mod_one]
  | succ width ih =>
      have hfold : value (digits (width + 1) n) =
          16 * value (digits width (n / 16)) + digitValue (n % 16).digitChar := by
        simp [value, digits, List.foldl_append]
      rw [hfold, ih, digitValue_digitChar (Nat.mod_lt n (by decide)), Nat.pow_succ',
        Nat.mod_mul, Nat.add_comm]

/-- What fits is read back. -/
theorem value_digits_of_lt {width n : ℕ} (h : n < 16 ^ width) : value (digits width n) = n := by
  rw [value_digits, Nat.mod_eq_of_lt h]

end OtelBootstrap.Hex
