import Mathlib.Algebra.Group.Nat.Defs

/-! # 64-bit unsigned arithmetic

Numbers are natural numbers below `2 ^ 64`; an operation says what becomes of a result that
is not. -/

namespace OtelBootstrap.Unsigned

variable {a b n : ℕ}

/-- A product that does not fit is none. -/
def checkedMul (a b : ℕ) : Option ℕ :=
  if a * b < 2 ^ 64 then some (a * b) else none

/-- A product that does not fit panics where overflow is checked, and wraps elsewhere. -/
def mul (overflowChecks : Bool) (a b : ℕ) : Except String ℕ :=
  if a * b < 2 ^ 64 then .ok (a * b)
  else if overflowChecks then .error "attempt to multiply with overflow"
  else .ok (a * b % 2 ^ 64)

theorem checkedMul_eq_some_iff : checkedMul a b = some n ↔ a * b < 2 ^ 64 ∧ n = a * b := by
  simp [checkedMul, eq_comm]

theorem mul_of_fits (overflowChecks : Bool) (h : a * b < 2 ^ 64) :
    mul overflowChecks a b = .ok (a * b) :=
  if_pos h

end OtelBootstrap.Unsigned
