import Mathlib.Algebra.BigOperators.Intervals
import Mathlib.Data.List.Induction
import Mathlib.Order.Lattice

/-! # Cooldowns

After its `n`-th admission, at `t`, nothing is admitted before `next n t`. A trace lists the
requests in the order in which they were decided; their instants need not be in order. -/

namespace OtelBootstrap.Cooldown

variable {τ : Type*}

/-- The instants that were admitted, oldest first. -/
def admitted (trace : List (τ × Bool)) : List τ :=
  (trace.filter Prod.snd).map Prod.fst

theorem admitted_append (trace trace' : List (τ × Bool)) :
    admitted (trace ++ trace') = admitted trace ++ admitted trace' := by
  simp [admitted]

theorem admitted_snoc (trace : List (τ × Bool)) (now : τ) (ok : Bool) :
    admitted (trace ++ [(now, ok)]) = if ok then admitted trace ++ [now] else admitted trace := by
  rw [admitted_append]
  cases ok with
  | true => rfl
  | false => exact List.append_nil _

variable [LinearOrder τ] (next : ℕ → τ → τ)

/-- Whether `now` is admitted when `before` have been. -/
def admits (before : List τ) (now : τ) : Bool :=
  match before.getLast? with
  | none => true
  | some last => decide (next before.length last ≤ now)

/-- Every request was decided by the admissions before it. -/
inductive Lawful : List (τ × Bool) → Prop where
  | nil : Lawful []
  | snoc {trace} (now : τ) : Lawful trace →
      Lawful (trace ++ [(now, admits next (admitted trace) now)])

theorem admits_nil (now : τ) : admits next [] now = true :=
  rfl

/-- A refusal comes before the instant that the last admission set. -/
theorem admits_eq_false {before : List τ} {now : τ} :
    admits next before now = false ↔
      ∃ last, before.getLast? = some last ∧ now < next before.length last := by
  cases h : before.getLast? with
  | none => simp [admits, h]
  | some last => simp [admits, h]

namespace Lawful

variable {next}

/-- The decisions are determined by the instants. -/
theorem unique {trace trace' : List (τ × Bool)} (h : Lawful next trace)
    (h' : Lawful next trace') (hinstants : trace.map Prod.fst = trace'.map Prod.fst) :
    trace = trace' := by
  induction h generalizing trace' with
  | nil =>
      have hnil := List.map_eq_nil_iff.mp hinstants.symm
      exact hnil.symm
  | snoc now h ih =>
      cases h' with
      | nil => simp at hinstants
      | snoc now' h' =>
          rw [List.map_append, List.map_append] at hinstants
          obtain ⟨hbefore, hnow⟩ := List.append_inj' hinstants rfl
          obtain rfl := ih h' hbefore
          obtain rfl : now = now' := by simpa using hnow
          rfl

/-- Each admission waits for the instant that the one before it set. -/
theorem spacing {trace : List (τ × Bool)} (h : Lawful next trace) (j : ℕ) {t t' : τ}
    (ht : (admitted trace)[j]? = some t) (ht' : (admitted trace)[j + 1]? = some t') :
    next (j + 1) t ≤ t' := by
  induction h with
  | nil => cases ht
  | @snoc trace now h ih =>
      rw [admitted_snoc] at ht ht'
      cases hok : admits next (admitted trace) now with
      | false =>
          simp only [hok, Bool.false_eq_true, if_false] at ht ht'
          exact ih ht ht'
      | true =>
          simp only [hok, if_true] at ht ht'
          rcases Nat.lt_trichotomy (j + 1) (admitted trace).length with hlt | heq | hgt
          · -- both were admitted before `now`
            rw [List.getElem?_append_left (by omega)] at ht ht'
            exact ih ht ht'
          · -- `now` follows the last admission
            rw [List.getElem?_append_left (by omega)] at ht
            rw [heq, List.getElem?_concat_length] at ht'
            obtain rfl := Option.some.inj ht'
            have hlast : (admitted trace).getLast? = some t := by
              rw [List.getLast?_eq_getElem?, ← ht, ← heq]
              rfl
            simpa [admits, hlast, ← heq] using hok
          · have hnone : (admitted trace ++ [now])[j + 1]? = none := by
              apply List.getElem?_eq_none
              rw [List.length_append, List.length_singleton]
              omega
            rw [hnone] at ht'
            cases ht'

/-- What is refused comes before an instant that an earlier admission has set. -/
theorem refused {trace : List (τ × Bool)} (h : Lawful next trace) {before after : List (τ × Bool)}
    {now : τ} (hsplit : trace = before ++ (now, false) :: after) :
    ∃ n, ∃ last ∈ admitted before, now < next n last := by
  induction h generalizing after with
  | nil => simp at hsplit
  | @snoc trace now' h ih =>
      rcases List.eq_nil_or_concat after with rfl | ⟨after, last, rfl⟩
      · obtain ⟨rfl, hdecided⟩ := List.append_inj' hsplit rfl
        obtain ⟨rfl, hrefused⟩ := Prod.mk.inj (List.cons.inj hdecided).1
        obtain ⟨last, hlast, hlt⟩ := (admits_eq_false next).mp hrefused
        exact ⟨_, last, List.mem_of_getLast? hlast, hlt⟩
      · rw [List.concat_eq_append, ← List.cons_append, ← List.append_assoc] at hsplit
        exact ih (List.append_inj' hsplit rfl).1

/-- Where the waits are `gap`s, two admissions are as far apart as the gaps between them. -/
theorem elapsed {gap : ℕ → ℕ} {trace : List (ℕ × Bool)}
    (h : Lawful (fun n t => t + gap n) trace) {i j t t' : ℕ} (hij : i ≤ j)
    (ht : (admitted trace)[i]? = some t) (ht' : (admitted trace)[j]? = some t') :
    t + (Finset.Ico i j).sum (fun k => gap (k + 1)) ≤ t' := by
  induction j, hij using Nat.le_induction generalizing t' with
  | base =>
      obtain rfl := Option.some.inj (ht.symm.trans ht')
      simp
  | succ j hij ih =>
      have hj : j < (admitted trace).length := by
        have hlast := (List.getElem?_eq_some_iff.mp ht').1
        omega
      have hbefore := ih (List.getElem?_eq_getElem hj)
      have hstep := h.spacing j (List.getElem?_eq_getElem hj) ht'
      rw [Finset.sum_Ico_succ_top hij]
      omega

end Lawful

end OtelBootstrap.Cooldown
