import Mathlib.Data.List.Basic

/-! # Splitting texts -/

namespace OtelBootstrap.Text

variable {α : Type*}

/-! ## At the last separator -/

section Rsplit

variable [DecidableEq α]

/-- What stands before and behind the last `c`. -/
def rsplitOnce (c : α) : List α → Option (List α × List α)
  | [] => none
  | x :: xs =>
      match rsplitOnce c xs with
      | some (front, back) => some (x :: front, back)
      | none => if x = c then some ([], xs) else none

variable {c : α}

theorem rsplitOnce_of_not_mem {l : List α} (h : c ∉ l) : rsplitOnce c l = none := by
  induction l with
  | nil => rfl
  | cons x xs ih =>
      rw [List.mem_cons, not_or] at h
      rw [rsplitOnce, ih h.2, if_neg (Ne.symm h.1)]

/-- No separator in front of the last one matters. -/
theorem rsplitOnce_append {back : List α} (h : c ∉ back) (front : List α) :
    rsplitOnce c (front ++ c :: back) = some (front, back) := by
  induction front with
  | nil => rw [List.nil_append, rsplitOnce, rsplitOnce_of_not_mem h, if_pos rfl]
  | cons x front ih => rw [List.cons_append, rsplitOnce, ih]

end Rsplit

/-! ## Lines -/

section Lines

variable [DecidableEq α]

/-- The lines of a text, where `c` ends a line; the last one may be left open. -/
def lines (c : α) : List α → List (List α)
  | [] => []
  | x :: xs =>
      if x = c then [] :: lines c xs
      else
        match lines c xs with
        | [] => [[x]]
        | l :: ls => (x :: l) :: ls

variable {c : α}

theorem lines_append {l : List α} (h : c ∉ l) (rest : List α) :
    lines c (l ++ c :: rest) = l :: lines c rest := by
  induction l with
  | nil => rw [List.nil_append, lines, if_pos rfl]
  | cons x l ih =>
      rw [List.mem_cons, not_or] at h
      rw [List.cons_append, lines, if_neg (Ne.symm h.1), ih h.2]

/-- Lines written one after the other, each with its end, come back. -/
theorem lines_flatMap {ls : List (List α)} (h : ∀ l ∈ ls, c ∉ l) :
    lines c (ls.flatMap (· ++ [c])) = ls := by
  induction ls with
  | nil => rfl
  | cons l ls ih =>
      rw [List.flatMap_cons, List.append_assoc, List.singleton_append,
        lines_append (h l List.mem_cons_self), ih fun l' hl' => h l' (List.mem_cons_of_mem l hl')]

end Lines

/-! ## Words -/

/-- The words between white space. -/
def words (white : α → Bool) (l : List α) : List (List α) :=
  (l.splitOnP white).filter (!·.isEmpty)

/-- White space in front changes nothing. -/
theorem words_cons {white : α → Bool} {c : α} (h : white c = true) (l : List α) :
    words white (c :: l) = words white l := by
  rw [words, List.splitOnP_cons_eq_if_modifyHead, if_pos h]
  rfl

end OtelBootstrap.Text
