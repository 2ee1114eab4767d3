import Mathlib.Data.List.Basic
import Mathlib.Data.List.ProdSigma
import Mathlib.Tactic.Ring

/-! # Pairs of entries -/

namespace OtelBootstrap

open List

variable {α β : Type*}

/-- Every entry with every later one. -/
def pairs : List α → List (α × α)
  | [] => []
  | x :: xs => xs.map (x, ·) ++ pairs xs

theorem pairs_map (f : α → β) (l : List α) : pairs (l.map f) = (pairs l).map (Prod.map f f) := by
  induction l with
  | nil => rfl
  | cons x xs ih =>
      rw [map_cons, pairs, pairs, ih, map_append, map_map, map_map]
      rfl

theorem length_pairs (l : List α) : 2 * (pairs l).length = l.length * (l.length - 1) := by
  induction l with
  | nil => rfl
  | cons x xs ih =>
      rw [pairs, length_append, length_map, Nat.mul_add, ih, length_cons, Nat.add_sub_cancel]
      cases xs.length with
      | zero => rfl
      | succ n =>
          rw [Nat.add_sub_cancel]
          ring

/-- The pairs of two parts are those within each and those across them. -/
theorem pairs_append (xs ys : List α) :
    pairs (xs ++ ys) ~ pairs xs ++ (pairs ys ++ xs ×ˢ ys) := by
  induction xs with
  | nil => simp [pairs]
  | cons x xs ih =>
      rw [cons_append, pairs, pairs, map_append, product_cons, append_assoc, append_assoc]
      apply Perm.append_left
      calc ys.map (x, ·) ++ pairs (xs ++ ys)
          ~ ys.map (x, ·) ++ (pairs xs ++ (pairs ys ++ xs ×ˢ ys)) := ih.append_left _
        _ ~ pairs xs ++ (ys.map (x, ·) ++ (pairs ys ++ xs ×ˢ ys)) := perm_append_comm_assoc ..
        _ ~ pairs xs ++ (pairs ys ++ (ys.map (x, ·) ++ xs ×ˢ ys)) :=
            (perm_append_comm_assoc ..).append_left _

theorem mem_pairs {l : List α} {i j : ℕ} {a b : α} (hij : i < j) (ha : l[i]? = some a)
    (hb : l[j]? = some b) : (a, b) ∈ pairs l := by
  induction l generalizing i j with
  | nil => simp at ha
  | cons x xs ih =>
      obtain ⟨j, rfl⟩ : ∃ j', j = j' + 1 := ⟨j - 1, by omega⟩
      rw [getElem?_cons_succ] at hb
      rw [pairs, mem_append]
      cases i with
      | zero =>
          obtain rfl : x = a := by simpa using ha
          exact Or.inl (mem_map_of_mem (mem_of_getElem? hb))
      | succ i =>
          rw [getElem?_cons_succ] at ha
          exact Or.inr (ih (by omega) ha hb)

/-- What holds of an entry and each later one holds of the pairs. -/
theorem forall_mem_pairs {R : α → α → Prop} {l : List α} (h : l.Pairwise R) :
    ∀ p ∈ pairs l, R p.1 p.2 := by
  induction l with
  | nil => simp [pairs]
  | cons x xs ih =>
      intro p hp
      rcases mem_append.mp hp with hfirst | hlater
      · obtain ⟨y, hy, rfl⟩ := mem_map.mp hfirst
        exact rel_of_pairwise_cons h hy
      · exact ih h.of_cons p hlater

theorem pairs_sublist {l l' : List α} (h : l <+ l') : pairs l <+ pairs l' := by
  induction h with
  | slnil => exact Sublist.refl _
  | cons x _ ih => exact ih.trans (sublist_append_right _ _)
  | cons_cons x h ih => exact (h.map _).append ih

end OtelBootstrap
