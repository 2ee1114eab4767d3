import Mathlib.Data.List.Basic
import Mathlib.Data.List.Induction

/-! # What stood in a log before an entry -/

namespace OtelBootstrap

variable {α : Type*}

theorem getElem?_snoc (l : List α) (x : α) (i : ℕ) :
    (l ++ [x])[i]? = if i = l.length then some x else l[i]? := by
  by_cases hi : i = l.length
  · subst hi
    simp
  · rw [if_neg hi, List.getElem?_append]
    split
    · rfl
    · rw [List.getElem?_eq_none (l := l) (by omega), List.getElem?_eq_none]
      simp only [List.length_singleton]
      omega

/-- Wherever an entry of the kind stands, what stands before it satisfies `P`. -/
def Before (kind : α → Bool) (P : List α → Prop) (log : List α) : Prop :=
  ∀ front x back, log = front ++ x :: back → kind x = true → P front

namespace Before

variable {kind : α → Bool} {P : List α → Prop} {log : List α}

theorem nil : Before kind P [] := by
  intro front x back h
  simp at h

theorem snoc (h : Before kind P log) {x : α} (hx : kind x = true → P log) :
    Before kind P (log ++ [x]) := by
  intro front y back heq hy
  rcases List.eq_nil_or_concat back with rfl | ⟨rest, z, rfl⟩
  · obtain ⟨hlog, hentry⟩ := List.append_inj' heq rfl
    cases hentry
    rw [← hlog]
    exact hx hy
  · rw [List.concat_eq_append, ← List.cons_append, ← List.append_assoc] at heq
    obtain ⟨hlog, -⟩ := List.append_inj' heq rfl
    exact h front y rest hlog hy

/-- Entries of other kinds change nothing. -/
theorem append (h : Before kind P log) {more : List α} (hmore : ∀ x ∈ more, kind x = false) :
    Before kind P (log ++ more) := by
  induction more using List.reverseRecOn with
  | nil => rwa [List.append_nil]
  | append_singleton more x ih =>
      rw [← List.append_assoc]
      apply (ih fun y hy => hmore y (List.mem_append_left _ hy)).snoc
      intro hx
      rw [hmore x (by simp)] at hx
      cases hx

end Before

end OtelBootstrap
