import Mathlib.Algebra.Order.Field.Basic
import Mathlib.Data.List.Sort
import Mathlib.Order.Monotone.Basic
import Mathlib.Tactic.Linarith
import Mathlib.Tactic.Ring

/-! # Medians

The median of a list is the middle entry of the list in order, or the mean of its two middle
entries. -/

namespace OtelBootstrap.Median

open List

/-! ## A list in order -/

section Sorted

variable {α : Type*} [LinearOrder α]

def sorted (l : List α) : List α :=
  l.insertionSort (· ≤ ·)

theorem sorted_perm (l : List α) : sorted l ~ l :=
  perm_insertionSort _ l

theorem sorted_pairwise (l : List α) : (sorted l).Pairwise (· ≤ ·) :=
  pairwise_insertionSort _ l

theorem length_sorted (l : List α) : (sorted l).length = l.length :=
  (sorted_perm l).length_eq

/-- There is one way to order a list. -/
theorem sorted_eq {l s : List α} (hperm : s ~ l) (hs : s.Pairwise (· ≤ ·)) : sorted l = s :=
  ((sorted_perm l).trans hperm.symm).eq_of_pairwise' (sorted_pairwise l) hs

theorem sorted_map_of_monotone {f : α → α} (hf : Monotone f) (l : List α) :
    sorted (l.map f) = (sorted l).map f := by
  apply sorted_eq ((sorted_perm l).map f)
  exact (sorted_pairwise l).map f fun a b hab => hf hab

theorem sorted_map_of_antitone {f : α → α} (hf : Antitone f) (l : List α) :
    sorted (l.map f) = ((sorted l).map f).reverse := by
  apply sorted_eq ((reverse_perm _).trans ((sorted_perm l).map f))
  rw [pairwise_reverse]
  exact (sorted_pairwise l).map f fun a b hab => hf hab

theorem getElem?_sorted_map_of_monotone {f : α → α} (hf : Monotone f) (l : List α) (i : ℕ) :
    (sorted (l.map f))[i]? = (sorted l)[i]?.map f := by
  rw [sorted_map_of_monotone hf, getElem?_map]

theorem getElem?_sorted_map_of_antitone {f : α → α} (hf : Antitone f) {l : List α} {i : ℕ}
    (hi : i < l.length) :
    (sorted (l.map f))[i]? = (sorted l)[l.length - 1 - i]?.map f := by
  rw [sorted_map_of_antitone hf, getElem?_reverse (by rwa [length_map, length_sorted]),
    length_map, length_sorted, getElem?_map]

/-- The entries up to `x` come first. -/
theorem le_iff_lt_countP {s : List α} (hs : s.Pairwise (· ≤ ·)) {i : ℕ} {y : α}
    (hi : s[i]? = some y) (x : α) : y ≤ x ↔ i < s.countP (· ≤ x) := by
  induction s generalizing i with
  | nil => simp at hi
  | cons a s ih =>
      by_cases ha : a ≤ x
      · have hcount : (a :: s).countP (· ≤ x) = s.countP (· ≤ x) + 1 :=
          countP_cons_of_pos (by simpa using ha)
        rw [hcount]
        cases i with
        | zero =>
            obtain rfl : a = y := by simpa using hi
            simp [ha]
        | succ i =>
            rw [getElem?_cons_succ] at hi
            rw [ih hs.of_cons hi, Nat.succ_lt_succ_iff]
      · -- the first entry is past `x`, and so are the others
        have hpast : ∀ b ∈ a :: s, ¬ b ≤ x := by
          intro b hb hbx
          rcases mem_cons.mp hb with rfl | hb
          · exact ha hbx
          · exact ha ((rel_of_pairwise_cons hs hb).trans hbx)
        have hnone : (a :: s).countP (· ≤ x) = 0 := by
          rw [countP_eq_zero]
          intro b hb
          simpa using hpast b hb
        rw [hnone]
        exact iff_of_false (hpast y (mem_of_getElem? hi)) (Nat.not_lt_zero i)

/-- Where every entry grows, so does every entry of the list in order. -/
theorem sorted_le_of_forall₂ {l l' : List α} (h : Forall₂ (· ≤ ·) l l') {i : ℕ} {x y : α}
    (hx : (sorted l)[i]? = some x) (hy : (sorted l')[i]? = some y) : x ≤ y := by
  have hcount : l'.countP (· ≤ y) ≤ l.countP (· ≤ y) := by
    clear hx hy
    induction h with
    | nil => exact le_rfl
    | @cons a b l l' hab _ ih =>
        rw [countP_cons, countP_cons]
        by_cases hb : b ≤ y
        · simp [hb, hab.trans hb, ih]
        · simp only [hb, decide_false, Bool.false_eq_true, if_false, Nat.add_zero]
          exact ih.trans (Nat.le_add_right _ _)
  rw [le_iff_lt_countP (sorted_pairwise l) hx, (sorted_perm l).countP_eq]
  have hlast := (le_iff_lt_countP (sorted_pairwise l') hy y).mp le_rfl
  rw [(sorted_perm l').countP_eq] at hlast
  exact hlast.trans_le hcount

/-- An entry that more than half of the list is stands in the middle. -/
theorem eq_of_majority {l : List α} {a x : α} (h : l.length < 2 * l.count a) {i : ℕ}
    (hi : i ≤ l.length / 2) (hi' : (l.length - 1) / 2 ≤ i) (hx : (sorted l)[i]? = some x) :
    x = a := by
  have hlow : l.count a ≤ l.countP (· ≤ a) := by
    refine countP_mono_left fun b _ hb => ?_
    rw [beq_iff_eq] at hb
    simp [hb]
  apply le_antisymm
  · rw [le_iff_lt_countP (sorted_pairwise l) hx, (sorted_perm l).countP_eq]
    omega
  · by_contra hlt
    -- the entries up to `x` are none of those
    have hapart : l.countP (· ≤ x) + l.count a ≤ l.length := by
      rw [count, length_eq_countP_add_countP (· ≤ x)]
      refine Nat.add_le_add_left (countP_mono_left fun b _ hb => ?_) _
      rw [beq_iff_eq] at hb
      simpa [hb] using hlt
    have hself := (le_iff_lt_countP (sorted_pairwise l) hx x).mp le_rfl
    rw [(sorted_perm l).countP_eq] at hself
    omega

/-- The two middle entries of a list in order; they may be the same. -/
theorem exists_middle {l : List α} (hl : l ≠ []) :
    ∃ x y, (sorted l)[(l.length - 1) / 2]? = some x ∧ (sorted l)[l.length / 2]? = some y ∧
      x ≤ y := by
  have hpos : 0 < l.length := length_pos_iff.mpr hl
  have hlower : (l.length - 1) / 2 < (sorted l).length := by
    rw [length_sorted]
    omega
  have hupper : l.length / 2 < (sorted l).length := by
    rw [length_sorted]
    omega
  refine ⟨_, _, getElem?_eq_getElem hlower, getElem?_eq_getElem hupper, ?_⟩
  have hmono := (sorted_pairwise l).sortedLE.monotone_get
  exact hmono (show (⟨_, hlower⟩ : Fin _) ≤ ⟨_, hupper⟩ from Nat.div_le_div_right (by omega))

end Sorted

/-! ## The middle -/

section Median

variable {K : Type*} [Field K] [LinearOrder K]

def median (l : List K) : K :=
  ((sorted l).getD ((l.length - 1) / 2) 0 + (sorted l).getD (l.length / 2) 0) / 2

theorem median_of_middle {l : List K} {x y : K} (hx : (sorted l)[(l.length - 1) / 2]? = some x)
    (hy : (sorted l)[l.length / 2]? = some y) : median l = (x + y) / 2 := by
  rw [median, getD_eq_getElem?_getD, getD_eq_getElem?_getD, hx, hy]
  rfl

variable [IsStrictOrderedRing K]

/-- A negative factor turns the order around, and exchanges the two middle entries. -/
theorem median_affine {l : List K} (hl : l ≠ []) (c a : K) :
    median (l.map fun x => c * x + a) = c * median l + a := by
  obtain ⟨x, y, hx, hy, -⟩ := exists_middle hl
  rw [median_of_middle hx hy]
  rcases le_total 0 c with hc | hc
  · have hmono : Monotone fun x => c * x + a := by
      intro x y hxy
      exact add_le_add_left (mul_le_mul_of_nonneg_left hxy hc) a
    have hlower := getElem?_sorted_map_of_monotone hmono l ((l.length - 1) / 2)
    have hupper := getElem?_sorted_map_of_monotone hmono l (l.length / 2)
    rw [hx, Option.map_some, ← length_map (fun x => c * x + a)] at hlower
    rw [hy, Option.map_some, ← length_map (fun x => c * x + a)] at hupper
    rw [median_of_middle hlower hupper]
    ring
  · have hanti : Antitone fun x => c * x + a := by
      intro x y hxy
      exact add_le_add_left (mul_le_mul_of_nonpos_left hxy hc) a
    have hpos : 0 < l.length := length_pos_iff.mpr hl
    have hlower := getElem?_sorted_map_of_antitone hanti
      (show (l.length - 1) / 2 < l.length by omega)
    have hupper := getElem?_sorted_map_of_antitone hanti (show l.length / 2 < l.length by omega)
    rw [show l.length - 1 - (l.length - 1) / 2 = l.length / 2 by omega, hy, Option.map_some,
      ← length_map (fun x => c * x + a)] at hlower
    rw [show l.length - 1 - l.length / 2 = (l.length - 1) / 2 by omega, hx, Option.map_some,
      ← length_map (fun x => c * x + a)] at hupper
    rw [median_of_middle hlower hupper]
    ring

/-- The median of entries that are not negative is zero when more than half of them are. -/
theorem median_eq_zero_iff {l : List K} (hl : l ≠ []) (hnonneg : ∀ x ∈ l, 0 ≤ x) :
    median l = 0 ↔ l.length / 2 < l.countP (· ≤ 0) := by
  obtain ⟨x, y, hx, hy, hxy⟩ := exists_middle hl
  have hx0 : 0 ≤ x := hnonneg x ((sorted_perm l).mem_iff.mp (mem_of_getElem? hx))
  rw [median_of_middle hx hy, ← (sorted_perm l).countP_eq,
    ← le_iff_lt_countP (sorted_pairwise l) hy 0]
  constructor
  · intro h
    linarith
  · intro h
    linarith

theorem median_of_majority {l : List K} {a : K} (h : l.length < 2 * l.count a) :
    median l = a := by
  have hne : l ≠ [] := by
    rintro rfl
    simp at h
  obtain ⟨x, y, hx, hy, -⟩ := exists_middle hne
  obtain rfl := eq_of_majority h (Nat.div_le_div_right (Nat.sub_le _ _)) le_rfl hx
  obtain rfl := eq_of_majority h le_rfl (Nat.div_le_div_right (Nat.sub_le _ _)) hy
  rw [median_of_middle hx hy]
  ring

theorem median_mono {l l' : List K} (h : Forall₂ (· ≤ ·) l l') : median l ≤ median l' := by
  have hlength := h.length_eq
  by_cases hl : l = []
  · have hl' : l' = [] := by
      rw [← length_eq_zero_iff, ← hlength, hl, length_nil]
    rw [hl, hl']
  · have hl' : l' ≠ [] := by
      rwa [← length_pos_iff, ← hlength, length_pos_iff]
    obtain ⟨x, y, hx, hy, -⟩ := exists_middle hl
    obtain ⟨x', y', hx', hy', -⟩ := exists_middle hl'
    rw [median_of_middle hx hy, median_of_middle hx' hy']
    rw [← hlength] at hx' hy'
    have hlower := sorted_le_of_forall₂ h hx hx'
    have hupper := sorted_le_of_forall₂ h hy hy'
    linarith

end Median

end OtelBootstrap.Median
