import Mathlib.Algebra.Order.Ring.Rat
import Mathlib.Tactic.FieldSimp
import OtelBootstrap.Library.Median
import OtelBootstrap.Library.Pairs

/-! # The slope of resident memory

Samples are `(seconds, bytes)`, in exact arithmetic. -/

namespace OtelBootstrap.Probe

open List

/-- The slopes of every sample with the later ones, where time has passed between them. -/
def pairwise : List (ℚ × ℚ) → List ℚ
  | [] => []
  | (t0, r0) :: rest =>
      ((rest.filter fun (t1, _) => t1 > t0).map fun (t1, r1) => (r1 - r0) / (t1 - t0)) ++
        pairwise rest

/-- An index is always in range: nothing is read as zero. -/
def slope (samples : List (ℚ × ℚ)) : ℚ :=
  let pairwise := (pairwise samples).insertionSort (· ≤ ·)
  if pairwise.isEmpty then 0
  else
    let mid := pairwise.length / 2
    if pairwise.length % 2 = 1 then pairwise.getD mid 0
    else (pairwise.getD (mid - 1) 0 + pairwise.getD mid 0) / 2

/-! ## The median of the rates -/

def rate (p : (ℚ × ℚ) × (ℚ × ℚ)) : ℚ :=
  (p.2.2 - p.1.2) / (p.2.1 - p.1.1)

theorem pairwise_eq (samples : List (ℚ × ℚ)) :
    pairwise samples = ((pairs samples).filter fun p => p.1.1 < p.2.1).map rate := by
  induction samples with
  | nil => rfl
  | cons x rest ih =>
      rw [pairwise, pairs, filter_append, map_append, ih, filter_map, map_map]
      rfl

/-- With an odd number of rates the two middle ones are the same. -/
theorem slope_eq_median (samples : List (ℚ × ℚ)) :
    slope samples = Median.median (pairwise samples) := by
  unfold slope Median.median
  rw [← Median.length_sorted, ← Median.sorted]
  generalize Median.sorted (pairwise samples) = s
  cases hn : s.length with
  | zero =>
      rw [length_eq_zero_iff.mp hn]
      simp
  | succ n =>
      have hne : s.isEmpty = false := by
        rw [isEmpty_eq_false_iff, ← length_pos_iff]
        omega
      simp only [hne, Bool.false_eq_true, if_false, hn, Nat.add_sub_cancel]
      rcases Nat.mod_two_eq_zero_or_one (n + 1) with heven | hodd
      · rw [if_neg (by omega), show (n + 1) / 2 - 1 = n / 2 by omega]
      · rw [if_pos hodd, show (n + 1) / 2 = n / 2 by omega]
        ring

example : slope [(0, 0), (1, 1), (2, 3), (3, 3)] = 1 := by decide +kernel

theorem mem_pairwise {samples : List (ℚ × ℚ)} {i j : ℕ} {x y : ℚ × ℚ} (hij : i < j)
    (hx : samples[i]? = some x) (hy : samples[j]? = some y) (htime : x.1 < y.1) :
    rate (x, y) ∈ pairwise samples := by
  rw [pairwise_eq]
  apply mem_map_of_mem
  exact mem_filter.mpr ⟨mem_pairs hij hx hy, decide_eq_true htime⟩

/-! ## Leaks -/

/-- A sample of a series that is scaled by `c` and leaks `a` a second. -/
def leaking (c a b : ℚ) (x : ℚ × ℚ) : ℚ × ℚ :=
  (x.1, c * x.2 + a * x.1 + b)

theorem rate_leaking (c a b : ℚ) {p : (ℚ × ℚ) × (ℚ × ℚ)} (h : p.1.1 < p.2.1) :
    rate (Prod.map (leaking c a b) (leaking c a b) p) = c * rate p + a := by
  have hne : p.2.1 - p.1.1 ≠ 0 := (sub_pos.mpr h).ne'
  simp only [rate, leaking, Prod.map_fst, Prod.map_snd]
  field_simp
  ring

theorem pairwise_leaking (c a b : ℚ) (samples : List (ℚ × ℚ)) :
    pairwise (samples.map (leaking c a b)) =
      (pairwise samples).map fun m => c * m + a := by
  rw [pairwise_eq, pairwise_eq, pairs_map, filter_map, map_map, map_map]
  apply map_congr_left
  intro p hp
  exact rate_leaking c a b (of_decide_eq_true (mem_filter.mp hp).2)

theorem slope_leaking {samples : List (ℚ × ℚ)} (h : pairwise samples ≠ []) (c a b : ℚ) :
    slope (samples.map (leaking c a b)) = c * slope samples + a := by
  rw [slope_eq_median, slope_eq_median, pairwise_leaking, Median.median_affine h]

/-- A leak is reported in full, whatever it comes on top of. -/
theorem leak_reported (samples : List (ℚ × ℚ))
    (h : ∃ (i j : ℕ) (x y : ℚ × ℚ), i < j ∧ samples[i]? = some x ∧ samples[j]? = some y ∧
      x.1 < y.1) (a b c : ℚ) :
    slope (samples.map fun (t, r) => (t, c * r + a * t + b)) = c * slope samples + a ∧
      ((∀ x ∈ samples, x.2 = a * x.1 + b) → slope samples = a) ∧
      slope (samples.map fun (t, r) => (t, r + a * t)) = slope samples + a := by
  obtain ⟨i, j, x, y, hij, hx, hy, htime⟩ := h
  have hpairs : pairwise samples ≠ [] := ne_nil_of_mem (mem_pairwise hij hx hy htime)
  refine ⟨slope_leaking hpairs c a b, ?_, ?_⟩
  · intro hline
    have hsame : samples.map (leaking 0 a b) = samples.map id := by
      apply map_congr_left
      intro x hx
      rw [leaking, zero_mul, zero_add, ← hline x hx, id]
    have hslope := slope_leaking hpairs 0 a b
    rw [hsame, map_id, zero_mul, zero_add] at hslope
    exact hslope
  · have hadd : leaking 1 a 0 = fun (t, r) => (t, r + a * t) := by
      funext x
      rw [leaking, one_mul, add_zero]
    have hslope := slope_leaking hpairs 1 a 0
    rw [hadd, one_mul] at hslope
    exact hslope

/-- The same leak on a series that falls, with a time given twice. -/
theorem leak_reported_falling :
    slope ([(0, 5), (0, 4), (2, 1)].map fun (t, r) => (t, -2 * r + 50 * t + 7)) = 107 / 2 := by
  have hleak := (leak_reported [(0, 5), (0, 4), (2, 1)]
    ⟨1, 2, (0, 4), (2, 1), by decide, rfl, rfl, by decide +kernel⟩ 50 7 (-2)).1
  rw [hleak]
  decide +kernel

/-! ## Steps -/

/-- Samples at increasing times that step up by `s` from the one at `k` on. -/
structure SingleStep (samples : List (ℚ × ℚ)) (k : ℕ) (c s : ℚ) : Prop where
  times : samples.Pairwise fun x y => x.1 < y.1
  first : 1 ≤ k
  last : k < samples.length
  positive : 0 < s
  before : ∀ x ∈ samples.take k, x.2 = c
  after : ∀ x ∈ samples.drop k, x.2 = c + s

/-- Samples of one value have rates of zero. -/
theorem rate_eq_zero_of_level {l : List (ℚ × ℚ)} {r : ℚ} (h : ∀ x ∈ l, x.2 = r) :
    ∀ p ∈ pairs l, rate p = 0 := by
  have hlevel : l.Pairwise fun x y => x.2 = y.2 :=
    pairwise_of_forall_mem_list fun x hx y hy => (h x hx).trans (h y hy).symm
  intro p hp
  rw [rate, forall_mem_pairs hlevel p hp, sub_self, zero_div]

namespace SingleStep

variable {samples : List (ℚ × ℚ)} {k : ℕ} {c s : ℚ}

theorem perm_pairs (samples : List (ℚ × ℚ)) (k : ℕ) :
    pairs samples ~ pairs (samples.take k) ++
      (pairs (samples.drop k) ++ samples.take k ×ˢ samples.drop k) := by
  have hsplit := pairs_append (samples.take k) (samples.drop k)
  rwa [take_append_drop] at hsplit

theorem pairwise_eq_map (h : SingleStep samples k c s) :
    pairwise samples = (pairs samples).map rate := by
  rw [pairwise_eq, filter_eq_self.mpr]
  intro p hp
  exact decide_eq_true (forall_mem_pairs h.times p hp)

/-- The pairs that straddle the step have a rate, and no others. -/
theorem rate_straddling (h : SingleStep samples k c s) :
    ∀ p ∈ samples.take k ×ˢ samples.drop k, 0 < rate p := by
  rintro ⟨x, y⟩ hp
  obtain ⟨hx, hy⟩ := pair_mem_product.mp hp
  have htimes := h.times
  rw [← take_append_drop k samples, pairwise_append] at htimes
  have hxy : x.1 < y.1 := htimes.2.2 x hx y hy
  rw [rate, h.before x hx, h.after y hy, add_sub_cancel_left]
  exact div_pos h.positive (sub_pos.mpr hxy)

theorem rate_nonneg (h : SingleStep samples k c s) : ∀ m ∈ pairwise samples, 0 ≤ m := by
  intro m hm
  rw [h.pairwise_eq_map] at hm
  obtain ⟨p, hp, rfl⟩ := mem_map.mp hm
  rcases mem_append.mp ((perm_pairs samples k).mem_iff.mp hp) with hbefore | hrest
  · exact (rate_eq_zero_of_level h.before p hbefore).ge
  · rcases mem_append.mp hrest with hafter | hacross
    · exact (rate_eq_zero_of_level h.after p hafter).ge
    · exact (h.rate_straddling p hacross).le

theorem countP_rates (h : SingleStep samples k c s) :
    (pairwise samples).countP (· ≤ 0) =
      (pairs (samples.take k)).length + (pairs (samples.drop k)).length := by
  rw [h.pairwise_eq_map, countP_map, (perm_pairs samples k).countP_eq, countP_append,
    countP_append]
  have hbefore : (pairs (samples.take k)).countP ((fun m => decide (m ≤ 0)) ∘ rate) =
      (pairs (samples.take k)).length := by
    rw [countP_eq_length]
    intro p hp
    exact decide_eq_true (rate_eq_zero_of_level h.before p hp).le
  have hafter : (pairs (samples.drop k)).countP ((fun m => decide (m ≤ 0)) ∘ rate) =
      (pairs (samples.drop k)).length := by
    rw [countP_eq_length]
    intro p hp
    exact decide_eq_true (rate_eq_zero_of_level h.after p hp).le
  have hacross : (samples.take k ×ˢ samples.drop k).countP ((fun m => decide (m ≤ 0)) ∘ rate) =
      0 := by
    rw [countP_eq_zero]
    intro p hp hle
    exact absurd (of_decide_eq_true hle) (not_le.mpr (h.rate_straddling p hp))
  rw [hbefore, hafter, hacross, Nat.add_zero]

theorem length_pairwise (h : SingleStep samples k c s) :
    (pairwise samples).length =
      (pairs (samples.take k)).length + (pairs (samples.drop k)).length +
        k * (samples.length - k) := by
  rw [h.pairwise_eq_map, length_map, (perm_pairs samples k).length_eq, length_append,
    length_append, length_product, length_take, length_drop, Nat.min_eq_left h.last.le,
    Nat.add_assoc]

/-- The step is ignored when the straddling pairs are fewer than half of all pairs. -/
theorem slope_eq_zero_iff (h : SingleStep samples k c s) :
    slope samples = 0 ↔ 2 * (k * (samples.length - k)) < (pairs samples).length := by
  have hlength := h.length_pairwise
  have hstraddling : 0 < k * (samples.length - k) :=
    Nat.mul_pos h.first (Nat.sub_pos_of_lt h.last)
  have hne : pairwise samples ≠ [] := by
    rw [← length_pos_iff]
    omega
  have hall : (pairs samples).length = (pairwise samples).length := by
    rw [h.pairwise_eq_map, length_map]
  rw [slope_eq_median, Median.median_eq_zero_iff hne h.rate_nonneg, h.countP_rates, hall, hlength]
  omega

end SingleStep

/-- A single step is ignored exactly when it is far enough from the middle of the samples. -/
theorem single_step_ignored_iff {samples : List (ℚ × ℚ)} {k : ℕ} {c s : ℚ}
    (h : SingleStep samples k c s) :
    slope samples = 0 ↔
      4 * (k * (samples.length - k)) < samples.length * (samples.length - 1) := by
  rw [h.slope_eq_zero_iff, ← length_pairs]
  omega

/-- `n` samples, one a second, that step up by one at `k`. -/
def stepAt (n k : ℕ) : List (ℚ × ℚ) :=
  (range n).map fun t : ℕ => ((t : ℚ), if t < k then 0 else 1)

theorem singleStep_stepAt {n k : ℕ} (hfirst : 1 ≤ k) (hlast : k < n) :
    SingleStep (stepAt n k) k 0 1 where
  times := by
    rw [stepAt, pairwise_map]
    exact pairwise_lt_range.imp fun hlt => Nat.cast_lt.mpr hlt
  first := hfirst
  last := by
    rw [stepAt, length_map, length_range]
    exact hlast
  positive := zero_lt_one
  before := by
    intro x hx
    rw [stepAt, ← map_take, take_range] at hx
    obtain ⟨t, ht, rfl⟩ := mem_map.mp hx
    have htk : t < k := by
      rw [mem_range] at ht
      omega
    exact if_pos htk
  after := by
    intro x hx
    rw [stepAt, ← map_drop] at hx
    obtain ⟨t, ht, rfl⟩ := mem_map.mp hx
    obtain ⟨i, hi, rfl⟩ := mem_iff_getElem.mp ht
    rw [getElem_drop, getElem_range, zero_add]
    exact if_neg (by omega)

theorem late_step_ignored : slope (stepAt 120 110) = 0 := by
  have hstep : SingleStep (stepAt 120 110) 110 0 1 := singleStep_stepAt (by decide) (by decide)
  have hlength : (stepAt 120 110).length = 120 := by simp [stepAt]
  rw [single_step_ignored_iff hstep, hlength]
  decide

/-- A step in the middle is reported. -/
theorem middle_step_reported :
    SingleStep (stepAt 20 10) 10 0 1 ∧ slope (stepAt 20 10) ≠ 0 := by
  have hstep : SingleStep (stepAt 20 10) 10 0 1 := singleStep_stepAt (by decide) (by decide)
  have hlength : (stepAt 20 10).length = 20 := by simp [stepAt]
  refine ⟨hstep, ?_⟩
  have hpairs := length_pairs (stepAt 20 10)
  rw [Ne, hstep.slope_eq_zero_iff, hlength]
  rw [hlength] at hpairs
  omega

end OtelBootstrap.Probe
