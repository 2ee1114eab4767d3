import OtelBootstrap.Probe.Slope

/-! # What moves the reported slope

The slope follows the samples that most pairs agree on, and it grows with the growth. -/

namespace OtelBootstrap.Probe

open List

/-! ## Outliers -/

theorem length_pairwise_le (samples : List (ℚ × ℚ)) :
    (pairwise samples).length ≤ (pairs samples).length := by
  rw [pairwise_eq, length_map]
  exact length_filter_le _ _

/-- Samples at increasing times on a line all have its slope as their rate. -/
theorem pairwise_of_line {samples : List (ℚ × ℚ)} {a b : ℚ}
    (htimes : samples.Pairwise fun x y => x.1 < y.1) (hline : ∀ x ∈ samples, x.2 = a * x.1 + b) :
    pairwise samples = replicate (pairs samples).length a := by
  have hall : (pairs samples).filter (fun p => p.1.1 < p.2.1) = pairs samples := by
    rw [filter_eq_self]
    exact fun p hp => decide_eq_true (forall_mem_pairs htimes p hp)
  have hrate : ∀ p ∈ pairs samples, rate p = a := by
    intro p hp
    have hlt := forall_mem_pairs htimes p hp
    have hne : p.2.1 - p.1.1 ≠ 0 := (sub_pos.mpr hlt).ne'
    have hmem := forall_mem_pairs (pairwise_of_forall_mem_list
      fun x hx y hy => And.intro (hline x hx) (hline y hy)) p hp
    rw [rate, hmem.1, hmem.2, div_eq_iff hne]
    ring
  rw [pairwise_eq, hall, eq_replicate_iff]
  refine ⟨length_map _, fun m hm => ?_⟩
  obtain ⟨p, hp, rfl⟩ := mem_map.mp hm
  exact hrate p hp

theorem pairwise_sublist {good samples : List (ℚ × ℚ)} (h : good <+ samples) :
    pairwise good <+ pairwise samples := by
  rw [pairwise_eq, pairwise_eq]
  exact ((pairs_sublist h).filter _).map _

/-- Whatever the other samples read, and wherever they stand, a line through enough of the
samples that most pairs are pairs of it is reported as it is. -/
theorem outliers_ignored {good samples : List (ℚ × ℚ)} {a b : ℚ} (hsub : good <+ samples)
    (htimes : good.Pairwise fun x y => x.1 < y.1) (hline : ∀ x ∈ good, x.2 = a * x.1 + b)
    (hmost : samples.length * (samples.length - 1) < 2 * (good.length * (good.length - 1))) :
    slope samples = a := by
  have hcount : (pairs good).length ≤ (pairwise samples).count a := by
    have hsublist := (pairwise_sublist hsub).count_le a
    rwa [pairwise_of_line htimes hline, count_replicate_self] at hsublist
  have hlength := length_pairwise_le samples
  have hsamples := length_pairs samples
  have hgood := length_pairs good
  rw [slope_eq_median]
  apply Median.median_of_majority
  omega

/-- Two samples in ten read nonsense. -/
theorem nonsense_ignored :
    slope [(0, 10), (1, 900), (2, 14), (3, 16), (4, -7), (5, 20), (6, 22), (7, 24), (8, 26),
      (9, 28)] = 2 := by
  have hsub : [((0 : ℚ), (10 : ℚ)), (2, 14), (3, 16), (5, 20), (6, 22), (7, 24), (8, 26),
      (9, 28)] <+
      [(0, 10), (1, 900), (2, 14), (3, 16), (4, -7), (5, 20), (6, 22), (7, 24), (8, 26),
        (9, 28)] := by decide +kernel
  exact outliers_ignored (a := 2) (b := 10) hsub (by decide +kernel) (by decide +kernel)
    (by decide)

/-! ## Growth -/

/-- Of two readings taken together, the one that never grows less is reported to grow no
less. -/
theorem slope_mono (samples : List (ℚ × ℚ × ℚ))
    (hgrowth : samples.Pairwise fun x y => x.1 < y.1 → y.2.1 - x.2.1 ≤ y.2.2 - x.2.2) :
    slope (samples.map fun x => (x.1, x.2.1)) ≤ slope (samples.map fun x => (x.1, x.2.2)) := by
  rw [slope_eq_median, slope_eq_median]
  apply Median.median_mono
  rw [pairwise_eq, pairwise_eq, pairs_map, pairs_map, filter_map, filter_map, map_map, map_map,
    forall₂_map_left_iff, forall₂_map_right_iff]
  apply forall₂_same.mpr
  intro p hp
  obtain ⟨hpair, hlt⟩ := mem_filter.mp hp
  have hlt : p.1.1 < p.2.1 := of_decide_eq_true hlt
  have hgrown := forall_mem_pairs hgrowth p hpair hlt
  exact div_le_div_of_nonneg_right hgrown (sub_pos.mpr hlt).le

/-- A series that only grows, and the same with a leak of three bytes a second and a jump. -/
theorem jump_not_lower :
    slope [(0, 1), (1, 1), (2, 4), (3, 4)] ≤ slope [(0, 1), (1, 4), (2, 110), (3, 113)] :=
  slope_mono [(0, 1, 1), (1, 1, 4), (2, 4, 110), (3, 4, 113)] (by decide +kernel)

end OtelBootstrap.Probe
