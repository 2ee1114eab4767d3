import OtelBootstrap.Library.Forest

/-! # One forest inside another

A forest that grew alone, and a larger one that holds its nodes among others. -/

namespace OtelBootstrap.Forest

variable {α : Type*}

/-! ## Ancestors -/

theorem chain_congr {parent parent' : ℕ → Option ℕ} {e : ℕ → ℕ} {bound : ℕ}
    (hlt : ∀ {i p}, parent i = some p → p < i)
    (hparent : ∀ i < bound, parent' (e i) = (parent i).map e) {n i : ℕ} (hi : i < bound) :
    chain parent' n (e i) = (chain parent n i).map e := by
  induction n generalizing i with
  | zero => rfl
  | succ n ih =>
      rw [chain, chain, hparent i hi]
      cases hp : parent i with
      | none => rfl
      | some p =>
          change e i :: chain parent' n (e p) = e i :: (chain parent n p).map e
          rw [ih (Nat.lt_trans (hlt hp) hi)]

/-- A chain is as long as the way to its root. -/
theorem chain_of_lt {parent : ℕ → Option ℕ} (hlt : ∀ {i p}, parent i = some p → p < i)
    {n m i : ℕ} (hn : i < n) (hm : i < m) : chain parent n i = chain parent m i := by
  induction n generalizing m i with
  | zero => omega
  | succ n ih =>
      cases m with
      | zero => omega
      | succ m =>
          rw [chain, chain]
          cases hp : parent i with
          | none => rfl
          | some p =>
              have hpi := hlt hp
              change i :: chain parent n p = i :: chain parent m p
              rw [ih (m := m) (by omega) (by omega)]

theorem lt_of_mem_ancestors {f : Forest α} {i t : ℕ} (h : t ∈ f.ancestors i) : t ≤ i := by
  rw [mem_ancestors] at h
  induction h with
  | refl => exact Nat.le_refl i
  | tail _ hstep ih => exact Nat.le_trans (Nat.le_of_lt (f.parent_lt hstep)) ih

/-! ## Embeddings -/

/-- Node `i` of `f` is node `e i` of `g`, under the same parent. -/
structure Embeds (f g : Forest α) (e : ℕ → ℕ) : Prop where
  nodes : ∀ i < f.size, g.nodes[e i]? = (f.nodes[i]?).map fun node => (node.1.map e, node.2)
  injective : ∀ i < f.size, ∀ j < f.size, e i = e j → i = j

namespace Embeds

variable {f g : Forest α} {e : ℕ → ℕ}

theorem get?_eq (h : Embeds f g e) {i : ℕ} (hi : i < f.size) : g.get? (e i) = f.get? i := by
  rw [get?, get?, h.nodes i hi, Option.map_map]
  rfl

theorem lt_size (h : Embeds f g e) {i : ℕ} (hi : i < f.size) : e i < g.size := by
  have hnode := h.nodes i hi
  rw [List.getElem?_eq_getElem (l := f.nodes) hi] at hnode
  exact (List.getElem?_eq_some_iff.mp hnode).1

theorem parent_eq (h : Embeds f g e) {i : ℕ} (hi : i < f.size) :
    g.parent (e i) = (f.parent i).map e := by
  rw [parent, parent, h.nodes i hi]
  cases f.nodes[i]? <;> rfl

theorem ancestors_eq (h : Embeds f g e) {i : ℕ} (hi : i < f.size) :
    g.ancestors (e i) = (f.ancestors i).map e := by
  have hcut : ∀ n, i < n → chain f.parent n i = chain f.parent (i + 1) i :=
    fun n hn => chain_of_lt f.parent_lt hn (Nat.lt_succ_self i)
  have hmap : ∀ n, chain g.parent n (e i) = (chain f.parent n i).map e :=
    fun n => chain_congr f.parent_lt (fun _ => h.parent_eq) hi
  rw [ancestors, ancestors, ← hcut (i + 1 + e i) (by omega), ← hmap]
  exact chain_of_lt g.parent_lt (Nat.lt_succ_self _) (by omega)

theorem congr (h : Embeds f g e) {e' : ℕ → ℕ} (he : ∀ i < f.size, e' i = e i) :
    Embeds f g e' := by
  refine ⟨?_, ?_⟩
  · intro i hi
    rw [he i hi, h.nodes i hi]
    cases hnode : f.nodes[i]? with
    | none => rfl
    | some node =>
        rcases node with ⟨p, x⟩
        cases p with
        | none => rfl
        | some p =>
            have hp : p < i := f.earlier i p x hnode
            simp [he p (Nat.lt_trans hp hi)]
  · intro i hi j hj hij
    rw [he i hi, he j hj] at hij
    exact h.injective i hi j hj hij

/-! ### Growth -/

/-- What is added to the larger forest alone. -/
theorem add_right (h : Embeds f g e) {parent : Option ℕ} (x : α)
    (hparent : ∀ p ∈ parent, p < g.size) : Embeds f (g.add parent x hparent) e := by
  refine ⟨?_, h.injective⟩
  intro i hi
  rw [nodes_add, List.getElem?_append_left (h.lt_size hi), h.nodes i hi]

/-- What is added to both becomes the next node of each. -/
theorem add_both (h : Embeds f g e) (hnext : e f.size = g.size) {parent : Option ℕ} (x : α)
    (hparent : ∀ p ∈ parent, p < f.size) {parent' : Option ℕ}
    (hparent' : ∀ p ∈ parent', p < g.size) (heq : parent' = parent.map e) :
    Embeds (f.add parent x hparent) (g.add parent' x hparent') e := by
  have hsize : (f.add parent x hparent).size = f.size + 1 := by
    simp [size]
  refine ⟨?_, ?_⟩
  · intro i hi
    rw [hsize] at hi
    by_cases hlast : i = f.size
    · subst hlast
      rw [hnext, nodes_add, nodes_add, size, size, List.getElem?_concat_length,
        List.getElem?_concat_length, heq]
      rfl
    · have hi' : i < f.size := by omega
      rw [nodes_add, nodes_add, List.getElem?_append_left (h.lt_size hi'),
        List.getElem?_append_left (show i < f.nodes.length from hi'), h.nodes i hi']
  · intro i hi j hj hij
    rw [hsize] at hi hj
    have hnew : ∀ k < f.size, e k ≠ e f.size := by
      intro k hk
      have hlt := h.lt_size hk
      omega
    by_cases hi' : i = f.size
    · by_cases hj' : j = f.size
      · rw [hi', hj']
      · subst hi'
        exact absurd hij.symm (hnew j (by omega))
    · by_cases hj' : j = f.size
      · subst hj'
        exact absurd hij (hnew i (by omega))
      · exact h.injective i (by omega) j (by omega) hij

theorem modify_right (h : Embeds f g e) {s : ℕ} (hs : ∀ i < f.size, e i ≠ s) (alter : α → α) :
    Embeds f (g.modify s alter) e := by
  refine ⟨?_, h.injective⟩
  intro i hi
  have hother : s ≠ e i := Ne.symm (hs i hi)
  rw [nodes_modify, List.getElem?_modify, h.nodes i hi]
  simp [hother]

theorem modify_both (h : Embeds f g e) {s : ℕ} (hs : s < f.size) (alter : α → α) :
    Embeds (f.modify s alter) (g.modify (e s) alter) e := by
  have hsize : (f.modify s alter).size = f.size := by
    simp [size]
  refine ⟨?_, ?_⟩
  · intro i hi
    rw [hsize] at hi
    rw [nodes_modify, nodes_modify, List.getElem?_modify, List.getElem?_modify, h.nodes i hi]
    by_cases his : s = i
    · subst his
      cases f.nodes[s]? <;> simp
    · have hother : e s ≠ e i := fun hes => his (h.injective s hs i hi hes)
      simp [his, hother]
  · intro i hi j hj
    rw [hsize] at hi hj
    exact h.injective i hi j hj

theorem empty_left (g : Forest α) (e : ℕ → ℕ) : Embeds empty g e :=
  ⟨fun _ hi => absurd hi (Nat.not_lt_zero _), fun _ hi => absurd hi (Nat.not_lt_zero _)⟩

end Embeds

end OtelBootstrap.Forest
