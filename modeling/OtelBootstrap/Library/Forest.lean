import Mathlib.Data.List.Induction
import Mathlib.Logic.Relation

/-! # Forests that grow

Nodes are numbered in the order in which they were added, and a node's parent was there
before it. -/

namespace OtelBootstrap

structure Forest (α : Type*) where
  nodes : List (Option ℕ × α)
  earlier : ∀ (i p : ℕ) (x : α), nodes[i]? = some (some p, x) → p < i

namespace Forest

variable {α : Type*}

def empty : Forest α :=
  ⟨[], by simp⟩

def size (f : Forest α) : ℕ :=
  f.nodes.length

def get? (f : Forest α) (i : ℕ) : Option α :=
  (f.nodes[i]?).map Prod.snd

def parent (f : Forest α) (i : ℕ) : Option ℕ :=
  (f.nodes[i]?).bind Prod.fst

/-- The new node is number `f.size`. -/
def add (f : Forest α) (parent : Option ℕ) (x : α) (h : ∀ p ∈ parent, p < f.size) : Forest α where
  nodes := f.nodes ++ [(parent, x)]
  earlier := by
    intro i p y hget
    rw [List.getElem?_append] at hget
    by_cases hi : i < f.nodes.length
    · rw [if_pos hi] at hget
      exact f.earlier i p y hget
    · rw [if_neg hi, List.getElem?_singleton] at hget
      by_cases hlast : i - f.nodes.length = 0
      · rw [if_pos hlast, Option.some.injEq, Prod.mk.injEq] at hget
        have hp : p < f.nodes.length := h p hget.1
        omega
      · rw [if_neg hlast] at hget
        cases hget

def modify (f : Forest α) (i : ℕ) (g : α → α) : Forest α where
  nodes := f.nodes.modify i fun node => (node.1, g node.2)
  earlier := by
    intro j p y hget
    rw [List.getElem?_modify] at hget
    obtain ⟨node, hnode, hy⟩ := Option.map_eq_some_iff.mp hget
    refine f.earlier j p node.2 ?_
    rw [hnode]
    by_cases hij : i = j
    · rw [if_pos hij] at hy
      rw [← (Prod.mk.inj hy).1]
    · rw [if_neg hij] at hy
      rw [hy]

@[simp] theorem nodes_add (f : Forest α) (parent : Option ℕ) (x : α)
    (h : ∀ p ∈ parent, p < f.size) : (f.add parent x h).nodes = f.nodes ++ [(parent, x)] := rfl

@[simp] theorem nodes_modify (f : Forest α) (i : ℕ) (g : α → α) :
    (f.modify i g).nodes = f.nodes.modify i fun node => (node.1, g node.2) := rfl

/-- The first `n` nodes on the way from a node to its root, along a parent function. -/
def chain (parent : ℕ → Option ℕ) : ℕ → ℕ → List ℕ
  | 0, _ => []
  | n + 1, i =>
      i :: match parent i with
        | none => []
        | some p => chain parent n p

/-- A node and its ancestors, nearest first. -/
def ancestors (f : Forest α) (i : ℕ) : List ℕ :=
  chain f.parent (i + 1) i

/-! ## Chains -/

theorem parent_lt (f : Forest α) {i p : ℕ} (h : f.parent i = some p) : p < i := by
  obtain ⟨⟨q, x⟩, hnode, hq⟩ := Option.bind_eq_some_iff.mp h
  change q = some p at hq
  subst q
  exact f.earlier i p x hnode

/-- A chain of parents that decrease is as long as it needs to be. -/
theorem mem_chain {parent : ℕ → Option ℕ} (hlt : ∀ {i p}, parent i = some p → p < i)
    {n i t : ℕ} (hn : i < n) :
    t ∈ chain parent n i ↔ Relation.ReflTransGen (fun a b => parent a = some b) i t := by
  induction n generalizing i with
  | zero => omega
  | succ n ih =>
      rw [chain, List.mem_cons]
      cases hp : parent i with
      | none =>
          constructor
          · rintro (rfl | h)
            · exact .refl
            · cases h
          · intro h
            rcases Relation.ReflTransGen.cases_head h with rfl | ⟨b, hb, -⟩
            · exact Or.inl rfl
            · rw [hp] at hb
              cases hb
      | some p =>
          have hp' : p < n := by
            have := hlt hp
            omega
          change t = i ∨ t ∈ chain parent n p ↔ _
          rw [ih hp']
          constructor
          · rintro (rfl | h)
            · exact .refl
            · exact .head hp h
          · intro h
            rcases Relation.ReflTransGen.cases_head h with rfl | ⟨b, hb, hrest⟩
            · exact Or.inl rfl
            · rw [hp, Option.some.injEq] at hb
              subst b
              exact Or.inr hrest

theorem mem_ancestors (f : Forest α) {i t : ℕ} :
    t ∈ f.ancestors i ↔ Relation.ReflTransGen (fun a b => f.parent a = some b) i t :=
  mem_chain f.parent_lt (Nat.lt_succ_self i)

end Forest

end OtelBootstrap
