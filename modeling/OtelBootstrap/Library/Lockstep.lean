import Mathlib.Data.List.Forall2
import OtelBootstrap.Library.Sections

/-! # Machines in lockstep

Two machines whose sections answer alike on related states run every schedule alike. -/

namespace OtelBootstrap.Sections

variable {ι κ ε ε' σ σ' : Type*}

/-! ## Configurations that look alike -/

/-- The same operation on both sides. -/
def SameOp {α β : Type*} (E : α → β → Prop) (p : ι × α) (q : ι × β) : Prop :=
  p.1 = q.1 ∧ E p.2 q.2

inductive Event.Alike (E : ε → ε' → Prop) : Event κ ε → Event κ ε' → Prop where
  | enter (k : κ) : Event.Alike E (.enter k) (.enter k)
  | emit {e : ε} {e' : ε'} : E e e' → Event.Alike E (.emit e) (.emit e')

/-- What a section answers, on both sides. -/
abbrev Answers (R : σ → σ' → Prop) (E : ε → ε' → Prop) :
    Option (σ × List ε) → Option (σ' × List ε') → Prop :=
  Option.Rel fun r q => R r.1 q.1 ∧ List.Forall₂ E r.2 q.2

/-- The sections still to be entered are among those of `P`. -/
structure Config.Alike (P : ι → κ → Prop) (R : σ → σ' → Prop) (E : ε → ε' → Prop)
    (c : Config ι κ ε σ) (d : Config ι κ ε' σ') : Prop where
  shared : R c.shared d.shared
  todo : c.todo = d.todo
  ahead : ∀ i, ∀ k ∈ c.todo i, P i k
  pending : List.Forall₂ (SameOp E) c.pending d.pending
  trace : List.Forall₂ (SameOp (Event.Alike E)) c.trace d.trace

section

variable {P : ι → κ → Prop} {R : σ → σ' → Prop} {E : ε → ε' → Prop}
  {c : Config ι κ ε σ} {d : Config ι κ ε' σ'}

/-- The effects of one operation, on both sides. -/
theorem forall₂_map_pair {es : List ε} {es' : List ε'} (h : List.Forall₂ E es es') (i : ι) :
    List.Forall₂ (SameOp E) (es.map (i, ·)) (es'.map (i, ·)) :=
  List.rel_map (fun _ _ he => ⟨rfl, he⟩) h

theorem forall₂_snoc {α β : Type*} {S : α → β → Prop} {l : List α} {l' : List β} {x : α} {y : β}
    (h : List.Forall₂ S l l') (hxy : S x y) : List.Forall₂ S (l ++ [x]) (l' ++ [y]) :=
  List.rel_append h (.cons hxy .nil)

theorem any_of_forall₂ [DecidableEq ι] {p : List (ι × ε)} {q : List (ι × ε')}
    (h : List.Forall₂ (SameOp E) p q) (i : ι) :
    p.any (fun x => x.1 = i) = q.any (fun x => x.1 = i) := by
  induction h with
  | nil => rfl
  | cons hxy _ ih => simp [hxy.1, ih]

theorem eraseIdx_of_forall₂ {α β : Type*} {S : α → β → Prop} {l : List α} {l' : List β}
    (h : List.Forall₂ S l l') (n : ℕ) : List.Forall₂ S (l.eraseIdx n) (l'.eraseIdx n) := by
  rw [List.eraseIdx_eq_take_drop_succ, List.eraseIdx_eq_take_drop_succ]
  exact List.rel_append (List.forall₂_take n h) (List.forall₂_drop (n + 1) h)

theorem getElem?_of_forall₂ {α β : Type*} {S : α → β → Prop} {l : List α} {l' : List β}
    (h : List.Forall₂ S l l') (n : ℕ) : Option.Rel S l[n]? l'[n]? := by
  induction h generalizing n with
  | nil => exact .none
  | cons hxy _ ih =>
      cases n with
      | zero => exact .some hxy
      | succ n => exact ih n

theorem option_rel_map {α α' β β' : Type*} {S : α → β → Prop} {T : α' → β' → Prop}
    {f : α → α'} {g : β → β'} {x : Option α} {y : Option β} (h : Option.Rel S x y)
    (hfg : ∀ a b, S a b → T (f a) (g b)) : Option.Rel T (x.map f) (y.map g) := by
  cases h with
  | none => exact .none
  | some hab => exact .some (hfg _ _ hab)

theorem eq_none_of_rel {α β : Type*} {S : α → β → Prop} {x : Option α} {y : Option β}
    (h : Option.Rel S x y) (hx : x = none) : y = none := by
  subst hx
  cases h
  rfl

theorem exists_of_rel {α β : Type*} {S : α → β → Prop} {x : Option α} {y : Option β} {a : α}
    (h : Option.Rel S x y) (hx : x = some a) : ∃ b, y = some b ∧ S a b := by
  subst hx
  cases h with
  | some hab => exact ⟨_, rfl, hab⟩

namespace Config.Alike

theorem history_eq (h : Config.Alike P R E c d) : history c.trace = history d.trace := by
  have hsections : List.Forall₂ (· = ·) (history c.trace) (history d.trace) := by
    refine List.rel_filterMap ?_ h.trace
    rintro ⟨i, x⟩ ⟨j, y⟩ ⟨rfl, hxy⟩
    cases hxy with
    | enter k => exact .some rfl
    | emit he => exact .none
  rwa [List.forall₂_eq_eq_eq] at hsections

theorem emitted (h : Config.Alike P R E c d) :
    List.Forall₂ (SameOp E) (emitted c.trace) (Sections.emitted d.trace) := by
  refine List.rel_filterMap ?_ h.trace
  rintro ⟨i, x⟩ ⟨j, y⟩ ⟨rfl, hxy⟩
  cases hxy with
  | enter k => exact .none
  | emit he => exact .some ⟨rfl, he⟩

end Config.Alike

end

/-! ## Running alike -/

/-- Two machines with one program, whose sections answer alike where `P` allows them. -/
structure Machine.Lockstep (P : ι → κ → Prop) (R : σ → σ' → Prop) (E : ε → ε' → Prop)
    (m : Machine ι κ ε σ) (n : Machine ι κ ε' σ') : Prop where
  program : m.program = n.program
  ahead : ∀ i, ∀ k ∈ m.program i, P i k
  exec : ∀ i k s t, P i k → R s t → Answers R E (m.exec i k s) (n.exec i k t)

namespace Machine.Lockstep

variable {P : ι → κ → Prop} {R : σ → σ' → Prop} {E : ε → ε' → Prop}
  {m : Machine ι κ ε σ} {n : Machine ι κ ε' σ'}

theorem start (h : Lockstep P R E m n) {s : σ} {t : σ'} (hst : R s t) :
    Config.Alike P R E (m.start s) (n.start t) where
  shared := hst
  todo := h.program
  ahead := h.ahead
  pending := .nil
  trace := .nil

variable [DecidableEq ι]

theorem enter (h : Lockstep P R E m n) {c : Config ι κ ε σ} {d : Config ι κ ε' σ'}
    (hcd : Config.Alike P R E c d) (i : ι) :
    Option.Rel (Config.Alike P R E) (m.step? c (.enter i)) (n.step? d (.enter i)) := by
  have htodo : d.todo i = c.todo i := congrFun hcd.todo.symm i
  cases hi : c.todo i with
  | nil =>
      simp only [step?, htodo, hi]
      exact .none
  | cons k rest =>
      have hbusy := any_of_forall₂ hcd.pending i
      simp only [step?, htodo, hi, ← hbusy]
      by_cases hb : c.pending.any (fun p => p.1 = i) = true
      · simp only [hb, if_true]
        exact .none
      · simp only [hb]
        have hk : P i k := hcd.ahead i k (by simp [hi])
        refine option_rel_map (h.exec i k _ _ hk hcd.shared) ?_
        rintro ⟨s, es⟩ ⟨t, es'⟩ ⟨hst, hes⟩
        refine ⟨hst, by rw [hcd.todo], ?_, List.rel_append hcd.pending (forall₂_map_pair hes i),
          forall₂_snoc hcd.trace ⟨rfl, .enter k⟩⟩
        intro j k' (hk' : k' ∈ Function.update c.todo i rest j)
        by_cases hji : j = i
        · subst j
          rw [Function.update_self] at hk'
          exact hcd.ahead i k' (by simp [hi, hk'])
        · rw [Function.update_of_ne hji] at hk'
          exact hcd.ahead j k' hk'

theorem emit {c : Config ι κ ε σ} {d : Config ι κ ε' σ'} (hcd : Config.Alike P R E c d) (a : ℕ) :
    Option.Rel (Config.Alike P R E) (m.step? c (.emit a)) (n.step? d (.emit a)) := by
  simp only [step?]
  refine option_rel_map (getElem?_of_forall₂ hcd.pending a) ?_
  rintro ⟨i, e⟩ ⟨j, e'⟩ ⟨rfl, he⟩
  exact ⟨hcd.shared, hcd.todo, hcd.ahead, eraseIdx_of_forall₂ hcd.pending a,
    forall₂_snoc hcd.trace ⟨rfl, .emit he⟩⟩

/-- A schedule is possible on one side exactly when it is on the other, and leads to
configurations that look alike. -/
theorem run? (h : Lockstep P R E m n) {c : Config ι κ ε σ} {d : Config ι κ ε' σ'}
    (hcd : Config.Alike P R E c d) (xs : List (Choice ι)) :
    Option.Rel (Config.Alike P R E) (m.run? c xs) (n.run? d xs) := by
  induction xs generalizing c d with
  | nil => exact .some hcd
  | cons x xs ih =>
      have hstep : Option.Rel (Config.Alike P R E) (m.step? c x) (n.step? d x) := by
        cases x with
        | enter i => exact h.enter hcd i
        | emit a => exact emit hcd a
      simp only [Machine.run?]
      revert hstep
      generalize m.step? c x = c'
      generalize n.step? d x = d'
      intro hstep
      cases hstep with
      | none => exact .none
      | some hcd' => exact ih hcd'

end Machine.Lockstep

end OtelBootstrap.Sections
