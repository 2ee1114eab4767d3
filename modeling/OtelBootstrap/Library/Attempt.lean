import Mathlib.Tactic.TypeStar

/-! # Computations that may fail after they have changed the state

A failing step keeps the state it has reached; whether that state may be left behind is a
question about the order of the steps. -/

namespace OtelBootstrap

def Attempt (σ ε α : Type*) := σ → Except ε α × σ

namespace Attempt

variable {σ ε : Type*} {α β : Type}

def succeed (a : α) : Attempt σ ε α :=
  fun s => (.ok a, s)

def andThen (x : Attempt σ ε α) (f : α → Attempt σ ε β) : Attempt σ ε β :=
  fun s =>
    match x s with
    | (.ok a, s') => f a s'
    | (.error e, s') => (.error e, s')

instance : Monad (Attempt σ ε) where
  pure := succeed
  bind := andThen

/-- A step that may fail and does not touch the state. -/
def lift (x : Except ε α) : Attempt σ ε α :=
  fun s => (x, s)

/-- A step that cannot fail. -/
def run (f : σ → α × σ) : Attempt σ ε α :=
  fun s => (.ok (f s).1, (f s).2)

theorem bind_of_ok {x : Attempt σ ε α} {f : α → Attempt σ ε β} {s s' : σ} {a : α}
    (h : x s = (.ok a, s')) : (x >>= f) s = f a s' := by
  change (match x s with
    | (.ok a, s') => f a s'
    | (.error e, s') => (.error e, s')) = f a s'
  rw [h]

theorem bind_of_error {x : Attempt σ ε α} {f : α → Attempt σ ε β} {s s' : σ} {e : ε}
    (h : x s = (.error e, s')) : (x >>= f) s = (.error e, s') := by
  change (match x s with
    | (.ok a, s') => f a s'
    | (.error e, s') => (.error e, s')) = (.error e, s')
  rw [h]

/-- A computation of two steps that succeeds has gone through the first. -/
theorem ok_of_bind {x : Attempt σ ε α} {f : α → Attempt σ ε β} {s t : σ} {b : β}
    (h : (x >>= f) s = (.ok b, t)) : ∃ a u, x s = (.ok a, u) ∧ f a u = (.ok b, t) := by
  cases hx : x s with
  | mk result u =>
      cases result with
      | ok a => exact ⟨a, u, rfl, (bind_of_ok hx).symm.trans h⟩
      | error e =>
          have herror := (bind_of_error hx).symm.trans h
          cases congrArg Prod.fst herror

theorem error_of_bind {x : Attempt σ ε α} {f : α → Attempt σ ε β} {s t : σ} {e : ε}
    (h : (x >>= f) s = (.error e, t)) :
    x s = (.error e, t) ∨ ∃ a u, x s = (.ok a, u) ∧ f a u = (.error e, t) := by
  cases hx : x s with
  | mk result u =>
      cases result with
      | ok a => exact Or.inr ⟨a, u, rfl, (bind_of_ok hx).symm.trans h⟩
      | error e' =>
          obtain ⟨he, rfl⟩ := Prod.mk.inj ((bind_of_error (f := f) hx).symm.trans h)
          obtain rfl := Except.error.inj he
          exact Or.inl rfl

/-! ## Failing -/

def Rejected (x : Except ε α) : Prop :=
  ∃ e, x = .error e

theorem not_rejected_ok (a : α) : ¬Rejected (.ok a : Except ε α) := by
  rintro ⟨e, h⟩
  cases h

theorem bind_eq_ok {x : Except ε α} {f : α → Except ε β} {b : β} :
    (x >>= f) = .ok b ↔ ∃ a, x = .ok a ∧ f a = .ok b := by
  cases x with
  | error e => exact iff_of_false nofun fun ⟨a, h, _⟩ => nomatch h
  | ok a => exact ⟨fun h => ⟨a, rfl, h⟩, fun ⟨a', h, hf⟩ => Except.ok.inj h ▸ hf⟩

def Fails (x : Attempt σ ε α) (s : σ) : Prop :=
  ∃ e s', x s = (.error e, s')

theorem ok_or_fails (x : Attempt σ ε α) (s : σ) :
    (∃ a s', x s = (.ok a, s')) ∨ Fails x s := by
  cases h : x s with
  | mk result s' =>
      cases result with
      | ok a => exact Or.inl ⟨a, s', rfl⟩
      | error e => exact Or.inr ⟨e, s', h⟩

theorem not_fails_of_ok {x : Attempt σ ε α} {s s' : σ} {a : α} (h : x s = (.ok a, s')) :
    ¬Fails x s := by
  intro ⟨e, t, hfail⟩
  rw [h] at hfail
  injection hfail with hresult
  cases hresult

theorem fails_iff (x : Attempt σ ε α) (s : σ) : Fails x s ↔ Rejected (x s).1 := by
  constructor
  · intro ⟨e, t, h⟩
    exact ⟨e, congrArg Prod.fst h⟩
  · intro ⟨e, h⟩
    exact ⟨e, (x s).2, Prod.ext h rfl⟩

theorem not_fails_run (f : σ → α × σ) (s : σ) : ¬Fails (run f : Attempt σ ε α) s := by
  have hrun : (run f : Attempt σ ε α) s = (.ok (f s).1, (f s).2) := rfl
  exact not_fails_of_ok hrun

theorem fails_bind_of_ok {x : Attempt σ ε α} {f : α → Attempt σ ε β} {s s' : σ} {a : α}
    (h : x s = (.ok a, s')) : Fails (x >>= f) s ↔ Fails (f a) s' := by
  simp only [Fails, bind_of_ok h]

/-- Two steps fail when the first does or when, whatever the first has done, the second
does. -/
theorem fails_bind_iff {A B : Prop} {x : Attempt σ ε α} {f : α → Attempt σ ε β} {s : σ}
    (hx : Fails x s ↔ A) (hf : ∀ a t, x s = (.ok a, t) → (Fails (f a) t ↔ B)) :
    Fails (x >>= f) s ↔ A ∨ B := by
  rcases ok_or_fails x s with ⟨a, t, hok⟩ | hfail
  · have hA : ¬A := fun h => not_fails_of_ok hok (hx.mpr h)
    rw [fails_bind_of_ok hok, hf a t hok]
    simp only [hA, false_or]
  · obtain ⟨e, t, herror⟩ := hfail
    have hA : A := hx.mp ⟨e, t, herror⟩
    simp only [hA, true_or, iff_true]
    exact ⟨e, t, bind_of_error herror⟩

theorem not_fails_bind {x : Attempt σ ε α} {f : α → Attempt σ ε β} {s : σ}
    (hx : ¬Fails x s) (hf : ∀ a t, ¬Fails (f a) t) : ¬Fails (x >>= f) s := by
  rw [fails_bind_iff (iff_false_intro hx) (fun a t _ => iff_false_intro (hf a t))]
  exact fun h => h.elim id id

/-! ## Moving along a preorder -/

/-- Whether it fails or not, `x` only moves along `r`. -/
def Moves (r : σ → σ → Prop) (x : Attempt σ ε α) : Prop :=
  ∀ s, r s (x s).2

theorem Moves.of_eq {r : σ → σ → Prop} {x : Attempt σ ε α} (hx : Moves r x) {s t : σ}
    {result : Except ε α} (h : x s = (result, t)) : r s t := by
  have hmoved := hx s
  rwa [h] at hmoved

theorem moves_pure {r : σ → σ → Prop} (hrefl : ∀ s, r s s) (a : α) :
    Moves r (pure a : Attempt σ ε α) :=
  fun s => hrefl s

theorem moves_bind {r : σ → σ → Prop} (htrans : ∀ s t u, r s t → r t u → r s u)
    {x : Attempt σ ε α} {f : α → Attempt σ ε β} (hx : Moves r x) (hf : ∀ a, Moves r (f a)) :
    Moves r (x >>= f) := by
  intro s
  have hmid := hx s
  cases h : x s with
  | mk result t =>
      rw [h] at hmid
      cases result with
      | ok a =>
          rw [bind_of_ok h]
          exact htrans s t _ hmid (hf a t)
      | error e =>
          rw [bind_of_error h]
          exact hmid

/-! ## Rolling back -/

/-- Where `x` fails on `s`, it has left nothing that `same` can see. -/
def RollsBack (same : σ → σ → Prop) (x : Attempt σ ε α) (s : σ) : Prop :=
  ∀ e s', x s = (.error e, s') → same s s'

theorem rollsBack_of_not_fails {same : σ → σ → Prop} {x : Attempt σ ε α} {s : σ}
    (h : ¬Fails x s) : RollsBack same x s :=
  fun e s' hfail => absurd ⟨e, s', hfail⟩ h

/-- Where all that is left of `x` is a `y` whose failures show, `x` rolls back exactly when
that `y` does not fail. -/
theorem rollsBack_iff_of_eq {same : σ → σ → Prop} {x y : Attempt σ ε α} {s t : σ}
    (h : x s = y t) (hy : ∀ e u, y t = (.error e, u) → ¬same s u) :
    RollsBack same x s ↔ ¬Fails y t := by
  constructor
  · intro hback hfail
    obtain ⟨e, u, hfail⟩ := hfail
    exact hy e u hfail (hback e u (h.trans hfail))
  · intro hok
    refine rollsBack_of_not_fails ?_
    intro ⟨e, u, hfail⟩
    exact hok ⟨e, u, h.symm.trans hfail⟩

end Attempt

end OtelBootstrap
