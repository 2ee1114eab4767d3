import Mathlib.Data.List.Basic
import Mathlib.Data.List.Induction

/-! # Fields that keep the last value written

A fold over calls, some of which overwrite a field, leaves the value of the last one that
did. -/

namespace OtelBootstrap

variable {σ κ ω : Type*}

/-- The last value that `write` finds among the calls. -/
def lastWrite (write : κ → Option ω) (calls : List κ) : Option ω :=
  (calls.filterMap write).getLast?

theorem lastWrite_snoc (write : κ → Option ω) (calls : List κ) (call : κ) :
    lastWrite write (calls ++ [call]) = (write call).or (lastWrite write calls) := by
  cases h : write call with
  | none => simp [lastWrite, h]
  | some value => simp [lastWrite, h]

/-- Something was written when one of the calls writes. -/
theorem exists_lastWrite {write : κ → Option ω} {calls : List κ} {call : κ} {value : ω}
    (hmem : call ∈ calls) (hwrite : write call = some value) :
    ∃ last, lastWrite write calls = some last := by
  have hvalue : value ∈ calls.filterMap write := List.mem_filterMap.mpr ⟨call, hmem, hwrite⟩
  have hne : calls.filterMap write ≠ [] := List.ne_nil_of_mem hvalue
  exact ⟨_, List.getLast?_eq_some_getLast hne⟩

theorem lastWrite_map {υ : Type*} (write : κ → Option ω) (f : ω → υ) (calls : List κ) :
    lastWrite (fun call => (write call).map f) calls = (lastWrite write calls).map f := by
  induction calls using List.reverseRecOn with
  | nil => rfl
  | append_singleton calls call ih =>
      rw [lastWrite_snoc, lastWrite_snoc, ih]
      cases write call <;> rfl

/-- A field that one call overwrites or leaves alone is, after any calls, the last value
written or what it was. -/
theorem foldl_lastWrite (step : σ → κ → σ) (field : σ → ω) (write : κ → Option ω)
    (hstep : ∀ s call, field (step s call) = (write call).getD (field s))
    (start : σ) (calls : List κ) :
    field (calls.foldl step start) = (lastWrite write calls).getD (field start) := by
  induction calls using List.reverseRecOn with
  | nil => rfl
  | append_singleton calls call ih =>
      rw [List.foldl_append, List.foldl_cons, List.foldl_nil, hstep, ih, lastWrite_snoc]
      cases write call <;> rfl

/-- The same for a field that starts out unset and only ever gets set. -/
theorem foldl_lastWrite_or (step : σ → κ → σ) (field : σ → Option ω) (write : κ → Option ω)
    (hstep : ∀ s call, field (step s call) = (write call).or (field s))
    (start : σ) (calls : List κ) :
    field (calls.foldl step start) = (lastWrite write calls).or (field start) := by
  have hget : ∀ s call, field (step s call) = ((write call).map some).getD (field s) := by
    intro s call
    rw [hstep]
    cases write call <;> rfl
  rw [foldl_lastWrite step field _ hget, lastWrite_map]
  cases lastWrite write calls <;> rfl

end OtelBootstrap
