import Mathlib.Algebra.Group.Nat.Defs
import OtelBootstrap.Export.Backoff
import OtelBootstrap.Library.Cooldown

/-! # The law that the backoff follows

The windows are read off the answers given so far, kind by kind. -/

namespace OtelBootstrap.Export

open Boot (Duration Instant)
open LogBridge (Platform)
open Cooldown (admitted admits Lawful)

/-- The backoff that the `n`-th admission leaves. -/
def backoffAfter (n : ℕ) : Duration :=
  min (firstBackoff * 2 ^ (n - 1)) maxBackoff

/-- The earliest instant that may follow the `n`-th admission. -/
def nextAfter (n : ℕ) (last : Instant) : Instant :=
  last + backoffAfter n

/-- The window that the admissions of one kind leave. -/
def windowAfter (before : List Instant) : Option Window :=
  before.getLast?.map fun last =>
    { nextAllowed := nextAfter before.length last, backoff := backoffAfter before.length }

section

variable (platform : Platform)

/-- The requests of one kind, and how they were answered. -/
def answersOf (kind : String) (answers : List (Call × Bool)) : List (Instant × Bool) :=
  (answers.filter fun answer => answer.1.kind platform = some kind).map fun answer =>
    (answer.1.now, answer.2)

/-- The instants of the calls of one kind. -/
def instantsOf (kind : String) (calls : List Call) : List Instant :=
  (calls.filter fun call => call.kind platform = some kind).map Call.now

/-- The instants at which events of one kind were let through. -/
def admittedOf (kind : String) (log : Log) : List Instant :=
  admitted (answersOf platform kind log.answers)

end

/-! ## One kind -/

theorem backoffAfter_one : backoffAfter 1 = firstBackoff := by
  decide

theorem le_backoffAfter (n : ℕ) : firstBackoff ≤ backoffAfter n := by
  have hpow : 0 < 2 ^ (n - 1) := Nat.two_pow_pos _
  have hmax : firstBackoff ≤ maxBackoff := by decide
  exact Nat.le_min.mpr ⟨Nat.le_mul_of_pos_right _ hpow, hmax⟩

theorem backoffAfter_le (n : ℕ) : backoffAfter n ≤ maxBackoff :=
  Nat.min_le_right ..

theorem min_double (x m : ℕ) : min (x * 2) m = min (min x m * 2) m := by
  omega

/-- Doubling, cut at an hour. -/
theorem backoffAfter_succ {n : ℕ} (hn : 0 < n) :
    backoffAfter (n + 1) = min (backoffAfter n * 2) maxBackoff := by
  cases n with
  | zero => cases hn
  | succ m =>
      have hpow : firstBackoff * 2 ^ (m + 1) = firstBackoff * 2 ^ m * 2 := by
        rw [Nat.pow_succ, Nat.mul_assoc]
      simp only [backoffAfter, Nat.add_sub_cancel, hpow]
      exact min_double _ _

theorem doubled_backoffAfter {window : Window} {n : ℕ} (h : window.backoff = backoffAfter n) :
    window.doubled = some (backoffAfter n * 2) := by
  have hle := Nat.mul_le_mul_right 2 (backoffAfter_le n)
  have hmax : maxBackoff * 2 ≤ durationMax := by decide
  rw [Window.doubled, h, if_pos (Nat.le_trans hle hmax)]

theorem windowAfter_snoc (before : List Instant) (now : Instant) :
    windowAfter (before ++ [now]) =
      some { nextAllowed := now + backoffAfter (before.length + 1)
             backoff := backoffAfter (before.length + 1) } := by
  simp [windowAfter, nextAfter]

/-- Where the window is the one its admissions leave, `admitFailure` follows the law and does not
panic. -/
theorem admit_eq {windows : Windows} {kind : String} {before : List Instant}
    (h : windows kind = windowAfter before) (now : Instant) :
    admitFailure windows kind now =
      some (admits nextAfter before now, Function.update windows kind
        (windowAfter (if admits nextAfter before now then before ++ [now] else before))) := by
  cases hlast : before.getLast? with
  | none =>
      obtain rfl := List.getLast?_eq_none_iff.mp hlast
      have hnone : windows kind = none := h
      have hwindow := windowAfter_snoc [] now
      rw [List.length_nil, Nat.zero_add, backoffAfter_one] at hwindow
      simp only [admitFailure, hnone, Cooldown.admits_nil, if_true, hwindow]
  | some last =>
      have hwindow : windowAfter before = some
          { nextAllowed := nextAfter before.length last
            backoff := backoffAfter before.length } := by
        rw [windowAfter, hlast]
        rfl
      have hpos : 0 < before.length := by
        apply List.length_pos_iff.mpr
        intro hnil
        rw [hnil] at hlast
        cases hlast
      by_cases hnow : nextAfter before.length last ≤ now
      · have hadmits : admits nextAfter before now = true := by
          simp [admits, hlast, hnow]
        have hdoubled : Window.doubled ⟨nextAfter before.length last, backoffAfter before.length⟩ =
            some (backoffAfter before.length * 2) := doubled_backoffAfter rfl
        simp only [admitFailure, h, hwindow, hnow, if_true, hadmits, windowAfter_snoc,
          backoffAfter_succ hpos, hdoubled, Option.map_some]
      · have hadmits : admits nextAfter before now = false := by
          simp [admits, hlast, hnow]
        have hsame : Function.update windows kind (windowAfter before) = windows := by
          rw [← h, Function.update_eq_self]
        simp only [hadmits, Bool.false_eq_true, if_false, hsame]
        simp only [admitFailure, h, hwindow, ge_iff_le, hnow, if_false]

/-! ## Any number of kinds -/

variable {platform : Platform}

theorem answersOf_snoc (kind : String) (answers : List (Call × Bool)) (call : Call) (ok : Bool) :
    answersOf platform kind (answers ++ [(call, ok)]) =
      if call.kind platform = some kind then answersOf platform kind answers ++ [(call.now, ok)]
      else answersOf platform kind answers := by
  by_cases h : call.kind platform = some kind
  · simp [answersOf, h]
  · simp [answersOf, h]

/-- What one more answer adds to the admissions of a kind. -/
theorem admittedOf_snoc (kind : String) (log : Log) (windows : Windows) (call : Call)
    (ok : Bool) :
    admittedOf platform kind { windows, answers := log.answers ++ [(call, ok)] } =
      if call.kind platform = some kind ∧ ok = true then
        admittedOf platform kind log ++ [call.now]
      else admittedOf platform kind log := by
  rw [admittedOf, answersOf_snoc]
  by_cases h : call.kind platform = some kind
  · simp only [h, if_true, Cooldown.admitted_snoc, true_and]
    rfl
  · simp only [h, if_false, false_and]
    rfl

theorem Log.call?_of_admit {log : Log} {call : Call} {kind : String} {ok : Bool}
    {windows : Windows} (hkind : call.kind platform = some kind)
    (h : Export.admitFailure log.windows kind call.now = some (ok, windows)) :
    log.call? platform call = some { windows, answers := log.answers ++ [(call, ok)] } := by
  simp [Log.call?, eventEnabled, hkind, h]

theorem map_answersOf (kind : String) (answers : List (Call × Bool)) :
    (answersOf platform kind answers).map Prod.fst =
      instantsOf platform kind (answers.map Prod.fst) := by
  simp [answersOf, instantsOf, List.filter_map, Function.comp_def]

variable (platform) in
/-- The calls have been answered by the law, and each window is the one it leaves. -/
structure Describes (calls : List Call) (log : Log) : Prop where
  answered : log.answers.map Prod.fst = calls
  windows : ∀ kind, log.windows kind = windowAfter (admittedOf platform kind log)
  lawful : ∀ kind, Lawful nextAfter (answersOf platform kind log.answers)

namespace Describes

theorem initial : Describes platform [] {} :=
  ⟨rfl, fun _ => rfl, fun _ => .nil⟩

variable {calls : List Call} {log : Log}

/-- An event without a kind is let through. -/
theorem pass (hd : Describes platform calls log) {call : Call}
    (hkind : call.kind platform = none) :
    log.call? platform call =
        some { windows := log.windows, answers := log.answers ++ [(call, true)] } ∧
      Describes platform (calls ++ [call])
        { windows := log.windows, answers := log.answers ++ [(call, true)] } := by
  refine ⟨by simp [Log.call?, eventEnabled, hkind], ?_, ?_, ?_⟩
  · simp [hd.answered]
  · intro kind
    rw [admittedOf_snoc, hkind, if_neg nofun]
    exact hd.windows kind
  · intro kind
    rw [answersOf_snoc, hkind, if_neg nofun]
    exact hd.lawful kind

/-- A failure is let through when its own kind allows it, and no other window moves. -/
theorem failure (hd : Describes platform calls log) {call : Call} {kind : String}
    (hkind : call.kind platform = some kind) :
    ∃ log', log.call? platform call = some log' ∧
      log'.answers = log.answers ++
        [(call, admits nextAfter (admittedOf platform kind log) call.now)] ∧
      Describes platform (calls ++ [call]) log' := by
  refine ⟨_, Log.call?_of_admit hkind (admit_eq (hd.windows kind) call.now), rfl, ?_, ?_, ?_⟩
  · simp [hd.answered]
  · intro other
    rw [admittedOf_snoc]
    by_cases hother : other = kind
    · subst other
      simp only [hkind, true_and, Function.update_self]
    · have hne : call.kind platform ≠ some other := by
        rw [hkind]
        exact fun he => hother (Option.some.inj he).symm
      simp only [hne, false_and, if_false, Function.update_of_ne hother]
      exact hd.windows other
  · intro other
    rw [answersOf_snoc]
    by_cases hother : call.kind platform = some other
    · obtain rfl := Option.some.inj (hkind.symm.trans hother)
      rw [if_pos hkind]
      exact .snoc call.now (hd.lawful kind)
    · rw [if_neg hother]
      exact hd.lawful other

/-- Every call is answered, without a panic. -/
theorem step (hd : Describes platform calls log) (call : Call) :
    ∃ log' ok, log.call? platform call = some log' ∧
      log'.answers = log.answers ++ [(call, ok)] ∧ Describes platform (calls ++ [call]) log' := by
  cases hkind : call.kind platform with
  | none =>
      obtain ⟨hcall, hd'⟩ := hd.pass hkind
      exact ⟨_, true, hcall, rfl, hd'⟩
  | some kind =>
      obtain ⟨log', hcall, hanswers, hd'⟩ := hd.failure hkind
      exact ⟨log', _, hcall, hanswers, hd'⟩

end Describes

/-! ## Whole runs -/

theorem Log.run?_append (log : Log) (calls calls' : List Call) :
    log.run? platform (calls ++ calls') =
      (log.run? platform calls).bind (Log.run? platform · calls') := by
  induction calls generalizing log with
  | nil => rfl
  | cons call calls ih =>
      rw [List.cons_append, Log.run?, Log.run?]
      cases log.call? platform call with
      | none => rfl
      | some log' => exact ih log'

variable (platform) in
theorem run?_describes (calls : List Call) :
    ∃ log, Log.run? platform {} calls = some log ∧ Describes platform calls log := by
  induction calls using List.reverseRecOn with
  | nil => exact ⟨{}, rfl, Describes.initial⟩
  | append_singleton calls call ih =>
      obtain ⟨log, hrun, hd⟩ := ih
      obtain ⟨log', ok, hcall, -, hd'⟩ := hd.step call
      refine ⟨log', ?_, hd'⟩
      simp [Log.run?_append, hrun, Log.run?, hcall]

/-- However the calls of all kinds are interleaved: none panics; an event that is no export
failure is let through and changes nothing; a failure is refused exactly before the instant
that the last admission of its kind set, so the first is let through; admissions of a kind
keep the doubled distances up to an hour; and the answers to a kind depend on its own
instants alone. -/
theorem backoff_law (calls : List Call) :
    ∃ log, Log.run? platform {} calls = some log ∧
      log.answers.map Prod.fst = calls ∧
      (∀ before call after, calls = before ++ call :: after →
        ∃ log₁ log₂ ok, Log.run? platform {} before = some log₁ ∧
          log₁.call? platform call = some log₂ ∧
          Log.run? platform log₂ after = some log ∧
          log₂.answers = log₁.answers ++ [(call, ok)] ∧
          (call.kind platform = none → ok = true ∧ log₂.windows = log₁.windows) ∧
          ∀ kind, call.kind platform = some kind →
            (instantsOf platform kind before = [] → ok = true) ∧
            (ok = false ↔ ∃ last, (admittedOf platform kind log₁).getLast? = some last ∧
              call.now < last +
                min (firstBackoff * 2 ^ ((admittedOf platform kind log₁).length - 1))
                  maxBackoff)) ∧
      (∀ kind j t t', (admittedOf platform kind log)[j]? = some t →
        (admittedOf platform kind log)[j + 1]? = some t' →
          t + min (firstBackoff * 2 ^ j) maxBackoff ≤ t') ∧
      (∀ kind window, log.windows kind = some window →
        firstBackoff ≤ window.backoff ∧ window.backoff ≤ maxBackoff ∧
          window.backoff * 2 ≤ durationMax) ∧
      ∀ kind calls' log', Log.run? platform {} calls' = some log' →
        instantsOf platform kind calls' = instantsOf platform kind calls →
          answersOf platform kind log'.answers = answersOf platform kind log.answers := by
  obtain ⟨log, hrun, hd⟩ := run?_describes platform calls
  refine ⟨log, hrun, hd.answered, ?_, ?_, ?_, ?_⟩
  · rintro before call after rfl
    obtain ⟨log₁, hrun₁, hd₁⟩ := run?_describes platform before
    obtain ⟨log₂, ok, hcall, hanswers, hd₂⟩ := hd₁.step call
    refine ⟨log₁, log₂, ok, hrun₁, hcall, ?_, hanswers, ?_, ?_⟩
    · rw [Log.run?_append, hrun₁, Option.bind_some, Log.run?, hcall] at hrun
      exact hrun
    · intro hkind
      have hpass := (hd₁.pass hkind).1
      rw [hcall] at hpass
      obtain rfl := Option.some.inj hpass
      refine ⟨?_, rfl⟩
      simpa using hanswers.symm
    · intro kind hkind
      obtain ⟨log₂', hcall', hanswers', -⟩ := hd₁.failure hkind
      rw [hcall] at hcall'
      obtain rfl := Option.some.inj hcall'
      have hok : ok = admits nextAfter (admittedOf platform kind log₁) call.now := by
        simpa using hanswers.symm.trans hanswers'
      rw [hok]
      refine ⟨?_, Cooldown.admits_eq_false nextAfter⟩
      intro hfirst
      have hmap := @map_answersOf platform kind log₁.answers
      rw [hd₁.answered, hfirst, List.map_eq_nil_iff] at hmap
      rw [admittedOf, hmap]
      rfl
  · intro kind j t t' ht ht'
    exact (hd.lawful kind).spacing j ht ht'
  · intro kind window hwindow
    rw [hd.windows, windowAfter, Option.map_eq_some_iff] at hwindow
    obtain ⟨last, -, rfl⟩ := hwindow
    have hle := backoffAfter_le (admittedOf platform kind log).length
    have hmax : maxBackoff * 2 ≤ durationMax := by decide
    exact ⟨le_backoffAfter _, hle, Nat.le_trans (Nat.mul_le_mul_right 2 hle) hmax⟩
  · intro kind calls' log' hrun' hinstants
    obtain ⟨log'', hrun'', hd'⟩ := run?_describes platform calls'
    obtain rfl := Option.some.inj (hrun'.symm.trans hrun'')
    apply (hd'.lawful kind).unique (hd.lawful kind)
    rw [map_answersOf, map_answersOf, hd'.answered, hd.answered, hinstants]

end OtelBootstrap.Export
