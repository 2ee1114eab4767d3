import Mathlib.Algebra.BigOperators.Intervals
import Mathlib.Algebra.Order.BigOperators.Group.Finset
import OtelBootstrap.Export.Law

/-! # How much the backoff lets through, and for how long it is silent

The distances between admissions grow to an hour and stay there, which bounds what a failing
collector can write, and what an operator can miss. -/

namespace OtelBootstrap.Export

open Boot (Duration Instant)
open LogBridge (Platform)
open Cooldown (admitted admits Lawful)

/-- What the first six waits fall short of six hours. -/
def rampUp : Duration := 17820000000000

/-- From the seventh on, every wait is an hour. -/
theorem backoffAfter_of_ramped {n : ℕ} (h : 7 ≤ n) : backoffAfter n = maxBackoff := by
  have hpow : 2 ^ 6 ≤ 2 ^ (n - 1) := Nat.pow_le_pow_right (by decide) (by omega)
  have hhour : maxBackoff ≤ firstBackoff * 2 ^ 6 := by decide
  exact Nat.min_eq_right (Nat.le_trans hhour (Nat.mul_le_mul_left _ hpow))

/-- All the waits before the `n`-th admission after the first. -/
theorem le_waits (n : ℕ) :
    maxBackoff * n ≤ (Finset.range n).sum (fun k => backoffAfter (k + 1)) + rampUp := by
  by_cases hn : n ≤ 6
  · revert n
    decide
  · induction n, Nat.le_of_not_le hn using Nat.le_induction with
    | base => decide
    | succ m hm ih =>
        have hbefore : maxBackoff * m ≤
            (Finset.range m).sum (fun k => backoffAfter (k + 1)) + rampUp := by
          rcases Nat.eq_or_lt_of_le hm with rfl | hm
          · decide
          · exact ih (Nat.not_le_of_lt hm)
        rw [Finset.sum_range_succ, backoffAfter_of_ramped (Nat.succ_le_succ hm), Nat.mul_succ,
          Nat.add_right_comm]
        exact Nat.add_le_add_right hbefore maxBackoff

section

variable {platform : Platform} {calls : List Call} {log : Log}

/-- The admissions of a kind are a minute apart or more, wherever they are counted from. -/
theorem Describes.minute_apart (hd : Describes platform calls log) {kind : String} {i j : ℕ}
    {t t' : Instant} (hij : i ≤ j) (ht : (admittedOf platform kind log)[i]? = some t)
    (ht' : (admittedOf platform kind log)[j]? = some t') : t + firstBackoff * (j - i) ≤ t' := by
  have helapsed := (hd.lawful kind).elapsed hij ht ht'
  have hsum : (Finset.Ico i j).sum (fun _ => firstBackoff) ≤
      (Finset.Ico i j).sum (fun k => backoffAfter (k + 1)) :=
    Finset.sum_le_sum fun k _ => le_backoffAfter (k + 1)
  rw [Finset.sum_const_nat fun _ _ => rfl, Nat.card_Ico, Nat.mul_comm] at hsum
  exact Nat.le_trans (Nat.add_le_add_left hsum t) helapsed

/-- Counted from the first, they are an hour apart, but for the six that come before that. -/
theorem Describes.hour_apart (hd : Describes platform calls log) {kind : String} {j : ℕ}
    {t t' : Instant} (ht : (admittedOf platform kind log)[0]? = some t)
    (ht' : (admittedOf platform kind log)[j]? = some t') :
    t + maxBackoff * j ≤ t' + rampUp := by
  have helapsed := (hd.lawful kind).elapsed (Nat.zero_le j) ht ht'
  have hwaits := le_waits j
  rw [← Finset.range_eq_Ico] at helapsed
  calc t + maxBackoff * j
      ≤ t + ((Finset.range j).sum (fun k => backoffAfter (k + 1)) + rampUp) :=
        Nat.add_le_add_left hwaits t
    _ = t + (Finset.range j).sum (fun k => backoffAfter (k + 1)) + rampUp :=
        (Nat.add_assoc ..).symm
    _ ≤ t' + rampUp := Nat.add_le_add_right helapsed rampUp

theorem mem_admitted_answersOf {kind : String} {answers : List (Call × Bool)} {t : Instant} :
    t ∈ admitted (answersOf platform kind answers) ↔
      ∃ call, (call, true) ∈ answers ∧ call.kind platform = some kind ∧ call.now = t := by
  constructor
  · intro ht
    obtain ⟨⟨now, ok⟩, hmem, rfl⟩ := List.mem_map.mp ht
    obtain ⟨hmem, hok⟩ := List.mem_filter.mp hmem
    obtain rfl : ok = true := hok
    obtain ⟨⟨call, ok⟩, hanswer, hsame⟩ := List.mem_map.mp hmem
    obtain ⟨hanswer, hkind⟩ := List.mem_filter.mp hanswer
    obtain ⟨rfl, rfl⟩ := Prod.mk.inj hsame
    exact ⟨call, hanswer, of_decide_eq_true hkind, rfl⟩
  · rintro ⟨call, hanswer, hkind, rfl⟩
    refine List.mem_map.mpr ⟨(call.now, true), List.mem_filter.mpr ⟨?_, rfl⟩, rfl⟩
    exact List.mem_map.mpr ⟨(call, true), List.mem_filter.mpr ⟨hanswer, by simpa using hkind⟩, rfl⟩

/-- What is refused is refused for less than an hour after something that was let through. -/
theorem Describes.heard (hd : Describes platform calls log) {before after : List (Call × Bool)}
    {call : Call} {kind : String} (hrefused : log.answers = before ++ (call, false) :: after)
    (hkind : call.kind platform = some kind) :
    ∃ earlier, (earlier, true) ∈ before ∧ earlier.kind platform = some kind ∧
      call.now < earlier.now + maxBackoff := by
  have hsplit : answersOf platform kind log.answers = answersOf platform kind before ++
      (call.now, false) :: answersOf platform kind after := by
    simp [answersOf, hrefused, hkind]
  obtain ⟨n, last, hlast, hlt⟩ := (hd.lawful kind).refused hsplit
  obtain ⟨earlier, hmem, hsame, rfl⟩ := mem_admitted_answersOf.mp hlast
  refine ⟨earlier, hmem, hsame, Nat.lt_of_lt_of_le hlt ?_⟩
  exact Nat.add_le_add_left (backoffAfter_le n) earlier.now

theorem Describes.mem_admitted (hd : Describes platform calls log) {kind : String}
    {t : Instant} (ht : t ∈ admittedOf platform kind log) : ∃ call ∈ calls, call.now = t := by
  obtain ⟨call, hanswer, -, rfl⟩ := mem_admitted_answersOf.mp ht
  refine ⟨call, ?_, rfl⟩
  rw [← hd.answered]
  exact List.mem_map_of_mem hanswer

/-- The failures of a kind that are let through in a stretch of time. -/
theorem Describes.length_admitted_le (hd : Describes platform calls log) (kind : String)
    {start length : ℕ} (hstretch : ∀ call ∈ calls, start ≤ call.now ∧ call.now ≤ start + length) :
    (admittedOf platform kind log).length ≤ 1 + (length + rampUp) / maxBackoff := by
  cases hlength : (admittedOf platform kind log).length with
  | zero => exact Nat.zero_le _
  | succ j =>
      have hfirst : 0 < (admittedOf platform kind log).length := by omega
      have hlast : j < (admittedOf platform kind log).length := by omega
      have hhours := hd.hour_apart (List.getElem?_eq_getElem hfirst)
        (List.getElem?_eq_getElem hlast)
      obtain ⟨first, hfirstMem, hfirstNow⟩ := hd.mem_admitted (List.getElem_mem hfirst)
      obtain ⟨last, hlastMem, hlastNow⟩ := hd.mem_admitted (List.getElem_mem hlast)
      have hwithin : start + maxBackoff * j ≤ start + length + rampUp :=
        calc start + maxBackoff * j
            ≤ (admittedOf platform kind log)[0] + maxBackoff * j :=
              Nat.add_le_add_right (hfirstNow ▸ (hstretch first hfirstMem).1) _
          _ ≤ (admittedOf platform kind log)[j] + rampUp := hhours
          _ ≤ start + length + rampUp :=
              Nat.add_le_add_right (hlastNow ▸ (hstretch last hlastMem).2) _
      rw [Nat.add_assoc] at hwithin
      have hj : j ≤ (length + rampUp) / maxBackoff := by
        rw [Nat.le_div_iff_mul_le (by decide), Nat.mul_comm]
        exact Nat.le_of_add_le_add_left hwithin
      omega

/-- The kind of failure that an answer lets through. -/
def letThrough (platform : Platform) (answer : Call × Bool) : Option String :=
  if answer.2 then answer.1.kind platform else none

theorem length_admittedOf (kind : String) (log : Log) :
    (admittedOf platform kind log).length =
      log.answers.countP (fun answer => letThrough platform answer = some kind) := by
  rw [admittedOf, answersOf, admitted, List.length_map, List.filter_map, List.length_map,
    List.filter_filter, ← List.countP_eq_length_filter]
  refine List.countP_congr fun answer _ => ?_
  cases answer.2 <;> simp [letThrough, *]

end

/-- What has a key is counted under it. -/
theorem countP_isSome_le {α β : Type} [DecidableEq β] (f : α → Option β) (l : List α)
    (keys : Finset β) (h : ∀ a ∈ l, ∀ b, f a = some b → b ∈ keys) :
    l.countP (fun a => (f a).isSome) ≤ keys.sum fun b => l.countP (fun a => f a = some b) := by
  induction l with
  | nil => simp
  | cons a l ih =>
      have hrest := ih fun a' ha' => h a' (List.mem_cons_of_mem a ha')
      simp only [List.countP_cons, Finset.sum_add_distrib]
      cases hf : f a with
      | none => simpa using hrest
      | some b =>
          have hb := h a List.mem_cons_self b hf
          simp only [Option.isSome_some, if_true, Option.some.injEq, decide_eq_true_eq,
            Finset.sum_ite_eq, hb]
          exact Nat.add_le_add_right hrest 1

/-- A collector that stays down neither floods the log nor is forgotten: in any stretch of
time each kind of failure is let through five times and then once an hour at most, and never
twice within a minute; and what is refused follows an admission by less than an hour. -/
theorem failures_bounded {platform : Platform} (calls : List Call) (kinds : Finset String)
    (hkinds : ∀ call ∈ calls, ∀ kind, call.kind platform = some kind → kind ∈ kinds)
    (start length : ℕ) (hstretch : ∀ call ∈ calls, start ≤ call.now ∧ call.now ≤ start + length) :
    ∃ log, Log.run? platform {} calls = some log ∧ log.answers.map Prod.fst = calls ∧
      log.answers.countP (fun answer => (letThrough platform answer).isSome) ≤
        kinds.card * (1 + (length + rampUp) / maxBackoff) ∧
      (∀ kind i j t t', i ≤ j → (admittedOf platform kind log)[i]? = some t →
        (admittedOf platform kind log)[j]? = some t' → t + firstBackoff * (j - i) ≤ t') ∧
      ∀ before call after kind, log.answers = before ++ (call, false) :: after →
        call.kind platform = some kind →
        ∃ earlier, (earlier, true) ∈ before ∧ earlier.kind platform = some kind ∧
          call.now < earlier.now + maxBackoff := by
  obtain ⟨log, hrun, hd⟩ := run?_describes platform calls
  refine ⟨log, hrun, hd.answered, ?_, fun kind i j t t' => hd.minute_apart,
    fun before call after kind => hd.heard⟩
  have hcounted := countP_isSome_le (letThrough platform) log.answers kinds (by
    rintro ⟨call, ok⟩ hmem kind hkind
    have hcall : call ∈ calls := by
      rw [← hd.answered]
      exact List.mem_map_of_mem hmem
    cases ok with
    | false => cases hkind
    | true => exact hkinds call hcall kind hkind)
  refine hcounted.trans ?_
  refine (Finset.sum_le_card_nsmul kinds _ (1 + (length + rampUp) / maxBackoff) ?_).trans ?_
  · intro kind _
    rw [← length_admittedOf]
    exact hd.length_admitted_le kind hstretch
  · exact Nat.le_of_eq (nsmul_eq_mul _ _)

def plainPlatform : Platform :=
  ⟨fun _ => "0.5", List.reverse, List.reverse_perm⟩

def failedExport : Event :=
  ⟨⟨.error, "opentelemetry_sdk", "event"⟩, [⟨"name", .str "BatchSpanProcessor.ExportError"⟩]⟩

/-- An export that fails every five seconds of a day. -/
def failingDay : List Call :=
  (List.range 17281).map fun n => ⟨failedExport, n * 5000000000⟩

theorem failingDay_written :
    ∃ log, Log.run? plainPlatform {} failingDay = some log ∧
      log.answers.countP (fun answer => (letThrough plainPlatform answer).isSome) ≤ 29 := by
  have hname : exportFailureKind plainPlatform failedExport =
      some "BatchSpanProcessor.ExportError" := by decide +kernel
  have hkind : ∀ call ∈ failingDay, ∀ kind, call.kind plainPlatform = some kind →
      kind ∈ ({"BatchSpanProcessor.ExportError"} : Finset String) := by
    intro call hcall kind hkind
    obtain ⟨n, -, rfl⟩ := List.mem_map.mp hcall
    obtain rfl := Option.some.inj (hname.symm.trans hkind)
    exact Finset.mem_singleton_self _
  have hday : ∀ call ∈ failingDay, 0 ≤ call.now ∧ call.now ≤ 0 + 86400000000000 := by
    intro call hcall
    obtain ⟨n, hn, rfl⟩ := List.mem_map.mp hcall
    rw [List.mem_range] at hn
    have hnow := Nat.mul_le_mul_right 5000000000 (Nat.le_of_lt_succ hn)
    exact ⟨Nat.zero_le _, by rwa [Nat.zero_add]⟩
  obtain ⟨log, hrun, -, hcount, -⟩ := failures_bounded failingDay _ hkind 0 86400000000000 hday
  exact ⟨log, hrun, hcount⟩

end OtelBootstrap.Export
