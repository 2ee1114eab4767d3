import Mathlib.Data.List.Basic
import Mathlib.Order.Bounds.Basic
import OtelBootstrap.Export.Failure

/-! # Retry of unavailable exports -/

namespace OtelBootstrap.Export

open Boot (Duration)

/-! ## The wrapper -/

/-- An inner exporter, whose answers may depend on what it has seen. -/
abbrev Inner (σ β ε : Type) := σ → β → OTelSdkResult ε × σ

/-- `tokio::runtime::Handle`. -/
structure Handle where
  id : ℕ
  deriving DecidableEq, Repr

def backoff : List Duration := [200000000, 400000000, 800000000]

structure RetryUnavailable (σ β ε : Type) where
  inner : Inner σ β ε
  runtime : Option Handle
  backoff : List Duration

/-- A batch as the SDK hands it to a log exporter. -/
structure LogBatch (ρ : Type) where
  records : List ρ
  deriving DecidableEq, Repr

namespace LogBatch

variable {ρ : Type}

def iter (batch : LogBatch ρ) : List ρ :=
  batch.records

def new (records : List ρ) : LogBatch ρ :=
  ⟨records⟩

end LogBatch

/-- What an export does: calls of the inner exporter, and pauses. -/
inductive Act (β : Type) where
  | call (batch : β)
  | pause (delay : Duration)
  deriving DecidableEq, Repr

/-- The state of the inner exporter, and what has been done to it. -/
structure Progress (σ β : Type) where
  inner : σ
  acts : List (Act β) := []

namespace RetryUnavailable

variable {σ β ε ρ : Type}

/-- `tryCurrent` is `Handle::try_current().ok()`. -/
def withBackoff (inner : Inner σ β ε) (backoff : List Duration) (tryCurrent : Option Handle) :
    RetryUnavailable σ β ε where
  inner
  runtime := tryCurrent
  backoff

def new (inner : Inner σ β ε) (tryCurrent : Option Handle) : RetryUnavailable σ β ε :=
  withBackoff inner Export.backoff tryCurrent

variable (self : RetryUnavailable σ β ε)

/-- On a runtime that keeps running, the sleep that is spawned is awaited. -/
def pause (delay : Duration) (progress : Progress σ β) : Progress σ β :=
  match self.runtime with
  | some _ => { progress with acts := progress.acts ++ [.pause delay] }
  | none => progress

def callInner (batch : β) (progress : Progress σ β) : OTelSdkResult ε × Progress σ β :=
  let (result, inner) := self.inner progress.inner batch
  (result, { inner, acts := progress.acts ++ [.call batch] })

/-- The loop over the delays that both exporters end with. -/
def retry (toStr : ε → String) (batch : β) :
    List Duration → OTelSdkResult ε → Progress σ β → OTelSdkResult ε × Progress σ β
  | [], result, progress => (result, progress)
  | delay :: delays, result, progress =>
      if !isUnavailable toStr result then (result, progress)
      else
        let (result, progress) := self.callInner batch (self.pause delay progress)
        retry toStr batch delays result progress

/-- `LogExporter::export`, which makes its first attempt before it looks for a runtime. -/
def exportLogs (self : RetryUnavailable σ (LogBatch ρ) ε) (toStr : ε → String)
    (batch : LogBatch ρ) (progress : Progress σ (LogBatch ρ)) :
    OTelSdkResult ε × Progress σ (LogBatch ρ) :=
  let records := batch.iter
  let (result, progress) := self.callInner (LogBatch.new records) progress
  if self.runtime.isNone then (result, progress)
  else self.retry toStr (LogBatch.new records) self.backoff result progress

/-- `SpanExporter::export`, which looks for a runtime first. -/
def exportSpans (self : RetryUnavailable σ (List ρ) ε) (toStr : ε → String) (batch : List ρ)
    (progress : Progress σ (List ρ)) : OTelSdkResult ε × Progress σ (List ρ) :=
  if self.runtime.isNone then self.callInner batch progress
  else
    let (result, progress) := self.callInner batch progress
    self.retry toStr batch self.backoff result progress

end RetryUnavailable

/-! ## The attempts an export makes -/

section

variable {σ β ε : Type}

/-- What the inner exporter answers to the `n`-th call with a batch, counted from zero. -/
def resultAt (inner : Inner σ β ε) (batch : β) (s : σ) : ℕ → OTelSdkResult ε
  | 0 => (inner s batch).1
  | n + 1 => resultAt inner batch (inner s batch).2 n

/-- The calls and pauses of an export that waits for each of the delays. -/
def script (batch : β) (delays : List Duration) : List (Act β) :=
  .call batch :: delays.flatMap fun delay => [.pause delay, .call batch]

/-- The number of retries: the first `k` that exhausts the delays or whose answer is not
unavailable. -/
def Retries (toStr : ε → String) (results : ℕ → OTelSdkResult ε) (n k : ℕ) : Prop :=
  IsLeast {k | k = n ∨ isUnavailable toStr (results k) = false} k

variable {toStr : ε → String}

theorem retries_zero {results : ℕ → OTelSdkResult ε} {n : ℕ}
    (h : n = 0 ∨ isUnavailable toStr (results 0) = false) : Retries toStr results n 0 := by
  refine ⟨?_, fun k _ => Nat.zero_le k⟩
  exact h.imp Eq.symm id

theorem retries_succ {results : ℕ → OTelSdkResult ε} {n k : ℕ}
    (h : isUnavailable toStr (results 0) = true)
    (hk : Retries toStr (fun i => results (i + 1)) n k) :
    Retries toStr results (n + 1) (k + 1) := by
  refine ⟨?_, ?_⟩
  · exact hk.1.imp (congrArg (· + 1)) id
  · intro j hj
    cases j with
    | zero =>
        rcases hj with hj | hj
        · cases hj
        · rw [h] at hj
          cases hj
    | succ j =>
        have hle : k ≤ j := hk.2 (hj.imp Nat.succ.inj id)
        exact Nat.succ_le_succ hle

theorem Retries.le {results : ℕ → OTelSdkResult ε} {n k : ℕ}
    (h : Retries toStr results n k) : k ≤ n :=
  h.2 (Or.inl rfl)

theorem Retries.unique {results : ℕ → OTelSdkResult ε} {n k k' : ℕ}
    (h : Retries toStr results n k) (h' : Retries toStr results n k') : k = k' :=
  IsLeast.unique h h'

variable {self : RetryUnavailable σ β ε} {handle : Handle}

/-- One round of the loop, on a runtime. -/
theorem retry_unavailable (hruntime : self.runtime = some handle) {result : OTelSdkResult ε}
    (h : isUnavailable toStr result = true) (batch : β) (delay : Duration)
    (delays : List Duration) (progress : Progress σ β) :
    self.retry toStr batch (delay :: delays) result progress =
      self.retry toStr batch delays (self.inner progress.inner batch).1
        { inner := (self.inner progress.inner batch).2
          acts := progress.acts ++ [.pause delay, .call batch] } := by
  rw [RetryUnavailable.retry, h]
  simp [RetryUnavailable.callInner, RetryUnavailable.pause, hruntime]

/-- The loop goes on from an answer that the first call has given. -/
theorem retry_spec (hruntime : self.runtime = some handle) (batch : β)
    (delays : List Duration) (results : ℕ → OTelSdkResult ε) (progress : Progress σ β)
    (hresults : ∀ n, results (n + 1) = resultAt self.inner batch progress.inner n) :
    ∃ k, Retries toStr results delays.length k ∧
      (self.retry toStr batch delays (results 0) progress).1 = results k ∧
      (self.retry toStr batch delays (results 0) progress).2.acts =
        progress.acts ++ (delays.take k).flatMap fun delay => [.pause delay, .call batch] := by
  induction delays generalizing results progress with
  | nil => exact ⟨0, retries_zero (Or.inl rfl), rfl, (List.append_nil _).symm⟩
  | cons delay delays ih =>
      cases h : isUnavailable toStr (results 0) with
      | false =>
          refine ⟨0, retries_zero (Or.inr h), ?_, ?_⟩
          · simp [RetryUnavailable.retry, h]
          · simp [RetryUnavailable.retry, h]
      | true =>
          rw [retry_unavailable hruntime h, show (self.inner progress.inner batch).1 = results 1
            from (hresults 0).symm]
          obtain ⟨k, hk, hresult, hacts⟩ := ih (fun n => results (n + 1))
            { inner := (self.inner progress.inner batch).2
              acts := progress.acts ++ [.pause delay, .call batch] } fun n => hresults (n + 1)
          refine ⟨k + 1, retries_succ h hk, hresult, ?_⟩
          rw [hacts, List.take_succ_cons, List.flatMap_cons, List.append_assoc]

def callOf : Act β → Option β
  | .call batch => some batch
  | .pause _ => none

def pauseOf : Act β → Option Duration
  | .call _ => none
  | .pause delay => some delay

/-- An act without what it carries. -/
def Act.shape : Act β → Act Unit
  | .call _ => .call ()
  | .pause delay => .pause delay

theorem calls_script (batch : β) (delays : List Duration) :
    (script batch delays).filterMap callOf = List.replicate (1 + delays.length) batch := by
  have hrest : (delays.flatMap fun delay => [Act.pause delay, .call batch]).filterMap callOf =
      List.replicate delays.length batch := by
    induction delays with
    | nil => rfl
    | cons delay delays ih =>
        rw [List.flatMap_cons, List.filterMap_append, ih]
        rfl
  rw [script, List.filterMap_cons, hrest, Nat.add_comm]
  rfl

theorem pauses_script (batch : β) (delays : List Duration) :
    (script batch delays).filterMap pauseOf = delays := by
  have hrest : (delays.flatMap fun delay => [Act.pause delay, .call batch]).filterMap pauseOf =
      delays := by
    induction delays with
    | nil => rfl
    | cons delay delays ih =>
        rw [List.flatMap_cons, List.filterMap_append, ih]
        rfl
  rw [script, List.filterMap_cons, hrest]
  rfl

theorem shape_script (batch : β) (delays : List Duration) :
    (script batch delays).map Act.shape = script () delays := by
  rw [script, List.map_cons, List.map_flatMap]
  rfl

/-- `k` retries were made, each after its delay and with the same batch, and the last answer
was returned. -/
structure Retried (toStr : ε → String) (results : ℕ → OTelSdkResult ε) (batch : β)
    (delays : List Duration) (out : OTelSdkResult ε × Progress σ β) (k : ℕ) : Prop where
  retries : Retries toStr results delays.length k
  returned : out.1 = results k
  calls : out.2.acts.filterMap callOf = List.replicate (1 + k) batch
  pauses : out.2.acts.filterMap pauseOf = delays.take k
  acts : out.2.acts = script batch (delays.take k)

theorem Retried.of_acts {results : ℕ → OTelSdkResult ε} {batch : β} {delays : List Duration}
    {out : OTelSdkResult ε × Progress σ β} {k : ℕ}
    (hk : Retries toStr results delays.length k) (hreturned : out.1 = results k)
    (hacts : out.2.acts = script batch (delays.take k)) :
    Retried toStr results batch delays out k := by
  refine ⟨hk, hreturned, ?_, ?_, hacts⟩
  · rw [hacts, calls_script, List.length_take_of_le hk.le]
  · rw [hacts, pauses_script]

/-- The first attempt, and the loop after it. -/
theorem exists_retried (hruntime : self.runtime = some handle) (batch : β) (s : σ) :
    ∃ k, Retried toStr (resultAt self.inner batch s) batch self.backoff
      (self.retry toStr batch self.backoff (self.inner s batch).1
        { inner := (self.inner s batch).2, acts := [.call batch] }) k := by
  obtain ⟨k, hk, hreturned, hacts⟩ := retry_spec hruntime batch self.backoff
    (resultAt self.inner batch s) { inner := (self.inner s batch).2, acts := [.call batch] }
    fun _ => rfl
  exact ⟨k, .of_acts hk hreturned hacts⟩

end

/-- Inside a runtime, logs and spans are both retried until an answer is not unavailable or
the delays are exhausted, with the same records each time; outside one, both make the one
attempt. Where the inner exporters answer alike, so do the two wrappers, after the same
attempts and pauses. -/
theorem retried_alike {σ τ ρ π ε : Type} (toStr : ε → String) (logs : Inner σ (LogBatch ρ) ε)
    (spans : Inner τ (List π) ε) (delays : List Duration) (s : σ) (t : τ)
    (batch : LogBatch ρ) (spanBatch : List π) :
    let logResults := resultAt logs batch s
    let spanResults := resultAt spans spanBatch t
    let logRun := fun runtime =>
      (RetryUnavailable.withBackoff logs delays runtime).exportLogs toStr batch ⟨s, []⟩
    let spanRun := fun runtime =>
      (RetryUnavailable.withBackoff spans delays runtime).exportSpans toStr spanBatch ⟨t, []⟩
    (∀ handle,
      (∃ k, Retried toStr logResults batch delays (logRun (some handle)) k) ∧
      (∃ k, Retried toStr spanResults spanBatch delays (spanRun (some handle)) k)) ∧
    ((logRun none).1 = logResults 0 ∧ (logRun none).2.acts = [.call batch]) ∧
    ((spanRun none).1 = spanResults 0 ∧ (spanRun none).2.acts = [.call spanBatch]) ∧
    ((∀ n, logResults n = spanResults n) → ∀ runtime,
      (logRun runtime).1 = (spanRun runtime).1 ∧
        (logRun runtime).2.acts.map Act.shape = (spanRun runtime).2.acts.map Act.shape) := by
  intro logResults spanResults logRun spanRun
  have hlogs : ∀ handle, ∃ k,
      Retried toStr logResults batch delays (logRun (some handle)) k := by
    intro handle
    have hruntime : (RetryUnavailable.withBackoff logs delays (some handle)).runtime =
        some handle := rfl
    exact exists_retried hruntime batch s
  have hspans : ∀ handle, ∃ k,
      Retried toStr spanResults spanBatch delays (spanRun (some handle)) k := by
    intro handle
    have hruntime : (RetryUnavailable.withBackoff spans delays (some handle)).runtime =
        some handle := rfl
    exact exists_retried hruntime spanBatch t
  refine ⟨fun handle => ⟨hlogs handle, hspans handle⟩, ⟨rfl, rfl⟩, ⟨rfl, rfl⟩, ?_⟩
  intro hsame runtime
  cases runtime with
  | none => exact ⟨hsame 0, rfl⟩
  | some handle =>
      obtain ⟨k, hk⟩ := hlogs handle
      obtain ⟨k', hk'⟩ := hspans handle
      have hretries : Retries toStr spanResults delays.length k := by
        rw [← funext hsame]
        exact hk.retries
      obtain rfl : k = k' := hretries.unique hk'.retries
      refine ⟨?_, ?_⟩
      · rw [hk.returned, hk'.returned, hsame]
      · rw [hk.acts, hk'.acts, shape_script, shape_script]

end OtelBootstrap.Export
