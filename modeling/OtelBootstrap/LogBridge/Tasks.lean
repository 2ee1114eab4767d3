import Mathlib.Logic.Function.Basic
import OtelBootstrap.LogBridge.History

/-! # Tasks that log, on any number of threads

`in_span` and `Spanned::run` instrument a future: its span is entered for every poll and left
when the poll returns. A thread has one stack of entered spans, whatever it polls, and whatever
a task does to the current span goes to the top of that stack. -/

namespace OtelBootstrap.LogBridge

/-! ## What a task does -/

/-- A `tracing::Span` in a task's hands: `Span::current()`, or the span that the task created
after so many others. -/
inductive SpanHandle where
  | current
  | created (n : ℕ)
  deriving DecidableEq

/-- The rest of an async block; `pause` is an await that returns `Pending` once. -/
inductive Work where
  | done
  | pause (rest : Work)
  | event (metadata : Metadata) (fields : List Field) (rest : Work)
  | newSpan (fields : List Field) (rest : Work)
  | recordSpanLogAttrOn (span : SpanHandle) (key : String) (value : AnyValue) (rest : Work)
  | instrument (span : ℕ) (fut : Work) (rest : Work)

/-- `in_span(span, fut).await`. -/
def inSpan (span : ℕ) (fut rest : Work) : Work :=
  .instrument span fut rest

structure Spanned where
  span : ℕ

/-- `run(fut).await`. -/
def Spanned.run (self : Spanned) (fut rest : Work) : Work :=
  .instrument self.span fut rest

def recordSpanLogAttr (key : String) (value : AnyValue) (rest : Work) : Work :=
  .recordSpanLogAttrOn .current key value rest

/-- Of the two writes, the one to the span's log attributes. -/
def emitRequestIdOn (span : SpanHandle) (requestId : String) (rest : Work) : Work :=
  .recordSpanLogAttrOn span "request.id" (.string requestId) rest

def emitRequestId (requestId : String) (rest : Work) : Work :=
  emitRequestIdOn .current requestId rest

/-! ## The stack of a thread -/

/-- Innermost first. A span that is entered again inside itself does not become current a
second time. -/
def current : List ℕ → Option ℕ
  | [] => none
  | span :: stack => if span ∈ stack then current stack else some span

/-- `Registry::exit` takes the innermost entry of the span. -/
def exit (stack : List ℕ) (span : ℕ) : List ℕ :=
  stack.erase span

/-! ## One task -/

inductive Stage where
  | idle
  | polled
  | finished
  deriving DecidableEq

/-- `spans` are the spans that the task has created; `frames` are the instrumented futures that
it is inside of, innermost first, each with what comes after it. -/
structure Task where
  code : Work
  spans : List ℕ := []
  frames : List (ℕ × Work) := []
  stage : Stage := .idle

namespace Task

def resolve (task : Task) (stack : List ℕ) : SpanHandle → Option (Option ℕ)
  | .current => some (current stack)
  | .created n => (task.spans[n]?).map some

/-- The spans that a poll enters on its way in. -/
def entered (task : Task) : List ℕ :=
  task.frames.filterMap fun frame => task.spans[frame.1]?

end Task

/-- The call that reaches the subscriber, and what is left on the thread and of the task. -/
structure Advance where
  call : Option Call := none
  stack : List ℕ
  task : Task

/-- What a task that is being polled does next. A handle that it does not have cannot be
written. -/
def Task.advance? (task : Task) (stack : List ℕ) (size : ℕ) : Option Advance :=
  match task.code with
  | .done =>
      match task.frames with
      | [] => some { stack, task := { task with stage := .finished } }
      | (n, rest) :: frames =>
          (task.spans[n]?).map fun span =>
            { stack := exit stack span, task := { task with code := rest, frames } }
  | .pause rest =>
      some
        { stack := task.entered.foldl exit stack
          task := { task with code := rest, stage := .idle } }
  | .event metadata fields rest =>
      some
        { call := some (.event metadata (current stack) fields)
          stack
          task := { task with code := rest } }
  | .newSpan fields rest =>
      some
        { call := some (.newSpan (current stack) fields)
          stack
          task := { task with code := rest, spans := task.spans ++ [size] } }
  | .recordSpanLogAttrOn handle key value rest =>
      (task.resolve stack handle).map fun span =>
        { call := span.map fun span => .recordLogAttr span key value
          stack
          task := { task with code := rest } }
  | .instrument n fut rest =>
      (task.spans[n]?).map fun span =>
        { stack := span :: stack
          task := { task with code := fut, frames := (n, rest) :: task.frames } }

/-- The ways a task can go on. -/
inductive Advances (task : Task) (stack : List ℕ) (size : ℕ) : Advance → Prop
  | finish (hcode : task.code = .done) (hframes : task.frames = []) :
      Advances task stack size { stack, task := { task with stage := .finished } }
  | leave {n rest frames span} (hcode : task.code = .done)
      (hframes : task.frames = (n, rest) :: frames) (hspan : task.spans[n]? = some span) :
      Advances task stack size
        { stack := exit stack span, task := { task with code := rest, frames } }
  | pause {rest} (hcode : task.code = .pause rest) :
      Advances task stack size
        { stack := task.entered.foldl exit stack
          task := { task with code := rest, stage := .idle } }
  | event {metadata fields rest} (hcode : task.code = .event metadata fields rest) :
      Advances task stack size
        { call := some (.event metadata (current stack) fields)
          stack
          task := { task with code := rest } }
  | newSpan {fields rest} (hcode : task.code = .newSpan fields rest) :
      Advances task stack size
        { call := some (.newSpan (current stack) fields)
          stack
          task := { task with code := rest, spans := task.spans ++ [size] } }
  | record {handle key value rest span}
      (hcode : task.code = .recordSpanLogAttrOn handle key value rest)
      (hspan : task.resolve stack handle = some span) :
      Advances task stack size
        { call := span.map fun span => .recordLogAttr span key value
          stack
          task := { task with code := rest } }
  | enter {n fut rest span} (hcode : task.code = .instrument n fut rest)
      (hspan : task.spans[n]? = some span) :
      Advances task stack size
        { stack := span :: stack
          task := { task with code := fut, frames := (n, rest) :: task.frames } }

theorem advances_iff {task : Task} {stack : List ℕ} {size : ℕ} {advance : Advance} :
    task.advance? stack size = some advance ↔ Advances task stack size advance := by
  constructor
  · intro h
    cases hcode : task.code with
    | done =>
        cases hframes : task.frames with
        | nil =>
            have hfinish : task.advance? stack size =
                some { stack, task := { task with stage := .finished } } := by
              simp [Task.advance?, hcode, hframes]
            obtain rfl := Option.some.inj (hfinish.symm.trans h)
            exact .finish hcode hframes
        | cons frame frames =>
            simp only [Task.advance?, hcode, hframes, Option.map_eq_some_iff] at h
            obtain ⟨span, hspan, rfl⟩ := h
            exact .leave hcode hframes hspan
    | pause rest =>
        simp only [Task.advance?, hcode, Option.some.injEq] at h
        subst h
        exact .pause hcode
    | event metadata fields rest =>
        simp only [Task.advance?, hcode, Option.some.injEq] at h
        subst h
        exact .event hcode
    | newSpan fields rest =>
        simp only [Task.advance?, hcode, Option.some.injEq] at h
        subst h
        exact .newSpan hcode
    | recordSpanLogAttrOn handle key value rest =>
        simp only [Task.advance?, hcode, Option.map_eq_some_iff] at h
        obtain ⟨span, hspan, rfl⟩ := h
        exact .record hcode hspan
    | instrument n fut rest =>
        simp only [Task.advance?, hcode, Option.map_eq_some_iff] at h
        obtain ⟨span, hspan, rfl⟩ := h
        exact .enter hcode hspan
  · intro h
    cases h with
    | finish hcode hframes => simp [Task.advance?, hcode, hframes]
    | leave hcode hframes hspan => simp [Task.advance?, hcode, hframes, hspan]
    | pause hcode => simp [Task.advance?, hcode]
    | event hcode => simp [Task.advance?, hcode]
    | newSpan hcode => simp [Task.advance?, hcode]
    | record hcode hspan => simp [Task.advance?, hcode, hspan]
    | enter hcode hspan => simp [Task.advance?, hcode, hspan]

/-! ## The executor -/

structure Worker (ι : Type) where
  running : Option ι := none
  stack : List ℕ := []

/-- `records` are the emitted records, each with the task that logged it. -/
structure Executor (ι τ : Type) where
  registry : Registry := .empty
  tasks : ι → Task
  workers : τ → Worker ι := fun _ => {}
  records : List (ι × LogRecord) := []

namespace Executor

variable {ι τ : Type} [DecidableEq ι] [DecidableEq τ] (bridge : SpanAwareLogBridge)

/-- `Instrumented::poll` enters its span, from the outermost future in. -/
def beginPoll (x : Executor ι τ) (t : τ) (i : ι) : Executor ι τ :=
  { x with
    tasks := Function.update x.tasks i { x.tasks i with stage := .polled }
    workers := Function.update x.workers t
      { running := some i, stack := (x.tasks i).entered ++ (x.workers t).stack } }

/-- `state` is what the subscriber made of the call. -/
def goOn (x : Executor ι τ) (t : τ) (i : ι) (advance : Advance) (state : State) :
    Executor ι τ where
  registry := state.registry
  tasks := Function.update x.tasks i advance.task
  workers := Function.update x.workers t
    { running := if advance.task.stage = .polled then some i else none
      stack := advance.stack }
  records := x.records ++ state.emitted.map (i, ·)

/-- A thread goes on with a task, or begins to poll it. -/
def step? (x : Executor ι τ) (turn : τ × ι) : Option (Executor ι τ) :=
  match (x.workers turn.1).running with
  | none => if (x.tasks turn.2).stage = .idle then some (x.beginPoll turn.1 turn.2) else none
  | some i =>
      if i = turn.2 then
        ((x.tasks i).advance? (x.workers turn.1).stack x.registry.size).bind fun advance =>
          (LogBridge.run? bridge { registry := x.registry } advance.call.toList).map
            (x.goOn turn.1 i advance)
      else none

def run? (x : Executor ι τ) : List (τ × ι) → Option (Executor ι τ)
  | [] => some x
  | turn :: turns => (x.step? bridge turn).bind (run? · turns)

def start (works : ι → Work) : Executor ι τ where
  tasks i := { code := works i }

/-- What a task has logged. -/
def recordsOf (x : Executor ι τ) (i : ι) : List LogRecord :=
  (x.records.filter (·.1 = i)).map Prod.snd

/-! ### Steps -/

inductive Steps (x : Executor ι τ) (t : τ) (i : ι) : Executor ι τ → Prop
  | begins (hfree : (x.workers t).running = none) (hidle : (x.tasks i).stage = .idle) :
      Steps x t i (x.beginPoll t i)
  | goesOn {advance state} (hrunning : (x.workers t).running = some i)
      (hadvances : Advances (x.tasks i) (x.workers t).stack x.registry.size advance)
      (hcall : LogBridge.run? bridge { registry := x.registry } advance.call.toList = some state) :
      Steps x t i (x.goOn t i advance state)

theorem steps_iff {x x' : Executor ι τ} {t : τ} {i : ι} :
    x.step? bridge (t, i) = some x' ↔ Steps bridge x t i x' := by
  constructor
  · intro h
    cases hrunning : (x.workers t).running with
    | none =>
        simp only [step?, hrunning] at h
        split at h
        · cases h
          exact .begins hrunning ‹_›
        · cases h
    | some j =>
        simp only [step?, hrunning] at h
        split at h
        · subst j
          obtain ⟨advance, hadvance, hrest⟩ := Option.bind_eq_some_iff.mp h
          obtain ⟨state, hstate, rfl⟩ := Option.map_eq_some_iff.mp hrest
          exact .goesOn hrunning (advances_iff.mp hadvance) hstate
        · cases h
  · intro h
    cases h with
    | begins hfree hidle => simp [step?, hfree, hidle]
    | goesOn hrunning hadvances hcall =>
        simp [step?, hrunning, advances_iff.mpr hadvances, hcall]

end Executor

/-! ## The stacks -/

theorem exit_cons (span : ℕ) (stack : List ℕ) : exit (span :: stack) span = stack := by
  simp [exit]

/-- Leaving what was entered, innermost first. -/
theorem foldl_exit (spans stack : List ℕ) : spans.foldl exit (spans ++ stack) = stack := by
  induction spans with
  | nil => rfl
  | cons span spans ih => rw [List.cons_append, List.foldl_cons, exit_cons, ih]

theorem mem_of_current {stack : List ℕ} {span : ℕ} (h : current stack = some span) :
    span ∈ stack := by
  induction stack with
  | nil => cases h
  | cons top stack ih =>
      rw [current] at h
      split at h
      · exact List.mem_cons_of_mem top (ih h)
      · obtain rfl := Option.some.inj h
        exact List.mem_cons_self

namespace Task

/-- Every future that the task is inside of is instrumented with a span that exists. -/
def Resolved (task : Task) : Prop :=
  ∀ frame ∈ task.frames, frame.1 < task.spans.length

theorem entered_grow {task : Task} (h : task.Resolved) (new : List ℕ) :
    { task with spans := task.spans ++ new }.entered = task.entered := by
  apply List.filterMap_congr
  intro frame hframe
  exact List.getElem?_append_left (h frame hframe)

theorem entered_cons (code rest : Work) {spans : List ℕ} {n span : ℕ}
    (hspan : spans[n]? = some span) (frames : List (ℕ × Work)) (stage : Stage) :
    (Task.mk code spans ((n, rest) :: frames) stage).entered =
      span :: (Task.mk code spans frames stage).entered := by
  simp [entered, hspan]

theorem mem_spans_of_entered {task : Task} {span : ℕ} (h : span ∈ task.entered) :
    span ∈ task.spans := by
  obtain ⟨frame, -, hspan⟩ := List.mem_filterMap.mp h
  exact List.mem_of_getElem? hspan

end Task

theorem run?_singleton (bridge : SpanAwareLogBridge) (state : State) (call : Call) :
    run? bridge state [call] = step? bridge state call := by
  cases h : step? bridge state call <;> simp [run?, h]

/-- The registry grows by the spans that are created. -/
theorem size_of_run {bridge : SpanAwareLogBridge} {state state' : State} {h : List Call}
    (hrun : run? bridge state h = some state') :
    state'.registry.size = state.registry.size + (creations h).length := by
  induction h generalizing state with
  | nil =>
      obtain rfl := Option.some.inj hrun
      rfl
  | cons call h ih =>
      obtain ⟨mid, hstep, hrest⟩ := Option.bind_eq_some_iff.mp hrun
      have hmid : mid.registry.size = state.registry.size + (creationOf call).toList.length := by
        cases call with
        | newSpan parent fields =>
            simp only [step?] at hstep
            split at hstep
            · cases hstep
              simp [Forest.size, creationOf]
            · cases hstep
        | recordLogAttr span key value =>
            simp only [step?] at hstep
            split at hstep
            · cases hstep
              simp [recordSpanLogAttrOn, Forest.size, creationOf]
            · cases hstep
        | event metadata span fields =>
            simp only [step?] at hstep
            split at hstep
            · cases hstep
              rfl
            · cases hstep
      have hcreations : (creations (call :: h)).length =
          (creationOf call).toList.length + (creations h).length := by
        cases hc : creationOf call <;> simp [creations, hc, Nat.add_comm]
      rw [ih hrest, hmid, hcreations, Nat.add_assoc]

/-! ## What one step of a task keeps -/

/-- A task that is polled by a thread whose stack holds what the task has entered. -/
structure Task.Polled (task : Task) (stack : List ℕ) : Prop where
  stage : task.stage = .polled
  resolved : task.Resolved
  stack : stack = task.entered

/-- What a step leaves: the spans that the task is still inside of, or nothing. -/
structure Advance.Keeps (advance : Advance) (task : Task) (size : ℕ) : Prop where
  resolved : advance.task.Resolved
  polled : advance.task.stage = .polled → advance.stack = advance.task.entered
  left : advance.task.stage ≠ .polled → advance.stack = []
  spans : advance.task.spans = task.spans ++ (creations advance.call.toList).map fun _ => size

theorem Advances.keeps {task : Task} {stack : List ℕ} {size : ℕ} {advance : Advance}
    (h : Advances task stack size advance) (hp : task.Polled stack) :
    advance.Keeps task size := by
  obtain ⟨hstage, hresolved, rfl⟩ := hp
  have hnone : task.spans = task.spans ++ (creations []).map fun _ => size :=
    (List.append_nil _).symm
  cases h with
  | finish hcode hframes =>
      refine ⟨hresolved, (fun hpolled => by cases hpolled), fun _ => ?_, hnone⟩
      simp [Task.entered, hframes]
  | leave hcode hframes hspan =>
      rename_i n rest frames span
      have hentered : task.entered = span :: { task with code := rest, frames }.entered := by
        simp [Task.entered, hframes, hspan]
      refine ⟨?_, fun _ => ?_, fun hne => absurd hstage hne, hnone⟩
      · intro frame hframe
        exact hresolved frame (hframes ▸ List.mem_cons_of_mem _ hframe)
      · rw [hentered, exit_cons]
  | pause hcode =>
      refine ⟨hresolved, (fun hpolled => by cases hpolled), fun _ => ?_, hnone⟩
      simpa using foldl_exit task.entered []
  | event hcode => exact ⟨hresolved, fun _ => rfl, fun hne => absurd hstage hne, hnone⟩
  | newSpan hcode =>
      refine ⟨?_, fun _ => (Task.entered_grow hresolved _).symm, fun hne => absurd hstage hne, rfl⟩
      intro frame hframe
      rw [List.length_append]
      exact Nat.lt_add_right _ (hresolved frame hframe)
  | record hcode hspan =>
      rename_i handle key value rest span
      refine ⟨hresolved, fun _ => rfl, fun hne => absurd hstage hne, ?_⟩
      cases span <;> exact hnone
  | enter hcode hspan =>
      rename_i n fut rest span
      refine ⟨?_, fun _ => ?_, fun hne => absurd hstage hne, hnone⟩
      · intro frame hframe
        rcases List.mem_cons.mp hframe with rfl | hframe
        · exact (List.getElem?_eq_some_iff.mp hspan).1
        · exact hresolved frame hframe
      · exact (Task.entered_cons fut rest hspan task.frames task.stage).symm

/-! ## What every run keeps -/

namespace Executor

variable {ι τ : Type}

/-- Every span was created by one task, and a thread has entered the spans that the task it
polls is inside of. -/
structure Sound (x : Executor ι τ) : Prop where
  created : ∀ i, ∀ span ∈ (x.tasks i).spans, span < x.registry.size
  nodup : ∀ i, (x.tasks i).spans.Nodup
  apart : ∀ i j, i ≠ j → ∀ span ∈ (x.tasks i).spans, span ∉ (x.tasks j).spans
  resolved : ∀ i, (x.tasks i).Resolved
  free : ∀ t, (x.workers t).running = none → (x.workers t).stack = []
  busy : ∀ t i, (x.workers t).running = some i → (x.tasks i).Polled (x.workers t).stack
  one : ∀ t t' i, (x.workers t).running = some i → (x.workers t').running = some i → t = t'

namespace Sound

theorem initial (works : ι → Work) : Sound (start works : Executor ι τ) where
  created _ _ h := by cases h
  nodup _ := List.nodup_nil
  apart _ _ _ _ h := by cases h
  resolved _ _ h := by cases h
  free _ _ := rfl
  busy _ _ h := by cases h
  one _ _ _ h := by cases h

variable {x : Executor ι τ} {t : τ} {i : ι}

/-- No thread polls a task that is idle. -/
theorem not_running (h : Sound x) (hidle : (x.tasks i).stage = .idle) (t : τ) :
    (x.workers t).running ≠ some i := by
  intro hrunning
  have hstage := (h.busy t i hrunning).stage
  rw [hidle] at hstage
  cases hstage

variable [DecidableEq ι] [DecidableEq τ] {bridge : SpanAwareLogBridge}

theorem beginPoll (h : Sound x) (hfree : (x.workers t).running = none)
    (hidle : (x.tasks i).stage = .idle) : Sound (x.beginPoll t i) := by
  have hspans : ∀ j, ((x.beginPoll t i).tasks j).spans = (x.tasks j).spans := by
    intro j
    by_cases hj : j = i
    · subst hj
      simp [Executor.beginPoll]
    · simp [Executor.beginPoll, hj]
  have hresolved : ∀ j, ((x.beginPoll t i).tasks j).Resolved := by
    intro j
    by_cases hj : j = i
    · subst hj
      have hmine : (x.beginPoll t j).tasks j = { x.tasks j with stage := .polled } := by
        simp [Executor.beginPoll]
      rw [hmine]
      exact h.resolved j
    · simpa [Executor.beginPoll, hj] using h.resolved j
  have hrunning : ∀ t' j, ((x.beginPoll t i).workers t').running = some j →
      t' = t ∧ j = i ∨ t' ≠ t ∧ j ≠ i ∧ (x.workers t').running = some j := by
    intro t' j hj
    by_cases ht : t' = t
    · subst ht
      refine .inl ⟨rfl, ?_⟩
      simpa [Executor.beginPoll, eq_comm] using hj
    · have hj' : (x.workers t').running = some j := by simpa [Executor.beginPoll, ht] using hj
      refine .inr ⟨ht, ?_, hj'⟩
      rintro rfl
      exact h.not_running hidle t' hj'
  refine ⟨?_, ?_, ?_, hresolved, ?_, ?_, ?_⟩
  · intro j span hspan
    rw [hspans] at hspan
    exact h.created j span hspan
  · intro j
    rw [hspans]
    exact h.nodup j
  · intro j k hjk span hspan
    rw [hspans] at hspan ⊢
    exact h.apart j k hjk span hspan
  · intro t' hnone
    by_cases ht : t' = t
    · subst ht
      simp [Executor.beginPoll] at hnone
    · simp only [Executor.beginPoll, Function.update_of_ne ht] at hnone ⊢
      exact h.free t' hnone
  · intro t' j hj
    rcases hrunning t' j hj with ⟨rfl, rfl⟩ | ⟨ht, hji, hj'⟩
    · refine ⟨by simp [Executor.beginPoll], hresolved j, ?_⟩
      simp [Executor.beginPoll, h.free t' hfree, Task.entered]
    · simp only [Executor.beginPoll, Function.update_of_ne ht, Function.update_of_ne hji]
      exact h.busy t' j hj'
  · intro t₁ t₂ j h₁ h₂
    rcases hrunning t₁ j h₁ with ⟨rfl, rfl⟩ | ⟨-, hji, h₁'⟩
    · rcases hrunning t₂ j h₂ with ⟨rfl, -⟩ | ⟨-, hji, -⟩
      · rfl
      · exact absurd rfl hji
    · rcases hrunning t₂ j h₂ with ⟨-, rfl⟩ | ⟨-, -, h₂'⟩
      · exact absurd rfl hji
      · exact h.one t₁ t₂ j h₁' h₂'

theorem goOn (h : Sound x) (hrunning : (x.workers t).running = some i) {advance : Advance}
    {state : State}
    (hadvances : Advances (x.tasks i) (x.workers t).stack x.registry.size advance)
    (hcall : LogBridge.run? bridge { registry := x.registry } advance.call.toList = some state) :
    Sound (x.goOn t i advance state) := by
  have hkeeps := hadvances.keeps (h.busy t i hrunning)
  have hsize := size_of_run hcall
  have hmine : (x.goOn t i advance state).tasks i = advance.task := by
    simp [Executor.goOn]
  have hother : ∀ j, j ≠ i → (x.goOn t i advance state).tasks j = x.tasks j := by
    intro j hj
    simp [Executor.goOn, hj]
  -- a span that the task has now is one it had, or is new to the registry
  have hspan : ∀ span ∈ advance.task.spans, span < state.registry.size ∧
      (span ∈ (x.tasks i).spans ∨ span = x.registry.size) := by
    intro span hspan
    rw [hkeeps.spans] at hspan
    rcases List.mem_append.mp hspan with hold | hnew
    · exact ⟨hsize ▸ Nat.lt_add_right _ (h.created i span hold), .inl hold⟩
    · obtain ⟨c, hc, rfl⟩ := List.mem_map.mp hnew
      have hpos := List.length_pos_of_mem hc
      refine ⟨?_, .inr rfl⟩
      rw [hsize]
      exact Nat.lt_add_of_pos_right hpos
  have hfresh : ∀ j, x.registry.size ∉ (x.tasks j).spans := by
    intro j hmem
    exact Nat.lt_irrefl _ (h.created j _ hmem)
  have hworker : ∀ t' j, ((x.goOn t i advance state).workers t').running = some j →
      t' = t ∧ j = i ∧ advance.task.stage = .polled ∨
        t' ≠ t ∧ j ≠ i ∧ (x.workers t').running = some j := by
    intro t' j hj
    by_cases ht : t' = t
    · subst ht
      simp only [Executor.goOn, Function.update_self] at hj
      split at hj
      · exact .inl ⟨rfl, (Option.some.inj hj).symm, ‹_›⟩
      · cases hj
    · simp only [Executor.goOn, Function.update_of_ne ht] at hj
      refine .inr ⟨ht, ?_, hj⟩
      rintro rfl
      exact ht (h.one t' t j hj hrunning)
  refine ⟨?_, ?_, ?_, ?_, ?_, ?_, ?_⟩
  · intro j span hmem
    by_cases hj : j = i
    · subst hj
      rw [hmine] at hmem
      exact (hspan span hmem).1
    · rw [hother j hj] at hmem
      exact hsize ▸ Nat.lt_add_right _ (h.created j span hmem)
  · intro j
    by_cases hj : j = i
    · subst hj
      rw [hmine, hkeeps.spans, List.nodup_append]
      refine ⟨h.nodup j, ?_, ?_⟩
      · cases advance.call with
        | none => exact List.nodup_nil
        | some call =>
            cases call with
            | newSpan parent fields => exact List.nodup_singleton _
            | recordLogAttr span key value => exact List.nodup_nil
            | event metadata span fields => exact List.nodup_nil
      · intro span hmem new hlast
        obtain ⟨c, -, rfl⟩ := List.mem_map.mp hlast
        rintro rfl
        exact hfresh j hmem
    · rw [hother j hj]
      exact h.nodup j
  · intro j k hjk span hmem
    by_cases hj : j = i
    · subst hj
      rw [hmine] at hmem
      rw [hother k hjk.symm]
      rcases (hspan span hmem).2 with hold | rfl
      · exact h.apart j k hjk span hold
      · exact hfresh k
    · rw [hother j hj] at hmem
      by_cases hk : k = i
      · subst hk
        rw [hmine]
        intro hmem'
        rcases (hspan span hmem').2 with hold | rfl
        · exact h.apart j k hjk span hmem hold
        · exact hfresh j hmem
      · rw [hother k hk]
        exact h.apart j k hjk span hmem
  · intro j
    by_cases hj : j = i
    · subst hj
      rw [hmine]
      exact hkeeps.resolved
    · rw [hother j hj]
      exact h.resolved j
  · intro t' hnone
    by_cases ht : t' = t
    · subst ht
      simp only [Executor.goOn, Function.update_self] at hnone ⊢
      split at hnone
      · cases hnone
      · exact hkeeps.left ‹_›
    · simp only [Executor.goOn, Function.update_of_ne ht] at hnone ⊢
      exact h.free t' hnone
  · intro t' j hj
    rcases hworker t' j hj with ⟨rfl, rfl, hpolled⟩ | ⟨ht, hji, hj'⟩
    · rw [hmine]
      refine ⟨hpolled, hkeeps.resolved, ?_⟩
      simpa [Executor.goOn] using hkeeps.polled hpolled
    · rw [hother j hji]
      simp only [Executor.goOn, Function.update_of_ne ht]
      exact h.busy t' j hj'
  · intro t₁ t₂ j h₁ h₂
    rcases hworker t₁ j h₁ with ⟨rfl, rfl, -⟩ | ⟨-, hji, h₁'⟩
    · rcases hworker t₂ j h₂ with ⟨rfl, -⟩ | ⟨-, hji, -⟩
      · rfl
      · exact absurd rfl hji
    · rcases hworker t₂ j h₂ with ⟨-, rfl, -⟩ | ⟨-, -, h₂'⟩
      · exact absurd rfl hji
      · exact h.one t₁ t₂ j h₁' h₂'

theorem step {x' : Executor ι τ} (h : Sound x) (hstep : Steps bridge x t i x') : Sound x' := by
  cases hstep with
  | begins hfree hidle => exact h.beginPoll hfree hidle
  | goesOn hrunning hadvances hcall => exact h.goOn hrunning hadvances hcall

theorem run {x' : Executor ι τ} (h : Sound x) {turns : List (τ × ι)}
    (hrun : x.run? bridge turns = some x') : Sound x' := by
  induction turns generalizing x with
  | nil =>
      obtain rfl := Option.some.inj hrun
      exact h
  | cons turn turns ih =>
      obtain ⟨mid, hstep, hrest⟩ := Option.bind_eq_some_iff.mp hrun
      exact ih (h.step ((steps_iff bridge).mp hstep)) hrest

end Sound

end Executor

/-- Two requests that each run under a span of their own and wait once. -/
def twoRequests (second : Bool) : Work :=
  .newSpan [⟨"request.id", .str (if second then "r-2" else "r-1")⟩]
    (inSpan 0
      (recordSpanLogAttr "enduser.id" (.string (if second then "u-2" else "u-1"))
        (.pause (.event ⟨.info, "app", "event"⟩ [⟨"message", .str "hello"⟩] .done)))
      .done)

/-- One thread polls both up to their waits, and goes on with the first. -/
def oneThread : List (Unit × Bool) :=
  List.replicate 5 ((), false) ++ List.replicate 5 ((), true) ++ List.replicate 2 ((), false)

def requestsBridge : SpanAwareLogBridge where
  platform := ⟨fun _ => "0.5", fun entries => entries, List.Perm.refl⟩
  spanFields := ["request.id"]

end OtelBootstrap.LogBridge
