import OtelBootstrap.Boot.Trace

/-! # Timed futures

`time` and `try_time` start their phase when they are first polled, and hold its guard over
every await. -/

namespace OtelBootstrap.Boot

/-! ## One future -/

/-- One poll of the work. -/
inductive Turn (α : Type) where
  | pending
  | ready (output : α)
  | panic

/-- What is done to a future. A poll reads the clock where it starts the phase and where it
ends it. -/
inductive Happening (α : Type) where
  | poll (began : Instant) (turn : Turn α) (ended : Instant)
  | drop (now : Instant)

inductive Stage where
  | unstarted
  | awaiting (guard : PhaseGuard)
  | finished
  deriving DecidableEq, Repr

/-- A future that times its work. `ending` is what it does with its guard once the work is
done. -/
structure Timed (α : Type) where
  name : String
  ending : α → Ending
  stage : Stage := .unstarted
  output : Option α := none

namespace Timeline

def time {α : Type} (name : String) : Timed α where
  name
  ending _ := .finish

def tryTime {ε α : Type} (name : String) : Timed (Except ε α) where
  name
  ending
    | .ok _ => .finish
    | .error _ => .fail

end Timeline

namespace Timed

variable {α : Type}

/-- A panic unwinds through the guard. -/
def settle (f : Timed α) (guard : PhaseGuard) (ended : Instant) :
    Turn α → List RecordCall × Timed α
  | .pending => ([], { f with stage := .awaiting guard })
  | .ready output =>
      ((f.ending output).calls guard ended, { f with stage := .finished, output := some output })
  | .panic => (guard.drop ended, { f with stage := .finished })

/-- A future that is over is neither polled nor dropped again. -/
def step (f : Timed α) : Happening α → List RecordCall × Timed α
  | .poll began turn ended =>
      match f.stage with
      | .unstarted => f.settle (Timeline.phase f.name began) ended turn
      | .awaiting guard => f.settle guard ended turn
      | .finished => ([], f)
  | .drop now =>
      match f.stage with
      | .unstarted => ([], { f with stage := .finished })
      | .awaiting guard => (guard.drop now, { f with stage := .finished })
      | .finished => ([], f)

def run (f : Timed α) : List (Happening α) → List RecordCall × Timed α
  | [] => ([], f)
  | event :: events =>
      let (calls, next) := f.step event
      let (more, last) := next.run events
      (calls ++ more, last)

theorem run_snoc (f : Timed α) (events : List (Happening α)) (event : Happening α) :
    f.run (events ++ [event]) =
      ((f.run events).1 ++ ((f.run events).2.step event).1, ((f.run events).2.step event).2) := by
  induction events generalizing f with
  | nil => simp [run]
  | cons first events ih => simp [run, ih]

/-! ## What a life leaves -/

/-- How an event ends the phase, once it has started. -/
def closing (f : Timed α) : Happening α → Option (Outcome × Instant)
  | .poll _ .pending _ => none
  | .poll _ (.ready output) ended => some ((f.ending output).outcome, ended)
  | .poll _ .panic ended => some (.failed, ended)
  | .drop now => some (.failed, now)

def resolved : Happening α → Option (Option α)
  | .poll _ .pending _ => none
  | .poll _ (.ready output) _ => some (some output)
  | .poll _ .panic _ => some none
  | .drop _ => some none

/-- From the first poll to the first event that ends the phase. -/
def life (f : Timed α) : List (Happening α) → Option RecordCall
  | .poll began turn ended :: events =>
      ((Happening.poll began turn ended :: events).findSome? f.closing).map fun end_ =>
        ⟨f.name, began, end_.2, end_.1⟩
  | _ => none

theorem run_finished {f : Timed α} (h : f.stage = .finished) (events : List (Happening α)) :
    f.run events = ([], f) := by
  induction events with
  | nil => rfl
  | cons event events ih =>
      have hstep : f.step event = ([], f) := by
        cases event <;> simp [step, h]
      simp [run, hstep, ih]

/-- The clock is read once for the start; the first closing event decides the rest. -/
theorem settle_run (f : Timed α) (began : Instant) (event : Happening α)
    (events : List (Happening α)) (first : List RecordCall × Timed α)
    (hfirst : first = match event with
      | .poll _ turn ended => f.settle (Timeline.phase f.name began) ended turn
      | .drop now => ((Timeline.phase f.name began).drop now, { f with stage := .finished }))
    (hrest : f.closing event = none →
      (({ f with stage := .awaiting (Timeline.phase f.name began) } : Timed α).run events).1 =
        ((events.findSome? f.closing).map fun end_ =>
          (⟨f.name, began, end_.2, end_.1⟩ : RecordCall)).toList) :
    first.1 ++ (first.2.run events).1 =
      (((event :: events).findSome? f.closing).map fun end_ =>
        (⟨f.name, began, end_.2, end_.1⟩ : RecordCall)).toList := by
  subst hfirst
  cases event with
  | drop now =>
      simp only [closing, List.findSome?_cons]
      rw [run_finished rfl]
      rfl
  | poll b turn ended =>
      cases turn with
      | pending =>
          simp only [settle, closing, List.findSome?_cons]
          exact hrest rfl
      | ready output =>
          simp only [settle, closing, List.findSome?_cons]
          rw [run_finished rfl, (f.ending output).calls_phase]
          rfl
      | panic =>
          simp only [settle, closing, List.findSome?_cons]
          rw [run_finished rfl]
          rfl

theorem run_awaiting (f : Timed α) (began : Instant) (events : List (Happening α)) :
    (({ f with stage := .awaiting (Timeline.phase f.name began) } : Timed α).run events).1 =
      ((events.findSome? f.closing).map fun end_ =>
        (⟨f.name, began, end_.2, end_.1⟩ : RecordCall)).toList := by
  induction events with
  | nil => rfl
  | cons event events ih =>
      refine settle_run { f with stage := .awaiting (Timeline.phase f.name began) } began event
        events _ ?_ fun _ => ih
      cases event <;> rfl

/-- A future that is polled at all records one phase, once it is over; one that is not, none. -/
theorem run_life (f : Timed α) (h : f.stage = .unstarted) (events : List (Happening α)) :
    (f.run events).1 = (f.life events).toList := by
  cases events with
  | nil => rfl
  | cons event events =>
      cases event with
      | drop now =>
          have hstep : f.step (.drop now) = ([], { f with stage := .finished }) := by
            simp [step, h]
          rw [run, hstep]
          exact congrArg Prod.fst (run_finished rfl events)
      | poll began turn ended =>
          refine settle_run f began (.poll began turn ended) events _ ?_ fun _ =>
            run_awaiting f began events
          simp [h]

theorem output_finished {f : Timed α} (h : f.stage = .finished) (events : List (Happening α)) :
    (f.run events).2.output = f.output := by
  rw [run_finished h]

/-- The output is that of the poll that ended the future. -/
theorem run_output (f : Timed α) (h : f.stage ≠ .finished) (hnone : f.output = none)
    (events : List (Happening α)) :
    (f.run events).2.output = (events.findSome? resolved).join := by
  induction events generalizing f with
  | nil => simpa [run] using hnone
  | cons event events ih =>
      cases event with
      | drop now =>
          have hfinished : (f.step (.drop now)).2 = { f with stage := .finished } := by
            cases hstage : f.stage with
            | finished => exact absurd hstage h
            | _ => simp [step, hstage]
          simp only [run, hfinished, resolved, List.findSome?_cons, Option.join_some]
          rw [output_finished rfl, hnone]
      | poll began turn ended =>
          obtain ⟨guard, hguard⟩ :
              ∃ guard, f.step (.poll began turn ended) = f.settle guard ended turn := by
            cases hstage : f.stage with
            | unstarted => exact ⟨Timeline.phase f.name began, by simp [step, hstage]⟩
            | awaiting guard => exact ⟨guard, by simp [step, hstage]⟩
            | finished => exact absurd hstage h
          simp only [run, hguard]
          cases turn with
          | pending =>
              simp only [settle, resolved, List.findSome?_cons]
              exact ih _ (by simp) hnone
          | ready output =>
              simp only [settle, resolved, List.findSome?_cons, Option.join_some]
              exact output_finished rfl events
          | panic =>
              simp only [settle, resolved, List.findSome?_cons, Option.join_some]
              rw [output_finished rfl, hnone]

end Timed

/-! ## Any number of futures on one timeline -/

/-- `log` are the calls of `record`, in the order in which they took the lock. -/
structure Tasks (ι α : Type) where
  futures : ι → Timed α
  log : List (ι × RecordCall) := []

namespace Tasks

variable {ι α : Type} [DecidableEq ι]

def step (x : Tasks ι α) (event : ι × Happening α) : Tasks ι α :=
  let (calls, future) := (x.futures event.1).step event.2
  { futures := Function.update x.futures event.1 future
    log := x.log ++ calls.map (event.1, ·) }

def run (x : Tasks ι α) (events : List (ι × Happening α)) : Tasks ι α :=
  events.foldl step x

/-- What happens to one future. -/
def eventsOf (i : ι) (events : List (ι × Happening α)) : List (Happening α) :=
  (events.filter fun event => event.1 = i).map Prod.snd

theorem eventsOf_snoc_self (events : List (ι × Happening α)) (i : ι) (event : Happening α) :
    eventsOf i (events ++ [(i, event)]) = eventsOf i events ++ [event] := by
  simp [eventsOf]

theorem eventsOf_snoc_of_ne (events : List (ι × Happening α)) {i j : ι} (h : j ≠ i)
    (event : Happening α) : eventsOf i (events ++ [(j, event)]) = eventsOf i events := by
  simp [eventsOf, h]

theorem filter_map_pair (i j : ι) (calls : List RecordCall) :
    (calls.map (j, ·)).filter (fun p : ι × RecordCall => p.1 = i) =
      if j = i then calls.map (j, ·) else [] := by
  induction calls with
  | nil => simp
  | cons call calls ih => by_cases h : j = i <;> simp_all

/-- The futures do not disturb each other. -/
theorem run_apart (futures : ι → Timed α) (events : List (ι × Happening α)) (i : ι) :
    (run ⟨futures, []⟩ events).futures i = ((futures i).run (eventsOf i events)).2 ∧
      (run ⟨futures, []⟩ events).log.filter (fun p => p.1 = i) =
        ((futures i).run (eventsOf i events)).1.map (i, ·) := by
  induction events using List.reverseRecOn with
  | nil => exact ⟨rfl, rfl⟩
  | append_singleton events event ih =>
      obtain ⟨j, event⟩ := event
      obtain ⟨hfuture, hlog⟩ := ih
      rw [run, List.foldl_concat, ← run]
      by_cases hji : j = i
      · subst j
        rw [eventsOf_snoc_self, Timed.run_snoc]
        simp only [step, Function.update_self, hfuture, List.filter_append, hlog,
          filter_map_pair, if_true, List.map_append, and_self]
      · rw [eventsOf_snoc_of_ne events hji]
        simp only [step, Function.update_of_ne (Ne.symm hji), hfuture, List.filter_append, hlog,
          filter_map_pair, hji, if_false, List.append_nil, and_self]

end Tasks

namespace Timeline

variable {ι : Type} (timeline : Timeline)

/-- The state once a log of calls has been recorded. -/
def recordAll (state : State) (log : List (ι × RecordCall)) : State :=
  log.foldl (fun state p => (timeline.record state p.2.name p.2.start p.2.end_ p.2.outcome).1) state

end Timeline

section Timelines

variable {ι α : Type} [DecidableEq ι] {timeline : Timeline}

theorem recordAll_describes {h : List (ι × Section ι)} {state : State}
    (hd : Describes timeline h state) (log : List (ι × RecordCall)) :
    Describes timeline (h ++ log.map fun p => (p.1, .record p.2))
      (timeline.recordAll state log) := by
  induction log using List.reverseRecOn with
  | nil => simpa [Timeline.recordAll] using hd
  | append_singleton log p ih =>
      rw [Timeline.recordAll, List.foldl_concat, List.map_append, List.map_singleton,
        ← List.append_assoc]
      exact ih.record p.1 p.2

/-- However any number of timed futures are polled, dropped and interleaved: each one polled
and ended is recorded once, from its first poll to its end, as its work went; one never polled
is not; and the timeline holds just these records after those it had. -/
theorem timed_recorded_once (futures : ι → Timed α)
    (hfresh : ∀ i, (futures i).stage = .unstarted ∧ (futures i).output = none)
    (events : List (ι × Happening α)) {h : List (ι × Section ι)} {state : State}
    (hd : Describes timeline h state) :
    (∀ i, (Tasks.run ⟨futures, []⟩ events).log.filter (fun p => p.1 = i) =
        ((futures i).life (Tasks.eventsOf i events)).toList.map (i, ·) ∧
      ((Tasks.run ⟨futures, []⟩ events).futures i).output =
        ((Tasks.eventsOf i events).findSome? Timed.resolved).join) ∧
      Describes timeline
        (h ++ (Tasks.run ⟨futures, []⟩ events).log.map fun p => (p.1, .record p.2))
        (timeline.recordAll state (Tasks.run ⟨futures, []⟩ events).log) := by
  refine ⟨?_, recordAll_describes hd _⟩
  intro i
  obtain ⟨hstage, houtput⟩ := hfresh i
  obtain ⟨hfuture, hlog⟩ := Tasks.run_apart futures events i
  refine ⟨?_, ?_⟩
  · rw [hlog, (futures i).run_life hstage]
  · rw [hfuture]
    exact (futures i).run_output (by rw [hstage]; decide) houtput _

end Timelines

/-- Two futures that are over, one with an error and one cancelled, and one that is never
polled. -/
def sampleFutures : Party → Timed (Except String Unit)
  | .first => Timeline.tryTime "connect"
  | .second => Timeline.time "load"
  | .third => Timeline.time "never"

def sampleHappenings : List (Party × Happening (Except String Unit)) :=
  [(.first, .poll 3 .pending 4), (.second, .poll 5 .pending 6),
    (.first, .poll 7 (.ready (.error "refused")) 8), (.third, .drop 9), (.second, .drop 10)]

theorem sampleHappenings_recorded :
    (Tasks.run ⟨sampleFutures, []⟩ sampleHappenings).log.filter (fun p => p.1 = .first) =
        [(.first, ⟨"connect", 3, 8, .failed⟩)] ∧
      (Tasks.run ⟨sampleFutures, []⟩ sampleHappenings).log.filter (fun p => p.1 = .third) = [] := by
  have hfresh : ∀ i, (sampleFutures i).stage = .unstarted ∧ (sampleFutures i).output = none := by
    intro i
    cases i <;> exact ⟨rfl, rfl⟩
  have hrecorded := (timed_recorded_once sampleFutures hfresh sampleHappenings
    (@Describes.initial Party _ ⟨0, .firstUse, 0, "exe"⟩)).1
  exact ⟨(hrecorded .first).1, (hrecorded .third).1⟩

end OtelBootstrap.Boot
