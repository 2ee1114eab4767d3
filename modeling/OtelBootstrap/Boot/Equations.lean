import OtelBootstrap.Boot.Timeline

/-! Computation rules for the timeline's operations. -/

namespace OtelBootstrap.Boot

namespace State

theorem takeRootToEnd_of_ended {state : State} (h : state.rootEnded = true) :
    state.takeRootToEnd = (none, state) := by
  simp [takeRootToEnd, h]

theorem takeRootToEnd_of_detached {state : State} (h : state.exporter = none) :
    state.takeRootToEnd = (none, state) := by
  simp [takeRootToEnd, h]

theorem takeRootToEnd_of_open {state : State} {exporter : Exporter}
    (hopen : state.rootEnded = false) (h : state.exporter = some exporter) :
    state.takeRootToEnd =
      (some (exporter, state.phases.length, state.dropped), { state with rootEnded := true }) := by
  simp [takeRootToEnd, hopen, h]

/-- Buffer a phase, or count it as dropped. -/
def keep (state : State) (recorded : Recorded) : State :=
  if state.phases.length < maxPhases then { state with phases := state.phases ++ [recorded] }
  else { state with dropped := state.dropped + 1 }

@[simp] theorem keep_exporter (state : State) (recorded : Recorded) :
    (state.keep recorded).exporter = state.exporter := by
  unfold keep
  split <;> rfl

@[simp] theorem keep_ready (state : State) (recorded : Recorded) :
    (state.keep recorded).ready = state.ready := by
  unfold keep
  split <;> rfl

@[simp] theorem keep_rootEnded (state : State) (recorded : Recorded) :
    (state.keep recorded).rootEnded = state.rootEnded := by
  unfold keep
  split <;> rfl

theorem keep_phases {α : Type*} {state : State} {l : List (α × Phase)} {exported : Bool}
    (h : state.phases = (l.take maxPhases).map fun p => ⟨p.2, exported⟩) (q : α × Phase) :
    (state.keep ⟨q.2, exported⟩).phases =
      ((l ++ [q]).take maxPhases).map fun p => ⟨p.2, exported⟩ := by
  have hlength : state.phases.length = min maxPhases l.length := by
    rw [h, List.length_map, List.length_take]
  by_cases hl : l.length < maxPhases
  · have hroom : state.phases.length < maxPhases := by omega
    have hcat : (l ++ [q]).take maxPhases = l.take maxPhases ++ [q] := by
      rw [List.take_of_length_le (Nat.le_of_lt hl), List.take_of_length_le]
      simpa using Nat.succ_le_of_lt hl
    rw [keep, if_pos hroom, hcat, h, List.map_append]
    rfl
  · have hfull : ¬ state.phases.length < maxPhases := by omega
    rw [List.take_append_of_le_length (Nat.le_of_not_lt hl)]
    rw [keep, if_neg hfull]
    exact h

theorem keep_dropped {α : Type*} {state : State} {l : List (α × Phase)}
    (hlength : state.phases.length = min maxPhases l.length)
    (h : state.dropped = UInt64.ofNat (l.length - maxPhases)) (q : α × Phase)
    (recorded : Recorded) :
    (state.keep recorded).dropped = UInt64.ofNat ((l ++ [q]).length - maxPhases) := by
  by_cases hl : l.length < maxPhases
  · have hroom : state.phases.length < maxPhases := by omega
    have hzero : (l ++ [q]).length - maxPhases = l.length - maxPhases := by
      simp only [List.length_append, List.length_singleton]
      omega
    rw [keep, if_pos hroom, hzero]
    exact h
  · have hfull : ¬ state.phases.length < maxPhases := by omega
    have hsucc : (l ++ [q]).length - maxPhases = l.length - maxPhases + 1 := by
      simp only [List.length_append, List.length_singleton]
      omega
    rw [keep, if_neg hfull, hsucc, UInt64.ofNat_add]
    simp [h]

/-- The state once an exporter is attached, before a root that is due has been ended. -/
def connected (state : State) (serviceName : String) (exporter : Exporter) : State :=
  { state with
    service := some (state.service.getD serviceName)
    exporter := some exporter
    phases := state.phases.map fun recorded => { recorded with exported := true } }

end State

namespace Timeline

variable (timeline : Timeline)

/-- The line a recorded phase is echoed as. -/
def phaseLine (state : State) (phase : Phase) : EchoLine :=
  .phase phase.name phase.outcome phase.took phase.at_ (timeline.serviceLabel state)

def readyEcho (state : State) (end_ : Instant) : EchoLine :=
  .ready (end_ - timeline.origin) timeline.originSource (timeline.serviceLabel state)

/-- A phase starts and ends at the origin's wall-clock time and what has passed since. -/
theorem phaseOf_times (name : String) (start end_ : Instant) (outcome : Outcome) :
    (timeline.phaseOf name start end_ outcome).start =
        timeline.originWall + (start - timeline.origin) ∧
      (timeline.phaseOf name start end_ outcome).end_ =
        timeline.originWall + (end_ - timeline.origin) :=
  ⟨rfl, rfl⟩

theorem record_of_detached {state : State} (h : state.exporter = none) (name : String)
    (start end_ : Instant) (outcome : Outcome) :
    timeline.record state name start end_ outcome =
      (state.keep ⟨timeline.phaseOf name start end_ outcome, false⟩,
        [.echo (timeline.phaseLine state (timeline.phaseOf name start end_ outcome))]) := by
  simp only [record, State.keep, h, phaseLine]
  split <;> rfl

theorem record_of_attached {state : State} {exporter : Exporter}
    (h : state.exporter = some exporter) (name : String) (start end_ : Instant)
    (outcome : Outcome) :
    timeline.record state name start end_ outcome =
      (state.keep ⟨timeline.phaseOf name start end_ outcome, true⟩,
        [.echo (timeline.phaseLine state (timeline.phaseOf name start end_ outcome)),
          .exportPhase exporter (timeline.phaseOf name start end_ outcome)]) := by
  simp only [record, State.keep, h, phaseLine]
  split <;> rfl

theorem ready_of_ready {state : State} (h : state.ready.isSome) (end_ : Instant) :
    timeline.ready state end_ = (state, []) := by
  simp [ready, h]

theorem ready_of_detached {state : State} (hready : state.ready = none)
    (h : state.exporter = none) (end_ : Instant) :
    timeline.ready state end_ =
      ({ state with ready := some (timeline.wall end_, end_ - timeline.origin) },
        [.echo (timeline.readyEcho state end_)]) := by
  simp [ready, hready, State.takeRootToEnd_of_detached, h, readyEcho, serviceLabel]

theorem ready_of_ended {state : State} (hready : state.ready = none)
    (h : state.rootEnded = true) (end_ : Instant) :
    timeline.ready state end_ =
      ({ state with ready := some (timeline.wall end_, end_ - timeline.origin) },
        [.echo (timeline.readyEcho state end_)]) := by
  simp [ready, hready, State.takeRootToEnd_of_ended, h, readyEcho, serviceLabel]

theorem ready_of_open {state : State} {exporter : Exporter} (hready : state.ready = none)
    (hopen : state.rootEnded = false) (h : state.exporter = some exporter) (end_ : Instant) :
    timeline.ready state end_ =
      ({ state with
          ready := some (timeline.wall end_, end_ - timeline.origin)
          rootEnded := true },
        [.echo (timeline.readyEcho state end_),
          .endRootSpan exporter (timeline.wall end_) "ready" state.phases.length state.dropped,
          .bootReady (millis (end_ - timeline.origin))]) := by
  simp [ready, hready, State.takeRootToEnd, hopen, h, readyEcho, serviceLabel]

theorem attach_of_attached {state : State} (h : state.exporter.isSome)
    (provider : SdkTracerProvider) (serviceName : String) (spanContext : SpanContext) :
    timeline.attach state provider serviceName spanContext = (state, none, []) := by
  simp [attach, h]

/-- Before anything is attached nothing is marked exported, so everything is pending. -/
theorem attach_of_unready {state : State} (h : state.exporter = none)
    (hphases : ∀ recorded ∈ state.phases, recorded.exported = false)
    (hready : state.ready = none)
    (provider : SdkTracerProvider) (serviceName : String) (spanContext : SpanContext) :
    timeline.attach state provider serviceName spanContext =
      (state.connected serviceName (timeline.connect provider spanContext),
        some state.phases.length,
        state.phases.map fun recorded =>
          .exportPhase (timeline.connect provider spanContext) recorded.phase) := by
  have hpending : state.phases.filter (!·.exported) = state.phases := by
    rw [List.filter_eq_self]
    intro recorded hr
    simp [hphases recorded hr]
  cases hs : state.service <;>
    simp [attach, h, hpending, hready, hs, State.connected, Function.comp_def]

theorem attach_of_readied {state : State} {wall : SystemTime} {at_ : Duration}
    (h : state.exporter = none) (hphases : ∀ recorded ∈ state.phases, recorded.exported = false)
    (hopen : state.rootEnded = false) (hready : state.ready = some (wall, at_))
    (provider : SdkTracerProvider) (serviceName : String) (spanContext : SpanContext) :
    timeline.attach state provider serviceName spanContext =
      ({ state.connected serviceName (timeline.connect provider spanContext) with
          rootEnded := true },
        some state.phases.length,
        (state.phases.map fun recorded =>
          .exportPhase (timeline.connect provider spanContext) recorded.phase) ++
        [.endRootSpan (timeline.connect provider spanContext) wall "ready" state.phases.length
            state.dropped,
          .bootReady (millis at_)]) := by
  have hpending : state.phases.filter (!·.exported) = state.phases := by
    rw [List.filter_eq_self]
    intro recorded hr
    simp [hphases recorded hr]
  cases hs : state.service <;>
    simp [attach, h, hpending, hready, hs, hopen, State.takeRootToEnd, State.connected,
      Function.comp_def]

theorem close_of_detached {state : State} (h : state.exporter = none) (now : Instant) :
    timeline.close state now = (state, []) := by
  simp [close, State.takeRootToEnd_of_detached h]

theorem close_of_ended {state : State} (h : state.rootEnded = true) (now : Instant) :
    timeline.close state now = (state, []) := by
  simp [close, State.takeRootToEnd_of_ended h]

theorem close_of_open {state : State} {exporter : Exporter}
    (hopen : state.rootEnded = false) (h : state.exporter = some exporter) (now : Instant) :
    timeline.close state now =
      ({ state with rootEnded := true },
        [.endRootSpan exporter (timeline.wall now) "incomplete" state.phases.length
          state.dropped]) := by
  simp [close, State.takeRootToEnd_of_open hopen h]

end Timeline

end OtelBootstrap.Boot
