import OtelBootstrap.Boot.Attachment
import OtelBootstrap.Library.Lockstep
import OtelBootstrap.Proc.Age

/-! # What the boot is counted from

The global timeline counts from the start of the process, or from its own first use where
that start cannot be read. -/

namespace OtelBootstrap.Boot

open Sections
open Proc (FloatLibrary checkedSub processAgeFrom)

/-! ## The global timeline -/

/-- What the process reads when the timeline is first used. `starting_at` reads both clocks
once more, and the wall clock again where the origin lies before its epoch. Instants and
wall-clock times are counted from the earliest that can be told. -/
structure Readings where
  stat : Option String
  uptime : Option String
  now : Instant
  nowAgain : Instant
  wall : SystemTime
  wallAgain : SystemTime
  serviceVariable : Option String
  exeStem : Option String
  deriving DecidableEq, Repr

namespace Readings

variable (r : Readings)

def processAge {F : Type} (floats : FloatLibrary F) : Option Duration := do
  processAgeFrom floats (← r.stat) (← r.uptime)

def defaultServiceName : String :=
  ((r.serviceVariable.filter (!·.isEmpty)).or r.exeStem).getD "unknown_service"

/-- The same readings where `/proc` is not there. -/
def withoutProc : Readings :=
  { r with stat := none }

end Readings

namespace Timeline

def startingAt (r : Readings) (origin : Instant) (originSource : Origin) : Timeline where
  origin
  originSource
  originWall := (checkedSub r.wall (r.nowAgain - origin)).getD r.wallAgain
  defaultServiceName := r.defaultServiceName

def global {F : Type} (floats : FloatLibrary F) (r : Readings) : Timeline :=
  match (r.processAge floats).bind (checkedSub r.now) with
  | none => startingAt r r.now .firstUse
  | some start => startingAt r start .processStart

end Timeline

/-! ## Two origins -/

/-- `early` counts from the start of the process, `late` from `age` after it. -/
structure Origins (age : Duration) (late early : Timeline) : Prop where
  origin : early.origin + age = late.origin
  originWall : early.originWall + age = late.originWall
  lateSource : late.originSource = .firstUse
  earlySource : early.originSource = .processStart
  defaultServiceName : early.defaultServiceName = late.defaultServiceName

theorem since_earlier {now again age : ℕ} (hnow : age ≤ now) (hagain : now ≤ again) :
    again - (now - age) = again - now + age := by
  omega

/-- The wall clock can be turned back to the start of the process. -/
theorem origins_global {F : Type} {floats : FloatLibrary F} {r : Readings} {age : Duration}
    (hage : r.processAge floats = some age) (hnow : age ≤ r.now) (hagain : r.now ≤ r.nowAgain)
    (hwall : r.nowAgain - r.now + age ≤ r.wall) :
    Origins age (Timeline.global floats r.withoutProc) (Timeline.global floats r) := by
  have hstart : (r.processAge floats).bind (checkedSub r.now) = some (r.now - age) := by
    simp [hage, checkedSub, hnow]
  have hearly : Timeline.global floats r = Timeline.startingAt r (r.now - age) .processStart := by
    rw [Timeline.global, hstart]
  have hlate : Timeline.global floats r.withoutProc = Timeline.startingAt r r.now .firstUse := rfl
  have hback : checkedSub r.wall (r.nowAgain - (r.now - age)) =
      some (r.wall - (r.nowAgain - r.now + age)) := by
    rw [since_earlier hnow hagain, checkedSub, if_pos hwall]
  have hfirst : checkedSub r.wall (r.nowAgain - r.now) = some (r.wall - (r.nowAgain - r.now)) :=
    if_pos (Nat.le_of_add_right_le hwall)
  rw [hearly, hlate]
  refine ⟨Nat.sub_add_cancel hnow, ?_, rfl, rfl, rfl⟩
  simp only [Timeline.startingAt, hback, hfirst, Option.getD_some]
  rw [Nat.sub_add_eq]
  exact Nat.sub_add_cancel (Nat.le_sub_of_add_le' hwall)

namespace Origins

variable {age : Duration} {late early : Timeline}

theorem at_ (h : Origins age late early) {t : Instant} (ht : late.origin ≤ t) :
    t - early.origin = t - late.origin + age := by
  rw [Nat.eq_sub_of_add_eq h.origin]
  exact since_earlier (Nat.le.intro ((Nat.add_comm ..).trans h.origin)) ht

/-- From the first use on, the two timelines agree on the wall-clock time. -/
theorem wall (h : Origins age late early) {t : Instant} (ht : late.origin ≤ t) :
    early.wall t = late.wall t := by
  rw [Timeline.wall, Timeline.wall, h.at_ ht, ← h.originWall]
  exact Nat.add_left_comm .. |>.trans (Nat.add_comm ..)

end Origins

/-! ## Spans and lines that differ in their origin -/

/-- The same phase, of a boot that began `age` earlier. -/
def Phase.later (phase : Phase) (age : Duration) : Phase :=
  { phase with at_ := phase.at_ + age }

/-- Two exporters over one provider and one root context. -/
def Exporter.Paired (late early : Timeline) (e e' : Exporter) : Prop :=
  ∃ provider spanContext,
    e = late.connect provider spanContext ∧ e' = early.connect provider spanContext

/-- What an operation does on the two timelines. -/
inductive Effect.Shifted (age : Duration) (late early : Timeline) : Effect → Effect → Prop where
  | phase (name : String) (outcome : Outcome) (took at_ : Duration) (service : String) :
      Shifted age late early (.echo (.phase name outcome took at_ service))
        (.echo (.phase name outcome took (at_ + age) service))
  | ready (at_ : Duration) (service : String) :
      Shifted age late early (.echo (.ready at_ late.originSource service))
        (.echo (.ready (at_ + age) early.originSource service))
  | exportPhase {e e' : Exporter} (phase : Phase) : Exporter.Paired late early e e' →
      Shifted age late early (.exportPhase e phase) (.exportPhase e' (phase.later age))
  | endRootSpan {e e' : Exporter} (end_ : SystemTime) (outcome : String) (count : ℕ)
      (dropped : UInt64) : Exporter.Paired late early e e' →
      Shifted age late early (.endRootSpan e end_ outcome count dropped)
        (.endRootSpan e' end_ outcome count dropped)
  | bootReady (at_ : Duration) :
      Shifted age late early (.bootReady (millis at_)) (.bootReady (millis (at_ + age)))

/-- What the two timelines have kept. -/
structure State.Shifted (age : Duration) (late early : Timeline) (s t : State) : Prop where
  service : t.service = s.service
  phases : t.phases = s.phases.map fun recorded =>
    { recorded with phase := recorded.phase.later age }
  dropped : t.dropped = s.dropped
  ready : t.ready = s.ready.map fun r => (r.1, r.2 + age)
  exporter : Option.Rel (Exporter.Paired late early) s.exporter t.exporter
  rootEnded : t.rootEnded = s.rootEnded

/-- No instant of the section lies before `first`. -/
def Section.After {ι : Type*} (first : Instant) : Section ι → Prop
  | .record call => first ≤ call.start ∧ first ≤ call.end_
  | .ready end_ => first ≤ end_
  | .close now => first ≤ now
  | .closeBoot _ now => first ≤ now
  | _ => True

/-! ## Every operation answers alike -/

section Operations

variable {age : Duration} {late early : Timeline} {s t : State}

theorem phaseOf_later (h : Origins age late early) (name : String) {start end_ : Instant}
    (hstart : late.origin ≤ start) (hend : late.origin ≤ end_) (outcome : Outcome) :
    early.phaseOf name start end_ outcome = (late.phaseOf name start end_ outcome).later age := by
  simp only [Timeline.phaseOf, Phase.later, h.wall hstart, h.wall hend, h.at_ hend]

theorem connect_paired (late early : Timeline) (provider : SdkTracerProvider)
    (spanContext : SpanContext) :
    Exporter.Paired late early (late.connect provider spanContext)
      (early.connect provider spanContext) :=
  ⟨provider, spanContext, rfl, rfl⟩

namespace State.Shifted

theorem label (hst : State.Shifted age late early s t) (h : Origins age late early) :
    early.serviceLabel t = late.serviceLabel s := by
  rw [Timeline.serviceLabel, Timeline.serviceLabel, hst.service, h.defaultServiceName]

theorem length_phases (hst : State.Shifted age late early s t) :
    t.phases.length = s.phases.length := by
  simp [hst.phases]

theorem keep (hst : State.Shifted age late early s t) (phase : Phase) (exported : Bool) :
    State.Shifted age late early (s.keep ⟨phase, exported⟩)
      (t.keep ⟨phase.later age, exported⟩) := by
  unfold State.keep
  rw [hst.length_phases]
  split
  · exact { hst with phases := by simp [hst.phases] }
  · exact { hst with dropped := by rw [hst.dropped] }

theorem takeRootToEnd (hst : State.Shifted age late early s t) :
    Option.Rel (fun r q => Exporter.Paired late early r.1 q.1 ∧ r.2 = q.2)
        s.takeRootToEnd.1 t.takeRootToEnd.1 ∧
      State.Shifted age late early s.takeRootToEnd.2 t.takeRootToEnd.2 := by
  by_cases hended : s.rootEnded = true
  · have hended' : t.rootEnded = true := hst.rootEnded.trans hended
    rw [State.takeRootToEnd_of_ended hended, State.takeRootToEnd_of_ended hended']
    exact ⟨.none, hst⟩
  · have hopen : s.rootEnded = false := Bool.eq_false_iff.mpr hended
    have hopen' : t.rootEnded = false := hst.rootEnded.trans hopen
    cases hs : s.exporter with
    | none =>
        have ht : t.exporter = none := eq_none_of_rel hst.exporter hs
        rw [State.takeRootToEnd_of_detached hs, State.takeRootToEnd_of_detached ht]
        exact ⟨.none, hst⟩
    | some e =>
        obtain ⟨e', ht, hpair⟩ := exists_of_rel hst.exporter hs
        rw [State.takeRootToEnd_of_open hopen hs, State.takeRootToEnd_of_open hopen' ht]
        refine ⟨.some ⟨hpair, ?_⟩, { hst with rootEnded := rfl }⟩
        rw [hst.length_phases, hst.dropped]

end State.Shifted

/-- The states and the effects of an operation, on the two timelines. -/
def Outcomes (age : Duration) (late early : Timeline) (r q : State × List Effect) : Prop :=
  State.Shifted age late early r.1 q.1 ∧
    List.Forall₂ (Effect.Shifted age late early) r.2 q.2

theorem record_shifted (h : Origins age late early) (hst : State.Shifted age late early s t)
    (name : String) {start end_ : Instant} (hstart : late.origin ≤ start)
    (hend : late.origin ≤ end_) (outcome : Outcome) :
    Outcomes age late early (late.record s name start end_ outcome)
      (early.record t name start end_ outcome) := by
  have hphase := phaseOf_later h name hstart hend outcome
  have hecho : Effect.Shifted age late early
      (.echo (late.phaseLine s (late.phaseOf name start end_ outcome)))
      (.echo (early.phaseLine t (early.phaseOf name start end_ outcome))) := by
    rw [hphase, Timeline.phaseLine, Timeline.phaseLine, hst.label h]
    exact .phase ..
  cases hs : s.exporter with
  | none =>
      have ht : t.exporter = none := eq_none_of_rel hst.exporter hs
      rw [late.record_of_detached hs, early.record_of_detached ht]
      refine ⟨?_, .cons hecho .nil⟩
      rw [hphase]
      exact hst.keep _ _
  | some e =>
      obtain ⟨e', ht, hpair⟩ := exists_of_rel hst.exporter hs
      rw [late.record_of_attached hs, early.record_of_attached ht]
      refine ⟨?_, .cons hecho (.cons ?_ .nil)⟩
      · rw [hphase]
        exact hst.keep _ _
      · rw [hphase]
        exact .exportPhase _ hpair

theorem close_shifted (h : Origins age late early) (hst : State.Shifted age late early s t)
    {now : Instant} (hnow : late.origin ≤ now) :
    Outcomes age late early (late.close s now) (early.close t now) := by
  obtain ⟨htaken, hst'⟩ := hst.takeRootToEnd
  rw [Timeline.close, Timeline.close, h.wall hnow]
  cases hs : s.takeRootToEnd.1 with
  | none =>
      have ht := eq_none_of_rel htaken hs
      simp only [hs, ht]
      exact ⟨hst', .nil⟩
  | some r =>
      obtain ⟨q, ht, hpair, hcount⟩ := exists_of_rel htaken hs
      simp only [hs, ht, ← hcount]
      exact ⟨hst', .cons (.endRootSpan _ _ _ _ hpair) .nil⟩

theorem ready_shifted (h : Origins age late early) (hst : State.Shifted age late early s t)
    {end_ : Instant} (hend : late.origin ≤ end_) :
    Outcomes age late early (late.ready s end_) (early.ready t end_) := by
  by_cases hready : s.ready.isSome = true
  · have hready' : t.ready.isSome = true := by simpa [hst.ready] using hready
    rw [late.ready_of_ready hready, early.ready_of_ready hready']
    exact ⟨hst, .nil⟩
  · have hready' : ¬ t.ready.isSome = true := by simpa [hst.ready] using hready
    have hmarked : State.Shifted age late early
        { s with ready := some (late.wall end_, end_ - late.origin) }
        { t with ready := some (early.wall end_, end_ - early.origin) } :=
      { hst with ready := by rw [h.wall hend, h.at_ hend]; rfl }
    obtain ⟨htaken, hst'⟩ := hmarked.takeRootToEnd
    have hecho : Effect.Shifted age late early
        (.echo (.ready (end_ - late.origin) late.originSource (late.serviceLabel
          ({ s with ready := some (late.wall end_, end_ - late.origin) } :
            State).takeRootToEnd.2)))
        (.echo (.ready (end_ - early.origin) early.originSource (early.serviceLabel
          ({ t with ready := some (early.wall end_, end_ - early.origin) } :
            State).takeRootToEnd.2))) := by
      rw [hst'.label h, h.at_ hend]
      exact .ready ..
    simp only [Timeline.ready, hready, hready', Bool.false_eq_true, if_false]
    cases hs : ({ s with ready := some (late.wall end_, end_ - late.origin) } :
        State).takeRootToEnd.1 with
    | none =>
        have ht := eq_none_of_rel htaken hs
        simp only [ht]
        exact ⟨hst', .cons hecho .nil⟩
    | some r =>
        obtain ⟨q, ht, hpair, hcount⟩ := exists_of_rel htaken hs
        simp only [ht, ← hcount]
        refine ⟨hst', .cons hecho (.cons ?_ (.cons ?_ .nil))⟩
        · rw [h.wall hend]
          exact .endRootSpan _ _ _ _ hpair
        · rw [h.at_ hend]
          exact .bootReady _

/-- The phases that an attach has yet to export. -/
def State.pending (state : State) : List Phase :=
  (state.phases.filter (!·.exported)).map (·.phase)

theorem attach_of_pending (timeline : Timeline) {state : State} (h : state.exporter = none)
    (hready : state.ready = none) (provider : SdkTracerProvider) (serviceName : String)
    (spanContext : SpanContext) :
    timeline.attach state provider serviceName spanContext =
      (state.connected serviceName (timeline.connect provider spanContext),
        some state.pending.length,
        state.pending.map (.exportPhase (timeline.connect provider spanContext))) := by
  cases hs : state.service <;>
    simp [Timeline.attach, h, hready, hs, State.connected, State.pending]

theorem attach_of_due (timeline : Timeline) {state : State} (h : state.exporter = none)
    {wall : SystemTime} {at_ : Duration} (hready : state.ready = some (wall, at_))
    (provider : SdkTracerProvider) (serviceName : String) (spanContext : SpanContext) :
    timeline.attach state provider serviceName spanContext =
      let taken :=
        (state.connected serviceName (timeline.connect provider spanContext)).takeRootToEnd
      (taken.2, some state.pending.length,
        state.pending.map (.exportPhase (timeline.connect provider spanContext)) ++
          match taken.1 with
          | none => []
          | some (exporter, count, dropped) =>
              [.endRootSpan exporter wall "ready" count dropped, .bootReady (millis at_)]) := by
  cases hroot : state.rootEnded <;> cases hs : state.service <;>
    simp [Timeline.attach, h, hready, hs, hroot, State.connected, State.pending,
      State.takeRootToEnd]

theorem connected_shifted (hst : State.Shifted age late early s t)
    (provider : SdkTracerProvider) (serviceName : String) (spanContext : SpanContext) :
    State.Shifted age late early (s.connected serviceName (late.connect provider spanContext))
      (t.connected serviceName (early.connect provider spanContext)) :=
  { hst with
    service := by simp only [State.connected, hst.service]
    phases := by simp [State.connected, hst.phases, Function.comp_def]
    exporter := .some (connect_paired late early provider spanContext) }

theorem pending_shifted (hst : State.Shifted age late early s t) :
    t.pending = s.pending.map (·.later age) := by
  rw [State.pending, hst.phases, List.filter_map, List.map_map, State.pending, List.map_map]
  rfl

theorem exports_shifted (provider : SdkTracerProvider) (spanContext : SpanContext)
    (phases : List Phase) :
    List.Forall₂ (Effect.Shifted age late early)
      (phases.map (.exportPhase (late.connect provider spanContext)))
      ((phases.map (·.later age)).map (.exportPhase (early.connect provider spanContext))) := by
  rw [List.map_map, List.forall₂_map_left_iff, List.forall₂_map_right_iff, List.forall₂_same]
  intro phase _
  exact .exportPhase phase (connect_paired late early provider spanContext)

theorem attach_shifted (hst : State.Shifted age late early s t)
    (provider : SdkTracerProvider) (serviceName : String) (spanContext : SpanContext) :
    (early.attach t provider serviceName spanContext).2.1 =
        (late.attach s provider serviceName spanContext).2.1 ∧
      Outcomes age late early
        ((late.attach s provider serviceName spanContext).1,
          (late.attach s provider serviceName spanContext).2.2)
        ((early.attach t provider serviceName spanContext).1,
          (early.attach t provider serviceName spanContext).2.2) := by
  cases hs : s.exporter with
  | some e =>
      obtain ⟨e', ht, -⟩ := exists_of_rel hst.exporter hs
      rw [late.attach_of_attached (by rw [hs]; rfl), early.attach_of_attached (by rw [ht]; rfl)]
      exact ⟨rfl, hst, .nil⟩
  | none =>
      have ht : t.exporter = none := eq_none_of_rel hst.exporter hs
      have hconnected := connected_shifted hst provider serviceName spanContext
      have hpending := pending_shifted hst
      have hlength : t.pending.length = s.pending.length := by simp [hpending]
      cases hready : s.ready with
      | none =>
          have hready' : t.ready = none := by rw [hst.ready, hready]; rfl
          rw [attach_of_pending late hs hready, attach_of_pending early ht hready', hlength,
            hpending]
          exact ⟨rfl, hconnected, exports_shifted provider spanContext s.pending⟩
      | some r =>
          have hready' : t.ready = some (r.1, r.2 + age) := by rw [hst.ready, hready]; rfl
          obtain ⟨htaken, hafter⟩ := hconnected.takeRootToEnd
          rw [attach_of_due late hs hready, attach_of_due early ht hready', hlength, hpending]
          refine ⟨rfl, hafter, List.rel_append (exports_shifted provider spanContext s.pending) ?_⟩
          cases hroot : (s.connected serviceName (late.connect provider
              spanContext)).takeRootToEnd.1 with
          | none =>
              rw [eq_none_of_rel htaken hroot]
              exact .nil
          | some due =>
              obtain ⟨due', hdue, hpair, hcount⟩ := exists_of_rel htaken hroot
              rw [hdue]
              simp only [← hcount]
              exact .cons (.endRootSpan _ _ _ _ hpair) (.cons (.bootReady _) .nil)

end Operations

/-! ## Every run looks alike -/

section Runs

variable {ι : Type*} {age : Duration} {late early : Timeline}

/-- The two timelines, and what they share with the handles. -/
structure Shared.Shifted (age : Duration) (late early : Timeline) (s t : Shared ι) : Prop where
  state : State.Shifted age late early s.state t.state
  attached : t.attached = s.attached
  handles : t.handles = s.handles

theorem shared_initial : Shared.Shifted age late early ({} : Shared ι) {} where
  state := ⟨rfl, rfl, rfl, rfl, .none, rfl⟩
  attached := rfl
  handles := rfl

/-- No instant of the call lies before `first`. -/
def Op.After (first : Instant) : Op ι → Prop
  | .endGuard _ start _ now => first ≤ start ∧ first ≤ now
  | .ready end_ => first ≤ end_
  | .close now => first ≤ now
  | .shutdown _ now => first ≤ now
  | .dropHandles _ now => first ≤ now
  | _ => True

theorem Op.After.program {first : Instant} {op : Op ι} (h : op.After first) :
    ∀ k ∈ op.program, k.After first := by
  intro k hk
  cases op with
  | endGuard name start ending now =>
      rw [Op.program, ending.calls_phase, List.map_singleton, List.mem_singleton] at hk
      subst hk
      exact h
  | init provider serviceName spanContext =>
      simp only [Op.program, List.mem_cons, List.not_mem_nil, or_false] at hk
      rcases hk with rfl | rfl
      · trivial
      · trivial
  | shutdown handles now =>
      simp only [Op.program, List.mem_cons, List.not_mem_nil, or_false] at hk
      rcases hk with rfl | rfl
      · exact h
      · trivial
  | dropHandles handles now =>
      simp only [Op.program, List.mem_cons, List.not_mem_nil, or_false] at hk
      rcases hk with rfl | rfl
      · exact h
      · trivial
  | _ =>
      obtain rfl := List.mem_singleton.mp hk
      exact h

theorem onTimeline_shifted {s t : Shared ι} (hst : Shared.Shifted age late early s t)
    {r q : State × List Effect} (h : Outcomes age late early r q) :
    Answers (Shared.Shifted age late early) (Effect.Shifted age late early) (s.onTimeline r)
      (t.onTimeline q) :=
  .some ⟨{ hst with state := h.1 }, h.2⟩

variable [DecidableEq ι]

theorem exec_shifted (h : Origins age late early) (i : ι) (k : Section ι) (s t : Shared ι)
    (hk : k.After late.origin) (hst : Shared.Shifted age late early s t) :
    Answers (Shared.Shifted age late early) (Effect.Shifted age late early)
      (exec late i k s) (exec early i k t) := by
  cases k with
  | record call => exact onTimeline_shifted hst (record_shifted h hst.state _ hk.1 hk.2 _)
  | setServiceName name =>
      exact onTimeline_shifted hst ⟨{ hst.state with service := rfl }, .nil⟩
  | ready end_ => exact onTimeline_shifted hst (ready_shifted h hst.state hk)
  | close now => exact onTimeline_shifted hst (close_shifted h hst.state hk)
  | attach provider serviceName spanContext =>
      obtain ⟨hresult, hstate, heffects⟩ :=
        attach_shifted hst.state provider serviceName spanContext
      refine .some ⟨⟨hstate, ?_, hst.handles⟩, heffects⟩
      rw [hst.attached, hresult]
  | handles provider =>
      simp only [exec, hst.attached]
      cases s.attached i with
      | none => exact .none
      | some result => exact .some ⟨⟨hst.state, rfl, by rw [hst.handles]⟩, .nil⟩
  | closeBoot handles now =>
      simp only [exec, hst.handles]
      cases s.handles handles with
      | none => exact .none
      | some made =>
          by_cases howner : made.bootOwner = true
          · simp only [howner, if_true]
            exact onTimeline_shifted hst (close_shifted h hst.state hk)
          · simp only [howner]
            exact .some ⟨hst, .nil⟩
  | shutdownProvider handles =>
      simp only [exec, hst.handles]
      cases s.handles handles with
      | none => exact .none
      | some made => exact .some ⟨hst, .nil⟩

theorem lockstep (h : Origins age late early) {ops : ι → Op ι}
    (hops : ∀ i, (ops i).After late.origin) :
    Machine.Lockstep (fun _ k => k.After late.origin) (Shared.Shifted age late early)
      (Effect.Shifted age late early) (machine late ops) (machine early ops) where
  program := rfl
  ahead i := (hops i).program
  exec := exec_shifted h

end Runs

/-! ## What an observer sees -/

/-- A span of the same phase, whose boot began `age` earlier. -/
structure PhaseSpanShifted (age : Duration) (span span' : Span) : Prop where
  attributes : ∃ front at_, span.attributes = front ++ [("boot.at_ms", .i64 (millisI64 at_))] ∧
    span'.attributes = front ++ [("boot.at_ms", .i64 (millisI64 (at_ + age)))]
  others : { span' with attributes := span.attributes } = span

/-- The root span of the same boot, begun `age` earlier. -/
structure RootSpanShifted (age : Duration) (span span' : Span) : Prop where
  start : span'.start + age = span.start
  attributes : ∃ rest, span.attributes = ("boot.origin", .string "first_use") :: rest ∧
    span'.attributes = ("boot.origin", .string "process_start") :: rest
  others : { span' with start := span.start, attributes := span.attributes } = span

/-- The event of the same phase, whose boot began `age` earlier. -/
def PhaseEventShifted (age : Duration) (event event' : PhaseEvent) : Prop :=
  ∃ at_, event.atMs = millis at_ ∧ event' = { event with atMs := millis (at_ + age) }

/-- The lines of the same boot for the same service, the second begun `age` earlier. -/
inductive LineShifted (age : Duration) : EchoLine → EchoLine → Prop where
  | phase (name outcome took at_ service) : LineShifted age
      (.phase name outcome took at_ service) (.phase name outcome took (at_ + age) service)
  | ready (at_ service) : LineShifted age
      (.ready at_ .firstUse service) (.ready (at_ + age) .processStart service)

def lineOf {ι : Type*} : ι × Effect → Option (ι × EchoLine)
  | (i, .echo line) => some (i, line)
  | _ => none

/-- The lines echoed, each with the operation that echoed it. -/
def lines {ι : Type*} (es : List (ι × Effect)) : List (ι × EchoLine) :=
  es.filterMap lineOf

/-- The events of the exported phases. -/
def phaseEvents {ι : Type*} (es : List (ι × Effect)) : List PhaseEvent :=
  (exports es).map fun x => (exportPhase x.2.1 x.2.2).2

def bootReadyOf {ι : Type*} : ι × Effect → Option ℕ
  | (_, .bootReady tookMs) => some tookMs
  | _ => none

/-- The events that say that the boot is ready. -/
def bootReadys {ι : Type*} (es : List (ι × Effect)) : List ℕ :=
  es.filterMap bootReadyOf

/-- What kind of thing is told: a line, a phase with its span and its event, the root span, or
that the boot is ready. -/
inductive EffectKind where
  | line
  | phase
  | root
  | bootReady
  deriving DecidableEq, Repr

def Effect.kind : Effect → EffectKind
  | .echo _ => .line
  | .exportPhase _ _ => .phase
  | .endRootSpan _ _ _ _ _ => .root
  | .bootReady _ => .bootReady

/-- The same boot, counted from the first use and from the start of the process. -/
structure SameBoot {ι : Type*} (age : Duration) (es es' : List (ι × Effect)) : Prop where
  /-- The same operations tell the same kinds of things, in the same order. -/
  order : es.map (fun x => (x.1, x.2.kind)) = es'.map fun x => (x.1, x.2.kind)
  phases : List.Forall₂ (PhaseSpanShifted age) (phaseSpans es) (phaseSpans es')
  roots : List.Forall₂ (RootSpanShifted age) (rootSpans es) (rootSpans es')
  phaseEvents : List.Forall₂ (PhaseEventShifted age) (phaseEvents es) (phaseEvents es')
  bootReadys : List.Forall₂
    (fun took took' => ∃ at_, took = millis at_ ∧ took' = millis (at_ + age))
    (bootReadys es) (bootReadys es')
  lines : List.Forall₂ (fun p q => p.1 = q.1 ∧ LineShifted age p.2 q.2) (lines es) (lines es')

section Observed

variable {ι : Type*} {age : Duration} {late early : Timeline}

theorem phaseSpan_shifted {e e' : Exporter} (h : Exporter.Paired late early e e')
    (phase : Phase) :
    PhaseSpanShifted age (exportPhase e phase).1 (exportPhase e' (phase.later age)).1 := by
  obtain ⟨provider, spanContext, rfl, rfl⟩ := h
  obtain ⟨name, outcome, start, end_, took, at_⟩ := phase
  cases outcome with
  | ok => exact ⟨⟨[_, _], at_, rfl, rfl⟩, rfl⟩
  | failed => exact ⟨⟨[_, _], at_, rfl, rfl⟩, rfl⟩

theorem phaseEvent_shifted (e e' : Exporter) (phase : Phase) :
    PhaseEventShifted age (exportPhase e phase).2 (exportPhase e' (phase.later age)).2 := by
  obtain ⟨name, outcome, start, end_, took, at_⟩ := phase
  cases outcome with
  | ok => exact ⟨at_, rfl, rfl⟩
  | failed => exact ⟨at_, rfl, rfl⟩

theorem rootSpan_shifted (ho : Origins age late early) {e e' : Exporter}
    (h : Exporter.Paired late early e e') (end_ : SystemTime) (outcome : String) (count : ℕ)
    (dropped : UInt64) :
    RootSpanShifted age (endRootSpan e end_ outcome count dropped)
      (endRootSpan e' end_ outcome count dropped) := by
  obtain ⟨provider, spanContext, rfl, rfl⟩ := h
  have hlate : late.originSource.asStr = "first_use" := by rw [ho.lateSource]; rfl
  have hearly : early.originSource.asStr = "process_start" := by rw [ho.earlySource]; rfl
  refine ⟨ho.originWall, ⟨[("boot.outcome", .string outcome),
    ("boot.phase_count", .i64 (i64OrMax count)),
    ("boot.phases_dropped", .i64 (i64OrMax dropped.toNat))], ?_, ?_⟩, rfl⟩
  · rw [← hlate]
    rfl
  · rw [← hearly]
    rfl

theorem Effect.Shifted.kind_eq {e e' : Effect} (h : Effect.Shifted age late early e e') :
    e.kind = e'.kind := by
  cases h <;> rfl

theorem sameBoot_of_shifted (ho : Origins age late early) {es es' : List (ι × Effect)}
    (h : List.Forall₂ (SameOp (Effect.Shifted age late early)) es es') : SameBoot age es es' := by
  induction h with
  | nil => exact ⟨rfl, .nil, .nil, .nil, .nil, .nil⟩
  | @cons p q es es' hpq _ ih =>
      obtain ⟨i, e⟩ := p
      obtain ⟨j, e'⟩ := q
      obtain ⟨rfl, hshift⟩ := hpq
      have horder : ((i, e) :: es).map (fun x => (x.1, x.2.kind)) =
          ((i, e') :: es').map fun x => (x.1, x.2.kind) := by
        rw [List.map_cons, List.map_cons, ih.order, hshift.kind_eq]
      cases hshift with
      | phase name outcome took at_ service =>
          exact { ih with
            order := horder
            lines := .cons ⟨rfl, .phase ..⟩ ih.lines }
      | ready at_ service =>
          rw [ho.lateSource, ho.earlySource]
          exact { ih with
            order := horder
            lines := .cons ⟨rfl, .ready ..⟩ ih.lines }
      | exportPhase phase hpair =>
          exact { ih with
            order := horder
            phases := .cons (phaseSpan_shifted hpair phase) ih.phases
            phaseEvents := .cons (phaseEvent_shifted _ _ phase) ih.phaseEvents }
      | endRootSpan end_ outcome count dropped hpair =>
          exact { ih with
            order := horder
            roots := .cons (rootSpan_shifted ho hpair end_ outcome count dropped) ih.roots }
      | bootReady at_ =>
          exact { ih with
            order := horder
            bootReadys := .cons ⟨at_, rfl, rfl⟩ ih.bootReadys }

variable [DecidableEq ι]

/-- Where the start of the process cannot be read, every schedule tells the same boot, with the
same wall-clock times: only what is counted from the origin is `age` too small. -/
theorem origin_only_shifts {F : Type} {floats : FloatLibrary F} {r : Readings} {age : Duration}
    (hage : r.processAge floats = some age) (hnow : age ≤ r.now) (hagain : r.now ≤ r.nowAgain)
    (hwall : r.nowAgain - r.now + age ≤ r.wall) {ops : ι → Op ι}
    (hops : ∀ i, (ops i).After r.now)
    (run : (machine (Timeline.global floats r.withoutProc) ops).Run {}) :
    ∃ run' : (machine (Timeline.global floats r) ops).Run {}, run'.schedule = run.schedule ∧
      history run'.final.trace = history run.final.trace ∧
      SameBoot age (emitted run.final.trace) (emitted run'.final.trace) := by
  have ho := origins_global hage hnow hagain hwall
  have hlockstep := lockstep ho hops
  obtain ⟨final, hran, halike⟩ :=
    exists_of_rel (hlockstep.run? (hlockstep.start shared_initial) run.schedule) run.ran
  exact ⟨⟨run.schedule, final, hran⟩, rfl, halike.history_eq.symm,
    sameBoot_of_shifted ho halike.emitted⟩

end Observed

/-- A process of five and a half seconds that exports one phase and its boot. -/
def sampleReadings : Readings where
  stat := some (Proc.statText "42" "my) cmd" Proc.sampleFields)
  uptime := some "15.50 30.00\n"
  now := 15500000000
  nowAgain := 15500000100
  wall := 1700000000000000000
  wallAgain := 1700000000000000200
  serviceVariable := none
  exeStem := some "exe"

def originOps : Party → Op Party
  | .first => .endGuard "load" 15500000200 .finish 15600000000
  | .second => .ready 15700000000
  | .third => .flush ⟨0⟩ "svc" ⟨1, 2⟩

def originRun :
    (machine (Timeline.global Proc.sampleFloats sampleReadings.withoutProc) originOps).Run {} :=
  .of [.enter .third, .enter .first, .emit 0, .emit 0, .enter .second, .emit 0, .emit 0, .emit 0]
    rfl

theorem originRun_shifts :
    ∃ run' : (machine (Timeline.global Proc.sampleFloats sampleReadings) originOps).Run {},
      run'.schedule = originRun.schedule ∧
        history run'.final.trace = history originRun.final.trace ∧
        SameBoot 5500000000 (emitted originRun.final.trace) (emitted run'.final.trace) := by
  have hage : sampleReadings.processAge Proc.sampleFloats = some 5500000000 := by
    decide +kernel
  refine origin_only_shifts hage (by decide) (by decide) (by decide) ?_ originRun
  intro i
  cases i with
  | first => exact ⟨by decide, by decide⟩
  | second => exact (by decide : (15500000000 : ℕ) ≤ 15700000000)
  | third => trivial

end OtelBootstrap.Boot
