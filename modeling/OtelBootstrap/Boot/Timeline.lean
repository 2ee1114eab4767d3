import Mathlib.Data.List.Basic
import OtelBootstrap.Boot.Line

/-! # The boot timeline

Each method is the body that runs under the lock, with the effects it leaves for after
the lock is released. -/

namespace OtelBootstrap.Boot

/-- Most phases one timeline keeps. -/
def maxPhases : ℕ := 256

/-- One completed boot phase. -/
structure Phase where
  name : String
  outcome : Outcome
  start : SystemTime
  end_ : SystemTime
  took : Duration
  at_ : Duration
  deriving DecidableEq, Repr

/-! ## Spans -/

inductive Value where
  | string (s : String)
  | i64 (n : ℕ)
  deriving DecidableEq, Repr

structure SpanContext where
  traceId : ℕ
  spanId : ℕ
  deriving DecidableEq, Repr

structure SdkTracerProvider where
  id : ℕ
  deriving DecidableEq, Repr

structure SdkTracer where
  provider : SdkTracerProvider
  scope : String
  deriving DecidableEq, Repr

def SdkTracerProvider.tracer (provider : SdkTracerProvider) (scope : String) : SdkTracer :=
  ⟨provider, scope⟩

/-- A span of kind `Internal`; `end_` is set once it has ended. -/
structure Span where
  tracer : SdkTracer
  parent : Option SpanContext
  name : String
  start : SystemTime
  attributes : List (String × Value)
  error : Option String
  end_ : Option SystemTime
  deriving DecidableEq, Repr

/-- `SdkTracer::build_with_context` for a span of kind `Internal`. -/
def SdkTracer.buildWithContext (tracer : SdkTracer) (name : String) (start : SystemTime)
    (attributes : List (String × Value)) (parent : Option SpanContext) : Span where
  tracer
  parent
  name
  start
  attributes
  error := none
  end_ := none

def Span.setAttribute (span : Span) (key : String) (value : Value) : Span :=
  { span with attributes := span.attributes ++ [(key, value)] }

def Span.endWithTimestamp (span : Span) (end_ : SystemTime) : Span :=
  { span with end_ := some end_ }

/-- A context holding the boot root span. -/
structure Context where
  span : Span
  spanContext : SpanContext
  deriving DecidableEq, Repr

structure Exporter where
  tracer : SdkTracer
  root : Context
  deriving DecidableEq, Repr

/-! ## Effects -/

/-- A line for stderr. -/
inductive EchoLine where
  | phase (name : String) (outcome : Outcome) (took at_ : Duration) (service : String)
  | ready (at_ : Duration) (origin : Origin) (service : String)
  deriving DecidableEq, Repr

def EchoLine.text : EchoLine → String
  | .phase name outcome took at_ service => line name outcome took at_ service
  | .ready at_ origin service => readyLine at_ origin service

/-- What an operation still does once it has released the lock. -/
inductive Effect where
  | echo (line : EchoLine)
  | exportPhase (exporter : Exporter) (phase : Phase)
  | endRootSpan (exporter : Exporter) (end_ : SystemTime) (outcome : String) (count : ℕ)
      (dropped : UInt64)
  | bootReady (tookMs : ℕ)
  deriving DecidableEq, Repr

/-- The `tracing` event that goes with an exported phase. -/
structure PhaseEvent where
  warn : Bool
  phase : String
  outcome : String
  tookMs : ℕ
  atMs : ℕ
  message : String
  deriving DecidableEq, Repr

/-- The span and the event that `export` sends for a phase. -/
def exportPhase (exporter : Exporter) (phase : Phase) : Span × PhaseEvent :=
  let span := exporter.tracer.buildWithContext phase.name phase.start
    [("boot.phase", .string phase.name), ("boot.outcome", .string phase.outcome.asStr),
      ("boot.at_ms", .i64 (millisI64 phase.at_))]
    (some exporter.root.spanContext)
  let span :=
    if phase.outcome = .failed then { span with error := some "boot phase did not complete" }
    else span
  let span := span.endWithTimestamp phase.end_
  let event : Bool → String → PhaseEvent := fun warn message =>
    { warn, phase := phase.name, outcome := phase.outcome.asStr, tookMs := millis phase.took,
      atMs := millis phase.at_, message }
  match phase.outcome with
  | .ok => (span, event false "boot phase complete")
  | .failed => (span, event true "boot phase failed")

/-- The root span as it is ended. -/
def endRootSpan (exporter : Exporter) (end_ : SystemTime) (outcome : String) (count : ℕ)
    (dropped : UInt64) : Span :=
  let root := exporter.root.span
  let root := root.setAttribute "boot.outcome" (.string outcome)
  let root := root.setAttribute "boot.phase_count" (.i64 (i64OrMax count))
  let root := root.setAttribute "boot.phases_dropped" (.i64 (i64OrMax dropped.toNat))
  root.endWithTimestamp end_

/-! ## State -/

structure Recorded where
  phase : Phase
  exported : Bool
  deriving DecidableEq, Repr

structure State where
  service : Option String := none
  phases : List Recorded := []
  dropped : UInt64 := 0
  ready : Option (SystemTime × Duration) := none
  exporter : Option Exporter := none
  rootEnded : Bool := false
  deriving DecidableEq, Repr

/-- What a timeline never changes. `defaultServiceName` is what the lines fall back to. -/
structure Timeline where
  origin : Instant
  originSource : Origin
  originWall : SystemTime
  defaultServiceName : String
  deriving DecidableEq, Repr

/-- The exporter and root-span attributes, exactly once, when there is a root span left
to end. -/
def State.takeRootToEnd (state : State) : Option (Exporter × ℕ × UInt64) × State :=
  if state.rootEnded then (none, state)
  else
    match state.exporter with
    | none => (none, state)
    | some exporter =>
        (some (exporter, state.phases.length, state.dropped), { state with rootEnded := true })

namespace Timeline

variable (timeline : Timeline)

def serviceLabel (state : State) : String :=
  state.service.getD timeline.defaultServiceName

def wall (at_ : Instant) : SystemTime :=
  timeline.originWall + (at_ - timeline.origin)

def setServiceName (state : State) (name : String) : State :=
  { state with service := some name }

/-- The phase that `record` keeps and exports. -/
def phaseOf (name : String) (start end_ : Instant) (outcome : Outcome) : Phase where
  name
  outcome
  start := timeline.wall start
  end_ := timeline.wall end_
  took := end_ - start
  at_ := end_ - timeline.origin

def record (state : State) (name : String) (start end_ : Instant) (outcome : Outcome) :
    State × List Effect :=
  let phase := timeline.phaseOf name start end_ outcome
  let exporter := state.exporter
  let state :=
    if state.phases.length < maxPhases then
      { state with phases := state.phases ++ [⟨phase, exporter.isSome⟩] }
    else { state with dropped := state.dropped + 1 }
  let service := timeline.serviceLabel state
  let echo := Effect.echo (.phase phase.name outcome phase.took phase.at_ service)
  match exporter with
  | none => (state, [echo])
  | some exporter => (state, [echo, .exportPhase exporter phase])

def ready (state : State) (end_ : Instant) : State × List Effect :=
  let at_ := end_ - timeline.origin
  let wall := timeline.wall end_
  if state.ready.isSome then (state, [])
  else
    let state := { state with ready := some (wall, at_) }
    let (endRoot, state) := state.takeRootToEnd
    let echo := Effect.echo (.ready at_ timeline.originSource (timeline.serviceLabel state))
    match endRoot with
    | none => (state, [echo])
    | some (exporter, count, dropped) =>
        (state, [echo, .endRootSpan exporter wall "ready" count dropped, .bootReady (millis at_)])

/-- The exporter that `attach` builds; the SDK mints `spanContext` for its root span. -/
def connect (provider : SdkTracerProvider) (spanContext : SpanContext) : Exporter :=
  let tracer := provider.tracer "otel-bootstrap.boot"
  let rootSpan := tracer.buildWithContext "boot" timeline.originWall
    [("boot.origin", .string timeline.originSource.asStr)] none
  { tracer, root := { span := rootSpan, spanContext } }

/-- The second component is what the call returns. -/
def attach (state : State) (provider : SdkTracerProvider) (serviceName : String)
    (spanContext : SpanContext) : State × Option ℕ × List Effect :=
  if state.exporter.isSome then (state, none, [])
  else
    let state : State :=
      if state.service.isNone then { state with service := some serviceName } else state
    let exporter := timeline.connect provider spanContext
    let pending := (state.phases.filter (!·.exported)).map (·.phase)
    let phases := state.phases.map fun recorded => { recorded with exported := true }
    let state := { state with exporter := some exporter, phases }
    let ready := state.ready
    let (endRoot, state) := if ready.isSome then state.takeRootToEnd else (none, state)
    let exports := pending.map (Effect.exportPhase exporter)
    match ready, endRoot with
    | some (wall, at_), some (exporter, count, dropped) =>
        (state, some pending.length,
          exports ++ [.endRootSpan exporter wall "ready" count dropped, .bootReady (millis at_)])
    | _, _ => (state, some pending.length, exports)

/-- `flush` returns the number of phases exported by this call. -/
def flush (state : State) (provider : SdkTracerProvider) (serviceName : String)
    (spanContext : SpanContext) : State × ℕ × List Effect :=
  let (state, exported, effects) := timeline.attach state provider serviceName spanContext
  (state, exported.getD 0, effects)

def close (state : State) (now : Instant) : State × List Effect :=
  let now := timeline.wall now
  let (endRoot, state) := state.takeRootToEnd
  match endRoot with
  | none => (state, [])
  | some (exporter, count, dropped) =>
      (state, [.endRootSpan exporter now "incomplete" count dropped])

end Timeline

end OtelBootstrap.Boot
