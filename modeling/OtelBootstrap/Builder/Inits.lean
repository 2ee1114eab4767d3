import Mathlib.Data.List.Nodup
import Mathlib.Data.List.Pairwise
import OtelBootstrap.Boot.System
import OtelBootstrap.Builder.Shutdown
import OtelBootstrap.Builder.Steps

/-! # Any number of initialisations

A process may call `init` again, after a failure or after a success, while its boot goes on.
Every global has one owner at most: what a later `init` does not get, it does not take. -/

namespace OtelBootstrap.Builder

open Attempt
open Boot (Instant)
open Sections

/-! ## What a process goes through -/

structure InitCall where
  libs : Libraries
  host : Host
  builder : TelemetryBuilder

/-- The calls on the global timeline that are not part of an `init`. -/
inductive BootCall where
  | record (call : Boot.RecordCall)
  | setServiceName (name : String)
  | ready (now : Instant)
  | flush (provider : Boot.SdkTracerProvider) (serviceName : String)
      (spanContext : Boot.SpanContext)
  | close (now : Instant)
  deriving DecidableEq, Repr

def BootCall.effects (timeline : Boot.Timeline) (state : Boot.State) :
    BootCall → Boot.State × List Boot.Effect
  | .record call => timeline.record state call.name call.start call.end_ call.outcome
  | .setServiceName name => (Boot.Timeline.setServiceName state name, [])
  | .ready now => timeline.ready state now
  | .flush provider serviceName spanContext =>
      let r := timeline.flush state provider serviceName spanContext
      (r.1, r.2.2)
  | .close now => timeline.close state now

inductive Happening where
  | init (call : InitCall)
  | boot (call : BootCall)

/-- The process, and the handles that were returned, in their order. -/
structure Lived where
  process : Process
  handles : List TelemetryHandles := []

def Lived.step (lived : Lived) : Happening → Lived
  | .init call =>
      match call.builder.init call.libs call.host lived.process with
      | (.ok handles, process) => ⟨process, lived.handles ++ [handles]⟩
      | (.error _, process) => { lived with process }
  | .boot call =>
      let process := lived.process
      let (boot, effects) := call.effects process.timeline process.boot
      { lived with process := { process with boot, bootEffects := process.bootEffects ++ effects } }

def Lived.run (lived : Lived) (happenings : List Happening) : Lived :=
  happenings.foldl step lived

/-! ## Before the subscriber -/

/-- The instruments between two processes are bound to meter providers made between them. -/
def Instrumented (p q : Process) : Prop :=
  ∃ made, q.instruments = p.instruments ++ made ∧
    ∀ instrument ∈ made, ∃ id, instrument.provider = some id ∧ p.nextId ≤ id ∧ id < q.nextId

theorem Instrumented.trans {p q r : Process} (hpq : Instrumented p q) (hqr : Instrumented q r)
    (hp : p.nextId ≤ q.nextId) (hq : q.nextId ≤ r.nextId) : Instrumented p r := by
  obtain ⟨first, hfirst, hfirstOf⟩ := hpq
  obtain ⟨second, hsecond, hsecondOf⟩ := hqr
  refine ⟨first ++ second, ?_, ?_⟩
  · rw [hsecond, hfirst, List.append_assoc]
  · intro instrument hmem
    rcases List.mem_append.mp hmem with h | h
    · obtain ⟨id, hid, hfrom, hto⟩ := hfirstOf instrument h
      exact ⟨id, hid, hfrom, Nat.lt_of_lt_of_le hto hq⟩
    · obtain ⟨id, hid, hfrom, hto⟩ := hsecondOf instrument h
      exact ⟨id, hid, Nat.le_trans hp hfrom, hto⟩

/-- Nothing that an `init` claims for good has changed. -/
structure Quiet (p q : Process) : Prop where
  timeline : q.timeline = p.timeline
  boot : q.boot = p.boot
  logger : q.logger = p.logger
  subscriber : q.subscriber = p.subscriber
  stderr : q.stderr = p.stderr
  nextId : p.nextId ≤ q.nextId
  instruments : Instrumented p q

namespace Quiet

theorem refl (p : Process) : Quiet p p :=
  ⟨rfl, rfl, rfl, rfl, rfl, le_rfl, [], (List.append_nil _).symm, by simp⟩

theorem trans (p q r : Process) (hpq : Quiet p q) (hqr : Quiet q r) : Quiet p r := by
  exact ⟨hqr.timeline.trans hpq.timeline, hqr.boot.trans hpq.boot, hqr.logger.trans hpq.logger,
    hqr.subscriber.trans hpq.subscriber, hqr.stderr.trans hpq.stderr,
    Nat.le_trans hpq.nextId hqr.nextId,
    hpq.instruments.trans hqr.instruments hpq.nextId hqr.nextId⟩

end Quiet

variable (libs : Libraries) (host : Host) (builder : TelemetryBuilder) (wiring : Wiring)

theorem adopt_quiet (built : Except String OtlpExporter) : Moves Quiet (adopt built) := by
  intro p
  cases built with
  | error e => exact Quiet.refl p
  | ok exporter => exact ⟨rfl, rfl, rfl, rfl, rfl, le_rfl, [], (List.append_nil _).symm, by simp⟩

theorem installTracer_quiet (exporter : OtlpExporter) :
    Moves Quiet (installTracer builder wiring exporter) :=
  fun _ => ⟨rfl, rfl, rfl, rfl, rfl, Nat.le_succ _, [], (List.append_nil _).symm, by simp⟩

/-- The instruments of the runtime metrics go to the meter provider that is global. -/
theorem installRuntimeMetrics_instruments (p : Process) (inRuntime : Bool) :
    ∃ made, (p.installRuntimeMetrics inRuntime).instruments = p.instruments ++ made ∧
      ∀ instrument ∈ made, instrument.provider = p.meterProvider.map (·.id) := by
  cases inRuntime with
  | false =>
      refine ⟨_, rfl, ?_⟩
      simp [Process.instrument]
  | true =>
      simp only [Process.installRuntimeMetrics, Process.installTokioGauges,
        Process.spawnSchedulerProbe, if_true, List.append_assoc]
      refine ⟨_, rfl, ?_⟩
      simp [Process.instrument]

theorem installRuntimeMetrics_kept (p : Process) (inRuntime : Bool) :
    (p.installRuntimeMetrics inRuntime).timeline = p.timeline ∧
      (p.installRuntimeMetrics inRuntime).boot = p.boot ∧
      (p.installRuntimeMetrics inRuntime).logger = p.logger ∧
      (p.installRuntimeMetrics inRuntime).subscriber = p.subscriber ∧
      (p.installRuntimeMetrics inRuntime).stderr = p.stderr ∧
      (p.installRuntimeMetrics inRuntime).nextId = p.nextId := by
  cases inRuntime <;> exact ⟨rfl, rfl, rfl, rfl, rfl, rfl⟩

theorem installMeter_quiet (exporter : OtlpExporter) :
    Moves Quiet (installMeter host builder wiring exporter) := by
  intro p
  cases hruntime : builder.runtimeMetrics with
  | false =>
      simp only [installMeter, Attempt.run, hruntime, Bool.false_eq_true, if_false]
      exact ⟨rfl, rfl, rfl, rfl, rfl, Nat.le_succ _, [], (List.append_nil _).symm, by simp⟩
  | true =>
      simp only [installMeter, Attempt.run, hruntime, if_true]
      generalize hq : p.mint.2.setMeterProvider _ = q
      obtain ⟨htimeline, hboot, hlogger, hsubscriber, hstderr, hnext⟩ :=
        installRuntimeMetrics_kept q host.inRuntime
      obtain ⟨made, hmade, hprovider⟩ := installRuntimeMetrics_instruments q host.inRuntime
      subst hq
      refine ⟨htimeline, hboot, hlogger, hsubscriber, hstderr, ?_, made, hmade, ?_⟩
      · rw [hnext]
        exact Nat.le_succ _
      · intro instrument hmem
        rw [hnext]
        exact ⟨p.nextId, hprovider instrument hmem, le_rfl, Nat.lt_succ_self _⟩

/-- The provider made between two processes. -/
def Minted (p q : Process) (id : ℕ) : Prop :=
  p.nextId ≤ id ∧ id < q.nextId

theorem installMeter_minted {exporter : OtlpExporter} {p q : Process} {provider : MeterProvider}
    (h : installMeter host builder wiring exporter p = (.ok provider, q)) :
    Minted p q provider.id := by
  obtain ⟨hprovider, rfl⟩ := Prod.mk.inj h
  obtain rfl := Except.ok.inj hprovider
  refine ⟨le_rfl, ?_⟩
  cases hruntime : builder.runtimeMetrics with
  | false =>
      simp only [Bool.false_eq_true, if_false]
      exact Nat.lt_succ_self _
  | true =>
      simp only [if_true]
      rw [(installRuntimeMetrics_kept _ host.inRuntime).2.2.2.2.2]
      exact Nat.lt_succ_self _

theorem meterStep_quiet : Moves Quiet (meterStep libs host builder wiring) := by
  cases h : builder.metrics with
  | false =>
      simp only [meterStep, h, Bool.false_eq_true, if_false]
      exact moves_pure Quiet.refl none
  | true =>
      simp only [meterStep, h, if_true]
      refine moves_bind Quiet.trans (adopt_quiet _) fun exporter => ?_
      refine moves_bind Quiet.trans (installMeter_quiet host builder wiring exporter) ?_
      exact fun provider => moves_pure Quiet.refl (some provider)

theorem meterStep_minted {p q : Process} {provider : MeterProvider}
    (h : meterStep libs host builder wiring p = (.ok (some provider), q)) :
    Minted p q provider.id := by
  cases hmetrics : builder.metrics with
  | false =>
      simp only [meterStep, hmetrics, Bool.false_eq_true, if_false] at h
      cases congrArg Prod.fst h
  | true =>
      simp only [meterStep, hmetrics, if_true] at h
      obtain ⟨exporter, r, hadopt, h⟩ := ok_of_bind h
      obtain ⟨made, t, hinstall, h⟩ := ok_of_bind h
      obtain ⟨hsome, rfl⟩ := Prod.mk.inj h
      obtain rfl := Option.some.inj (Except.ok.inj hsome)
      have hquiet := (adopt_quiet _).of_eq hadopt
      obtain ⟨hfrom, hto⟩ := installMeter_minted host builder wiring hinstall
      exact ⟨Nat.le_trans hquiet.nextId hfrom, hto⟩

theorem buildLogger_quiet (exporter : OtlpExporter) :
    Moves Quiet (buildLogger wiring exporter) :=
  fun _ => ⟨rfl, rfl, rfl, rfl, rfl, Nat.le_succ _, [], (List.append_nil _).symm, by simp⟩

theorem loggerStep_quiet : Moves Quiet (loggerStep libs builder wiring) := by
  cases h : builder.logs with
  | false =>
      simp only [loggerStep, h, Bool.false_eq_true, if_false]
      exact moves_pure Quiet.refl none
  | true =>
      simp only [loggerStep, h, if_true]
      refine moves_bind Quiet.trans (adopt_quiet _) fun exporter => ?_
      refine moves_bind Quiet.trans (buildLogger_quiet wiring exporter) ?_
      exact fun provider => moves_pure Quiet.refl (some provider)

theorem loggerStep_minted {p q : Process} {provider : LoggerProvider}
    (h : loggerStep libs builder wiring p = (.ok (some provider), q)) :
    Minted p q provider.id := by
  cases hlogs : builder.logs with
  | false =>
      simp only [loggerStep, hlogs, Bool.false_eq_true, if_false] at h
      cases congrArg Prod.fst h
  | true =>
      simp only [loggerStep, hlogs, if_true] at h
      obtain ⟨exporter, r, hadopt, h⟩ := ok_of_bind h
      obtain ⟨made, t, hbuild, h⟩ := ok_of_bind h
      obtain ⟨hsome, rfl⟩ := Prod.mk.inj h
      obtain rfl := Option.some.inj (Except.ok.inj hsome)
      have hquiet := (adopt_quiet _).of_eq hadopt
      obtain ⟨hprovider, rfl⟩ := Prod.mk.inj hbuild
      obtain rfl := Except.ok.inj hprovider
      exact ⟨hquiet.nextId, Nat.lt_succ_self _⟩

theorem profilingStep_quiet : Moves Quiet (profilingStep libs host builder wiring) := by
  cases h : builder.pyroscopeEndpoint with
  | none =>
      simp only [profilingStep, h]
      exact moves_pure Quiet.refl none
  | some endpoint =>
      simp only [profilingStep, h]
      exact fun p => ⟨rfl, rfl, rfl, rfl, rfl, le_rfl, [], (List.append_nil _).symm, by simp⟩

/-! ## What an `init` claims -/

/-- The subscriber sends to what these handles hold. -/
def Subscriber.Serves (subscriber : Subscriber) (handles : TelemetryHandles) : Prop :=
  subscriber.tracer.provider = handles.tracerProvider.toSdkTracerProvider ∧
    subscriber.logBridge.map (·.provider) = handles.loggerProvider

/-- The global subscriber is installed for these handles if there is none. A line says that it
is not, also where only the logger of the `log` crate was there before. -/
structure Subscribes (p : Process) (handles : TelemetryHandles) (q : Process) : Prop where
  first : p.subscriber = none →
    (∃ subscriber, q.subscriber = some subscriber ∧ subscriber.Serves handles) ∧
      q.logger = true ∧ ∃ lines, q.stderr = p.stderr ++ lines ∧
        lines.length = if p.logger then 1 else 0
  later : p.subscriber ≠ none →
    q.subscriber = p.subscriber ∧ q.logger = p.logger ∧ ∃ line, q.stderr = p.stderr ++ [line]

/-- What a successful `init` has claimed, and what it has left to whoever came first. -/
structure Claims (p : Process) (handles : TelemetryHandles) (q : Process) : Prop
    extends Subscribes p handles q where
  ids : (handles.held.map Held.id).Pairwise (· < ·)
  minted : ∀ id ∈ handles.held.map Held.id, Minted p q id
  bootOwner : handles.bootOwner = p.boot.exporter.isNone
  kept : ∀ exporter, p.boot.exporter = some exporter → q.boot.exporter = some exporter
  exporter : p.boot.exporter = none → ∃ exporter, q.boot.exporter = some exporter ∧
    exporter.tracer.provider = handles.tracerProvider.toSdkTracerProvider
  instruments : Instrumented p q

theorem takeRootToEnd_exporter (state : Boot.State) :
    state.takeRootToEnd.2.exporter = state.exporter := by
  cases hended : state.rootEnded with
  | true => rw [Boot.State.takeRootToEnd_of_ended hended]
  | false =>
      cases hexporter : state.exporter with
      | none => rw [Boot.State.takeRootToEnd_of_detached hexporter, hexporter]
      | some exporter => rw [Boot.State.takeRootToEnd_of_open hended hexporter, hexporter]

/-- The first `attach` sets the exporter and no other does. -/
theorem attach_exporter (timeline : Boot.Timeline) (state : Boot.State)
    (provider : Boot.SdkTracerProvider) (serviceName : String) (spanContext : Boot.SpanContext) :
    (timeline.attach state provider serviceName spanContext).1.exporter =
        state.exporter.or (some (timeline.connect provider spanContext)) ∧
      (timeline.attach state provider serviceName spanContext).2.1.isSome =
        state.exporter.isNone := by
  cases hexporter : state.exporter with
  | some exporter => simp [Boot.Timeline.attach, hexporter]
  | none =>
      cases hready : state.ready with
      | none =>
          cases hservice : state.service <;>
            simp [Boot.Timeline.attach, hexporter, hready, hservice]
      | some ready =>
          cases hservice : state.service <;> cases hended : state.rootEnded <;>
            simp [Boot.Timeline.attach, hexporter, hready, hservice, hended,
              Boot.State.takeRootToEnd]

/-- Only a `flush` can attach, and only where nothing is attached. -/
theorem BootCall.exporter_kept (timeline : Boot.Timeline) (call : BootCall) {state : Boot.State}
    {exporter : Boot.Exporter} (h : state.exporter = some exporter) :
    (call.effects timeline state).1.exporter = some exporter := by
  cases call with
  | record call => simp [effects, timeline.record_of_attached h, h]
  | setServiceName name => exact h
  | ready now =>
      rw [effects]
      cases hready : state.ready with
      | some ready => rw [timeline.ready_of_ready (by rw [hready]; rfl), h]
      | none =>
          cases hended : state.rootEnded with
          | true => rw [timeline.ready_of_ended hready hended, h]
          | false => rw [timeline.ready_of_open hready hended h, h]
  | flush provider serviceName spanContext =>
      have hattached := (attach_exporter timeline state provider serviceName spanContext).1
      rw [h, Option.some_or] at hattached
      exact hattached
  | close now =>
      rw [effects, (close_eq timeline state now (ι := Unit)).1, takeRootToEnd_exporter, h]

theorem installSubscriber_spec (handles : TelemetryHandles) {p q : Process}
    (h : installSubscriber libs builder wiring handles.tracerProvider handles.loggerProvider p =
      (.ok (), q)) :
    Subscribes p handles q ∧ q.boot = p.boot ∧ q.nextId = p.nextId ∧
      q.instruments = p.instruments := by
  have hq : q = _ := (congrArg Prod.snd h).symm
  have hserved : ∀ logger : Option LoggerProvider, (logger.map fun provider =>
      LogBridgeLayer.mk provider builder.propagatedSpanFields).map (·.provider) = logger := by
    intro logger
    cases logger <;> rfl
  simp only [installSubscriber, Attempt.run, Process.tryInit] at hq
  cases hs : p.subscriber with
  | some subscriber =>
      simp only [hs] at hq
      subst hq
      refine ⟨⟨fun hnone => ?_, fun _ => ⟨rfl, rfl, _, rfl⟩⟩, rfl, rfl, rfl⟩
      cases hs.symm.trans hnone
  | none =>
      cases hp : p.logger with
      | true =>
          simp only [hs, hp, if_true] at hq
          subst hq
          refine ⟨⟨fun _ => ?_, fun hsome => absurd hs hsome⟩, rfl, rfl, rfl⟩
          exact ⟨⟨_, rfl, rfl, hserved _⟩, rfl, [_], rfl, by rw [hp]; rfl⟩
      | false =>
          simp only [hs, hp, Bool.false_eq_true, if_false] at hq
          subst hq
          refine ⟨⟨fun _ => ?_, fun hsome => absurd hs hsome⟩, rfl, rfl, rfl⟩
          exact ⟨⟨_, rfl, rfl, hserved _⟩, rfl, [], (List.append_nil _).symm, by rw [hp]; rfl⟩

/-- A failed `init` has claimed nothing. -/
theorem init_quiet_of_error {p q : Process} {e : String}
    (h : builder.init libs host p = (.error e, q)) : Quiet p q := by
  rw [TelemetryBuilder.init] at h
  rcases error_of_bind h with hlift | ⟨wiring, r, hlift, h⟩
  · obtain rfl : p = q := congrArg Prod.snd hlift
    exact Quiet.refl p
  obtain rfl : p = r := congrArg Prod.snd hlift
  rcases error_of_bind h with hadopt | ⟨exporter, r, hadopt, h⟩
  · exact (adopt_quiet _).of_eq hadopt
  rcases error_of_bind h with htracer | ⟨tracer, s, htracer, h⟩
  · cases congrArg Prod.fst htracer
  have hp := Quiet.trans p r s ((adopt_quiet _).of_eq hadopt)
    ((installTracer_quiet builder wiring exporter).of_eq htracer)
  rcases error_of_bind h with hmeter | ⟨meter, t, hmeter, h⟩
  · exact hp.trans _ _ _ ((meterStep_quiet libs host builder wiring).of_eq hmeter)
  have hs := hp.trans _ _ _ ((meterStep_quiet libs host builder wiring).of_eq hmeter)
  rcases error_of_bind h with hlogger | ⟨logger, u, hlogger, h⟩
  · exact hs.trans _ _ _ ((loggerStep_quiet libs builder wiring).of_eq hlogger)
  have ht := hs.trans _ _ _ ((loggerStep_quiet libs builder wiring).of_eq hlogger)
  rcases error_of_bind h with hprofiling | ⟨profiling, v, hprofiling, h⟩
  · exact ht.trans _ _ _ ((profilingStep_quiet libs host builder wiring).of_eq hprofiling)
  rcases error_of_bind h with hsubscriber | ⟨-, w, hsubscriber, h⟩
  · cases congrArg Prod.fst hsubscriber
  rcases error_of_bind h with hboot | ⟨owner, x, hboot, h⟩
  · cases congrArg Prod.fst hboot
  · cases congrArg Prod.fst h

theorem installTracer_minted {exporter : OtlpExporter} {p q : Process} {tracer : TracerProvider}
    (h : installTracer builder wiring exporter p = (.ok tracer, q)) : Minted p q tracer.id := by
  obtain ⟨htracer, rfl⟩ := Prod.mk.inj h
  obtain rfl := Except.ok.inj htracer
  exact ⟨le_rfl, Nat.lt_succ_self _⟩

/-- The providers of handles are made in the order in which they are held. -/
theorem held_increasing (handles : TelemetryHandles) {p q r s : Process}
    (htracer : Minted p q handles.tracerProvider.id)
    (hmeter : ∀ provider, handles.meterProvider = some provider → Minted q r provider.id)
    (hlogger : ∀ provider, handles.loggerProvider = some provider → Minted r s provider.id)
    (hqr : q.nextId ≤ r.nextId) (hrs : r.nextId ≤ s.nextId) :
    (handles.held.map Held.id).Pairwise (· < ·) ∧
      ∀ id ∈ handles.held.map Held.id, Minted p s id := by
  unfold Minted at *
  cases hm : handles.meterProvider with
  | none =>
      cases hl : handles.loggerProvider with
      | none =>
          simp [TelemetryHandles.held, hm, hl]
          omega
      | some logger =>
          have hlogger := hlogger logger hl
          simp [TelemetryHandles.held, hm, hl]
          omega
  | some meter =>
      have hmeter := hmeter meter hm
      cases hl : handles.loggerProvider with
      | none =>
          simp [TelemetryHandles.held, hm, hl]
          omega
      | some logger =>
          have hlogger := hlogger logger hl
          simp [TelemetryHandles.held, hm, hl]
          omega

theorem init_claims {p q : Process} {handles : TelemetryHandles}
    (h : builder.init libs host p = (.ok handles, q)) : Claims p handles q := by
  rw [TelemetryBuilder.init] at h
  obtain ⟨wiring, r, hlift, h⟩ := ok_of_bind h
  obtain rfl : p = r := congrArg Prod.snd hlift
  obtain ⟨exporter, r, hadopt, h⟩ := ok_of_bind h
  obtain ⟨tracer, s, htracer, h⟩ := ok_of_bind h
  obtain ⟨meter, t, hmeter, h⟩ := ok_of_bind h
  obtain ⟨logger, u, hlogger, h⟩ := ok_of_bind h
  obtain ⟨profiling, v, hprofiling, h⟩ := ok_of_bind h
  obtain ⟨_, w, hsubscriber, h⟩ := ok_of_bind h
  obtain ⟨owner, x, hboot, h⟩ := ok_of_bind h
  obtain ⟨hhandles, rfl⟩ := Prod.mk.inj h
  obtain rfl := Except.ok.inj hhandles
  have hpr := (adopt_quiet _).of_eq hadopt
  have hrs := (installTracer_quiet builder wiring exporter).of_eq htracer
  have hst := (meterStep_quiet libs host builder wiring).of_eq hmeter
  have htu := (loggerStep_quiet libs builder wiring).of_eq hlogger
  have huv := (profilingStep_quiet libs host builder wiring).of_eq hprofiling
  have hpv := (((hpr.trans _ _ _ hrs).trans _ _ _ hst).trans _ _ _ htu).trans _ _ _ huv
  obtain ⟨hsubscribes, hwboot, hwnext, hwinstruments⟩ := installSubscriber_spec libs builder
    wiring ⟨tracer, meter, logger, builder.shutdownTimeout, owner, profiling⟩ hsubscriber
  obtain ⟨howner, rfl⟩ := Prod.mk.inj hboot
  obtain ⟨hexporter, hattached⟩ := attach_exporter w.timeline w.boot
    tracer.toSdkTracerProvider wiring.serviceName host.rootContext
  have hfirst : w.boot.exporter = p.boot.exporter := by rw [hwboot, hpv.boot]
  obtain ⟨hids, hminted⟩ := held_increasing
    ⟨tracer, meter, logger, builder.shutdownTimeout, owner, profiling⟩
    (installTracer_minted builder wiring htracer)
    (fun provider hm => meterStep_minted libs host builder wiring (hm ▸ hmeter))
    (fun provider hl => loggerStep_minted libs builder wiring (hl ▸ hlogger))
    hst.nextId htu.nextId
  have hids' : ∀ id, Minted r u id → Minted p w id := by
    intro id hid
    have hpr := hpr.nextId
    have huv := huv.nextId
    unfold Minted at *
    omega
  refine { first := ?_, later := ?_, ids := hids, minted := ?_, bootOwner := ?_, kept := ?_,
           exporter := ?_, instruments := ?_ }
  · intro hnone
    have hfirst := hsubscribes.first (hpv.subscriber.trans hnone)
    rw [hpv.logger, hpv.stderr] at hfirst
    exact hfirst
  · intro hsome
    have hlater := hsubscribes.later
    rw [hpv.logger, hpv.subscriber, hpv.stderr] at hlater
    exact hlater hsome
  · exact fun id hid => hids' id (hminted id hid)
  · rw [← hfirst, ← hattached]
    exact (Except.ok.inj howner).symm
  · intro exporter hsome
    refine hexporter.trans ?_
    rw [hfirst, hsome, Option.some_or]
  · intro hnone
    refine ⟨_, hexporter.trans (by rw [hfirst, hnone, Option.none_or]), rfl⟩
  · obtain ⟨made, hmade, hbound⟩ := hpv.instruments
    refine ⟨made, hwinstruments.trans hmade, ?_⟩
    intro instrument hmem
    obtain ⟨id, hid, hfrom, hto⟩ := hbound instrument hmem
    exact ⟨id, hid, hfrom, hwnext ▸ hto⟩

/-! ## A whole life -/

/-- Whose subscriber is the global one: the first handles', if there was none before. -/
def winner (p : Process) (handles : List TelemetryHandles) : Option TelemetryHandles :=
  if p.subscriber = none then handles.head? else none

/-- Whose subscriber was installed without a word: the winner's, if the `log` crate had no
logger before. -/
def unannounced (p : Process) (handles : List TelemetryHandles) : Option TelemetryHandles :=
  if p.logger then none else winner p handles

/-- What every process that began as `p` has kept to. -/
structure Ledger (p : Process) (lived : Lived) : Prop where
  ids : (lived.handles.flatMap fun handles => handles.held.map Held.id).Pairwise (· < ·)
  minted : ∀ handles ∈ lived.handles, ∀ id ∈ handles.held.map Held.id, Minted p lived.process id
  nextId : p.nextId ≤ lived.process.nextId
  attached : ∀ exporter, p.boot.exporter = some exporter →
    lived.process.boot.exporter = some exporter
  detached : lived.process.boot.exporter = none → ∀ handles ∈ lived.handles,
    handles.bootOwner = false
  owner : ∀ handles ∈ lived.handles, handles.bootOwner = true →
    ∃ exporter, lived.process.boot.exporter = some exporter ∧
      exporter.tracer.provider = handles.tracerProvider.toSdkTracerProvider
  owners : lived.handles.countP (·.bootOwner) ≤ 1
  open_ : lived.process.subscriber = none ↔ p.subscriber = none ∧ lived.handles = []
  logger : lived.process.logger = (p.logger || (winner p lived.handles).isSome)
  subscriber : ∀ handles, winner p lived.handles = some handles →
    ∃ subscriber, lived.process.subscriber = some subscriber ∧ subscriber.Serves handles
  foreign : winner p lived.handles = none → lived.process.subscriber = p.subscriber
  stderr : ∃ lines, lived.process.stderr = p.stderr ++ lines ∧
    lines.length + (unannounced p lived.handles).toList.length = lived.handles.length
  instruments : Instrumented p lived.process

namespace Ledger

variable {p : Process} {lived : Lived}

theorem initial (p : Process) : Ledger p ⟨p, []⟩ where
  ids := List.Pairwise.nil
  minted handles h := by cases h
  nextId := le_rfl
  attached _ h := h
  detached _ handles h := by cases h
  owner handles h := by cases h
  owners := Nat.zero_le _
  open_ := by simp
  logger := by simp [winner]
  subscriber handles h := by simp [winner] at h
  foreign _ := rfl
  stderr := ⟨[], (List.append_nil _).symm, by simp [unannounced, winner]⟩
  instruments := ⟨[], (List.append_nil _).symm, by simp⟩

/-- A step that returns no handles and claims nothing. -/
theorem quiet (hl : Ledger p lived) {q : Process} (hq : Quiet lived.process q) :
    Ledger p { lived with process := q } where
  ids := hl.ids
  minted handles hh id hid :=
    ⟨(hl.minted handles hh id hid).1, Nat.lt_of_lt_of_le (hl.minted handles hh id hid).2 hq.nextId⟩
  nextId := Nat.le_trans hl.nextId hq.nextId
  attached exporter h := by rw [hq.boot]; exact hl.attached exporter h
  detached h := hl.detached (hq.boot ▸ h)
  owner handles hh howner := by rw [hq.boot]; exact hl.owner handles hh howner
  owners := hl.owners
  open_ := by rw [hq.subscriber]; exact hl.open_
  logger := hq.logger.trans hl.logger
  subscriber handles h := by rw [hq.subscriber]; exact hl.subscriber handles h
  foreign h := hq.subscriber.trans (hl.foreign h)
  stderr := by rw [hq.stderr]; exact hl.stderr
  instruments := hl.instruments.trans hq.instruments hl.nextId hq.nextId

theorem boot (hl : Ledger p lived) (call : BootCall) : Ledger p (lived.step (.boot call)) := by
  have hkept : ∀ exporter, lived.process.boot.exporter = some exporter →
      (call.effects lived.process.timeline lived.process.boot).1.exporter = some exporter :=
    fun exporter h => call.exporter_kept _ h
  refine ⟨hl.ids, hl.minted, hl.nextId, ?_, ?_, ?_, hl.owners, hl.open_, hl.logger,
    hl.subscriber, hl.foreign, hl.stderr, hl.instruments⟩
  · exact fun exporter h => hkept exporter (hl.attached exporter h)
  · intro hnone
    refine hl.detached ?_
    cases hbefore : lived.process.boot.exporter with
    | none => rfl
    | some exporter => cases (hkept exporter hbefore).symm.trans hnone
  · intro handles hh howner
    obtain ⟨exporter, hexporter, hprovider⟩ := hl.owner handles hh howner
    exact ⟨exporter, hkept exporter hexporter, hprovider⟩

theorem winner_append (p : Process) (hs : List TelemetryHandles) (handles : TelemetryHandles) :
    winner p (hs ++ [handles]) =
      if p.subscriber = none ∧ hs = [] then some handles else winner p hs := by
  by_cases hopen : p.subscriber = none
  · cases hs <;> simp [winner, hopen]
  · simp [winner, hopen]

/-- Nobody has won before the first handles. -/
theorem winner_of_open {hs : List TelemetryHandles} (h : p.subscriber = none ∧ hs = []) :
    winner p hs = none := by
  rw [h.2, winner, if_pos h.1]
  rfl

theorem claims (hl : Ledger p lived) {handles : TelemetryHandles} {q : Process}
    (hc : Claims lived.process handles q) : Ledger p ⟨q, lived.handles ++ [handles]⟩ := by
  have hnext : lived.process.nextId ≤ q.nextId := by
    obtain ⟨hfrom, hto⟩ := hc.minted handles.tracerProvider.id (by simp [TelemetryHandles.held])
    omega
  have hwinner := winner_append p lived.handles handles
  refine ⟨?_, ?_, Nat.le_trans hl.nextId hnext, ?_, ?_, ?_, ?_, ?_, ?_, ?_, ?_, ?_,
    hl.instruments.trans hc.instruments hl.nextId hnext⟩
  · rw [List.flatMap_append, List.pairwise_append]
    refine ⟨hl.ids, by simpa using hc.ids, ?_⟩
    intro id hid id' hid'
    obtain ⟨earlier, hearlier, hid⟩ := List.mem_flatMap.mp hid
    have hbefore := (hl.minted earlier hearlier id hid).2
    have hafter := (hc.minted id' (by simpa using hid')).1
    exact Nat.lt_of_lt_of_le hbefore hafter
  · intro other hother id hid
    rcases List.mem_append.mp hother with hold | hnew
    · obtain ⟨hfrom, hto⟩ := hl.minted other hold id hid
      exact ⟨hfrom, Nat.lt_of_lt_of_le hto hnext⟩
    · obtain rfl := List.mem_singleton.mp hnew
      obtain ⟨hfrom, hto⟩ := hc.minted id hid
      exact ⟨Nat.le_trans hl.nextId hfrom, hto⟩
  · exact fun exporter h => hc.kept exporter (hl.attached exporter h)
  · intro hnone
    cases hbefore : lived.process.boot.exporter with
    | none =>
        obtain ⟨exporter, hexporter, -⟩ := hc.exporter hbefore
        cases hexporter.symm.trans hnone
    | some exporter => cases (hc.kept exporter hbefore).symm.trans hnone
  · intro other hother howner
    rcases List.mem_append.mp hother with hold | hnew
    · obtain ⟨exporter, hexporter, hprovider⟩ := hl.owner other hold howner
      exact ⟨exporter, hc.kept exporter hexporter, hprovider⟩
    · obtain rfl := List.mem_singleton.mp hnew
      refine hc.exporter ?_
      rwa [hc.bootOwner, Option.isNone_iff_eq_none] at howner
  · rw [List.countP_append]
    cases hbefore : lived.process.boot.exporter with
    | none =>
        have hzero : lived.handles.countP (·.bootOwner) = 0 := by
          rw [List.countP_eq_zero]
          intro other hother
          simp [hl.detached hbefore other hother]
        rw [hzero, Nat.zero_add]
        exact List.countP_le_length
    | some exporter =>
        have hnew : [handles].countP (·.bootOwner) = 0 := by
          simp [hc.bootOwner, hbefore]
        rw [hnew, Nat.add_zero]
        exact hl.owners
  · by_cases hopen : p.subscriber = none ∧ lived.handles = []
    · obtain ⟨⟨subscriber, hsubscriber, -⟩, -⟩ := hc.first (hl.open_.mpr hopen)
      simp [hsubscriber]
    · have hlater := (hc.later (mt hl.open_.mp hopen)).1
      rw [hlater]
      simpa using mt hl.open_.mp hopen
  · rw [hwinner]
    by_cases hopen : p.subscriber = none ∧ lived.handles = []
    · rw [if_pos hopen, (hc.first (hl.open_.mpr hopen)).2.1, Option.isSome_some, Bool.or_true]
    · rw [if_neg hopen]
      exact (hc.later (mt hl.open_.mp hopen)).2.1.trans hl.logger
  · intro other hother
    rw [hwinner] at hother
    by_cases hopen : p.subscriber = none ∧ lived.handles = []
    · rw [if_pos hopen] at hother
      obtain rfl := Option.some.inj hother
      exact (hc.first (hl.open_.mpr hopen)).1
    · rw [if_neg hopen] at hother
      obtain ⟨subscriber, hsubscriber, hserves⟩ := hl.subscriber other hother
      have hlater := (hc.later (mt hl.open_.mp hopen)).1
      exact ⟨subscriber, hlater.trans hsubscriber, hserves⟩
  · intro hnone
    rw [hwinner] at hnone
    by_cases hopen : p.subscriber = none ∧ lived.handles = []
    · rw [if_pos hopen] at hnone
      cases hnone
    · rw [if_neg hopen] at hnone
      exact (hc.later (mt hl.open_.mp hopen)).1.trans (hl.foreign hnone)
  · obtain ⟨lines, hlines, hlength⟩ := hl.stderr
    rw [unannounced, hwinner, List.length_append, List.length_singleton]
    by_cases hopen : p.subscriber = none ∧ lived.handles = []
    · obtain ⟨-, -, more, hmore, hcount⟩ := hc.first (hl.open_.mpr hopen)
      have hlogger : lived.process.logger = p.logger := by
        rw [hl.logger, winner_of_open hopen, Option.isSome_none, Bool.or_false]
      refine ⟨lines ++ more, by rw [hmore, hlines, List.append_assoc], ?_⟩
      rw [if_pos hopen, List.length_append, hcount, hlogger]
      rw [unannounced, winner_of_open hopen, ite_self] at hlength
      cases p.logger <;> simpa using hlength
    · rw [if_neg hopen]
      obtain ⟨line, hline⟩ := (hc.later (mt hl.open_.mp hopen)).2.2
      refine ⟨lines ++ [line], by rw [hline, hlines, List.append_assoc], ?_⟩
      rw [unannounced] at hlength
      rw [List.length_append, List.length_singleton]
      omega

theorem step (hl : Ledger p lived) (happening : Happening) :
    Ledger p (lived.step happening) := by
  cases happening with
  | boot call => exact hl.boot call
  | init call =>
      rw [Lived.step]
      cases hinit : call.builder.init call.libs call.host lived.process with
      | mk result q =>
          cases result with
          | ok handles => exact hl.claims (init_claims call.libs call.host call.builder hinit)
          | error e => exact hl.quiet (init_quiet_of_error call.libs call.host call.builder hinit)

theorem run (hl : Ledger p lived) (happenings : List Happening) :
    Ledger p (lived.run happenings) := by
  induction happenings generalizing lived with
  | nil => exact hl
  | cons happening happenings ih => exact ih (hl.step happening)

end Ledger

/-- However many times a process initialises telemetry, with whatever failures and boot calls
in between: no two providers share an identity, the boot has one owner at most, and it is
exported through that owner's tracer; the first handles' subscriber stays, where none was
there before, and every other `init` says on stderr that its own is not installed, as that
first one does where the `log` crate had a logger; and every runtime instrument is bound to a
meter provider. -/
theorem inits_keep_ledger (p : Process) (happenings : List Happening) :
    Ledger p (Lived.run ⟨p, []⟩ happenings) :=
  (Ledger.initial p).run happenings

/-! ## Shutting everything down -/

/-- Two handles of one life share no provider. -/
theorem Ledger.held_disjoint {p : Process} {lived : Lived} (hl : Ledger p lived)
    {first second : TelemetryHandles} (hfirst : first ∈ lived.handles)
    (hsecond : second ∈ lived.handles) {provider : Held} (hone : provider ∈ first.held)
    (htwo : provider ∈ second.held) : first = second := by
  have hnodup : (lived.handles.flatMap fun handles => handles.held.map Held.id).Nodup :=
    hl.ids.imp fun h => Nat.ne_of_lt h
  have hapart := (List.nodup_flatMap.mp hnodup).2
  by_contra hne
  have hsymm : Std.Symm (Function.onFun List.Disjoint fun handles : TelemetryHandles =>
      handles.held.map Held.id) := ⟨fun _ _ h id hsecond hfirst => h hfirst hsecond⟩
  have hdisjoint := hapart.forall hfirst hsecond hne
  exact hdisjoint (List.mem_map_of_mem hone) (List.mem_map_of_mem htwo)

section Apart

variable {ι : Type} [DecidableEq ι] {libs : ShutdownLibrary} {timeline : Boot.Timeline}
  {calls : ι → ShutdownCall} {boot : Boot.State}

theorem held_nodup (handles : TelemetryHandles) : handles.held.Nodup := by
  cases hm : handles.meterProvider <;> cases hl : handles.loggerProvider <;>
    simp [TelemetryHandles.held, hm, hl]

omit [DecidableEq ι] in
theorem asked_program (i : ι) (call : ShutdownCall) :
    asked ((call.program call.worker).map fun k => ((i, call.worker), k)) = call.handles.held := by
  have hproviders : ∀ thread : Thread, (call.providers.map fun k => ((i, thread), k)).filterMap
      askOf = call.handles.held := by
    intro thread
    rw [ShutdownCall.providers, List.map_map, List.filterMap_map]
    exact List.filterMap_some
  cases call with
  | shutdown handles now =>
      exact hproviders .caller
  | drop handles now inTime =>
      have hbackground := hproviders .background
      simp only [asked, ShutdownCall.program, ShutdownCall.worker, List.map_cons, List.map_append,
        List.filterMap_append, List.filterMap_cons, askOf, hbackground]
      exact List.append_nil _

/-- A provider that one call holds is asked to shut down once at most. -/
theorem asked_once (r : (shutdownMachine libs timeline calls).Run { boot })
    (hc : r.final.Complete) (provider : Held)
    (hone : ∀ i j, provider ∈ (calls i).handles.held → provider ∈ (calls j).handles.held → i = j) :
    (asked (Sections.history r.final.trace)).count provider ≤ 1 := by
  by_cases hasked : provider ∈ asked (Sections.history r.final.trace)
  · obtain ⟨i, ⟨first, hbegan⟩, hp⟩ := (mem_asked_of_complete r hc).mp hasked
    have hmine : ∀ x ∈ Sections.history r.final.trace, askOf x = some provider →
        x.1 = (i, (calls i).worker) := by
      rintro ⟨⟨j, thread⟩, k⟩ hmem hk
      cases k with
      | shutdownProvider other =>
          obtain rfl := Option.some.inj hk
          obtain ⟨rfl, hheld⟩ := shutdownProvider_mem_program.mp (mem_program_of_mem r hmem)
          rw [hone i j hp hheld]
      | closeBoot owner now => cases hk
      | spawn => cases hk
      | enter => cases hk
      | send => cases hk
      | recvTimeout timeout inTime => cases hk
    have hfilter : (asked (Sections.history r.final.trace)).count provider =
        (asked ((Sections.history r.final.trace).filter
          (fun x => x.1 = (i, (calls i).worker)))).count provider := by
      rw [asked, asked, List.count_filterMap, List.count_filterMap, List.countP_filter]
      refine List.countP_congr fun x hx => ?_
      simpa using hmine x hx
    rw [hfilter, Machine.history_of_complete _ r.ran hc hbegan]
    have hprogram := congrArg (List.count provider) (asked_program i (calls i))
    exact Nat.le_trans (Nat.le_of_eq hprogram)
      (List.nodup_iff_count_le_one.mp (held_nodup _) provider)
  · rw [List.count_eq_zero_of_not_mem hasked]
    exact Nat.zero_le 1

/-- Where each of a life's handles is shut down by one call, no provider answers that it is
down already: all that is warned about is a flush that failed, once. -/
theorem inits_shut_down_apart (p : Process) (happenings : List Happening)
    (hcalls : ∀ i, (calls i).handles ∈ (Lived.run ⟨p, []⟩ happenings).handles)
    (hone : ∀ i j, (calls i).handles = (calls j).handles → i = j)
    (r : (shutdownMachine libs timeline calls).Run { boot }) (hc : r.final.Complete)
    (provider : Held) (hwarned : provider ∈ warned (emitted r.final.trace)) :
    libs.flushes provider = false ∧ (warned (emitted r.final.trace)).count provider = 1 := by
  have hledger := (Ledger.initial p).run happenings
  have hasked := asked_once r hc provider fun i j hi hj =>
    hone i j (hledger.held_disjoint (hcalls i) (hcalls j) hi hj)
  have hcount := warned_count r hc provider
  have hpositive : 0 < (warned (emitted r.final.trace)).count provider :=
    List.count_pos_iff.mpr hwarned
  have hflushed : provider ∈ flushed (emitted r.final.trace) := by
    rw [mem_flushed r hc, ← List.count_pos_iff]
    omega
  have hfails : libs.flushes provider = false := by
    by_contra hok
    rw [Bool.not_eq_false] at hok
    rw [if_pos ⟨hflushed, hok⟩] at hcount
    omega
  exact ⟨hfails, by omega⟩

end Apart

/-- Two services of one process, one after the other. -/
def again : List Happening :=
  [.init ⟨acceptingLibraries, podHost, Telemetry.builder "first"⟩,
    .init ⟨acceptingLibraries, podHost, Telemetry.builder "second"⟩]

def againHandles : List TelemetryHandles :=
  (Lived.run ⟨freshProcess, []⟩ again).handles

theorem againHandles_length : againHandles.length = 2 := by
  decide +kernel

def againCalls (i : Fin 2) : ShutdownCall :=
  .shutdown (againHandles.get (i.cast againHandles_length.symm)) 10

/-- No span reaches the collector. -/
def unreachableLibrary : ShutdownLibrary :=
  ⟨fun provider => if provider.kind = .tracer then .error "deadline exceeded" else .ok (),
    "Shutdown already invoked"⟩

def againRun : (shutdownMachine unreachableLibrary podTimeline againCalls).Run { boot := {} } :=
  .of [.enter (0, .caller), .enter (1, .caller), .enter (1, .caller), .enter (0, .caller),
    .emit 0, .emit 0, .emit 0, .emit 0, .enter (0, .caller), .enter (1, .caller), .emit 0,
    .emit 0] (by decide +kernel)

theorem again_warned_once :
    unreachableLibrary.flushes ⟨.tracer, 2⟩ = false ∧
      (warned (emitted againRun.final.trace)).count ⟨.tracer, 2⟩ = 1 := by
  have hdone : againRun.final.Complete :=
    ⟨by decide +kernel, fun i _ _ => match i with
      | (0, .caller) => by decide +kernel
      | (0, .background) => by decide +kernel
      | (1, .caller) => by decide +kernel
      | (1, .background) => by decide +kernel⟩
  have hcalls : ∀ i, (againCalls i).handles ∈ (Lived.run ⟨freshProcess, []⟩ again).handles :=
    fun i => List.get_mem againHandles (i.cast againHandles_length.symm)
  exact inits_shut_down_apart freshProcess again hcalls (by decide +kernel) againRun hdone
    ⟨.tracer, 2⟩ (by decide +kernel)

end OtelBootstrap.Builder
