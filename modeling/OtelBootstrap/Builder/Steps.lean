import OtelBootstrap.Builder.Init

/-! # What each step of `init` does

Where a step fails is said in terms of the settings; what it changes, whether it fails or
not, is one relation between processes. -/

namespace OtelBootstrap.Builder

open Attempt

variable (libs : Libraries) (host : Host) (builder : TelemetryBuilder)

/-! ## Settings -/

/-- The settings are resolved as `wiring` says. -/
structure Resolves (wiring : Wiring) : Prop where
  protocol : wiring.protocol = builder.resolvedProtocol host.env
  endpoint : wiring.endpoint = builder.resolvedEndpoint host.env
  timeout : wiring.timeout = builder.resolvedTimeout host.env
  serviceName : wiring.serviceName = builder.resolvedServiceName host.env
  mtls : builder.resolvedTransport libs host.env = .ok wiring.mtls

/-- A setting is rejected. -/
def SettingsRejected : Prop :=
  Rejected (builder.resolvedFilter libs host.env) ∨ builder.metricExportInterval = some 0 ∨
    Rejected (builder.resolvedSampler libs host.env) ∨
    Rejected (builder.resolvedTransport libs host.env)

theorem rejected_checkInterval :
    Rejected builder.checkInterval ↔ builder.metricExportInterval = some 0 := by
  cases h : builder.metricExportInterval with
  | none => simp [TelemetryBuilder.checkInterval, h, Rejected]
  | some interval =>
      by_cases hzero : interval = 0
      · simp [TelemetryBuilder.checkInterval, h, hzero, Rejected]
      · simp [TelemetryBuilder.checkInterval, h, hzero, Rejected]

/-- Resolving fails exactly on a rejected setting. -/
theorem resolveWiring_cases :
    (Rejected (resolveWiring libs host builder) ∧ SettingsRejected libs host builder) ∨
      ∃ wiring, resolveWiring libs host builder = .ok wiring ∧
        ¬SettingsRejected libs host builder ∧ Resolves libs host builder wiring := by
  unfold SettingsRejected
  rw [← rejected_checkInterval]
  cases hfilter : builder.resolvedFilter libs host.env with
  | error e =>
      exact Or.inl ⟨⟨e, by simp only [resolveWiring, hfilter]; rfl⟩, Or.inl ⟨e, rfl⟩⟩
  | ok logFilter =>
      cases hinterval : builder.checkInterval with
      | error e =>
          exact Or.inl ⟨⟨e, by simp only [resolveWiring, hfilter, hinterval]; rfl⟩,
            Or.inr (Or.inl ⟨e, rfl⟩)⟩
      | ok _ =>
          cases hsampler : builder.resolvedSampler libs host.env with
          | error e =>
              exact Or.inl ⟨⟨e, by simp only [resolveWiring, hfilter, hinterval, hsampler]; rfl⟩,
                Or.inr (Or.inr (Or.inl ⟨e, rfl⟩))⟩
          | ok sampler =>
              cases hmtls : builder.resolvedTransport libs host.env with
              | error e =>
                  refine Or.inl ⟨⟨e, ?_⟩, Or.inr (Or.inr (Or.inr ⟨e, rfl⟩))⟩
                  simp only [resolveWiring, hfilter, hinterval, hsampler, hmtls]
                  rfl
              | ok mtls =>
                  refine Or.inr ⟨_, by
                    simp only [resolveWiring, hfilter, hinterval, hsampler, hmtls]; rfl, ?_, ?_⟩
                  · simp [Rejected]
                  · exact ⟨rfl, rfl, rfl, rfl, hmtls⟩

/-! ## Exporters -/

/-- The exporter of a signal. -/
def Wiring.exporter (wiring : Wiring) (signal : Signal) : OtlpExporter :=
  exporterOf signal wiring.protocol wiring.endpoint wiring.timeout wiring.mtls

section Exporters

variable (build : ExporterLibrary) (protocol : ExportProtocol) (endpoint : String)
  (timeout : Option Boot.Duration) (mtls : Option MtlsTransport)

theorem buildExporter_ok {signal : Signal} {exporter : OtlpExporter}
    (h : buildExporter build protocol endpoint timeout mtls signal = .ok exporter) :
    exporter = exporterOf signal protocol endpoint timeout mtls := by
  cases hb : build (exporterOf signal protocol endpoint timeout mtls) with
  | error e =>
      simp only [buildExporter, hb] at h
      cases h
  | ok u =>
      simp only [buildExporter, hb] at h
      cases h
      rfl

end Exporters

/-- The first exporter cannot be built. -/
def EarlyFailure : Prop :=
  SettingsRejected libs host builder ∨
    ∃ mtls, builder.resolvedTransport libs host.env = .ok mtls ∧
      Rejected (buildSpanExporter libs.buildExporter (builder.resolvedProtocol host.env)
        (builder.resolvedEndpoint host.env) (builder.resolvedTimeout host.env) mtls)

/-! ## What the steps change -/

/-- Past the tracer, the globals that came first stay and the exporters that are added are
those of the wiring. -/
structure Extends (wiring : Wiring) (p q : Process) : Prop where
  tracerProvider : q.tracerProvider = p.tracerProvider
  exporters : ∃ built, q.exporters = p.exporters ++ built ∧
    ∀ exporter ∈ built, ∃ signal, exporter = wiring.exporter signal

namespace Extends

variable {wiring : Wiring}

/-- A step that adds no exporter and installs no tracer. -/
theorem of_eq {p q : Process} (htracer : q.tracerProvider = p.tracerProvider)
    (hexporters : q.exporters = p.exporters) : Extends wiring p q :=
  ⟨htracer, [], by rw [hexporters, List.append_nil], by simp⟩

theorem refl (p : Process) : Extends wiring p p :=
  of_eq rfl rfl

theorem trans (p q r : Process) (hpq : Extends wiring p q) (hqr : Extends wiring q r) :
    Extends wiring p r := by
  obtain ⟨first, hfirst, hfirstOf⟩ := hpq.exporters
  obtain ⟨second, hsecond, hsecondOf⟩ := hqr.exporters
  refine ⟨hqr.tracerProvider.trans hpq.tracerProvider, first ++ second, ?_, ?_⟩
  · rw [hsecond, hfirst, List.append_assoc]
  · intro exporter hmem
    rcases List.mem_append.mp hmem with h | h
    · exact hfirstOf exporter h
    · exact hsecondOf exporter h

end Extends

variable (wiring : Wiring)

theorem adopt_moves {build : ExporterLibrary} (signal : Signal) :
    Moves (Extends wiring) (adopt (buildExporter build wiring.protocol wiring.endpoint
      wiring.timeout wiring.mtls signal)) := by
  intro p
  cases h : buildExporter build wiring.protocol wiring.endpoint wiring.timeout wiring.mtls
    signal with
  | error e => exact Extends.refl p
  | ok exporter =>
      have hexporter : exporter = wiring.exporter signal := buildExporter_ok _ _ _ _ _ h
      exact ⟨rfl, [exporter], rfl, by simpa using ⟨signal, hexporter⟩⟩

theorem fails_adopt (built : Except String OtlpExporter) (p : Process) :
    Fails (adopt built) p ↔ Rejected built := by
  cases built with
  | error e => exact iff_of_true ⟨e, p, rfl⟩ ⟨e, rfl⟩
  | ok exporter => exact iff_of_false (not_fails_of_ok rfl) (not_rejected_ok exporter)

/-- The profiling guard stays as it is. -/
def SameGuard (p q : Process) : Prop :=
  q.profilingStarted = p.profilingStarted

theorem SameGuard.refl (p : Process) : SameGuard p p :=
  rfl

theorem SameGuard.trans (p q r : Process) (hpq : SameGuard p q) (hqr : SameGuard q r) :
    SameGuard p r :=
  Eq.trans hqr hpq

theorem adopt_sameGuard (built : Except String OtlpExporter) : Moves SameGuard (adopt built) := by
  intro p
  cases built <;> rfl

/-! ### Meter and logger -/

theorem installRuntimeMetrics_tracerProvider (p : Process) (inRuntime : Bool) :
    (p.installRuntimeMetrics inRuntime).tracerProvider = p.tracerProvider := by
  cases inRuntime <;> rfl

theorem installRuntimeMetrics_exporters (p : Process) (inRuntime : Bool) :
    (p.installRuntimeMetrics inRuntime).exporters = p.exporters := by
  cases inRuntime <;> rfl

theorem installRuntimeMetrics_profilingStarted (p : Process) (inRuntime : Bool) :
    (p.installRuntimeMetrics inRuntime).profilingStarted = p.profilingStarted := by
  cases inRuntime <;> rfl

theorem installMeter_moves (exporter : OtlpExporter) :
    Moves (Extends wiring) (installMeter host builder wiring exporter) := by
  intro p
  cases hruntime : builder.runtimeMetrics with
  | false =>
      refine Extends.of_eq ?_ ?_ <;>
        simp [installMeter, Attempt.run, hruntime, Process.mint, Process.setMeterProvider]
  | true =>
      refine Extends.of_eq ?_ ?_
      · simp [installMeter, Attempt.run, hruntime, installRuntimeMetrics_tracerProvider,
          Process.mint, Process.setMeterProvider]
      · simp [installMeter, Attempt.run, hruntime, installRuntimeMetrics_exporters,
          Process.mint, Process.setMeterProvider]

theorem installMeter_sameGuard (exporter : OtlpExporter) :
    Moves SameGuard (installMeter host builder wiring exporter) := by
  intro p
  cases hruntime : builder.runtimeMetrics with
  | false =>
      simp [SameGuard, installMeter, Attempt.run, hruntime, Process.mint,
        Process.setMeterProvider]
  | true =>
      simp [SameGuard, installMeter, Attempt.run, hruntime, installRuntimeMetrics_profilingStarted,
        Process.mint, Process.setMeterProvider]

theorem meterStep_moves : Moves (Extends wiring) (meterStep libs host builder wiring) := by
  cases h : builder.metrics with
  | false =>
      simp only [meterStep, h, Bool.false_eq_true, if_false]
      exact moves_pure Extends.refl none
  | true =>
      simp only [meterStep, h, if_true]
      refine moves_bind Extends.trans (adopt_moves wiring .metrics) fun exporter => ?_
      refine moves_bind Extends.trans (installMeter_moves host builder wiring exporter) ?_
      exact fun provider => moves_pure Extends.refl (some provider)

theorem meterStep_sameGuard : Moves SameGuard (meterStep libs host builder wiring) := by
  cases h : builder.metrics with
  | false =>
      simp only [meterStep, h, Bool.false_eq_true, if_false]
      exact moves_pure SameGuard.refl none
  | true =>
      simp only [meterStep, h, if_true]
      refine moves_bind SameGuard.trans (adopt_sameGuard _) fun exporter => ?_
      refine moves_bind SameGuard.trans (installMeter_sameGuard host builder wiring exporter) ?_
      exact fun provider => moves_pure SameGuard.refl (some provider)

theorem fails_meterStep (p : Process) :
    Fails (meterStep libs host builder wiring) p ↔
      builder.metrics = true ∧ Rejected (buildMetricExporter libs.buildExporter wiring.protocol
        wiring.endpoint wiring.timeout wiring.mtls) := by
  cases h : builder.metrics with
  | false =>
      simp only [meterStep, h, Bool.false_eq_true, if_false, false_and, iff_false]
      exact not_fails_of_ok rfl
  | true =>
      simp only [meterStep, h, if_true, true_and]
      rw [fails_bind_iff (fails_adopt _ p) (B := False), or_false]
      intro exporter q _
      refine iff_false_intro (not_fails_bind (not_fails_run _ q) ?_)
      exact fun provider r => not_fails_of_ok rfl

theorem loggerStep_moves : Moves (Extends wiring) (loggerStep libs builder wiring) := by
  cases h : builder.logs with
  | false =>
      simp only [loggerStep, h, Bool.false_eq_true, if_false]
      exact moves_pure Extends.refl none
  | true =>
      simp only [loggerStep, h, if_true]
      refine moves_bind Extends.trans (adopt_moves wiring .logs) fun exporter => ?_
      refine moves_bind Extends.trans (fun p => Extends.of_eq rfl rfl) ?_
      exact fun provider => moves_pure Extends.refl (some provider)

theorem loggerStep_sameGuard : Moves SameGuard (loggerStep libs builder wiring) := by
  cases h : builder.logs with
  | false =>
      simp only [loggerStep, h, Bool.false_eq_true, if_false]
      exact moves_pure SameGuard.refl none
  | true =>
      simp only [loggerStep, h, if_true]
      refine moves_bind SameGuard.trans (adopt_sameGuard _) fun exporter => ?_
      refine moves_bind SameGuard.trans (fun p => SameGuard.refl p) ?_
      exact fun provider => moves_pure SameGuard.refl (some provider)

theorem fails_loggerStep (p : Process) :
    Fails (loggerStep libs builder wiring) p ↔
      builder.logs = true ∧ Rejected (buildLogExporter libs.buildExporter wiring.protocol
        wiring.endpoint wiring.timeout wiring.mtls) := by
  cases h : builder.logs with
  | false =>
      simp only [loggerStep, h, Bool.false_eq_true, if_false, false_and, iff_false]
      exact not_fails_of_ok rfl
  | true =>
      simp only [loggerStep, h, if_true, true_and]
      rw [fails_bind_iff (fails_adopt _ p) (B := False), or_false]
      intro exporter q _
      refine iff_false_intro (not_fails_bind (not_fails_run _ q) ?_)
      exact fun provider r => not_fails_of_ok rfl

/-! ### Profiling -/

/-- The bridge fails on a rejected endpoint, and on its first start when the agent does not
start. -/
theorem rejected_startPyroscopeBridge (profiler : ProfilerLibrary) (started : Bool)
    (serviceName endpoint : String) (identity : ProfilingIdentity) :
    Rejected (startPyroscopeBridge profiler started serviceName endpoint identity).1 ↔
      Rejected (validatePyroscopeEndpoint profiler.parseUrl endpoint) ∨
        (started = false ∧
          Rejected (launchAgent profiler (cpuAgent serviceName endpoint identity))) := by
  cases hvalid : validatePyroscopeEndpoint profiler.parseUrl endpoint with
  | error e => simp [startPyroscopeBridge, hvalid, Rejected]
  | ok u =>
      cases started with
      | true => simp [startPyroscopeBridge, hvalid, Rejected]
      | false =>
          cases hlaunch : launchAgent profiler (cpuAgent serviceName endpoint identity) with
          | error e => simp [startPyroscopeBridge, hvalid, hlaunch, Rejected]
          | ok v => simp [startPyroscopeBridge, hvalid, hlaunch, Rejected]

theorem profilingStep_moves : Moves (Extends wiring) (profilingStep libs host builder wiring) := by
  cases h : builder.pyroscopeEndpoint with
  | none =>
      simp only [profilingStep, h]
      exact moves_pure Extends.refl none
  | some endpoint =>
      simp only [profilingStep, h]
      exact fun p => Extends.of_eq rfl rfl

/-- Profiling is asked for and the bridge does not start. -/
def ProfilingFails (started : Bool) : Prop :=
  ∃ endpoint, builder.pyroscopeEndpoint = some endpoint ∧
    (Rejected (validatePyroscopeEndpoint libs.profiler.parseUrl endpoint) ∨
      (started = false ∧ Rejected (launchAgent libs.profiler
        (cpuAgent (builder.resolvedServiceName host.env) endpoint
          (profilingIdentity host builder)))))

theorem fails_profilingStep {wiring : Wiring} (h : Resolves libs host builder wiring)
    (p : Process) :
    Fails (profilingStep libs host builder wiring) p ↔
      ProfilingFails libs host builder p.profilingStarted := by
  unfold ProfilingFails
  cases hendpoint : builder.pyroscopeEndpoint with
  | none =>
      simp only [profilingStep, hendpoint, reduceCtorEq, false_and, exists_false, iff_false]
      exact not_fails_of_ok rfl
  | some endpoint =>
      simp only [profilingStep, hendpoint, Option.some.injEq, exists_eq_left']
      rw [← rejected_startPyroscopeBridge, ← h.serviceName]
      exact fails_iff _ p

/-! ### The whole of what follows the tracer -/

theorem installSubscriber_moves (tracer : TracerProvider) (logger : Option LoggerProvider) :
    Moves (Extends wiring) (installSubscriber libs builder wiring tracer logger) := by
  intro p
  refine Extends.of_eq ?_ ?_ <;>
    simp only [installSubscriber, Attempt.run, Process.tryInit, Process.eprintln] <;>
    grind

theorem attachBoot_moves (tracer : TracerProvider) :
    Moves (Extends wiring) (attachBoot host wiring tracer) :=
  fun _ => Extends.of_eq rfl rfl

theorem finish_moves (tracer : TracerProvider) :
    Moves (Extends wiring) (finish libs host builder wiring tracer) := by
  unfold finish
  refine moves_bind Extends.trans (meterStep_moves libs host builder wiring) fun meter => ?_
  refine moves_bind Extends.trans (loggerStep_moves libs builder wiring) fun logger => ?_
  refine moves_bind Extends.trans (profilingStep_moves libs host builder wiring) fun profiling => ?_
  refine moves_bind Extends.trans (installSubscriber_moves libs builder wiring tracer logger) ?_
  intro u
  refine moves_bind Extends.trans (attachBoot_moves host wiring tracer) fun owner => ?_
  exact moves_pure Extends.refl _

/-- A step that comes after the tracer has been installed fails. -/
def LateFailure (started : Bool) : Prop :=
  ∃ mtls, builder.resolvedTransport libs host.env = .ok mtls ∧
    ((builder.metrics = true ∧ Rejected (buildMetricExporter libs.buildExporter
        (builder.resolvedProtocol host.env) (builder.resolvedEndpoint host.env)
        (builder.resolvedTimeout host.env) mtls)) ∨
      (builder.logs = true ∧ Rejected (buildLogExporter libs.buildExporter
        (builder.resolvedProtocol host.env) (builder.resolvedEndpoint host.env)
        (builder.resolvedTimeout host.env) mtls)) ∨
      ProfilingFails libs host builder started)

theorem fails_finish {wiring : Wiring} (h : Resolves libs host builder wiring)
    (tracer : TracerProvider) (p : Process) :
    Fails (finish libs host builder wiring tracer) p ↔
      LateFailure libs host builder p.profilingStarted := by
  unfold LateFailure
  simp only [h.mtls, Except.ok.injEq, exists_eq_left', ← h.protocol, ← h.endpoint, ← h.timeout]
  refine fails_bind_iff (fails_meterStep libs host builder wiring p) fun meter q hmeter => ?_
  refine fails_bind_iff (fails_loggerStep libs builder wiring q) fun logger r hlogger => ?_
  have hq : q.profilingStarted = p.profilingStarted := by
    simpa only [SameGuard, hmeter] using meterStep_sameGuard libs host builder wiring p
  have hr : r.profilingStarted = q.profilingStarted := by
    simpa only [SameGuard, hlogger] using loggerStep_sameGuard libs builder wiring q
  rw [fails_bind_iff (fails_profilingStep libs host builder h r) (B := False), or_false, hr, hq]
  intro profiling t _
  refine iff_false_intro (not_fails_bind (not_fails_run _ t) fun u t => ?_)
  exact not_fails_bind (not_fails_run _ t) fun owner t => not_fails_of_ok rfl

/-! ## The whole of `init` -/

/-- The process once the tracer is installed. -/
structure TracerInstalled (wiring : Wiring) (tracer : TracerProvider) (p q : Process) :
    Prop where
  id : tracer.id = p.nextId
  tracerProvider : q.tracerProvider = some tracer
  exporters : q.exporters = p.exporters ++ [wiring.exporter .traces]
  profilingStarted : q.profilingStarted = p.profilingStarted

theorem installTracer_ok {wiring : Wiring} {exporter : OtlpExporter} {p q : Process}
    (hexporter : exporter = wiring.exporter .traces) (hq : q = p.addExporter exporter) :
    ∃ tracer r, installTracer builder wiring exporter q = (.ok tracer, r) ∧
      TracerInstalled wiring tracer p r := by
  subst hq
  refine ⟨_, _, rfl, ?_⟩
  exact ⟨rfl, rfl, by rw [hexporter]; rfl, rfl⟩

/-- Either the first exporter is never built and nothing has changed, or the tracer is
installed and the other steps follow. -/
theorem init_cases (p : Process) :
    (EarlyFailure libs host builder ∧ ∃ e, builder.init libs host p = (.error e, p)) ∨
      (¬EarlyFailure libs host builder ∧ ∃ wiring tracer q, Resolves libs host builder wiring ∧
        TracerInstalled wiring tracer p q ∧
        builder.init libs host p = finish libs host builder wiring tracer q) := by
  unfold EarlyFailure
  rcases resolveWiring_cases libs host builder with ⟨⟨e, herror⟩, hrejected⟩ | hresolved
  · refine Or.inl ⟨Or.inl hrejected, e, bind_of_error ?_⟩
    rw [herror]
    rfl
  · obtain ⟨wiring, hok, hsettings, hwiring⟩ := hresolved
    have hlift : (lift (resolveWiring libs host builder) : InitM Wiring) p = (.ok wiring, p) := by
      rw [hok]
      rfl
    simp only [hsettings, false_or, hwiring.mtls, Except.ok.injEq, exists_eq_left',
      ← hwiring.protocol, ← hwiring.endpoint, ← hwiring.timeout]
    rw [TelemetryBuilder.init, bind_of_ok hlift]
    cases hspan : buildSpanExporter libs.buildExporter wiring.protocol wiring.endpoint
      wiring.timeout wiring.mtls with
    | error e => exact Or.inl ⟨⟨e, rfl⟩, e, bind_of_error rfl⟩
    | ok exporter =>
        have hexporter : exporter = wiring.exporter .traces := buildExporter_ok _ _ _ _ _ hspan
        obtain ⟨tracer, q, htracer, hinstalled⟩ := installTracer_ok builder hexporter rfl
        have hadopt : adopt (.ok exporter) p = (.ok exporter, p.addExporter exporter) := rfl
        refine Or.inr ⟨not_rejected_ok exporter, wiring, tracer, q, hwiring, hinstalled, ?_⟩
        rw [bind_of_ok hadopt, bind_of_ok htracer]

end OtelBootstrap.Builder
