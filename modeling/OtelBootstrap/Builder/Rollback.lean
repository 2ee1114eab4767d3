import OtelBootstrap.Builder.Steps

/-! # What a failed initialisation leaves behind -/

namespace OtelBootstrap.Builder

open Attempt

/-- The globals and the probes of a process are as they were. -/
structure Untouched (p q : Process) : Prop where
  tracerProvider : q.tracerProvider = p.tracerProvider
  propagator : q.propagator = p.propagator
  meterProvider : q.meterProvider = p.meterProvider
  subscriber : q.subscriber = p.subscriber
  timeline : q.timeline = p.timeline
  boot : q.boot = p.boot
  probes : q.probes = p.probes

theorem Untouched.refl (p : Process) : Untouched p p :=
  ⟨rfl, rfl, rfl, rfl, rfl, rfl, rfl⟩

/-- A provider that has just been minted was not the global one. -/
theorem TracerInstalled.ne {wiring : Wiring} {tracer : TracerProvider} {p q : Process}
    (h : TracerInstalled wiring tracer p q) : p.tracerProvider ≠ some tracer := by
  intro heq
  have hlt := p.fresh tracer (by rw [heq]; rfl)
  have hid := h.id
  omega

variable (libs : Libraries) (host : Host) (builder : TelemetryBuilder)

/-- No failure after the tracer is rolled back. -/
theorem not_untouched_of_finish {wiring : Wiring} {tracer : TracerProvider} {p q : Process}
    (h : TracerInstalled wiring tracer p q) :
    ¬Untouched p (finish libs host builder wiring tracer q).2 := by
  intro huntouched
  have hmoves := finish_moves libs host builder wiring tracer q
  have hsame : p.tracerProvider = some tracer := by
    rw [← huntouched.tracerProvider, hmoves.tracerProvider, h.tracerProvider]
  exact h.ne hsame

/-- A failed `init` leaves the process as it found it exactly when the failure comes before
the first installation. -/
theorem rollsBack_iff (p : Process) :
    RollsBack Untouched (builder.init libs host) p ↔
      EarlyFailure libs host builder ∨ ¬LateFailure libs host builder p.profilingStarted := by
  rcases init_cases libs host builder p with ⟨hearly, e, hinit⟩ | ⟨hearly, h⟩
  · refine iff_of_true ?_ (Or.inl hearly)
    intro e' q hfail
    have hq : q = p := (congrArg Prod.snd (hinit.symm.trans hfail)).symm
    rw [hq]
    exact Untouched.refl p
  · obtain ⟨wiring, tracer, q, hwiring, hinstalled, hinit⟩ := h
    have hfails := fails_finish libs host builder hwiring tracer q
    rw [hinstalled.profilingStarted] at hfails
    simp only [hearly, false_or, ← hfails]
    apply rollsBack_iff_of_eq hinit
    intro e r hfinish
    have hnot := not_untouched_of_finish libs host builder hinstalled
    rwa [hfinish] at hnot

/-- Profiling to a remote endpoint fails after the providers are global and the probe runs. -/
theorem remote_profiling_installs :
    ¬RollsBack Untouched ((Telemetry.builder "test-service").withProfiling
      "http://10.0.1.5:4040" |>.init acceptingLibraries podHost) freshProcess := by
  rw [RollsBack]
  intro hback
  have h := hback _ _ rfl
  have hprobes := congrArg List.length h.probes
  revert hprobes
  decide

end OtelBootstrap.Builder
