import OtelBootstrap.Builder.Profiling
import OtelBootstrap.Library.Latch

/-! # The one-profiler guard -/

namespace OtelBootstrap.Builder

/-- A call of `start_pyroscope_bridge`, with what the libraries do during it. -/
structure BridgeCall where
  profiler : ProfilerLibrary
  serviceName : String
  endpoint : String
  identity : ProfilingIdentity

namespace BridgeCall

variable (self : BridgeCall)

def validate : Except String Unit :=
  validatePyroscopeEndpoint self.profiler.parseUrl self.endpoint

/-- The CPU agent is built and started; the memory agent is never in its way. -/
def launch : Except String ProfilingHandle :=
  let agent := cpuAgent self.serviceName self.endpoint self.identity
  match launchAgent self.profiler agent with
  | .error e => .error e
  | .ok () =>
      .ok
        { agent
          memoryAgent := startMemoryAgent self.profiler self.serviceName self.endpoint
            self.identity.tagPairs }

def start (started : Bool) (self : BridgeCall) : Except String (Option ProfilingHandle) × Bool :=
  startPyroscopeBridge self.profiler started self.serviceName self.endpoint self.identity

/-- The CPU agent of this call can be built and started. -/
def Launches : Prop :=
  self.profiler.build (cpuAgent self.serviceName self.endpoint self.identity) = .ok () ∧
    self.profiler.start (cpuAgent self.serviceName self.endpoint self.identity) = .ok ()

theorem launches_iff : self.Launches ↔ ∃ handle, self.launch = .ok handle := by
  cases hbuild : self.profiler.build (cpuAgent self.serviceName self.endpoint self.identity) with
  | error e => simp [Launches, launch, launchAgent, hbuild]
  | ok _ =>
      cases hstart :
          self.profiler.start (cpuAgent self.serviceName self.endpoint self.identity) with
      | error e => simp [Launches, launch, launchAgent, hbuild, hstart]
      | ok _ => simp [Launches, launch, launchAgent, hbuild, hstart]

/-- `PROFILING_STARTED` is a latch that is taken before the launch. -/
theorem start_eq_take : start = Latch.take validate launch := by
  funext started self
  rw [start, startPyroscopeBridge, Latch.take, validate]
  cases validatePyroscopeEndpoint self.profiler.parseUrl self.endpoint with
  | error e => rfl
  | ok _ =>
      cases started with
      | true => rfl
      | false =>
          simp only [launch]
          cases launchAgent self.profiler
              (cpuAgent self.serviceName self.endpoint self.identity) with
          | error e => rfl
          | ok _ => rfl

end BridgeCall

/-- The guard reflects a profiler that started exactly as long as the first call with a valid
endpoint can start one. -/
theorem guard_reflects_iff (calls : List BridgeCall) :
    Latch.Reflects BridgeCall.start calls ↔
      ∀ call, calls.find? (Latch.admitted BridgeCall.validate) = some call → call.Launches := by
  rw [BridgeCall.start_eq_take, Latch.reflects_take_iff, Latch.FirstLaunches]
  simp only [BridgeCall.launches_iff]

/-! ## A start that fails before one that could succeed -/

/-- A call with a valid endpoint; `build` is what building the CPU agent does. -/
def sampleCall (build : Except String Unit) : BridgeCall where
  profiler :=
    { parseUrl := fun _ => .ok { username := "", password := none, host := some "127.0.0.1" }
      build := fun _ => build
      start := fun _ => .ok ()
      activateJemallocSampling := .panicked }
  serviceName := "svc"
  endpoint := "http://127.0.0.1:4040"
  identity := { hostName := none, deploymentEnvironment := none, serviceVersion := none }

/-- Another agent profiles the process while this call runs. -/
def duringAnother : BridgeCall :=
  sampleCall (.error "start running cpu profiler")

/-- The retry, when the other agent is gone, is told that the profiler runs already. -/
theorem retry_ignored :
    (Latch.run BridgeCall.start false [duringAnother, sampleCall (.ok ())]).map
        Latch.Entry.answer = [duringAnother.launch.map some, .ok none] ∧
      ¬ Latch.Reflects BridgeCall.start [duringAnother, sampleCall (.ok ())] := by
  constructor
  · decide +kernel
  · intro h
    have hfirst : [duringAnother, sampleCall (.ok ())].find? (Latch.admitted BridgeCall.validate) =
        some duringAnother := rfl
    have hlaunch : duringAnother.launch = .error "start running cpu profiler" := rfl
    have hfailed := Latch.exists_failed BridgeCall.validate BridgeCall.launch hfirst hlaunch
    rw [← BridgeCall.start_eq_take] at hfailed
    have hkeeps := h.failedKeeps _ hfailed rfl
    cases hkeeps

end OtelBootstrap.Builder
