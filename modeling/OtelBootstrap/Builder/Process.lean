import OtelBootstrap.Boot.Timeline
import OtelBootstrap.Builder.Profiling
import OtelBootstrap.Builder.Transport

/-! # What a process has installed -/

namespace OtelBootstrap.Builder

open Boot (Duration)

/-! ## Resources -/

/-- The attributes added to those that the SDK detects by itself. -/
abbrev Resource := List (String × Boot.Value)

/-- What the operating system and the runtime answer. `rootContext` is minted by the SDK for
the boot root. -/
structure Host where
  env : Env
  hostname : Option String
  pid : ℕ
  inRuntime : Bool
  rootContext : Boot.SpanContext

def buildResourceIn (host : Host) (serviceName : String)
    (serviceNamespace serviceVersion deploymentEnvironment : Option String) : Resource :=
  let optional (key : String) (field : Option String) : Resource :=
    match field with
    | none => []
    | some value => [(key, .string value)]
  [("service.name", .string serviceName), ("host.name", .string (host.hostname.getD "")),
    ("process.pid", .i64 host.pid)] ++
    optional "service.namespace" serviceNamespace ++
    optional "service.version" serviceVersion ++
    optional "deployment.environment.name" deploymentEnvironment

/-! ## Providers -/

/-- The span exporter is wrapped in `RetryUnavailable`, behind a batch processor. -/
structure TracerProvider extends Boot.SdkTracerProvider where
  resource : Resource
  sampler : TraceSampler
  exporter : OtlpExporter
  maxExportBatchSize : Option ℕ
  deriving DecidableEq, Repr

inductive TextMapPropagator where
  | traceContext
  | baggage
  deriving DecidableEq, Repr

structure MeterProvider where
  id : ℕ
  resource : Resource
  exporter : OtlpExporter
  interval : Option Duration
  setups : List ℕ
  deriving DecidableEq, Repr

structure LoggerProvider where
  id : ℕ
  resource : Resource
  exporter : OtlpExporter
  deriving DecidableEq, Repr

structure EnvFilter where
  directives : List String
  deriving DecidableEq, Repr

structure LogBridgeLayer where
  provider : LoggerProvider
  spanFields : List String
  deriving DecidableEq, Repr

/-- The layers over the registry. The failure backoff is always among them. -/
structure Subscriber where
  extra : Option (List ℕ)
  filter : EnvFilter
  format : LogFormat
  tracer : Boot.SdkTracer
  logBridge : Option LogBridgeLayer
  deriving DecidableEq, Repr

/-- What `try_init` was refused. -/
inductive TryInitError where
  | setGlobalDefault
  | setLogger
  deriving DecidableEq, Repr

/-- An instrument, bound to the meter provider that was global when it was built. -/
structure Instrument where
  provider : Option ℕ
  meter : String
  name : String
  unit : Option String
  deriving DecidableEq, Repr

/-! ## The process -/

/-- `logger` tells whether the `log` crate has a logger, `exporters` are all exporters ever
built and `nextId` is the identity of the next provider. -/
structure Process where
  tracerProvider : Option TracerProvider := none
  propagator : List TextMapPropagator := []
  meterProvider : Option MeterProvider := none
  logger : Bool := false
  subscriber : Option Subscriber := none
  timeline : Boot.Timeline
  boot : Boot.State := {}
  bootEffects : List Boot.Effect := []
  instruments : List Instrument := []
  probes : List Instrument := []
  profilingStarted : Bool := false
  exporters : List OtlpExporter := []
  stderr : List String := []
  nextId : ℕ := 0
  fresh : ∀ provider ∈ tracerProvider, provider.id < nextId := by nofun

namespace Process

/-- An empty process. -/
def new (timeline : Boot.Timeline) : Process where
  timeline

/-- `SdkTracerProvider::builder()…build()`, then `set_tracer_provider`. -/
def installTracerProvider (process : Process) (resource : Resource) (sampler : TraceSampler)
    (exporter : OtlpExporter) (maxExportBatchSize : Option ℕ) : TracerProvider × Process :=
  let provider : TracerProvider :=
    { id := process.nextId, resource, sampler, exporter, maxExportBatchSize }
  (provider,
    { process with
      tracerProvider := some provider
      nextId := process.nextId + 1
      fresh := by
        intro installed hinstalled
        cases hinstalled
        exact Nat.lt_succ_self _ })

def setTextMapPropagator (process : Process) (propagator : List TextMapPropagator) : Process :=
  { process with propagator }

def addExporter (process : Process) (exporter : OtlpExporter) : Process :=
  { process with exporters := process.exporters ++ [exporter] }

/-- The next provider identity. -/
def mint (process : Process) : ℕ × Process :=
  (process.nextId,
    { process with
      nextId := process.nextId + 1
      fresh := fun provider h => Nat.lt_succ_of_lt (process.fresh provider h) })

def setMeterProvider (process : Process) (provider : MeterProvider) : Process :=
  { process with meterProvider := some provider }

/-- `SubscriberInitExt::try_init`: the global default, then a `log` logger. Where only the
logger is refused, the subscriber stays. -/
def tryInit (process : Process) (subscriber : Subscriber) :
    Except TryInitError Unit × Process :=
  match process.subscriber with
  | some _ => (.error .setGlobalDefault, process)
  | none =>
      let process := { process with subscriber := some subscriber }
      if process.logger then (.error .setLogger, process)
      else (.ok (), { process with logger := true })

def eprintln (process : Process) (line : String) : Process :=
  { process with stderr := process.stderr ++ [line] }

/-! ## Runtime metrics -/

def instrument (process : Process) (name : String) (unit : Option String) : Instrument where
  provider := process.meterProvider.map (·.id)
  meter := "otel-bootstrap.runtime"
  name
  unit

def installTokioGauges (process : Process) (inRuntime : Bool) : Process :=
  if inRuntime then
    { process with
      instruments := process.instruments ++
        [process.instrument "runtime.tokio.workers" none,
          process.instrument "runtime.tokio.alive_tasks" none,
          process.instrument "runtime.tokio.global_queue_depth" none] }
  else process

def spawnSchedulerProbe (process : Process) (inRuntime : Bool) : Process :=
  if inRuntime then
    let schedulerDelay := process.instrument "runtime.tokio.scheduler_delay" (some "ms")
    { process with
      instruments := process.instruments ++ [schedulerDelay]
      probes := process.probes ++ [schedulerDelay] }
  else process

/-- `runtime_metrics::install`. -/
def installRuntimeMetrics (process : Process) (inRuntime : Bool) : Process :=
  let process :=
    { process with
      instruments := process.instruments ++
        [process.instrument "process.uptime" (some "s"),
          process.instrument "process.memory.resident" (some "By")] }
  (process.installTokioGauges inRuntime).spawnSchedulerProbe inRuntime

end Process

end OtelBootstrap.Builder
