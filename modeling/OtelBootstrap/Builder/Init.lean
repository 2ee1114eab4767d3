import OtelBootstrap.Builder.Process
import OtelBootstrap.Library.Attempt

/-! # Initialisation -/

namespace OtelBootstrap.Builder

open Boot (Duration)

/-- What `init` takes from the packages it is built on. `tryInitError` is the text of a
`TryInitError`. -/
structure Libraries where
  tryNewFilter : String → Except String EnvFilter
  defaultEnvFilter : Env → EnvFilter
  parseF64 : String → Option UInt64
  uris : UriLibrary
  buildExporter : ExporterLibrary
  profiler : ProfilerLibrary
  tryInitError : TryInitError → String

structure TelemetryHandles where
  tracerProvider : TracerProvider
  meterProvider : Option MeterProvider
  loggerProvider : Option LoggerProvider
  shutdownTimeout : Duration
  bootOwner : Bool
  profilingHandle : Option ProfilingHandle
  deriving DecidableEq, Repr

/-! ## Settings and their fallbacks -/

namespace TelemetryBuilder

variable (self : TelemetryBuilder)

def resolvedProtocol (env : Env) : ExportProtocol :=
  (self.protocol.or (protocolFromEnv env)).getD .grpc

def resolvedEndpoint (env : Env) : String :=
  resolveEndpoint (env "OTEL_EXPORTER_OTLP_ENDPOINT") self.defaultEndpoint
    (self.resolvedProtocol env).defaultEndpoint

def resolvedTimeout (env : Env) : Option Duration :=
  self.exportTimeout.or (timeoutFromEnv env)

def resolvedServiceName (env : Env) : String :=
  self.serviceName.getD ((env "OTEL_SERVICE_NAME").getD "unknown_service")

def resolvedFilter (libs : Libraries) (env : Env) : Except String EnvFilter :=
  match self.logFilter with
  | some directive => libs.tryNewFilter directive
  | none => .ok (libs.defaultEnvFilter env)

def checkInterval : Except String Unit :=
  match self.metricExportInterval with
  | some interval =>
      if interval = 0 then .error "metric_export_interval must be greater than zero" else .ok ()
  | none => .ok ()

def resolvedSampler (libs : Libraries) (env : Env) : Except String TraceSampler :=
  match self.sampler with
  | some s => .ok s
  | none => (samplerFromEnv libs.parseF64 env).map (·.getD .alwaysOn)

def resolvedTransport (libs : Libraries) (env : Env) : Except String (Option MtlsTransport) :=
  MtlsTransport.resolve libs.uris self.mtls self.mtlsSource (self.resolvedEndpoint env)
    (self.resolvedTimeout env) self.collectorSpiffeId

end TelemetryBuilder

/-! ## The steps of `init` -/

/-- What the three exporters share. -/
structure Wiring where
  logFilter : EnvFilter
  protocol : ExportProtocol
  endpoint : String
  timeout : Option Duration
  serviceName : String
  resource : Resource
  sampler : TraceSampler
  mtls : Option MtlsTransport
  deriving DecidableEq, Repr

abbrev InitM := Attempt Process String

section Steps

variable (libs : Libraries) (host : Host) (self : TelemetryBuilder)

/-- Everything before the first exporter. -/
def resolveWiring : Except String Wiring := do
  let logFilter ← self.resolvedFilter libs host.env
  self.checkInterval
  let serviceName := self.resolvedServiceName host.env
  let resource := buildResourceIn host serviceName self.serviceNamespace self.serviceVersion
    self.deploymentEnvironment
  let sampler ← self.resolvedSampler libs host.env
  let mtls ← self.resolvedTransport libs host.env
  return { logFilter, protocol := self.resolvedProtocol host.env
           endpoint := self.resolvedEndpoint host.env, timeout := self.resolvedTimeout host.env
           serviceName, resource, sampler, mtls }

/-- An exporter that has been built is one of the process's. -/
def adopt (built : Except String OtlpExporter) : InitM OtlpExporter :=
  fun process =>
    match built with
    | .error e => (.error e, process)
    | .ok exporter => (.ok exporter, process.addExporter exporter)

def installTracer (wiring : Wiring) (exporter : OtlpExporter) : InitM TracerProvider :=
  .run fun process =>
    let (provider, process) := process.installTracerProvider wiring.resource wiring.sampler
      exporter self.maxExportBatchSize
    (provider, process.setTextMapPropagator [.traceContext, .baggage])

def installMeter (wiring : Wiring) (exporter : OtlpExporter) : InitM MeterProvider :=
  .run fun process =>
    let (id, process) := process.mint
    let provider : MeterProvider :=
      { id, resource := wiring.resource, exporter, interval := self.metricExportInterval
        setups := self.extraMetricReaders }
    let process := process.setMeterProvider provider
    (provider,
      if self.runtimeMetrics then process.installRuntimeMetrics host.inRuntime else process)

def meterStep (wiring : Wiring) : InitM (Option MeterProvider) :=
  if self.metrics then do
    let exporter ← adopt (buildMetricExporter libs.buildExporter wiring.protocol wiring.endpoint
      wiring.timeout wiring.mtls)
    let provider ← installMeter host self wiring exporter
    return some provider
  else return none

def buildLogger (wiring : Wiring) (exporter : OtlpExporter) : InitM LoggerProvider :=
  .run fun process =>
    let (id, process) := process.mint
    ({ id, resource := wiring.resource, exporter }, process)

def loggerStep (wiring : Wiring) : InitM (Option LoggerProvider) :=
  if self.logs then do
    let exporter ← adopt (buildLogExporter libs.buildExporter wiring.protocol wiring.endpoint
      wiring.timeout wiring.mtls)
    let provider ← buildLogger wiring exporter
    return some provider
  else return none

/-- The identity the resource carries. -/
def profilingIdentity : ProfilingIdentity where
  hostName := host.hostname.filter (!·.isEmpty)
  deploymentEnvironment := self.deploymentEnvironment
  serviceVersion := self.serviceVersion

def profilingStep (wiring : Wiring) : InitM (Option ProfilingHandle) :=
  match self.pyroscopeEndpoint with
  | none => return none
  | some endpoint =>
      fun process =>
        let (result, started) := startPyroscopeBridge libs.profiler process.profilingStarted
          wiring.serviceName endpoint (profilingIdentity host self)
        (result, { process with profilingStarted := started })

def installSubscriber (wiring : Wiring) (tracer : TracerProvider)
    (logger : Option LoggerProvider) : InitM Unit :=
  .run fun process =>
    let subscriber : Subscriber :=
      { extra := if self.extraLayers.isEmpty then none else some self.extraLayers
        filter := wiring.logFilter
        format := self.logFormat
        tracer := tracer.toSdkTracerProvider.tracer "otel-bootstrap"
        logBridge := logger.map fun provider => ⟨provider, self.propagatedSpanFields⟩ }
    let what := if logger.isSome then "OTLP log records" else "OTLP telemetry"
    match process.tryInit subscriber with
    | (.ok (), process) => ((), process)
    | (.error e, process) =>
        ((), process.eprintln ("otel-bootstrap: global tracing subscriber already installed — " ++
          what ++ " will NOT be exported to the collector: " ++ libs.tryInitError e))

def attachBoot (wiring : Wiring) (tracer : TracerProvider) : InitM Bool :=
  .run fun process =>
    let (boot, exported, effects) := process.timeline.attach process.boot
      tracer.toSdkTracerProvider wiring.serviceName host.rootContext
    (exported.isSome, { process with boot, bootEffects := process.bootEffects ++ effects })

/-- What follows the tracer. -/
def finish (wiring : Wiring) (tracerProvider : TracerProvider) : InitM TelemetryHandles := do
  let meterProvider ← meterStep libs host self wiring
  let loggerProvider ← loggerStep libs self wiring
  let profilingHandle ← profilingStep libs host self wiring
  installSubscriber libs self wiring tracerProvider loggerProvider
  let bootOwner ← attachBoot host wiring tracerProvider
  return { tracerProvider, meterProvider, loggerProvider, shutdownTimeout := self.shutdownTimeout
           bootOwner, profilingHandle }

end Steps

def TelemetryBuilder.init (libs : Libraries) (host : Host) (self : TelemetryBuilder) :
    InitM TelemetryHandles := do
  let wiring ← .lift (resolveWiring libs host self)
  let exporter ← adopt (buildSpanExporter libs.buildExporter wiring.protocol wiring.endpoint
    wiring.timeout wiring.mtls)
  let tracerProvider ← installTracer self wiring exporter
  finish libs host self wiring tracerProvider

/-! ## A sample process -/

/-- Everything is accepted; OTLP endpoints have the authority `collector:4317` and profiling
endpoints the host `10.0.1.5`. -/
def acceptingLibraries : Libraries where
  tryNewFilter directive := .ok ⟨[directive]⟩
  defaultEnvFilter _ := ⟨[]⟩
  parseF64 _ := none
  uris := ⟨fun _ => .ok ⟨some "collector:4317", some "collector", some 4317⟩, fun _ => .ok ()⟩
  buildExporter _ := .ok ()
  profiler := ⟨fun _ => .ok ⟨"", none, some "10.0.1.5"⟩, fun _ => .ok (), fun _ => .ok (),
    .unavailable "jemalloc profiling not compiled into this binary"⟩
  tryInitError
    | .setGlobalDefault => "a global default trace dispatcher has already been set"
    | .setLogger =>
        "attempted to set a logger after the logging system was already initialized"

def podHost : Host where
  env name := if name = "OTEL_EXPORTER_OTLP_ENDPOINT" then some "https://collector:4317" else none
  hostname := some "pod-1"
  pid := 1
  inRuntime := true
  rootContext := ⟨1, 2⟩

def freshProcess : Process :=
  .new ⟨0, .firstUse, 0, "exe"⟩

end OtelBootstrap.Builder
