import OtelBootstrap.Boot.Line

/-! # The telemetry builder and the environment it falls back to -/

namespace OtelBootstrap.Builder

open Boot (Duration isWhitespace)

/-! ## Settings -/

/-- Both transports are compiled in. -/
inductive ExportProtocol where
  | grpc
  | httpProtobuf
  deriving DecidableEq, Repr

/-- The endpoint of a local collector. -/
def ExportProtocol.defaultEndpoint : ExportProtocol → String
  | .grpc => "http://localhost:4317"
  | .httpProtobuf => "http://localhost:4318"

/-- PEM-encoded. -/
structure MtlsMaterial where
  clientCertChainPem : List UInt8
  clientKeyPem : List UInt8
  trustBundlePem : List UInt8
  deriving DecidableEq, Repr

/-- An `Arc<dyn CertSource>`: one that the caller implements, or a wrapped snapshot. -/
inductive CertSource where
  | custom (id : ℕ)
  | static (material : MtlsMaterial)
  deriving DecidableEq, Repr

/-- Ratios are the bits of an `f64`. -/
inductive TraceSampler where
  | alwaysOn
  | alwaysOff
  | traceIdRatio (ratio : UInt64)
  | parentBased (inner : TraceSampler)
  deriving DecidableEq, Repr

inductive LogFormat where
  | pretty
  | json
  deriving DecidableEq, Repr

def defaultShutdownTimeout : Duration := 5000000000

def propagatedSpanFields : List String :=
  ["request.id", "enduser.id", "enduser.org_id", "enduser.org_path", "enduser.principal_kind",
    "http.request.method", "http.response.status_code", "http.route"]

/-- Layers and meter provider set-ups are boxed closures, named by a number. -/
structure TelemetryBuilder where
  serviceName : Option String
  serviceVersion : Option String := none
  serviceNamespace : Option String := none
  deploymentEnvironment : Option String := none
  sampler : Option TraceSampler := none
  metrics : Bool := true
  logs : Bool := false
  protocol : Option ExportProtocol := none
  maxExportBatchSize : Option ℕ := none
  metricExportInterval : Option Duration := none
  exportTimeout : Option Duration := none
  shutdownTimeout : Duration := defaultShutdownTimeout
  logFilter : Option String := none
  logFormat : LogFormat := .pretty
  extraLayers : List ℕ := []
  extraMetricReaders : List ℕ := []
  runtimeMetrics : Bool := true
  mtls : Option MtlsMaterial := none
  mtlsSource : Option CertSource := none
  collectorSpiffeId : Option String := none
  propagatedSpanFields : List String := propagatedSpanFields
  pyroscopeEndpoint : Option String := none
  defaultEndpoint : Option String := none
  deriving DecidableEq, Repr

namespace Telemetry

def builder (serviceName : String) : TelemetryBuilder where
  serviceName := some serviceName

def fromEnv : TelemetryBuilder where
  serviceName := none

end Telemetry

namespace TelemetryBuilder

variable (self : TelemetryBuilder)

def withLogFilter (directive : String) : TelemetryBuilder :=
  { self with logFilter := some directive }

def withLogFormat (format : LogFormat) : TelemetryBuilder :=
  { self with logFormat := format }

def withVersion (version : String) : TelemetryBuilder :=
  { self with serviceVersion := some version }

def withServiceNamespace (name : String) : TelemetryBuilder :=
  { self with serviceNamespace := (some name).filter (!·.isEmpty) }

def withEnvironment (environment : String) : TelemetryBuilder :=
  { self with deploymentEnvironment := some environment }

def withMtls (material : MtlsMaterial) : TelemetryBuilder :=
  { self with mtls := some material, mtlsSource := none, protocol := some .grpc }

def withMtlsSource (source : CertSource) : TelemetryBuilder :=
  { self with mtlsSource := some source, mtls := none, protocol := some .grpc }

def withCollectorSpiffeId (id : String) : TelemetryBuilder :=
  { self with collectorSpiffeId := some id }

def withSampler (sampler : TraceSampler) : TelemetryBuilder :=
  { self with sampler := some sampler }

def withMetrics (enabled : Bool) : TelemetryBuilder :=
  { self with metrics := enabled }

def withRuntimeMetrics (enabled : Bool) : TelemetryBuilder :=
  { self with runtimeMetrics := enabled }

def withDefaultEndpoint (endpoint : String) : TelemetryBuilder :=
  { self with defaultEndpoint := some endpoint }

def withProtocol (protocol : ExportProtocol) : TelemetryBuilder :=
  { self with protocol := some protocol }

def withMaxExportBatchSize (size : ℕ) : TelemetryBuilder :=
  { self with maxExportBatchSize := some size }

def withMetricExportInterval (interval : Duration) : TelemetryBuilder :=
  { self with metricExportInterval := some interval }

def withLogs (enabled : Bool) : TelemetryBuilder :=
  { self with logs := enabled }

def withPropagatedSpanFields (fields : List String) : TelemetryBuilder :=
  { self with propagatedSpanFields := fields }

def withExportTimeout (timeout : Duration) : TelemetryBuilder :=
  { self with exportTimeout := some timeout }

def withShutdownTimeout (timeout : Duration) : TelemetryBuilder :=
  { self with shutdownTimeout := timeout }

def withProfiling (endpoint : String) : TelemetryBuilder :=
  { self with pyroscopeEndpoint := some endpoint }

def withMeterProviderSetup (setup : ℕ) : TelemetryBuilder :=
  { self with extraMetricReaders := self.extraMetricReaders ++ [setup] }

def withLayer (layer : ℕ) : TelemetryBuilder :=
  { self with extraLayers := self.extraLayers ++ [layer] }

end TelemetryBuilder

/-- One call of a builder method. -/
inductive Setter where
  | logFilter (directive : String)
  | logFormat (format : LogFormat)
  | version (version : String)
  | serviceNamespace (name : String)
  | environment (environment : String)
  | mtls (material : MtlsMaterial)
  | mtlsSource (source : CertSource)
  | collectorSpiffeId (id : String)
  | sampler (sampler : TraceSampler)
  | metrics (enabled : Bool)
  | runtimeMetrics (enabled : Bool)
  | defaultEndpoint (endpoint : String)
  | protocol (protocol : ExportProtocol)
  | maxExportBatchSize (size : ℕ)
  | metricExportInterval (interval : Duration)
  | logs (enabled : Bool)
  | propagatedSpanFields (fields : List String)
  | exportTimeout (timeout : Duration)
  | shutdownTimeout (timeout : Duration)
  | profiling (endpoint : String)
  | meterProviderSetup (setup : ℕ)
  | layer (layer : ℕ)
  deriving DecidableEq, Repr

def TelemetryBuilder.set (self : TelemetryBuilder) : Setter → TelemetryBuilder
  | .logFilter directive => self.withLogFilter directive
  | .logFormat format => self.withLogFormat format
  | .version version => self.withVersion version
  | .serviceNamespace name => self.withServiceNamespace name
  | .environment environment => self.withEnvironment environment
  | .mtls material => self.withMtls material
  | .mtlsSource source => self.withMtlsSource source
  | .collectorSpiffeId id => self.withCollectorSpiffeId id
  | .sampler sampler => self.withSampler sampler
  | .metrics enabled => self.withMetrics enabled
  | .runtimeMetrics enabled => self.withRuntimeMetrics enabled
  | .defaultEndpoint endpoint => self.withDefaultEndpoint endpoint
  | .protocol protocol => self.withProtocol protocol
  | .maxExportBatchSize size => self.withMaxExportBatchSize size
  | .metricExportInterval interval => self.withMetricExportInterval interval
  | .logs enabled => self.withLogs enabled
  | .propagatedSpanFields fields => self.withPropagatedSpanFields fields
  | .exportTimeout timeout => self.withExportTimeout timeout
  | .shutdownTimeout timeout => self.withShutdownTimeout timeout
  | .profiling endpoint => self.withProfiling endpoint
  | .meterProviderSetup setup => self.withMeterProviderSetup setup
  | .layer layer => self.withLayer layer

def TelemetryBuilder.configure (self : TelemetryBuilder) (calls : List Setter) :
    TelemetryBuilder :=
  calls.foldl TelemetryBuilder.set self

/-! ## Environment -/

/-- `std::env::var(name).ok()`. -/
abbrev Env := String → Option String

/-- `str::trim`. -/
def trim (s : String) : String :=
  String.ofList ((s.toList.dropWhile isWhitespace).reverse.dropWhile isWhitespace).reverse

/-- `str::parse::<u64>`: decimal digits after an optional plus sign. -/
def parseU64 (s : String) : Option ℕ :=
  let digits :=
    match s.toList with
    | '+' :: rest => rest
    | cs => cs
  if digits.isEmpty || !digits.all Char.isDigit then none
  else
    let n := digits.foldl (fun n c => 10 * n + (c.toNat - '0'.toNat)) 0
    if n < 2 ^ 64 then some n else none

def protocolFromEnv (env : Env) : Option ExportProtocol :=
  match env "OTEL_EXPORTER_OTLP_PROTOCOL" with
  | none => none
  | some val =>
      if trim val = "grpc" then some .grpc
      else if trim val = "http/protobuf" then some .httpProtobuf
      else none

def timeoutFromEnv (env : Env) : Option Duration :=
  match env "OTEL_EXPORTER_OTLP_TIMEOUT" with
  | none => none
  | some ms => (parseU64 (trim ms)).map (1000000 * ·)

/-- The bits of `1.0`. -/
def ratioOne : UInt64 := 0x3ff0000000000000

/-- `parseF64` is `str::parse::<f64>`. -/
def samplerFromEnv (parseF64 : String → Option UInt64) (env : Env) :
    Except String (Option TraceSampler) :=
  match env "OTEL_TRACES_SAMPLER" with
  | none => .ok none
  | some name =>
      let arg := env "OTEL_TRACES_SAMPLER_ARG"
      let ratio := (parseF64 (arg.getD "1.0")).getD ratioOne
      if name = "always_on" then .ok (some .alwaysOn)
      else if name = "always_off" then .ok (some .alwaysOff)
      else if name = "traceidratio" then .ok (some (.traceIdRatio ratio))
      else if name = "parentbased_always_on" then .ok (some (.parentBased .alwaysOn))
      else if name = "parentbased_always_off" then .ok (some (.parentBased .alwaysOff))
      else if name = "parentbased_traceidratio" then
        .ok (some (.parentBased (.traceIdRatio ratio)))
      else
        .error ("OTEL_TRACES_SAMPLER: unrecognised sampler name '" ++ name ++
          "'. Valid values: always_on, always_off, traceidratio, " ++
          "parentbased_always_on, parentbased_always_off, parentbased_traceidratio")

def resolveEndpoint (configured runtimeDefault : Option String) (fallback : String) : String :=
  (configured.or runtimeDefault).getD fallback

end OtelBootstrap.Builder
