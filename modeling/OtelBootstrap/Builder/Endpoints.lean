import OtelBootstrap.Builder.Steps

/-! # The URL each signal is sent to

The module documentation leaves the per-signal endpoint variables to the SDK, and the SDK
looks at them only when no endpoint is passed to it. -/

namespace OtelBootstrap.Builder

/-! ## Variables and paths -/

/-- The variable that names the endpoint of one signal. -/
def Signal.variable : Signal → String
  | .traces => "OTEL_EXPORTER_OTLP_TRACES_ENDPOINT"
  | .metrics => "OTEL_EXPORTER_OTLP_METRICS_ENDPOINT"
  | .logs => "OTEL_EXPORTER_OTLP_LOGS_ENDPOINT"

def Signal.path : Signal → String
  | .traces => "/v1/traces"
  | .metrics => "/v1/metrics"
  | .logs => "/v1/logs"

/-- How `opentelemetry_otlp` chooses a URL, given the endpoint passed with `with_endpoint`. -/
abbrev UrlRule := ExportProtocol → Signal → Option String → Env → String

/-- An endpoint that is passed is used verbatim, whatever the environment says. -/
def UrlRule.TakesPassed (rule : UrlRule) : Prop :=
  ∀ protocol signal endpoint env, rule protocol signal (some endpoint) env = endpoint

/-- All three builders call `with_endpoint`. -/
def OtlpExporter.url (rule : UrlRule) (env : Env) (exporter : OtlpExporter) : String :=
  rule exporter.protocol exporter.signal (some exporter.endpoint) env

namespace TelemetryBuilder

variable (builder : TelemetryBuilder) (env : Env)

/-- The builder that the exporter of a signal is built from. -/
def signalExporter (mtls : Option MtlsTransport) (signal : Signal) : OtlpExporter :=
  exporterOf signal (builder.resolvedProtocol env) (builder.resolvedEndpoint env)
    (builder.resolvedTimeout env) mtls

/-- The URL that the variables name: the signal's own, or the resolved endpoint with the
signal's path where the protocol has one. -/
def namedUrl (signal : Signal) : String :=
  match env signal.variable with
  | some url => url
  | none =>
      match builder.resolvedProtocol env with
      | .grpc => builder.resolvedEndpoint env
      | .httpProtobuf => builder.resolvedEndpoint env ++ signal.path

end TelemetryBuilder

/-! ## What is used -/

theorem exporterOf_endpoint (signal : Signal) (protocol : ExportProtocol) (endpoint : String)
    (timeout : Option Boot.Duration) (mtls : Option MtlsTransport) :
    (exporterOf signal protocol endpoint timeout mtls).endpoint = endpoint := by
  cases protocol with
  | grpc => cases mtls <;> rfl
  | httpProtobuf => rfl

/-- A path that is not empty changes the URL. -/
theorem ne_append_path (endpoint : String) (signal : Signal) :
    endpoint ≠ endpoint ++ signal.path := by
  intro h
  have hlength := congrArg String.length h
  rw [String.length_append] at hlength
  have hpath : 0 < signal.path.length := by
    cases signal <;> decide
  omega

/-- Whatever else is set, the exporters that `init` builds are those of the signals. -/
theorem init_exporters (libs : Libraries) (host : Host) (builder : TelemetryBuilder)
    (process : Process) :
    ∃ built, (builder.init libs host process).2.exporters = process.exporters ++ built ∧
      ∀ exporter ∈ built, ∃ mtls signal,
        builder.resolvedTransport libs host.env = .ok mtls ∧
          exporter = builder.signalExporter host.env mtls signal := by
  rcases init_cases libs host builder process with ⟨-, e, hinit⟩ | ⟨-, h⟩
  · refine ⟨[], ?_, by simp⟩
    rw [hinit, List.append_nil]
  · obtain ⟨wiring, tracer, q, hwiring, hinstalled, hinit⟩ := h
    obtain ⟨later, hlater, hof⟩ := (finish_moves libs host builder wiring tracer q).exporters
    have hexporter : ∀ signal,
        wiring.exporter signal = builder.signalExporter host.env wiring.mtls signal := by
      intro signal
      rw [Wiring.exporter, hwiring.protocol, hwiring.endpoint, hwiring.timeout]
      rfl
    refine ⟨wiring.exporter .traces :: later, ?_, ?_⟩
    · rw [hinit, hlater, hinstalled.exporters, List.append_assoc]
      rfl
    · intro exporter hmem
      rcases List.mem_cons.mp hmem with rfl | hlate
      · exact ⟨wiring.mtls, .traces, hwiring.mtls, hexporter .traces⟩
      · obtain ⟨signal, rfl⟩ := hof exporter hlate
        exact ⟨wiring.mtls, signal, hwiring.mtls, hexporter signal⟩

/-- The URL used for a signal is the one the variables name exactly when its own variable
repeats the resolved endpoint, or is unset on gRPC. -/
theorem named_url_iff {rule : UrlRule} (hpassed : rule.TakesPassed) (libs : Libraries)
    (host : Host) (builder : TelemetryBuilder) (process : Process) :
    (∃ built, (builder.init libs host process).2.exporters = process.exporters ++ built ∧
      ∀ exporter ∈ built, ∃ mtls signal,
        builder.resolvedTransport libs host.env = .ok mtls ∧
          exporter = builder.signalExporter host.env mtls signal) ∧
    ∀ mtls signal,
      (builder.signalExporter host.env mtls signal).url rule host.env =
          builder.namedUrl host.env signal ↔
        host.env signal.variable = some (builder.resolvedEndpoint host.env) ∨
          host.env signal.variable = none ∧ builder.resolvedProtocol host.env = .grpc := by
  refine ⟨init_exporters libs host builder process, ?_⟩
  intro mtls signal
  have hurl : (builder.signalExporter host.env mtls signal).url rule host.env =
      builder.resolvedEndpoint host.env := by
    rw [OtlpExporter.url, hpassed, TelemetryBuilder.signalExporter, exporterOf_endpoint]
  rw [hurl, TelemetryBuilder.namedUrl]
  cases hvariable : host.env signal.variable with
  | some url => simp [eq_comm]
  | none =>
      cases hprotocol : builder.resolvedProtocol host.env with
      | grpc => simp
      | httpProtobuf => simpa using ne_append_path _ signal

/-! ## Two environments -/

/-- The rule as the SDK documents it. -/
def sdkRule : UrlRule :=
  fun protocol signal passed env =>
    match passed with
    | some endpoint => endpoint
    | none =>
        match env signal.variable with
        | some url => url
        | none =>
            match env "OTEL_EXPORTER_OTLP_ENDPOINT", protocol with
            | some endpoint, .grpc => endpoint
            | some endpoint, .httpProtobuf => endpoint ++ signal.path
            | none, .grpc => "http://localhost:4317"
            | none, .httpProtobuf => "http://localhost:4318" ++ signal.path

theorem sdkRule_takesPassed : sdkRule.TakesPassed :=
  fun _ _ _ _ => rfl

/-- On gRPC, without a variable of their own, all signals go to the collector. -/
theorem grpc_named_url :
    ((Telemetry.builder "svc").signalExporter podHost.env none .logs).url sdkRule podHost.env =
      (Telemetry.builder "svc").namedUrl podHost.env .logs :=
  ((named_url_iff sdkRule_takesPassed acceptingLibraries podHost (Telemetry.builder "svc")
    freshProcess).2 none .logs).mpr (Or.inr ⟨rfl, by decide +kernel⟩)

/-- A collector of its own for the traces. -/
def tracesEnv : Env := fun name =>
  if name = "OTEL_EXPORTER_OTLP_TRACES_ENDPOINT" then some "http://traces:4318/v1/traces" else none

def httpBuilder : TelemetryBuilder :=
  (Telemetry.builder "svc").withProtocol .httpProtobuf

/-- The URL that a signal is sent to over HTTP. -/
def httpUrl (signal : Signal) : String :=
  (httpBuilder.signalExporter tracesEnv none signal).url sdkRule tracesEnv

/-- The variable of the traces is ignored, and all three signals go to one URL without a
path. -/
theorem variable_ignored :
    httpBuilder.namedUrl tracesEnv .traces = "http://traces:4318/v1/traces" ∧
      httpUrl .traces = "http://localhost:4318" ∧
      httpBuilder.namedUrl tracesEnv .metrics = "http://localhost:4318/v1/metrics" ∧
      httpUrl .metrics = "http://localhost:4318" ∧ httpUrl .logs = "http://localhost:4318" ∧
      httpUrl .traces ≠ httpBuilder.namedUrl tracesEnv .traces ∧
      httpUrl .metrics ≠ httpBuilder.namedUrl tracesEnv .metrics := by
  decide +kernel

end OtelBootstrap.Builder
