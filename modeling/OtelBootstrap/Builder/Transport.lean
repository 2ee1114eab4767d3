import OtelBootstrap.Builder.Settings

/-! # TLS transports and OTLP exporters -/

namespace OtelBootstrap.Builder

open Boot (Duration)

/-! ## Channels that take their material from a source -/

/-- What `http::Uri` gives of an endpoint. -/
structure Uri where
  authority : Option String
  host : Option String
  port : Option ℕ
  deriving DecidableEq, Repr

/-- The parts of `http` and `tonic` that decide whether a channel can be made. -/
structure UriLibrary where
  parse : String → Except String Uri
  fromShared : String → Except String Unit

/-- `Option::ok_or`. -/
def okOr {α : Type} (value : Option α) (error : String) : Except String α :=
  match value with
  | some a => .ok a
  | none => .error error

structure RotatingConnector where
  source : CertSource
  expectedId : Option String
  deriving DecidableEq, Repr

/-- A lazily connecting `tonic::transport::Channel`. -/
structure Channel where
  endpoint : String
  connectTimeout : Duration
  timeout : Option Duration
  connector : RotatingConnector
  deriving DecidableEq, Repr

def channel (uris : UriLibrary) (endpoint : String) (source : CertSource)
    (timeout : Option Duration) (expectedId : Option String) : Except String Channel := do
  let parsed ← uris.parse endpoint
  let authority ← okOr parsed.authority "OTLP endpoint has no host"
  uris.fromShared ("http://" ++ authority)
  return { endpoint := "http://" ++ authority, connectTimeout := 10000000000, timeout,
           connector := { source, expectedId } }

/-! ## Transports -/

inductive MtlsTransport where
  | snapshot (material : MtlsMaterial)
  | live (channel : Channel)
  deriving DecidableEq, Repr

namespace MtlsTransport

/-- The source that `resolve` builds a channel over. -/
def liveSource (material : Option MtlsMaterial) (source : Option CertSource)
    (expectedId : Option String) : Option CertSource :=
  match source, material, expectedId with
  | some source, _, _ => some source
  | none, some material, some _ => some (.static material)
  | _, _, _ => none

def resolve (uris : UriLibrary) (material : Option MtlsMaterial) (source : Option CertSource)
    (endpoint : String) (timeout : Option Duration) (expectedId : Option String) :
    Except String (Option MtlsTransport) :=
  match liveSource material source expectedId, material with
  | some source, _ =>
      match channel uris endpoint source timeout expectedId with
      | .error e => .error e
      | .ok channel => .ok (some (.live channel))
  | none, some material => .ok (some (.snapshot material))
  | none, none => .ok none

end MtlsTransport

/-- `tonic::transport::ClientTlsConfig`. -/
structure ClientTlsConfig where
  caCertificate : List UInt8
  identityCert : List UInt8
  identityKey : List UInt8
  deriving DecidableEq, Repr

def buildTlsConfig (material : MtlsMaterial) : ClientTlsConfig where
  caCertificate := material.trustBundlePem
  identityCert := material.clientCertChainPem
  identityKey := material.clientKeyPem

/-! ## Exporters -/

inductive Signal where
  | traces
  | metrics
  | logs
  deriving DecidableEq, Repr

/-- What `with_tls_config` or `with_channel` sets. -/
inductive ClientTls where
  | config (tls : ClientTlsConfig)
  | channel (channel : Channel)
  deriving DecidableEq, Repr

/-- An exporter of `opentelemetry_otlp`: the calls made on its builder. -/
structure OtlpExporter where
  signal : Signal
  protocol : ExportProtocol
  endpoint : String
  timeout : Option Duration
  tls : Option ClientTls := none
  deriving DecidableEq, Repr

def MtlsTransport.clientTls : MtlsTransport → ClientTls
  | .snapshot material => .config (buildTlsConfig material)
  | .live channel => .channel channel

def MtlsTransport.apply (self : MtlsTransport) (builder : OtlpExporter) : OtlpExporter :=
  { builder with tls := some self.clientTls }

/-- `build` is the exporter builder's own `build`. -/
abbrev ExporterLibrary := OtlpExporter → Except String Unit

/-- The builder that the exporter of a signal is built from. -/
def exporterOf (signal : Signal) (protocol : ExportProtocol) (endpoint : String)
    (timeout : Option Duration) (mtls : Option MtlsTransport) : OtlpExporter :=
  match protocol with
  | .grpc =>
      let b : OtlpExporter := { signal, protocol := .grpc, endpoint, timeout }
      match mtls with
      | none => b
      | some m => m.apply b
  | .httpProtobuf => { signal, protocol := .httpProtobuf, endpoint, timeout }

section Build

variable (build : ExporterLibrary) (protocol : ExportProtocol) (endpoint : String)
  (timeout : Option Duration) (mtls : Option MtlsTransport)

def buildExporter (signal : Signal) : Except String OtlpExporter := do
  let b := exporterOf signal protocol endpoint timeout mtls
  build b
  return b

def buildSpanExporter : Except String OtlpExporter :=
  buildExporter build protocol endpoint timeout mtls .traces

def buildMetricExporter : Except String OtlpExporter :=
  buildExporter build protocol endpoint timeout mtls .metrics

def buildLogExporter : Except String OtlpExporter :=
  buildExporter build protocol endpoint timeout mtls .logs

end Build

end OtelBootstrap.Builder
