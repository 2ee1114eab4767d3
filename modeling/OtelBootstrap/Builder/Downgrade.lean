import OtelBootstrap.Builder.Steps
import OtelBootstrap.Library.LastWrite

/-! # mTLS and what can undo it -/

namespace OtelBootstrap.Builder

open Attempt (bind_eq_ok)

/-! ## What the calls ask for -/

namespace Setter

/-- A snapshot or a live source. -/
def mtlsWrite : Setter → Option (MtlsMaterial ⊕ CertSource)
  | .mtls material => some (.inl material)
  | .mtlsSource source => some (.inr source)
  | _ => none

def protocolWrite : Setter → Option ExportProtocol
  | .mtls _ => some .grpc
  | .mtlsSource _ => some .grpc
  | .protocol value => some value
  | _ => none

def collectorIdWrite : Setter → Option String
  | .collectorSpiffeId id => some id
  | _ => none

end Setter

namespace TelemetryBuilder

variable (builder : TelemetryBuilder) (calls : List Setter)

theorem protocol_configure :
    (builder.configure calls).protocol =
      (lastWrite Setter.protocolWrite calls).or builder.protocol :=
  foldl_lastWrite_or set (·.protocol) Setter.protocolWrite (fun _ call => by cases call <;> rfl)
    builder calls

theorem collectorSpiffeId_configure :
    (builder.configure calls).collectorSpiffeId =
      (lastWrite Setter.collectorIdWrite calls).or builder.collectorSpiffeId :=
  foldl_lastWrite_or set (·.collectorSpiffeId) Setter.collectorIdWrite
    (fun _ call => by cases call <;> rfl) builder calls

/-- At most one of the two fields is set, by the last call that sets either. -/
theorem mtls_configure :
    ((builder.configure calls).mtls, (builder.configure calls).mtlsSource) =
      ((lastWrite Setter.mtlsWrite calls).map
        (Sum.elim (fun material => (some material, none)) fun source => (none, some source))).getD
          (builder.mtls, builder.mtlsSource) := by
  rw [← lastWrite_map]
  exact foldl_lastWrite set (fun b => (b.mtls, b.mtlsSource)) _
    (fun _ call => by cases call <;> rfl) builder calls

end TelemetryBuilder

/-! ## What the connections carry -/

/-- Who a connection presents and which collector it accepts. -/
structure Credentials where
  source : CertSource
  collectorId : Option String
  deriving DecidableEq, Repr

def ClientTlsConfig.material (tls : ClientTlsConfig) : MtlsMaterial where
  clientCertChainPem := tls.identityCert
  clientKeyPem := tls.identityKey
  trustBundlePem := tls.caCertificate

/-- What the connections of an exporter carry. `layersTls` tells for an endpoint whether
tonic puts a TLS configuration on its connections, which it does not for an `http` one; the
rotating connector always speaks TLS. -/
def OtlpExporter.credentials (layersTls : String → Bool) (exporter : OtlpExporter) :
    Option Credentials :=
  match exporter.protocol, exporter.tls with
  | .httpProtobuf, _ => none
  | .grpc, none => none
  | .grpc, some (.config tls) =>
      if layersTls exporter.endpoint then some ⟨.static tls.material, none⟩ else none
  | .grpc, some (.channel channel) =>
      some ⟨channel.connector.source, channel.connector.expectedId⟩

/-- An exporter is on the gRPC path, has the transport applied and carries the credentials. -/
structure Secured (layersTls : String → Bool) (transport : MtlsTransport)
    (credentials : Credentials) (exporter : OtlpExporter) : Prop where
  protocol : exporter.protocol = .grpc
  applied : exporter.tls = some transport.clientTls
  credentials : exporter.credentials layersTls = some credentials

/-- What the last of `with_mtls` and `with_mtls_source` asks for. -/
def credentialsOf (mtls : MtlsMaterial ⊕ CertSource) (collectorId : Option String) :
    Credentials :=
  ⟨mtls.elim .static id, collectorId⟩

/-! ## Transports -/

section Channel

variable {uris : UriLibrary} {endpoint : String} {source : CertSource}
  {timeout : Option Boot.Duration} {expectedId : Option String} {made : Channel}

/-- What `channel` makes of an endpoint that it accepts. -/
theorem channel_eq_ok_iff :
    channel uris endpoint source timeout expectedId = .ok made ↔
      ∃ parsed authority, uris.parse endpoint = .ok parsed ∧ parsed.authority = some authority ∧
        uris.fromShared ("http://" ++ authority) = .ok () ∧
        made =
          { endpoint := "http://" ++ authority, connectTimeout := 10000000000, timeout
            connector := { source, expectedId } } := by
  unfold channel
  constructor
  · intro h
    obtain ⟨parsed, hparse, h⟩ := bind_eq_ok.mp h
    obtain ⟨authority, hauthority, h⟩ := bind_eq_ok.mp h
    obtain ⟨_, hshared, h⟩ := bind_eq_ok.mp h
    refine ⟨parsed, authority, hparse, ?_, hshared, (Except.ok.inj h).symm⟩
    cases hsome : parsed.authority with
    | none =>
        rw [hsome] at hauthority
        cases hauthority
    | some _ =>
        rw [hsome] at hauthority
        exact congrArg some (Except.ok.inj hauthority)
  · rintro ⟨parsed, authority, hparse, hauthority, hshared, rfl⟩
    refine bind_eq_ok.mpr ⟨parsed, hparse, bind_eq_ok.mpr ⟨authority, ?_, ?_⟩⟩
    · rw [hauthority]
      rfl
    · exact bind_eq_ok.mpr ⟨(), hshared, rfl⟩

theorem channel_connector (h : channel uris endpoint source timeout expectedId = .ok made) :
    made.connector = ⟨source, expectedId⟩ := by
  obtain ⟨parsed, authority, -, -, -, rfl⟩ := channel_eq_ok_iff.mp h
  rfl

end Channel

namespace MtlsTransport

variable {uris : UriLibrary} {endpoint : String} {timeout : Option Boot.Duration}
  {transport : Option MtlsTransport}

/-- A source, or a snapshot with a pinned collector, is carried by the rotating connector. -/
theorem resolve_live {material : Option MtlsMaterial} {source : Option CertSource}
    {expectedId : Option String} {live : CertSource}
    (hlive : liveSource material source expectedId = some live)
    (h : resolve uris material source endpoint timeout expectedId = .ok transport) :
    ∃ channel, transport = some (.live channel) ∧ channel.connector = ⟨live, expectedId⟩ := by
  simp only [resolve, hlive] at h
  cases hchannel : channel uris endpoint live timeout expectedId with
  | error e =>
      rw [hchannel] at h
      cases h
  | ok channel =>
      rw [hchannel] at h
      cases h
      exact ⟨channel, rfl, channel_connector hchannel⟩

theorem resolve_snapshot (material : MtlsMaterial) :
    resolve uris (some material) none endpoint timeout none = .ok (some (.snapshot material)) :=
  rfl

/-- A transport that is over the rotating connector, or a snapshot of the material. -/
theorem resolve_cases {mtls : MtlsMaterial ⊕ CertSource} {collectorId : Option String}
    (h : resolve uris (mtls.elim some fun _ => none) (mtls.elim (fun _ => none) some) endpoint
      timeout collectorId = .ok transport) :
    (∃ channel, transport = some (.live channel) ∧
        channel.connector = ⟨(credentialsOf mtls collectorId).source, collectorId⟩ ∧
        (mtls.isRight ∨ collectorId.isSome)) ∨
      ∃ material, transport = some (.snapshot material) ∧
        credentialsOf mtls collectorId = ⟨.static material, none⟩ ∧
        ¬(mtls.isRight ∨ collectorId.isSome) := by
  cases mtls with
  | inr source =>
      obtain ⟨channel, htransport, hconnector⟩ := resolve_live rfl h
      exact Or.inl ⟨channel, htransport, hconnector, Or.inl rfl⟩
  | inl material =>
      cases collectorId with
      | some id =>
          obtain ⟨channel, htransport, hconnector⟩ := resolve_live rfl h
          exact Or.inl ⟨channel, htransport, hconnector, Or.inr rfl⟩
      | none =>
          have htransport := Except.ok.inj ((resolve_snapshot material).symm.trans h)
          exact Or.inr ⟨material, htransport.symm, rfl, by simp⟩

end MtlsTransport

/-! ## The exporters of `init` -/

section Exporters

variable {libs : Libraries} {host : Host} {builder : TelemetryBuilder} {wiring : Wiring}
  {mtls : MtlsMaterial ⊕ CertSource}

/-- The fields that a snapshot or a source, set last, leaves in the builder. -/
structure Asks (builder : TelemetryBuilder) (mtls : MtlsMaterial ⊕ CertSource) : Prop where
  material : builder.mtls = mtls.elim some fun _ => none
  source : builder.mtlsSource = mtls.elim (fun _ => none) some

theorem asks_configure {calls : List Setter} (start : TelemetryBuilder)
    (h : lastWrite Setter.mtlsWrite calls = some mtls) : Asks (start.configure calls) mtls := by
  have hpair := start.mtls_configure calls
  rw [h] at hpair
  cases mtls with
  | inl material => exact ⟨congrArg Prod.fst hpair, congrArg Prod.snd hpair⟩
  | inr source => exact ⟨congrArg Prod.fst hpair, congrArg Prod.snd hpair⟩

theorem exporter_protocol (signal : Signal) :
    (wiring.exporter signal).protocol = wiring.protocol := by
  unfold Wiring.exporter exporterOf
  cases wiring.protocol <;> cases wiring.mtls <;> rfl

theorem exporter_endpoint (signal : Signal) :
    (wiring.exporter signal).endpoint = wiring.endpoint := by
  unfold Wiring.exporter exporterOf
  cases wiring.protocol <;> cases wiring.mtls <;> rfl

theorem exporter_tls_of_grpc (signal : Signal) (h : wiring.protocol = .grpc) :
    (wiring.exporter signal).tls = wiring.mtls.map MtlsTransport.clientTls := by
  unfold Wiring.exporter exporterOf
  rw [h]
  cases wiring.mtls <;> rfl

/-- An exporter is secured exactly on the gRPC path over a connection that speaks TLS. -/
theorem secured_exporter_iff (layersTls : String → Bool)
    (hwiring : Resolves libs host builder wiring) (hasks : Asks builder mtls)
    (signal : Signal) :
    (∃ transport, wiring.mtls = some transport ∧ Secured layersTls transport
        (credentialsOf mtls builder.collectorSpiffeId) (wiring.exporter signal)) ↔
      wiring.protocol = .grpc ∧
        (mtls.isRight ∨ builder.collectorSpiffeId.isSome ∨ layersTls wiring.endpoint) := by
  have hresolve := hwiring.mtls
  unfold TelemetryBuilder.resolvedTransport at hresolve
  rw [hasks.material, hasks.source] at hresolve
  by_cases hgrpc : wiring.protocol = .grpc
  · have hprotocol : (wiring.exporter signal).protocol = .grpc :=
      (exporter_protocol signal).trans hgrpc
    have htls := exporter_tls_of_grpc signal hgrpc
    rcases MtlsTransport.resolve_cases hresolve with
      ⟨channel, htransport, hconnector, hlive⟩ | ⟨material, htransport, hcredentials, hlive⟩
    · rw [htransport] at htls
      refine iff_of_true ⟨_, htransport, hprotocol, htls, ?_⟩ ⟨hgrpc, ?_⟩
      · simp only [OtlpExporter.credentials, hprotocol, htls, Option.map_some,
          MtlsTransport.clientTls, hconnector]
        rfl
      · exact hlive.elim Or.inl fun h => Or.inr (Or.inl h)
    · rw [htransport] at htls
      have hcarried : (wiring.exporter signal).credentials layersTls =
          if layersTls wiring.endpoint then some ⟨.static material, none⟩ else none := by
        simp only [OtlpExporter.credentials, hprotocol, htls, Option.map_some,
          MtlsTransport.clientTls, exporter_endpoint]
        rfl
      rw [← or_assoc]
      simp only [hgrpc, hlive, false_or, true_and]
      constructor
      · intro ⟨transport, _, hsecured⟩
        by_contra hplain
        have hnone := hsecured.credentials
        rw [hcarried, if_neg hplain] at hnone
        cases hnone
      · intro hlayers
        refine ⟨_, htransport, hprotocol, htls, ?_⟩
        rw [hcarried, if_pos hlayers, hcredentials]
  · refine iff_of_false ?_ fun h => hgrpc h.1
    intro ⟨transport, _, hsecured⟩
    exact hgrpc ((exporter_protocol signal).symm.trans hsecured.protocol)

end Exporters

/-! ## Any sequence of calls -/

/-- One of the calls sets up mTLS. -/
def EnablesMtls (calls : List Setter) : Prop :=
  ∃ call ∈ calls, (∃ material, call = .mtls material) ∨ ∃ source, call = .mtlsSource source

namespace EnablesMtls

variable {calls : List Setter}

theorem exists_mtls (h : EnablesMtls calls) :
    ∃ mtls, lastWrite Setter.mtlsWrite calls = some mtls := by
  obtain ⟨call, hmem, hcall⟩ := h
  rcases hcall with ⟨material, rfl⟩ | ⟨source, rfl⟩
  · exact exists_lastWrite hmem rfl
  · exact exists_lastWrite hmem rfl

theorem exists_protocol (h : EnablesMtls calls) :
    ∃ protocol, lastWrite Setter.protocolWrite calls = some protocol := by
  obtain ⟨call, hmem, hcall⟩ := h
  rcases hcall with ⟨material, rfl⟩ | ⟨source, rfl⟩
  · exact exists_lastWrite hmem rfl
  · exact exists_lastWrite hmem rfl

/-- The environment has no say once mTLS is set up. -/
theorem resolvedProtocol_eq (h : EnablesMtls calls) (start : TelemetryBuilder) (env : Env) :
    (start.configure calls).resolvedProtocol env = .grpc ↔
      lastWrite Setter.protocolWrite calls = some .grpc := by
  obtain ⟨protocol, hprotocol⟩ := h.exists_protocol
  simp [TelemetryBuilder.resolvedProtocol, start.protocol_configure, hprotocol]

end EnablesMtls

/-- Where mTLS is set up, the exporters that `init` builds all carry it exactly when none is
built, or no later call leaves the gRPC path and the transport speaks TLS at the endpoint. -/
theorem never_downgraded_iff (layersTls : String → Bool) (libs : Libraries) (host : Host)
    (serviceName : Option String) (calls : List Setter) (process : Process)
    (henables : EnablesMtls calls) :
    let builder := TelemetryBuilder.configure { serviceName } calls
    let collectorId := lastWrite Setter.collectorIdWrite calls
    ∃ mtls, lastWrite Setter.mtlsWrite calls = some mtls ∧
      ∃ built, (builder.init libs host process).2.exporters = process.exporters ++ built ∧
        ((∀ exporter ∈ built, ∃ transport,
            builder.resolvedTransport libs host.env = .ok (some transport) ∧
            Secured layersTls transport (credentialsOf mtls collectorId) exporter) ↔
          EarlyFailure libs host builder ∨
            (lastWrite Setter.protocolWrite calls = some .grpc ∧
              (mtls.isRight ∨ collectorId.isSome ∨
                layersTls (builder.resolvedEndpoint host.env)))) := by
  intro builder collectorId
  obtain ⟨mtls, hmtls⟩ := henables.exists_mtls
  have hasks : Asks builder mtls := asks_configure _ hmtls
  have hid : builder.collectorSpiffeId = collectorId := by
    simp [builder, collectorId, TelemetryBuilder.collectorSpiffeId_configure]
  refine ⟨mtls, hmtls, ?_⟩
  rcases init_cases libs host builder process with ⟨hearly, e, hinit⟩ | ⟨hearly, h⟩
  · refine ⟨[], ?_, iff_of_true (by simp) (Or.inl hearly)⟩
    rw [hinit, List.append_nil]
  · obtain ⟨wiring, tracer, q, hwiring, hinstalled, hinit⟩ := h
    obtain ⟨later, hlater, hof⟩ := (finish_moves libs host builder wiring tracer q).exporters
    have hsecured := secured_exporter_iff layersTls hwiring hasks
    rw [hid, hwiring.protocol, hwiring.endpoint, henables.resolvedProtocol_eq] at hsecured
    simp only [hwiring.mtls, Except.ok.injEq, hearly, false_or]
    refine ⟨wiring.exporter .traces :: later, ?_, ?_⟩
    · rw [hinit, hlater, hinstalled.exporters, List.append_assoc]
      rfl
    constructor
    · intro hall
      exact (hsecured .traces).mp (hall _ List.mem_cons_self)
    · intro hcond exporter hmem
      rcases List.mem_cons.mp hmem with rfl | hlate
      · exact (hsecured .traces).mpr hcond
      · obtain ⟨signal, rfl⟩ := hof exporter hlate
        exact (hsecured signal).mpr hcond

/-! ## A protocol before and after mTLS -/

def sampleMaterial : MtlsMaterial := ⟨[1], [2], [3]⟩

/-- mTLS after a protocol, with a pinned collector: everything is carried by the connector. -/
theorem protocol_before_mtls_secured :
    let calls : List Setter :=
      [.protocol .httpProtobuf, .mtls sampleMaterial, .collectorSpiffeId "spiffe://td/collector"]
    let builder := TelemetryBuilder.configure { serviceName := some "svc" } calls
    ∃ built, (builder.init acceptingLibraries podHost
        freshProcess).2.exporters = [] ++ built ∧
      ∀ exporter ∈ built, ∃ transport,
        builder.resolvedTransport acceptingLibraries podHost.env = .ok (some transport) ∧
        Secured (fun _ => false) transport
          ⟨.static sampleMaterial, some "spiffe://td/collector"⟩ exporter := by
  intro calls builder
  have henables : EnablesMtls calls :=
    ⟨.mtls sampleMaterial, by simp [calls], Or.inl ⟨sampleMaterial, rfl⟩⟩
  obtain ⟨mtls, hmtls, built, hbuilt, hiff⟩ := never_downgraded_iff (fun _ => false)
    acceptingLibraries podHost (some "svc") calls freshProcess henables
  cases hmtls
  exact ⟨built, hbuilt, hiff.mpr (Or.inr ⟨rfl, Or.inr (Or.inl rfl)⟩)⟩

/-- Snapshot material, then `with_protocol`: init succeeds, and both exporters that it builds
speak HTTP without any of the material. -/
theorem protocol_after_mtls_downgrades :
    let calls : List Setter := [.mtls sampleMaterial, .protocol .httpProtobuf]
    let run := (TelemetryBuilder.configure (Telemetry.builder "svc") calls).init
      acceptingLibraries podHost freshProcess
    (∃ handles, run.1 = .ok handles) ∧ run.2.exporters.length = 2 ∧
      ∀ exporter ∈ run.2.exporters, exporter.protocol = .httpProtobuf ∧ exporter.tls = none ∧
        ∀ layersTls, exporter.credentials layersTls = none := by
  intro calls run
  refine ⟨⟨_, rfl⟩, rfl, ?_⟩
  intro exporter hmem
  have hexporters : run.2.exporters =
      [{ signal := .traces, protocol := .httpProtobuf, endpoint := "https://collector:4317"
         timeout := none },
        { signal := .metrics, protocol := .httpProtobuf, endpoint := "https://collector:4317"
          timeout := none }] := rfl
  rw [hexporters, List.mem_cons, List.mem_singleton] at hmem
  rcases hmem with rfl | rfl
  · exact ⟨rfl, rfl, fun _ => rfl⟩
  · exact ⟨rfl, rfl, fun _ => rfl⟩

end OtelBootstrap.Builder
