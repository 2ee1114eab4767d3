import OtelBootstrap.Middleware.Context

/-! # The spans that the crate starts

Four places start a span, and each chooses its parent in its own way. -/

namespace OtelBootstrap.Middleware

structure Request where
  method : String
  path : String
  headers : HeaderMap
  deriving DecidableEq, Repr

/-! ## The four sites -/

structure Instrumented where
  portName : String
  providerHint : Option String
  deriving DecidableEq, Repr

namespace Instrumented

variable (self : Instrumented) (operation : String)

def spanBuilder : SpanBuilder where
  name := self.portName ++ "." ++ operation
  kind := .client
  attributes :=
    [("port.name", .string self.portName), ("port.operation", .string operation)] ++
      (match self.providerHint with
      | some hint => [("port.provider_hint", .string hint)]
      | none => [])

def startSpan (ids : Ids) (current : Context) : Span :=
  if current.hasValidSpan then (self.spanBuilder operation).startWithContext ids current
  else (self.spanBuilder operation).startWithContext ids Context.new

end Instrumented

namespace GrpcClientTraceService

def spanBuilder (req : Request) : SpanBuilder where
  name := req.path
  kind := .client

/-- `start` takes the current context as it is. -/
def startSpan (ids : Ids) (current : Context) (req : Request) : Span :=
  (spanBuilder req).startWithContext ids current

end GrpcClientTraceService

namespace GrpcServerTraceService

def spanBuilder (req : Request) : SpanBuilder where
  name := req.path
  kind := .server

def startSpan (libs : Libraries) (ids : Ids) (current : Context) (req : Request) :
    Span :=
  let parentCx := libs.extract current req.headers
  (spanBuilder req).startWithContext ids parentCx

end GrpcServerTraceService

namespace OtelTraceService

def spanBuilder (req : Request) : SpanBuilder where
  name := req.method ++ " " ++ req.path
  kind := .server
  attributes := [("http.request.method", .string req.method)]

def startSpan (libs : Libraries) (ids : Ids) (current : Context) (req : Request) :
    Span :=
  let parentCx := libs.extract current req.headers
  (spanBuilder req).startWithContext ids parentCx

end OtelTraceService

/-! ## Any site -/

/-- A call that starts a span. -/
inductive Site where
  | portCall (port : Instrumented) (operation : String)
  | grpcClient (req : Request)
  | grpcServer (req : Request)
  | otelTrace (req : Request)
  deriving DecidableEq, Repr

namespace Site

variable (libs : Libraries) (ids : Ids) (current : Context)

def span : Site → Span
  | .portCall port operation => port.startSpan operation ids current
  | .grpcClient req => GrpcClientTraceService.startSpan ids current req
  | .grpcServer req => GrpcServerTraceService.startSpan libs ids current req
  | .otelTrace req => OtelTraceService.startSpan libs ids current req

def builder : Site → SpanBuilder
  | .portCall port operation => port.spanBuilder operation
  | .grpcClient req => GrpcClientTraceService.spanBuilder req
  | .grpcServer req => GrpcServerTraceService.spanBuilder req
  | .otelTrace req => OtelTraceService.spanBuilder req

/-- The parent that the site chooses. -/
def parent : Site → Context
  | .portCall _ _ => if current.hasValidSpan then current else Context.new
  | .grpcClient _ => current
  | .grpcServer req => libs.extract current req.headers
  | .otelTrace req => libs.extract current req.headers

theorem span_eq (site : Site) :
    site.span libs ids current =
      site.builder.startWithContext ids (site.parent libs current) := by
  cases site with
  | portCall port operation =>
      by_cases h : current.hasValidSpan = true
      · simp [span, Instrumented.startSpan, builder, parent, h]
      · simp [span, Instrumented.startSpan, builder, parent, h]
  | grpcClient req => rfl
  | grpcServer req => rfl
  | otelTrace req => rfl

/-- A server site whose headers name a remote span. -/
def namesRemote : Site → Bool
  | .portCall _ _ => false
  | .grpcClient _ => false
  | .grpcServer req => (libs.remote req.headers).isSome
  | .otelTrace req => (libs.remote req.headers).isSome

end Site

/-! ## Trace ids -/

/-- The trace id is not zero, and is the parent's if that is valid. -/
structure Traceable (parent : Context) (span : Span) : Prop where
  nonzero : span.spanContext.traceId ≠ 0
  inherited : ∀ spanContext, parent.span = some spanContext → spanContext.isValid = true →
    span.spanContext.traceId = spanContext.traceId

/-- The context holds no span with a zero trace id. -/
def Context.Traced (cx : Context) : Prop :=
  ∀ spanContext, cx.span = some spanContext → spanContext.traceId ≠ 0

section

variable {ids : Ids} (hids : ids.traceId ≠ 0)

include hids in
/-- A zero trace id is only ever copied. -/
theorem traceable_start_iff (builder : SpanBuilder) (parent : Context) :
    Traceable parent (builder.startWithContext ids parent) ↔ parent.Traced := by
  constructor
  · intro h spanContext hspan hzero
    apply h.nonzero
    rw [startWithContext_child builder ids hspan, hzero]
  · intro htraced
    refine ⟨?_, ?_⟩
    · cases h : parent.span with
      | none =>
          rw [startWithContext_root builder ids h]
          exact hids
      | some spanContext =>
          rw [startWithContext_child builder ids h]
          exact htraced spanContext h
    · intro spanContext hspan _
      exact startWithContext_child builder ids hspan

end

theorem traced_of_valid {cx : Context} {spanContext : SpanContext}
    (hspan : cx.span = some spanContext) (hvalid : spanContext.isValid = true) : cx.Traced := by
  intro other hother
  rw [hspan] at hother
  cases hother
  simp only [SpanContext.isValid, Bool.and_eq_true, decide_eq_true_eq] at hvalid
  exact hvalid.1

theorem traced_new : Context.new.Traced := by
  intro spanContext h
  cases h

/-- An extracted context is traced when the headers name a span or the current one is. -/
theorem traced_extract_iff {libs : Libraries}
    (hvalid : libs.ExtractsValid) (current : Context) (headers : HeaderMap) :
    (libs.extract current headers).Traced ↔
      current.Traced ∨ (libs.remote headers).isSome = true := by
  cases h : libs.remote headers with
  | none => simp [Libraries.extract, h]
  | some spanContext =>
      have hspan : (libs.extract current headers).span =
          some { spanContext with isRemote := true } := by
        simp [Libraries.extract, h]
      have hremote : spanContext.isValid = true := hvalid _ _ h
      simpa using traced_of_valid hspan hremote

/-- The chosen parent is traced at a port call, under a traced context, and at a server whose
headers name a remote span. -/
theorem traced_parent_iff {libs : Libraries} (hvalid : libs.ExtractsValid)
    (current : Context) (site : Site) :
    (site.parent libs current).Traced ↔
      (∃ port operation, site = .portCall port operation) ∨ current.Traced ∨
        site.namesRemote libs = true := by
  cases site with
  | portCall port operation =>
      refine iff_of_true ?_ (Or.inl ⟨port, operation, rfl⟩)
      by_cases h : current.hasValidSpan = true
      · simp only [Site.parent, h, if_true]
        cases hspan : current.span with
        | none => simp [Context.hasValidSpan, hspan] at h
        | some spanContext =>
            have hvalid : spanContext.isValid = true := by
              simpa [Context.hasValidSpan, hspan] using h
            exact traced_of_valid hspan hvalid
      · simp only [Site.parent, h]
        exact traced_new
  | grpcClient req => simp [Site.parent, Site.namesRemote]
  | grpcServer req => simpa [Site.parent, Site.namesRemote] using traced_extract_iff hvalid _ _
  | otelTrace req => simpa [Site.parent, Site.namesRemote] using traced_extract_iff hvalid _ _

/-- The span a site starts has a trace id of its own, or its valid parent's, exactly at a port
call, under a context without a zero trace id, or at a server with a remote parent. -/
theorem traceable_iff {libs : Libraries} {ids : Ids}
    (hvalid : libs.ExtractsValid) (hids : ids.traceId ≠ 0) (current : Context)
    (site : Site) :
    Traceable (site.parent libs current) (site.span libs ids current) ↔
      (∃ port operation, site = .portCall port operation) ∨
        (∀ spanContext, current.span = some spanContext → spanContext.traceId ≠ 0) ∨
        site.namesRemote libs = true := by
  rw [Site.span_eq, traceable_start_iff hids, traced_parent_iff hvalid]
  rfl

/-! ## Samples -/

/-- Reads a `traceparent` of the form `00-…`, as one fixed remote span. -/
def sampleLibraries : Libraries where
  extractSpanContext get :=
    if get "traceparent" = some "00-0af7651916cd43dd8448eb211c80319c-b7ad6b7169203331-01" then
      some { traceId := 0x0af7651916cd43dd8448eb211c80319c, spanId := 0xb7ad6b7169203331 }
    else none
  injectSpanContext _ := []
  toStr value := some (String.ofList (value.map fun b => Char.ofNat b.toNat))
  headerName name := some name
  headerValue text := some (text.toList.map fun c => UInt8.ofNat c.toNat)
  canonicalReason code := if code = 500 then some "Internal Server Error" else none

theorem sampleLibraries_extractsValid : sampleLibraries.ExtractsValid := by
  intro get spanContext h
  simp only [sampleLibraries] at h
  split at h
  · cases h
    decide
  · cases h

/-- Background code whose context holds a span with the invalid context. -/
def zeroContext : Context :=
  { span := some { traceId := 0, spanId := 0 } }

def sampleIds : Ids := ⟨7, 9⟩

theorem sampleIds_nonzero : sampleIds.traceId ≠ 0 := by
  decide

def plainRequest : Request := ⟨"POST", "/svc/Get", []⟩

/-- A port call under the invalid span starts a trace of its own. -/
theorem portCall_traceable :
    Traceable Context.new
      ((Site.portCall ⟨"KmsProvider", none⟩ "wrap").span sampleLibraries sampleIds
        zeroContext) :=
  (traceable_iff sampleLibraries_extractsValid sampleIds_nonzero zeroContext
    (.portCall ⟨"KmsProvider", none⟩ "wrap")).mpr (Or.inl ⟨_, _, rfl⟩)

/-- The trace id that a site gives its span under the invalid span. -/
def traceIdUnderZero (site : Site) : TraceId :=
  (site.span sampleLibraries sampleIds zeroContext).spanContext.traceId

/-- The other three sites copy the zero trace id when the headers carry no trace context. -/
theorem zero_trace_copied :
    traceIdUnderZero (.grpcClient plainRequest) = 0 ∧
      traceIdUnderZero (.grpcServer plainRequest) = 0 ∧
        traceIdUnderZero (.otelTrace plainRequest) = 0 := by
  decide

end OtelBootstrap.Middleware
