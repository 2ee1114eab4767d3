import Mathlib.Data.Nat.Notation

/-! # Contexts, spans and propagation

The SDK's part is what the middlewares rely on: a started span copies the trace id of the
span its parent context holds, whatever that is, and an extracted context is the current one
unless the headers name a remote span. -/

namespace OtelBootstrap.Middleware

abbrev TraceId := BitVec 128

abbrev SpanId := BitVec 64

structure SpanContext where
  traceId : TraceId
  spanId : SpanId
  isRemote : Bool := false
  deriving DecidableEq, Repr

def SpanContext.isValid (self : SpanContext) : Bool :=
  self.traceId ≠ 0 && self.spanId ≠ 0

/-- The span a context holds. -/
structure Context where
  span : Option SpanContext := none
  deriving DecidableEq, Repr

def Context.new : Context :=
  {}

/-- `span().span_context().is_valid()`; without a span, the context of the no-op span is not
valid. -/
def Context.hasValidSpan (self : Context) : Bool :=
  self.span.any SpanContext.isValid

/-! ## Spans -/

inductive SpanKind where
  | client
  | server
  deriving DecidableEq, Repr

inductive Value where
  | string (s : String)
  | i64 (n : ℕ)
  deriving DecidableEq, Repr

inductive Status where
  | unset
  | error (description : String)
  deriving DecidableEq, Repr

structure SpanBuilder where
  name : String
  kind : SpanKind
  attributes : List (String × Value) := []
  deriving DecidableEq, Repr

structure Span extends SpanBuilder where
  parent : Option SpanContext
  spanContext : SpanContext
  status : Status := .unset
  deriving DecidableEq, Repr

/-- What the SDK's id generator mints for one span. -/
structure Ids where
  traceId : TraceId
  spanId : SpanId
  deriving DecidableEq, Repr

/-- `start_with_context`. -/
def SpanBuilder.startWithContext (self : SpanBuilder) (ids : Ids) (parent : Context) : Span :=
  { self with
    parent := parent.span
    spanContext :=
      match parent.span with
      | some spanContext => { traceId := spanContext.traceId, spanId := ids.spanId }
      | none => { traceId := ids.traceId, spanId := ids.spanId } }

def Context.withSpan (_ : Context) (span : Span) : Context where
  span := some span.spanContext

theorem startWithContext_child (builder : SpanBuilder) (ids : Ids) {parent : Context}
    {spanContext : SpanContext} (h : parent.span = some spanContext) :
    (builder.startWithContext ids parent).spanContext.traceId = spanContext.traceId := by
  simp [SpanBuilder.startWithContext, h]

theorem startWithContext_root (builder : SpanBuilder) (ids : Ids) {parent : Context}
    (h : parent.span = none) :
    (builder.startWithContext ids parent).spanContext.traceId = ids.traceId := by
  simp [SpanBuilder.startWithContext, h]

/-! ## Headers -/

/-- The bytes of an `http::HeaderValue`. -/
abbrev HeaderValue := List UInt8

/-- `http::HeaderMap`; names are lower case. -/
abbrev HeaderMap := List (String × HeaderValue)

/-- `HeaderMap::insert`. -/
def HeaderMap.insert (headers : HeaderMap) (name : String) (value : HeaderValue) : HeaderMap :=
  headers.filter (·.1 ≠ name) ++ [(name, value)]

/-- What the middlewares take from packages: the global propagator, which reads a span context
through an extractor and writes it as text, and the conversions of `http`. -/
structure Libraries where
  extractSpanContext : (String → Option String) → Option SpanContext
  injectSpanContext : SpanContext → List (String × String)
  toStr : HeaderValue → Option String
  headerName : String → Option String
  headerValue : String → Option HeaderValue
  canonicalReason : ℕ → Option String

namespace Libraries

variable (self : Libraries)

/-- `MetadataExtractor::get` and `HeaderExtractor::get`. -/
def get (headers : HeaderMap) (key : String) : Option String :=
  (headers.lookup key).bind self.toStr

/-- `MetadataInjector::set` and `HeaderInjector::set`. -/
def set (headers : HeaderMap) (key value : String) : HeaderMap :=
  match self.headerName key, self.headerValue value with
  | some name, some val => headers.insert name val
  | _, _ => headers

/-- The span that the headers name. -/
def remote (headers : HeaderMap) : Option SpanContext :=
  self.extractSpanContext (self.get headers)

/-- `extract`, which starts from the current context. -/
def extract (current : Context) (headers : HeaderMap) : Context :=
  match self.remote headers with
  | some spanContext => { span := some { spanContext with isRemote := true } }
  | none => current

/-- `inject_context`. -/
def injectContext (cx : Context) (headers : HeaderMap) : HeaderMap :=
  match cx.span with
  | some spanContext =>
      (self.injectSpanContext spanContext).foldl (fun hs kv => self.set hs kv.1 kv.2) headers
  | none => headers

/-- Only a valid span context is ever read from headers. -/
def ExtractsValid : Prop :=
  ∀ get spanContext, self.extractSpanContext get = some spanContext → spanContext.isValid = true

end Libraries

end OtelBootstrap.Middleware
