import OtelBootstrap.Middleware.Spans

/-! # One call of a tracing service

`call` starts a span, keeps it in a context and returns a future. The span ends when the
last clone of that context is dropped, so the model counts the clones: what the boxed block
has captured, what `with_context` holds, the guard that attaches the context during a poll,
and whatever clones the inner service takes of the context that is current. -/

namespace OtelBootstrap.Middleware

structure Response where
  status : ℕ
  headers : HeaderMap
  deriving DecidableEq, Repr

/-- `StatusCode::is_server_error`. -/
def Response.isServerError (self : Response) : Bool :=
  500 ≤ self.status && self.status < 600

inductive Service where
  | grpcClient
  | grpcServer
  | otelTrace
  deriving DecidableEq, Repr

/-- What happens to a call, in order; an end carries the span as it is exported. -/
inductive Mark where
  | innerCalled (req : Request)
  | innerPolled (current : Context)
  | resolved
  | futureDropped
  | ended (span : Span)
  deriving DecidableEq, Repr

inductive Phase where
  | unstarted
  | suspended
  | finished
  | dropped
  deriving DecidableEq, Repr

/-- What the inner service does with clones of the current context. -/
inductive InnerAct where
  | take
  | release
  deriving DecidableEq, Repr

section

variable {ε : Type}

/-- One poll of the inner future; no outcome is `Pending`. -/
structure Turn (ε : Type) where
  acts : List InnerAct
  outcome : Option (Except ε Response)

/-- A call whose future has been returned. `cx` is the context with the span, `clones` and
`innerClones` are its clones and those the inner service holds. -/
structure Flight (ε : Type) where
  service : Service
  request : Request
  cx : Context
  span : Span
  clones : ℕ := 1
  innerClones : ℕ := 0
  phase : Phase := .unstarted
  marks : List Mark := []
  result : Option (Except ε Response) := none

namespace Flight

/-! ## Clones -/

def mark (f : Flight ε) (m : Mark) : Flight ε :=
  { f with marks := f.marks ++ [m] }

def cloneCx (f : Flight ε) : Flight ε :=
  { f with clones := f.clones + 1 }

/-- Dropping the last clone ends the span. -/
def dropCx (f : Flight ε) : Flight ε :=
  let dropped := { f with clones := f.clones - 1 }
  if f.clones = 1 then dropped.mark (.ended f.span) else dropped

/-- `attached` tells whether `cx` is the current context. -/
def innerAct (attached : Bool) (f : Flight ε) : InnerAct → Flight ε
  | .take => if attached then { f.cloneCx with innerClones := f.innerClones + 1 } else f
  | .release =>
      if f.innerClones = 0 then f else { f.dropCx with innerClones := f.innerClones - 1 }

def pollInner (f : Flight ε) (current : Context) (attached : Bool) (turn : Turn ε) : Flight ε :=
  let polled := turn.acts.foldl (innerAct attached) (f.mark (.innerPolled current))
  if turn.outcome.isSome then polled.mark .resolved else polled

/-- `WithContext::poll` attaches a clone for the time of the poll. -/
def pollWithContext (f : Flight ε) (turn : Turn ε) : Flight ε :=
  (f.cloneCx.pollInner f.cx true turn).dropCx

def setStatus (f : Flight ε) (description : String) : Flight ε :=
  { f with span := { f.span with status := .error description } }

def setAttribute (f : Flight ε) (key : String) (value : Value) : Flight ε :=
  { f with span := { f.span with attributes := f.span.attributes ++ [(key, value)] } }

def finish (f : Flight ε) (result : Except ε Response) : Flight ε :=
  { f with phase := .finished, result := some result }

end Flight

/-! ## The three services -/

namespace GrpcClientTraceService

/-- `cx` is a local of `call`: nothing in the block names it. -/
def call (libs : Libraries) (ids : Ids) (current : Context) (req : Request) : Flight ε :=
  let span := startSpan ids current req
  let cx := current.withSpan span
  let request := { req with headers := libs.injectContext cx req.headers }
  Flight.dropCx { service := .grpcClient, request, cx, span }

def start (f : Flight ε) : Flight ε :=
  f.mark (.innerCalled f.request)

/-- The inner future is polled under whatever context the poll finds. -/
def resume (f : Flight ε) (ambient : Context) (turn : Turn ε) : Flight ε :=
  let f := f.pollInner ambient false turn
  match turn.outcome with
  | none => { f with phase := .suspended }
  | some outcome => f.finish outcome

end GrpcClientTraceService

namespace GrpcServerTraceService

/-- The block captures `cx`. -/
def call (libs : Libraries) (ids : Ids) (current : Context) (req : Request) : Flight ε :=
  let parentCx := libs.extract current req.headers
  let span := startSpan libs ids current req
  { service := .grpcServer, request := req, cx := parentCx.withSpan span, span }

def start (f : Flight ε) : Flight ε :=
  (f.mark (.innerCalled f.request)).cloneCx

def recordOutcome (libs : Libraries) (f : Flight ε) (outcome : Except ε Response) : Flight ε :=
  match outcome with
  | .ok resp =>
      if resp.isServerError then f.setStatus ((libs.canonicalReason resp.status).getD "") else f
  | .error _ => f.setStatus "transport error"

def resume (libs : Libraries) (f : Flight ε) (turn : Turn ε) : Flight ε :=
  let f := f.pollWithContext turn
  match turn.outcome with
  | none => { f with phase := .suspended }
  | some outcome => ((recordOutcome libs f.dropCx outcome).finish outcome).dropCx

end GrpcServerTraceService

namespace OtelTraceService

/-- The block captures `cx`. -/
def call (libs : Libraries) (ids : Ids) (current : Context) (req : Request) : Flight ε :=
  let parentCx := libs.extract current req.headers
  let span := startSpan libs ids current req
  { service := .otelTrace, request := req, cx := parentCx.withSpan span, span }

def start (f : Flight ε) : Flight ε :=
  (f.mark (.innerCalled f.request)).cloneCx

def recordResponse (libs : Libraries) (f : Flight ε) (response : Response) : Flight ε :=
  let f := f.setAttribute "http.response.status_code" (.i64 response.status)
  if response.isServerError then f.setStatus ((libs.canonicalReason response.status).getD "")
  else f

/-- An error leaves through `?`, before anything is recorded. -/
def resume (libs : Libraries) (f : Flight ε) (turn : Turn ε) : Flight ε :=
  let f := f.pollWithContext turn
  match turn.outcome with
  | none => { f with phase := .suspended }
  | some (.error e) => (f.dropCx.finish (.error e)).dropCx
  | some (.ok response) =>
      let f := recordResponse libs f.dropCx response
      let headers := libs.injectContext f.cx response.headers
      (f.finish (.ok { response with headers })).dropCx

end OtelTraceService

/-! ## The returned future -/

def Service.call (libs : Libraries) (ids : Ids) (current : Context) (req : Request) :
    Service → Flight ε
  | .grpcClient => GrpcClientTraceService.call libs ids current req
  | .grpcServer => GrpcServerTraceService.call libs ids current req
  | .otelTrace => OtelTraceService.call libs ids current req

namespace Flight

/-- The first time the block runs. -/
def start (f : Flight ε) : Flight ε :=
  match f.service with
  | .grpcClient => GrpcClientTraceService.start f
  | .grpcServer => GrpcServerTraceService.start f
  | .otelTrace => OtelTraceService.start f

def resume (libs : Libraries) (f : Flight ε) (ambient : Context) (turn : Turn ε) : Flight ε :=
  match f.service with
  | .grpcClient => GrpcClientTraceService.resume f ambient turn
  | .grpcServer => GrpcServerTraceService.resume libs f turn
  | .otelTrace => OtelTraceService.resume libs f turn

/-- A poll under the ambient context. A future that has resolved is not polled again. -/
def poll (libs : Libraries) (f : Flight ε) (ambient : Context) (turn : Turn ε) : Flight ε :=
  match f.phase with
  | .unstarted => f.start.resume libs ambient turn
  | .suspended => f.resume libs ambient turn
  | .finished => f
  | .dropped => f

/-- Drops what the block holds where it stands. -/
def drop (f : Flight ε) : Flight ε :=
  let gone := { f.mark .futureDropped with phase := .dropped }
  match f.phase, f.service with
  | .unstarted, .grpcClient => gone
  | .unstarted, _ => gone.dropCx
  | .suspended, .grpcClient => gone
  | .suspended, _ => gone.dropCx.dropCx
  | .finished, _ => f
  | .dropped, _ => f

end Flight

/-- `release` is a clone that the inner service, or a task of its own, drops between polls. -/
inductive Event (ε : Type) where
  | poll (ambient : Context) (turn : Turn ε)
  | drop
  | release

def Flight.step (libs : Libraries) (f : Flight ε) : Event ε → Flight ε
  | .poll ambient turn => f.poll libs ambient turn
  | .drop => f.drop
  | .release => f.innerAct false .release

def Flight.run (libs : Libraries) (f : Flight ε) (events : List (Event ε)) : Flight ε :=
  events.foldl (Flight.step libs) f

end

end OtelBootstrap.Middleware
