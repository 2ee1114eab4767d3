import Mathlib.Data.List.Chain
import OtelBootstrap.Library.Hex
import OtelBootstrap.Middleware.Flight

/-! # A trace across any number of hops

Work goes down through port calls and from process to process through requests. Each hop
starts its spans under what the hop before has made current, or has written into the headers. -/

namespace OtelBootstrap.Middleware

/-! ## Through the headers -/

/-- What the propagator and `http` document: the fields that a valid span context is written
as have distinct names and are accepted as headers, and a reader that finds them reads that
span context. -/
structure Libraries.Propagates (libs : Libraries) : Prop where
  distinct : ∀ sc, ((libs.injectSpanContext sc).map Prod.fst).Nodup
  name : ∀ sc, ∀ kv ∈ libs.injectSpanContext sc, libs.headerName kv.1 = some kv.1
  value : ∀ sc, ∀ kv ∈ libs.injectSpanContext sc, ∃ value, libs.headerValue kv.2 = some value ∧
    libs.toStr value = some kv.2
  read : ∀ sc get, sc.isValid = true → (∀ kv ∈ libs.injectSpanContext sc, get kv.1 = some kv.2) →
    ∃ remote, libs.extractSpanContext get = some remote ∧ remote.traceId = sc.traceId ∧
      remote.spanId = sc.spanId

theorem HeaderMap.lookup_filter (headers : HeaderMap) (name key : String) :
    (headers.filter (·.1 ≠ name)).lookup key =
      if key = name then none else headers.lookup key := by
  induction headers with
  | nil => simp
  | cons kv headers ih =>
      by_cases hname : kv.1 = name
      · rw [List.filter_cons_of_neg (by simpa using hname), ih]
        split
        · rfl
        · rename_i hkey
          have hother : (key == kv.1) = false := by simpa [hname] using hkey
          rw [List.lookup_cons, hother]
      · rw [List.filter_cons_of_pos (by simpa using hname), List.lookup_cons, List.lookup_cons, ih]
        by_cases hkey : key = kv.1
        · subst hkey
          simp [hname]
        · have hother : (key == kv.1) = false := by simpa using hkey
          rw [hother]

theorem HeaderMap.lookup_insert (headers : HeaderMap) (name key : String) (value : HeaderValue) :
    (headers.insert name value).lookup key =
      if key = name then some value else headers.lookup key := by
  rw [HeaderMap.insert, List.lookup_append, HeaderMap.lookup_filter]
  by_cases hkey : key = name
  · simp [hkey]
  · have hother : (key == name) = false := by simpa using hkey
    simp [hkey, hother, List.lookup_cons]

namespace Libraries

variable {libs : Libraries}

theorem get_set {headers : HeaderMap} {name text : String} {value : HeaderValue}
    (hname : libs.headerName name = some name) (hvalue : libs.headerValue text = some value)
    (key : String) :
    libs.get (libs.set headers name text) key =
      if key = name then libs.toStr value else libs.get headers key := by
  rw [Libraries.set, hname, hvalue, get, HeaderMap.lookup_insert]
  split <;> rfl

/-- Fields under distinct names are all there, whatever stood there before. -/
theorem get_foldl_set {fields : List (String × String)}
    (hdistinct : (fields.map Prod.fst).Nodup)
    (hname : ∀ kv ∈ fields, libs.headerName kv.1 = some kv.1)
    (hvalue : ∀ kv ∈ fields, ∃ value, libs.headerValue kv.2 = some value ∧
      libs.toStr value = some kv.2) (headers : HeaderMap) (key : String) :
    libs.get (fields.foldl (fun hs kv => libs.set hs kv.1 kv.2) headers) key =
      ((fields.lookup key).or (libs.get headers key)) := by
  induction fields generalizing headers with
  | nil => rfl
  | cons kv fields ih =>
      rw [List.map_cons, List.nodup_cons] at hdistinct
      obtain ⟨value, hheader, hback⟩ := hvalue kv List.mem_cons_self
      rw [List.foldl_cons, ih hdistinct.2 (fun kv' h => hname kv' (List.mem_cons_of_mem kv h))
        (fun kv' h => hvalue kv' (List.mem_cons_of_mem kv h)),
        get_set (hname kv List.mem_cons_self) hheader, List.lookup_cons]
      by_cases hkey : key = kv.1
      · subst hkey
        have hnone : fields.lookup kv.1 = none := by
          rw [List.lookup_eq_none_iff]
          intro kv' hkv'
          have hne : kv.1 ≠ kv'.1 := by
            intro he
            exact hdistinct.1 (he ▸ List.mem_map_of_mem hkv')
          simpa using hne
        simp [hnone, hback]
      · have hother : (key == kv.1) = false := by simpa using hkey
        simp [hkey, hother]

theorem lookup_of_mem {fields : List (String × String)} (hdistinct : (fields.map Prod.fst).Nodup)
    {kv : String × String} (hkv : kv ∈ fields) : fields.lookup kv.1 = some kv.2 := by
  induction fields with
  | nil => cases hkv
  | cons kv' fields ih =>
      rw [List.map_cons, List.nodup_cons] at hdistinct
      rcases List.mem_cons.mp hkv with rfl | hrest
      · rw [List.lookup_cons, beq_self_eq_true]
      · have hother : (kv.1 == kv'.1) = false := by
          rw [beq_eq_false_iff_ne]
          intro he
          exact hdistinct.1 (he ▸ List.mem_map_of_mem hrest)
        rw [List.lookup_cons, hother]
        exact ih hdistinct.2 hrest

/-- What a client has injected is what a server extracts, under any context of its own, and
whatever trace context the request already carried. -/
theorem Propagates.extract_inject (hp : libs.Propagates) {sc : SpanContext}
    (hvalid : sc.isValid = true) {cx : Context} (hcx : cx.span = some sc) (current : Context)
    (headers : HeaderMap) :
    ∃ remote, (libs.extract current (libs.injectContext cx headers)).span = some remote ∧
      remote.traceId = sc.traceId ∧ remote.spanId = sc.spanId := by
  have hfields : ∀ kv ∈ libs.injectSpanContext sc,
      libs.get (libs.injectContext cx headers) kv.1 = some kv.2 := by
    intro kv hkv
    rw [injectContext, hcx, get_foldl_set (hp.distinct sc) (hp.name sc) (hp.value sc),
      lookup_of_mem (hp.distinct sc) hkv, Option.some_or]
  obtain ⟨remote, hremote, htrace, hspan⟩ := hp.read sc _ hvalid hfields
  refine ⟨{ remote with isRemote := true }, ?_, htrace, hspan⟩
  simp [Libraries.extract, Libraries.remote, hremote]

end Libraries

/-! ## A propagator -/

/-- The header of W3C trace context: the version, both ids in hexadecimal and the flags. -/
def traceparent (sc : SpanContext) : String :=
  String.ofList (['0', '0', '-'] ++ Hex.digits 32 sc.traceId.toNat ++ ['-'] ++
    Hex.digits 16 sc.spanId.toNat ++ ['-', '0', '1'])

def readTraceparent (text : String) : Option SpanContext :=
  let sc : SpanContext :=
    { traceId := .ofNat 128 (Hex.value ((text.toList.drop 3).take 32))
      spanId := .ofNat 64 (Hex.value ((text.toList.drop 36).take 16)) }
  if text.toList.length = 55 && sc.isValid then some sc else none

theorem readTraceparent_traceparent {sc : SpanContext} (h : sc.isValid = true) :
    readTraceparent (traceparent sc) = some { traceId := sc.traceId, spanId := sc.spanId } := by
  have hcut : ∀ front field back : List Char,
      ((front ++ field ++ back).drop front.length).take field.length = field := by simp
  have htrace : ((traceparent sc).toList.drop 3).take 32 = Hex.digits 32 sc.traceId.toNat := by
    simp [traceparent]
  have hspan : ((traceparent sc).toList.drop 36).take 16 = Hex.digits 16 sc.spanId.toNat := by
    have h := hcut (['0', '0', '-'] ++ Hex.digits 32 sc.traceId.toNat ++ ['-'])
      (Hex.digits 16 sc.spanId.toNat) ['-', '0', '1']
    simpa [traceparent] using h
  have hlength : (traceparent sc).toList.length = 55 := by
    simp [traceparent]
  have hids : BitVec.ofNat 128 (Hex.value (Hex.digits 32 sc.traceId.toNat)) = sc.traceId ∧
      BitVec.ofNat 64 (Hex.value (Hex.digits 16 sc.spanId.toNat)) = sc.spanId := by
    rw [Hex.value_digits_of_lt (by simpa using sc.traceId.isLt),
      Hex.value_digits_of_lt (by simpa using sc.spanId.isLt)]
    simp
  have hvalid : ({ traceId := sc.traceId, spanId := sc.spanId } : SpanContext).isValid = true := h
  simp [readTraceparent, htrace, hspan, hlength, hids.1, hids.2, hvalid]

/-- The `traceparent` of a valid span context, and an empty `tracestate`; header values are
visible ASCII. -/
def w3cLibraries : Libraries where
  extractSpanContext get := (get "traceparent").bind readTraceparent
  injectSpanContext sc :=
    if sc.isValid then [("traceparent", traceparent sc), ("tracestate", "")] else []
  toStr value := some (String.ofList (value.map fun b => Char.ofNat b.toNat))
  headerName name := some name
  headerValue text :=
    if text.toList.all fun c => 32 ≤ c.toNat && c.toNat < 127 then
      some (text.toList.map fun c => UInt8.ofNat c.toNat)
    else none
  canonicalReason _ := none

/-- Visible text is a header value that reads back as that text. -/
theorem w3cLibraries_value {text : String}
    (h : ∀ c ∈ text.toList, 32 ≤ c.toNat ∧ c.toNat < 127) :
    ∃ value, w3cLibraries.headerValue text = some value ∧
      w3cLibraries.toStr value = some text := by
  have hall : (text.toList.all fun c => 32 ≤ c.toNat && c.toNat < 127) = true := by
    rw [List.all_eq_true]
    intro c hc
    simpa using h c hc
  refine ⟨_, if_pos hall, ?_⟩
  have hback : (text.toList.map fun c => UInt8.ofNat c.toNat).map (fun b => Char.ofNat b.toNat) =
      text.toList := by
    rw [List.map_map, List.map_congr_left (g := id), List.map_id]
    intro c hc
    have hbyte : (UInt8.ofNat c.toNat).toNat = c.toNat := by
      have hc' := (h c hc).2
      simp only [UInt8.toNat_ofNat']
      omega
    rw [Function.comp_apply, hbyte, Char.ofNat_toNat, id_eq]
  simp only [w3cLibraries, hback, String.ofList_toList]

theorem traceparent_visible (sc : SpanContext) :
    ∀ c ∈ (traceparent sc).toList, 32 ≤ c.toNat ∧ c.toNat < 127 := by
  have hdigit : ∀ d < 16, 32 ≤ d.digitChar.toNat ∧ d.digitChar.toNat < 127 := by decide
  have hdigits : ∀ width n, ∀ c ∈ Hex.digits width n, 32 ≤ c.toNat ∧ c.toNat < 127 := by
    intro width n c hc
    obtain ⟨d, hd, rfl⟩ := Hex.digit_of_mem_digits hc
    exact hdigit d hd
  rw [traceparent, String.toList_ofList]
  simp only [List.forall_mem_append]
  exact ⟨⟨⟨⟨by simp, hdigits _ _⟩, by simp⟩, hdigits _ _⟩, by simp⟩

theorem w3cLibraries_propagates : w3cLibraries.Propagates where
  distinct sc := by
    simp only [w3cLibraries]
    split <;> simp
  name _ _ _ := rfl
  value sc := by
    intro kv hkv
    simp only [w3cLibraries] at hkv
    split at hkv
    · simp only [List.mem_cons, List.not_mem_nil, or_false] at hkv
      rcases hkv with rfl | rfl
      · exact w3cLibraries_value (traceparent_visible sc)
      · exact w3cLibraries_value (by simp)
    · cases hkv
  read sc get hvalid hget := by
    have hparent : get "traceparent" = some (traceparent sc) :=
      hget ("traceparent", traceparent sc) (by simp [w3cLibraries, hvalid])
    refine ⟨{ traceId := sc.traceId, spanId := sc.spanId }, ?_, rfl, rfl⟩
    change (get "traceparent").bind readTraceparent = _
    rw [hparent, Option.bind_some, readTraceparent_traceparent hvalid]

/-! ## Hops -/

/-- The two middlewares that a request can arrive at. -/
inductive Server where
  | grpc
  | axum
  deriving DecidableEq, Repr

def Server.service : Server → Service
  | .grpc => .grpcServer
  | .axum => .otelTrace

/-- `ambient` is what is current where the request arrives. -/
inductive Hop where
  | portCall (port : Instrumented) (operation : String) (ids : Ids)
  | request (req : Request) (clientIds : Ids) (server : Server) (ambient : Context)
      (serverIds : Ids)
  deriving DecidableEq, Repr

def Hop.ids : Hop → List Ids
  | .portCall _ _ ids => [ids]
  | .request _ clientIds _ _ serverIds => [clientIds, serverIds]

variable (libs : Libraries)

/-- The spans that a hop starts, and the context that is current behind it. -/
def Hop.follow (current : Context) : Hop → List Span × Context
  | .portCall port operation ids =>
      let span := port.startSpan operation ids current
      ([span], current.withSpan span)
  | .request req clientIds server ambient serverIds =>
      let sent : Flight Unit := Service.grpcClient.call libs clientIds current req
      let served : Flight Unit := server.service.call libs serverIds ambient sent.request
      ([sent.span, served.span], served.cx)

def walk (current : Context) : List Hop → List Span × Context
  | [] => ([], current)
  | hop :: hops =>
      let (spans, inner) := hop.follow libs current
      let (rest, last) := walk inner hops
      (spans ++ rest, last)

/-- `span` is a child of the span with that context. -/
def ChildOf (sc : SpanContext) (span : Span) : Prop :=
  ∃ parent, span.parent = some parent ∧ parent.traceId = sc.traceId ∧ parent.spanId = sc.spanId

/-- The context holds a valid span or none. -/
def Context.Sound (cx : Context) : Prop :=
  ∀ sc, cx.span = some sc → sc.isValid = true

/-- A stretch of one trace: it goes on from what `current` holds, and what it leaves current
holds its last span. -/
structure Stretch (current : Context) (t : TraceId) (spans : List Span) (inner : Context) :
    Prop where
  nonzero : t ≠ 0
  trace : ∀ span ∈ spans, span.spanContext.traceId = t
  same : ∀ sc, current.span = some sc → sc.traceId = t
  linked : spans.IsChain fun span next => ChildOf span.spanContext next
  child : ∀ span ∈ spans.head?, ∀ sc, current.span = some sc → ChildOf sc span
  root : ∀ span ∈ spans.head?, current.span = none → span.parent = none
  left : inner.span = (spans.getLast?.map (·.spanContext)).or current.span
  sound : inner.Sound

theorem SpanContext.isValid_iff {sc : SpanContext} :
    sc.isValid = true ↔ sc.traceId ≠ 0 ∧ sc.spanId ≠ 0 := by
  simp [SpanContext.isValid]

theorem startWithContext_valid (builder : SpanBuilder) {ids : Ids}
    (hids : ids.traceId ≠ 0 ∧ ids.spanId ≠ 0) {parent : Context} (hsound : parent.Sound) :
    (builder.startWithContext ids parent).spanContext.isValid = true := by
  rw [SpanContext.isValid_iff]
  cases hparent : parent.span with
  | none => simpa [SpanBuilder.startWithContext, hparent] using hids
  | some sc =>
      have htrace := (SpanContext.isValid_iff.mp (hsound sc hparent)).1
      simpa [SpanBuilder.startWithContext, hparent] using ⟨htrace, hids.2⟩

/-- One span that is started under the current context. -/
theorem Stretch.single (builder : SpanBuilder) {ids : Ids}
    (hids : ids.traceId ≠ 0 ∧ ids.spanId ≠ 0) {current : Context} (hsound : current.Sound) :
    Stretch current (builder.startWithContext ids current).spanContext.traceId
      [builder.startWithContext ids current]
      (current.withSpan (builder.startWithContext ids current)) where
  nonzero := (SpanContext.isValid_iff.mp (startWithContext_valid builder hids hsound)).1
  trace := by simp
  same sc h := (startWithContext_child builder ids h).symm
  linked := by simp
  child := by
    intro span hspan sc hsc
    obtain rfl := Option.some.inj hspan
    exact ⟨sc, hsc, rfl, rfl⟩
  root := by
    intro span hspan hnone
    obtain rfl := Option.some.inj hspan
    exact hnone
  left := by simp [Context.withSpan]
  sound := by
    intro sc hsc
    obtain rfl := Option.some.inj hsc
    exact startWithContext_valid builder hids hsound

/-- What begins under the span that a stretch has left current goes on with its trace. -/
theorem Stretch.append {current inner last : Context} {t t' : TraceId} {spans rest : List Span}
    (h : Stretch current t spans inner) (hne : spans ≠ []) (h' : Stretch inner t' rest last) :
    Stretch current t (spans ++ rest) last := by
  have hinner : inner.span = some (spans.getLast hne).spanContext := by
    rw [h.left, List.getLast?_eq_some_getLast hne]
    rfl
  have hsame : t' = t := by
    rw [← h'.same _ hinner]
    exact h.trace _ (List.getLast_mem hne)
  subst hsame
  refine ⟨h.nonzero, ?_, h.same, ?_, ?_, ?_, ?_, h'.sound⟩
  · intro span hspan
    rcases List.mem_append.mp hspan with hspan | hspan
    · exact h.trace span hspan
    · exact h'.trace span hspan
  · rw [List.isChain_append]
    refine ⟨h.linked, h'.linked, ?_⟩
    intro span hspan next hnext
    rw [List.getLast?_eq_some_getLast hne] at hspan
    obtain rfl := Option.some.inj hspan
    exact h'.child next hnext _ hinner
  · intro span hspan
    rw [List.head?_append_of_ne_nil _ hne] at hspan
    exact h.child span hspan
  · intro span hspan
    rw [List.head?_append_of_ne_nil _ hne] at hspan
    exact h.root span hspan
  · rw [h'.left, h.left, List.getLast?_append]
    cases rest.getLast? <;> simp

variable {libs}

theorem Instrumented.startSpan_of_sound (port : Instrumented) (operation : String) (ids : Ids)
    {current : Context} (hsound : current.Sound) :
    port.startSpan operation ids current =
      (port.spanBuilder operation).startWithContext ids current := by
  rw [Instrumented.startSpan]
  cases hspan : current.span with
  | none =>
      have hnew : current = Context.new := by
        cases current
        cases hspan
        rfl
      rw [hnew, ite_self]
  | some sc =>
      have hvalid : current.hasValidSpan = true := by
        simp [Context.hasValidSpan, hspan, hsound sc hspan]
      rw [if_pos hvalid]

/-- The span that a server starts, whichever middleware it is behind, is the child of the
client's. -/
theorem served_stretch (hp : libs.Propagates) (server : Server) {client : Context}
    {sc : SpanContext} (hclient : client.span = some sc) (hvalid : sc.isValid = true)
    (req : Request) (ambient : Context) {ids : Ids} (hids : ids.traceId ≠ 0 ∧ ids.spanId ≠ 0) :
    Stretch client sc.traceId
      [(server.service.call libs ids ambient
        { req with headers := libs.injectContext client req.headers } : Flight Unit).span]
      (server.service.call libs ids ambient
        { req with headers := libs.injectContext client req.headers } : Flight Unit).cx := by
  obtain ⟨remote, hextract, htrace, hspan⟩ :=
    hp.extract_inject hvalid hclient ambient req.headers
  have hremote : (libs.extract ambient (libs.injectContext client req.headers)).Sound := by
    intro other hother
    obtain rfl := Option.some.inj (hextract.symm.trans hother)
    rw [SpanContext.isValid_iff] at hvalid ⊢
    rwa [htrace, hspan]
  have hserver : ∀ builder : SpanBuilder,
      Stretch client sc.traceId
        [builder.startWithContext ids
          (libs.extract ambient (libs.injectContext client req.headers))]
        ((libs.extract ambient (libs.injectContext client req.headers)).withSpan
          (builder.startWithContext ids
            (libs.extract ambient (libs.injectContext client req.headers)))) := by
    intro builder
    have hsingle := Stretch.single builder hids hremote
    rw [startWithContext_child builder ids hextract, htrace] at hsingle
    refine { hsingle with same := ?_, child := ?_, root := ?_, left := ?_ }
    · intro other hother
      obtain rfl := Option.some.inj (hclient.symm.trans hother)
      rfl
    · intro span hspan' other hother
      obtain rfl := Option.some.inj (hclient.symm.trans hother)
      obtain ⟨parent, hparent, htrace', hspan''⟩ := hsingle.child span hspan' remote hextract
      exact ⟨parent, hparent, htrace'.trans htrace, hspan''.trans hspan⟩
    · intro span _ hnone
      cases hclient.symm.trans hnone
    · exact hsingle.left.trans (by simp)
  cases server with
  | grpc => exact hserver _
  | axum => exact hserver _

/-- Whatever hop it is, its spans go on with the current trace. -/
theorem Hop.follow_stretch (hp : libs.Propagates) {current : Context} (hsound : current.Sound)
    (hop : Hop) (hids : ∀ ids ∈ hop.ids, ids.traceId ≠ 0 ∧ ids.spanId ≠ 0) :
    (hop.follow libs current).1 ≠ [] ∧
      ∃ t, Stretch current t (hop.follow libs current).1 (hop.follow libs current).2 := by
  cases hop with
  | portCall port operation ids =>
      have hsingle := Stretch.single (port.spanBuilder operation) (hids ids (by simp [Hop.ids]))
        hsound
      rw [← port.startSpan_of_sound operation ids hsound] at hsingle
      exact ⟨List.cons_ne_nil _ _, _, hsingle⟩
  | request req clientIds server ambient serverIds =>
      have hmine := hids clientIds (by simp [Hop.ids])
      have hclient := Stretch.single (GrpcClientTraceService.spanBuilder req) hmine hsound
      have hvalid := startWithContext_valid (GrpcClientTraceService.spanBuilder req) hmine hsound
      have hcx : (current.withSpan (GrpcClientTraceService.startSpan clientIds current req)).span =
          some (GrpcClientTraceService.startSpan clientIds current req).spanContext := rfl
      have hserved := served_stretch hp server hcx hvalid req ambient
        (hids serverIds (by simp [Hop.ids]))
      exact ⟨List.cons_ne_nil _ _, _, hclient.append (List.cons_ne_nil _ _) hserved⟩

theorem walk_stretch (hp : libs.Propagates) {current : Context} (hsound : current.Sound)
    (hops : List Hop)
    (hids : ∀ hop ∈ hops, ∀ ids ∈ hop.ids, ids.traceId ≠ 0 ∧ ids.spanId ≠ 0) :
    ∃ t, Stretch current t (walk libs current hops).1 (walk libs current hops).2 := by
  induction hops generalizing current with
  | nil =>
      have hempty : ∀ t, t ≠ 0 → (∀ sc, current.span = some sc → sc.traceId = t) →
          Stretch current t [] current := by
        intro t hnonzero hsame
        exact ⟨hnonzero, by simp, hsame, by simp, by simp, by simp, by simp, hsound⟩
      cases hspan : current.span with
      | none => exact ⟨1, hempty 1 (by decide) (by simp [hspan])⟩
      | some sc =>
          refine ⟨sc.traceId, hempty _ (SpanContext.isValid_iff.mp (hsound sc hspan)).1 ?_⟩
          intro other hother
          rw [Option.some.inj (hspan.symm.trans hother)]
  | cons hop hops ih =>
      obtain ⟨hne, t, hfirst⟩ := hop.follow_stretch hp hsound (hids hop List.mem_cons_self)
      obtain ⟨t', hrest⟩ := ih hfirst.sound fun hop' h => hids hop' (List.mem_cons_of_mem hop h)
      exact ⟨t, hfirst.append hne hrest⟩

/-- However deep the calls go, through ports and from process to process, under whatever
context a server runs and whatever trace context a request carried before: the spans make one
trace, each a child of the one before and the first a child of what was current, if anything. -/
theorem walk_one_trace (hp : libs.Propagates) {current : Context} (hsound : current.Sound)
    (hops : List Hop)
    (hids : ∀ hop ∈ hops, ∀ ids ∈ hop.ids, ids.traceId ≠ 0 ∧ ids.spanId ≠ 0) :
    ∃ t ≠ 0, (∀ span ∈ (walk libs current hops).1, span.spanContext.traceId = t) ∧
      (∀ sc, current.span = some sc → sc.traceId = t) ∧
      (walk libs current hops).1.IsChain (fun span next => ChildOf span.spanContext next) ∧
      ∀ span ∈ (walk libs current hops).1.head?,
        (∀ sc, current.span = some sc → ChildOf sc span) ∧
          (current.span = none → span.parent = none) := by
  obtain ⟨t, h⟩ := walk_stretch hp hsound hops hids
  exact ⟨t, h.nonzero, h.trace, h.same, h.linked, fun span hspan =>
    ⟨h.child span hspan, h.root span hspan⟩⟩

/-- A port call, a call of another process, and from there one of a third, which is called
while its own context is not empty. -/
def threeProcesses : List Hop :=
  [.portCall ⟨"Billing", none⟩ "charge" ⟨5, 11⟩,
    .request plainRequest ⟨6, 12⟩ .grpc .new ⟨7, 13⟩,
    .request plainRequest ⟨8, 14⟩ .axum ⟨some ⟨99, 99, false⟩⟩ ⟨9, 15⟩]

theorem threeProcesses_one_trace :
    ∃ t ≠ 0, (∀ span ∈ (walk w3cLibraries .new threeProcesses).1,
        span.spanContext.traceId = t) ∧
      (∀ sc, Context.new.span = some sc → sc.traceId = t) ∧
      (walk w3cLibraries .new threeProcesses).1.IsChain
        (fun span next => ChildOf span.spanContext next) ∧
      ∀ span ∈ (walk w3cLibraries .new threeProcesses).1.head?,
        (∀ sc, Context.new.span = some sc → ChildOf sc span) ∧
          (Context.new.span = none → span.parent = none) :=
  walk_one_trace w3cLibraries_propagates (fun _ h => by cases h) threeProcesses (by decide)

end OtelBootstrap.Middleware
