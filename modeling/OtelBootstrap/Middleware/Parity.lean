import OtelBootstrap.Middleware.Coverage

/-! # The two server middlewares side by side

Both are run on the same request, the same ids and the same events, and compared up to what
they are meant to differ in: the name and attributes of the span, and the response headers. -/

namespace OtelBootstrap.Middleware

variable {ε : Type}

/-! ## What is not compared -/

def Span.plain (span : Span) : Span :=
  { span with name := "", attributes := [] }

def Mark.plain : Mark → Mark
  | .innerCalled req => .innerCalled req
  | .innerPolled current => .innerPolled current
  | .resolved => .resolved
  | .futureDropped => .futureDropped
  | .ended span => .ended span.plain

def plainResult : Except ε Response → Except ε Response
  | .ok response => .ok { response with headers := [] }
  | .error e => .error e

namespace Flight

def plain (f : Flight ε) : Flight ε :=
  { f with
    service := .grpcServer
    span := f.span.plain
    marks := f.marks.map Mark.plain
    result := f.result.map plainResult }

@[simp] theorem plain_mark (f : Flight ε) (m : Mark) :
    (f.mark m).plain = f.plain.mark m.plain := by
  simp [plain, mark]

@[simp] theorem plain_cloneCx (f : Flight ε) : f.cloneCx.plain = f.plain.cloneCx :=
  rfl

@[simp] theorem plain_dropCx (f : Flight ε) : f.dropCx.plain = f.plain.dropCx := by
  by_cases hlast : f.clones = 1
  · simp [dropCx, hlast, plain, mark, Mark.plain]
  · simp [dropCx, hlast, plain]

@[simp] theorem plain_innerAct (attached : Bool) (f : Flight ε) (act : InnerAct) :
    (f.innerAct attached act).plain = f.plain.innerAct attached act := by
  cases act with
  | take => cases attached <;> rfl
  | release =>
      by_cases hinner : f.innerClones = 0
      · have hplain : f.plain.innerClones = 0 := hinner
        rw [innerAct, if_pos hinner, innerAct, if_pos hplain]
      · have hplain : f.plain.innerClones ≠ 0 := hinner
        rw [innerAct, if_neg hinner, innerAct, if_neg hplain, ← plain_dropCx]
        rfl

theorem plain_innerActs (attached : Bool) (acts : List InnerAct) (f : Flight ε) :
    (acts.foldl (innerAct attached) f).plain = acts.foldl (innerAct attached) f.plain := by
  induction acts generalizing f with
  | nil => rfl
  | cons act acts ih =>
      rw [List.foldl_cons, ih, plain_innerAct]
      rfl

@[simp] theorem plain_pollInner (f : Flight ε) (current : Context) (attached : Bool)
    (turn : Turn ε) :
    (f.pollInner current attached turn).plain = f.plain.pollInner current attached turn := by
  unfold pollInner
  by_cases hready : turn.outcome.isSome = true
  · rw [if_pos hready, if_pos hready, plain_mark, plain_innerActs, plain_mark]
    rfl
  · rw [if_neg hready, if_neg hready, plain_innerActs, plain_mark]
    rfl

@[simp] theorem plain_pollWithContext (f : Flight ε) (turn : Turn ε) :
    (f.pollWithContext turn).plain = f.plain.pollWithContext turn := by
  simp only [pollWithContext, plain_dropCx, plain_pollInner, plain_cloneCx]
  rfl

@[simp] theorem plain_setStatus (f : Flight ε) (description : String) :
    (f.setStatus description).plain = f.plain.setStatus description :=
  rfl

@[simp] theorem plain_setAttribute (f : Flight ε) (key : String) (value : Value) :
    (f.setAttribute key value).plain = f.plain :=
  rfl

@[simp] theorem plain_finish (f : Flight ε) (result : Except ε Response) :
    (f.finish result).plain = f.plain.finish (plainResult result) :=
  rfl

/-! ## One step of each -/

/-- The first flight is one of `OtelTraceService`, the second the same call of
`GrpcServerTraceService`. -/
structure Twin (f g : Flight ε) : Prop where
  http : f.service = .otelTrace
  grpc : g.service = .grpcServer
  plain : f.plain = g.plain

namespace Twin

variable {f g : Flight ε}

theorem phase (h : Twin f g) : f.phase = g.phase := by
  have hphase : f.plain.phase = g.plain.phase := congrArg Flight.phase h.plain
  exact hphase

theorem start (h : Twin f g) : Twin f.start g.start := by
  have hrequest : f.plain.request = g.plain.request := congrArg Flight.request h.plain
  have hf : f.start = (f.mark (.innerCalled f.request)).cloneCx := by
    simp only [Flight.start, h.http, OtelTraceService.start]
  have hg : g.start = (g.mark (.innerCalled g.request)).cloneCx := by
    simp only [Flight.start, h.grpc, GrpcServerTraceService.start]
  rw [hf, hg]
  refine ⟨h.http, h.grpc, ?_⟩
  rw [plain_cloneCx, plain_mark, plain_cloneCx, plain_mark, h.plain]
  exact congrArg (fun req => (g.plain.mark (.innerCalled req)).cloneCx) hrequest

/-- What both record of a response is the same but for the attribute. -/
theorem plain_record (libs : Libraries) (response : Response) (hplain : f.plain = g.plain) :
    (OtelTraceService.recordResponse libs f response).plain =
      (GrpcServerTraceService.recordOutcome libs g (.ok response)).plain := by
  unfold OtelTraceService.recordResponse GrpcServerTraceService.recordOutcome
  dsimp only
  by_cases herror : response.isServerError = true
  · rw [if_pos herror, plain_setStatus, plain_setAttribute, hplain, if_pos herror,
      plain_setStatus]
  · rw [if_neg herror, plain_setAttribute, hplain, if_neg herror]

theorem resume (h : Twin f g) (libs : Libraries) (ambient : Context) {turn : Turn ε}
    (hok : ∀ e, turn.outcome ≠ some (.error e)) :
    Twin (f.resume libs ambient turn) (g.resume libs ambient turn) := by
  have hpolled : (f.pollWithContext turn).plain = (g.pollWithContext turn).plain := by
    rw [plain_pollWithContext, plain_pollWithContext, h.plain]
  simp only [Flight.resume, h.http, h.grpc, OtelTraceService.resume,
    GrpcServerTraceService.resume]
  cases houtcome : turn.outcome with
  | none =>
      refine ⟨?_, ?_, ?_⟩
      · exact (service_pollWithContext f turn).trans h.http
      · exact (service_pollWithContext g turn).trans h.grpc
      · exact congrArg (fun k : Flight ε => { k with phase := .suspended }) hpolled
  | some outcome =>
      cases outcome with
      | error e => exact (hok e houtcome).elim
      | ok response =>
          refine ⟨?_, ?_, ?_⟩
          · have hservice := (recordResponse_sameClones libs (f.pollWithContext turn).dropCx
              response).service
            rw [service_dropCx, service_pollWithContext, h.http] at hservice
            rw [service_dropCx]
            exact hservice
          · have hservice := (recordOutcome_sameClones libs (g.pollWithContext turn).dropCx
              (.ok response)).service
            rw [service_dropCx, service_pollWithContext, h.grpc] at hservice
            rw [service_dropCx]
            exact hservice
          · have hdropped : (f.pollWithContext turn).dropCx.plain =
                (g.pollWithContext turn).dropCx.plain := by
              rw [plain_dropCx, plain_dropCx, hpolled]
            rw [plain_dropCx, plain_finish, plain_dropCx, plain_finish,
              plain_record libs response hdropped]
            rfl

theorem poll (h : Twin f g) (libs : Libraries) (ambient : Context) {turn : Turn ε}
    (hok : f.phase = .unstarted ∨ f.phase = .suspended →
      ∀ e, turn.outcome ≠ some (.error e)) :
    Twin (f.poll libs ambient turn) (g.poll libs ambient turn) := by
  have hphase := h.phase
  unfold Flight.poll
  rw [← hphase]
  cases hf : f.phase with
  | unstarted => exact h.start.resume libs ambient (hok (Or.inl hf))
  | suspended => exact h.resume libs ambient (hok (Or.inr hf))
  | finished => exact h
  | dropped => exact h

theorem drop (h : Twin f g) : Twin f.drop g.drop := by
  have hphase := h.phase
  have hgone : ({ f.mark .futureDropped with phase := .dropped } : Flight ε).plain =
      ({ g.mark .futureDropped with phase := .dropped } : Flight ε).plain := by
    have hmarked : (f.mark .futureDropped).plain = (g.mark .futureDropped).plain := by
      rw [plain_mark, plain_mark, h.plain]
    exact congrArg (fun k : Flight ε => { k with phase := .dropped }) hmarked
  unfold Flight.drop
  rw [← hphase, h.http, h.grpc]
  cases f.phase with
  | unstarted =>
      refine ⟨?_, ?_, ?_⟩
      · exact (service_dropCx _).trans h.http
      · exact (service_dropCx _).trans h.grpc
      · rw [plain_dropCx, plain_dropCx, hgone]
  | suspended =>
      refine ⟨?_, ?_, ?_⟩
      · exact (service_dropCx _).trans ((service_dropCx _).trans h.http)
      · exact (service_dropCx _).trans ((service_dropCx _).trans h.grpc)
      · rw [plain_dropCx, plain_dropCx, plain_dropCx, plain_dropCx, hgone]
  | finished => exact h
  | dropped => exact h

theorem release (h : Twin f g) :
    Twin (f.innerAct false .release) (g.innerAct false .release) := by
  refine ⟨?_, ?_, ?_⟩
  · rw [unaffected_service.innerAct false f .release, h.http]
  · rw [unaffected_service.innerAct false g .release, h.grpc]
  · rw [plain_innerAct, plain_innerAct, h.plain]

end Twin

/-! ## Whole calls -/

end Flight

/-- How the inner future resolved, if it did before the returned future was dropped. -/
def firstOutcome : List (Event ε) → Option (Except ε Response)
  | [] => none
  | .drop :: _ => none
  | .release :: events => firstOutcome events
  | .poll _ turn :: events =>
      match turn.outcome with
      | some outcome => some outcome
      | none => firstOutcome events

/-- The inner service returned an error or a response of status 5xx. -/
def Failed : Option (Except ε Response) → Prop
  | some (.error _) => True
  | some (.ok response) => response.isServerError = true
  | none => False

/-- The status that a server middleware leaves on its span. -/
def Service.statusAfter (libs : Libraries) (service : Service) :
    Option (Except ε Response) → Status
  | some (.error _) => if service = .grpcServer then .error "transport error" else .unset
  | some (.ok response) =>
      if response.isServerError then .error ((libs.canonicalReason response.status).getD "")
      else .unset
  | none => .unset

namespace Flight

@[simp] theorem span_mark (f : Flight ε) (m : Mark) : (f.mark m).span = f.span :=
  rfl

theorem unaffected_span : Unaffected fun f : Flight ε => f.span :=
  ⟨fun _ _ _ => rfl, fun _ _ _ => rfl⟩

@[simp] theorem span_finish (f : Flight ε) (result : Except ε Response) :
    (f.finish result).span = f.span :=
  rfl

@[simp] theorem span_dropCx (f : Flight ε) : f.dropCx.span = f.span :=
  unaffected_span.dropCx f

@[simp] theorem span_pollWithContext (f : Flight ε) (turn : Turn ε) :
    (f.pollWithContext turn).span = f.span :=
  unaffected_span.pollWithContext f turn

/-- The returned future has neither resolved nor been dropped. -/
def Active (f : Flight ε) : Prop :=
  f.phase = .unstarted ∨ f.phase = .suspended

theorem status_recordOutcome (libs : Libraries) {f : Flight ε}
    (hunset : f.span.status = .unset) (outcome : Except ε Response) :
    (GrpcServerTraceService.recordOutcome libs f outcome).span.status =
      Service.statusAfter libs .grpcServer (some outcome) := by
  cases outcome with
  | error e => rfl
  | ok response =>
      unfold GrpcServerTraceService.recordOutcome Service.statusAfter
      dsimp only
      split
      · rfl
      · exact hunset

theorem status_recordResponse (libs : Libraries) {f : Flight ε}
    (hunset : f.span.status = .unset) (response : Response) :
    (OtelTraceService.recordResponse libs f response).span.status =
      Service.statusAfter libs .otelTrace (some (.ok response : Except ε Response)) := by
  unfold OtelTraceService.recordResponse Service.statusAfter
  dsimp only
  split
  · rfl
  · exact hunset

/-- A block that has its result drops its context, and keeps its service and its status. -/
theorem finish_spec (f : Flight ε) (result : Except ε Response) :
    (f.finish result).dropCx.service = f.service ∧ (f.finish result).dropCx.phase = .finished ∧
      (f.finish result).dropCx.span.status = f.span.status := by
  rw [service_dropCx, phase_dropCx, span_dropCx, span_finish]
  exact ⟨rfl, rfl, rfl⟩

/-- One run of the block, in either server middleware: it goes on until the inner future
resolves, and then leaves its status. -/
theorem resume_spec (libs : Libraries) {f : Flight ε} (hservice : f.service ≠ .grpcClient)
    (hunset : f.span.status = .unset) (ambient : Context) (turn : Turn ε) :
    (f.resume libs ambient turn).service = f.service ∧
      (f.resume libs ambient turn).phase =
        (if turn.outcome.isSome then .finished else .suspended) ∧
      (f.resume libs ambient turn).span.status = f.service.statusAfter libs turn.outcome := by
  have hpolled : (f.pollWithContext turn).dropCx.span.status = .unset := by
    rw [span_dropCx, span_pollWithContext, hunset]
  have hkept : (f.pollWithContext turn).dropCx.service = f.service := by
    rw [service_dropCx, service_pollWithContext]
  cases hkind : f.service with
  | grpcClient => exact (hservice hkind).elim
  | grpcServer =>
      simp only [resume, hkind, GrpcServerTraceService.resume]
      cases turn.outcome with
      | none =>
          refine ⟨(service_pollWithContext f turn).trans hkind, rfl, ?_⟩
          exact (congrArg (·.status) (span_pollWithContext f turn)).trans hunset
      | some outcome =>
          have hsame := recordOutcome_sameClones libs (f.pollWithContext turn).dropCx outcome
          obtain ⟨hservice, hphase, hstatus⟩ := finish_spec _ _
          exact ⟨hservice.trans (hsame.service.trans (hkept.trans hkind)), hphase,
            hstatus.trans (status_recordOutcome libs hpolled outcome)⟩
  | otelTrace =>
      simp only [resume, hkind, OtelTraceService.resume]
      cases turn.outcome with
      | none =>
          refine ⟨(service_pollWithContext f turn).trans hkind, rfl, ?_⟩
          exact (congrArg (·.status) (span_pollWithContext f turn)).trans hunset
      | some outcome =>
          cases outcome with
          | error e =>
              obtain ⟨hservice, hphase, hstatus⟩ := finish_spec _ _
              exact ⟨hservice.trans (hkept.trans hkind), hphase, hstatus.trans hpolled⟩
          | ok response =>
              have hsame := recordResponse_sameClones libs (f.pollWithContext turn).dropCx response
              obtain ⟨hservice, hphase, hstatus⟩ := finish_spec _ _
              exact ⟨hservice.trans (hsame.service.trans (hkept.trans hkind)), hphase,
                hstatus.trans (status_recordResponse libs hpolled response)⟩

theorem poll_spec (libs : Libraries) {f : Flight ε} (hactive : f.Active)
    (hservice : f.service ≠ .grpcClient) (hunset : f.span.status = .unset) (ambient : Context)
    (turn : Turn ε) :
    (f.poll libs ambient turn).service = f.service ∧
      (f.poll libs ambient turn).phase =
        (if turn.outcome.isSome then .finished else .suspended) ∧
      (f.poll libs ambient turn).span.status = f.service.statusAfter libs turn.outcome := by
  rcases hactive with hphase | hphase
  · have hstart : f.start.service = f.service ∧ f.start.span = f.span := by
      unfold start
      cases hkind : f.service <;> exact ⟨hkind, rfl⟩
    have hspec := resume_spec libs (f := f.start) (by rw [hstart.1]; exact hservice)
      (by rw [hstart.2]; exact hunset) ambient turn
    rw [hstart.1] at hspec
    simp only [poll, hphase]
    exact hspec
  · simp only [poll, hphase]
    exact resume_spec libs hservice hunset ambient turn

theorem drop_spec {f : Flight ε} (hactive : f.Active) :
    f.drop.phase = .dropped ∧ f.drop.span = f.span := by
  unfold drop
  rcases hactive with hphase | hphase
  · rw [hphase]
    cases f.service with
    | grpcClient => exact ⟨rfl, rfl⟩
    | grpcServer | otelTrace => exact ⟨phase_dropCx _, span_dropCx _⟩
  · rw [hphase]
    cases f.service with
    | grpcClient => exact ⟨rfl, rfl⟩
    | grpcServer | otelTrace =>
        refine ⟨?_, ?_⟩
        · rw [phase_dropCx, phase_dropCx]
        · rw [span_dropCx, span_dropCx, span_mark]

/-- Once it is over, nothing happens to the span any more. -/
theorem step_over (libs : Libraries) {f : Flight ε} (hover : ¬ f.Active) (event : Event ε) :
    ¬ (f.step libs event).Active ∧ (f.step libs event).span = f.span := by
  cases event with
  | poll ambient turn =>
      cases hphase : f.phase with
      | unstarted => exact (hover (Or.inl hphase)).elim
      | suspended => exact (hover (Or.inr hphase)).elim
      | finished | dropped =>
          simp only [step, poll, hphase]
          exact ⟨hover, trivial⟩
  | drop =>
      cases hphase : f.phase with
      | unstarted => exact (hover (Or.inl hphase)).elim
      | suspended => exact (hover (Or.inr hphase)).elim
      | finished | dropped =>
          simp only [step, drop, hphase]
          exact ⟨hover, trivial⟩
  | release =>
      have hphase := unaffected_phase.innerAct false f .release
      refine ⟨?_, unaffected_span.innerAct false f .release⟩
      simp only [step, Active, hphase]
      exact hover

theorem run_over (libs : Libraries) {f : Flight ε} (hover : ¬ f.Active)
    (events : List (Event ε)) : (f.run libs events).span = f.span := by
  induction events generalizing f with
  | nil => rfl
  | cons event events ih =>
      obtain ⟨hover', hspan⟩ := step_over libs hover event
      exact (ih hover').trans hspan

/-- The status a server span is left with is decided by how the inner future resolved. -/
theorem status_run (libs : Libraries) {f : Flight ε} (hactive : f.Active)
    (hservice : f.service ≠ .grpcClient) (hunset : f.span.status = .unset)
    (events : List (Event ε)) :
    (f.run libs events).span.status = f.service.statusAfter libs (firstOutcome events) := by
  induction events generalizing f with
  | nil => exact hunset
  | cons event events ih =>
      cases event with
      | release =>
          have hkept := unaffected_service.innerAct false f .release
          have hphase := unaffected_phase.innerAct false f .release
          have hspan := unaffected_span.innerAct false f .release
          have hrest := ih (f := f.innerAct false .release)
            (by simp only [Active, hphase]; exact hactive) (by rw [hkept]; exact hservice)
            (by rw [hspan]; exact hunset)
          rw [hkept] at hrest
          exact hrest
      | drop =>
          obtain ⟨hphase, hspan⟩ := drop_spec hactive
          have hover : ¬ f.drop.Active := by simp [Active, hphase]
          change (f.drop.run libs events).span.status = _
          rw [run_over libs hover, hspan]
          exact hunset
      | poll ambient turn =>
          obtain ⟨hkept, hphase, hstatus⟩ :=
            poll_spec libs hactive hservice hunset ambient turn
          change ((f.poll libs ambient turn).run libs events).span.status = _
          cases houtcome : turn.outcome with
          | none =>
              rw [houtcome] at hphase hstatus
              have hrest := ih (f := f.poll libs ambient turn) (Or.inr hphase)
                (by rw [hkept]; exact hservice) hstatus
              rw [hkept] at hrest
              simp only [firstOutcome, houtcome]
              exact hrest
          | some outcome =>
              rw [houtcome] at hphase hstatus
              have hover : ¬ (f.poll libs ambient turn).Active := by simp [Active, hphase]
              rw [run_over libs hover, hstatus]
              simp only [firstOutcome, houtcome]

namespace Twin

variable {f g : Flight ε}

theorem step (h : Twin f g) (libs : Libraries) {event : Event ε} {events : List (Event ε)}
    (hok : f.Active → ∀ e, firstOutcome (event :: events) ≠ some (.error e)) :
    Twin (f.step libs event) (g.step libs event) := by
  cases event with
  | poll ambient turn =>
      apply h.poll libs ambient
      intro hactive e houtcome
      apply hok hactive e
      simp only [firstOutcome, houtcome]
  | drop => exact h.drop
  | release => exact h.release

/-- As long as the inner future does not resolve to an error, twins remain twins. -/
theorem run (h : Twin f g) (libs : Libraries) (events : List (Event ε))
    (hunset : f.Active → f.span.status = .unset)
    (hok : f.Active → ∀ e, firstOutcome events ≠ some (.error e)) :
    Twin (f.run libs events) (g.run libs events) := by
  induction events generalizing f g with
  | nil => exact h
  | cons event events ih =>
      have hnext := h.step libs hok
      by_cases hactive : f.Active
      · cases event with
        | poll ambient turn =>
            have hservice : f.service ≠ .grpcClient := by
              rw [h.http]
              decide
            obtain ⟨-, hphase, hstatus⟩ :=
              poll_spec libs hactive hservice (hunset hactive) ambient turn
            cases houtcome : turn.outcome with
            | none =>
                rw [houtcome] at hstatus
                refine ih hnext (fun _ => hstatus) fun _ e herror => hok hactive e ?_
                simp only [firstOutcome, houtcome]
                exact herror
            | some outcome =>
                rw [houtcome] at hphase
                have hover : ¬ (f.poll libs ambient turn).Active := by simp [Active, hphase]
                exact ih hnext (fun hnot => (hover hnot).elim) fun hnot => (hover hnot).elim
        | drop =>
            have hover : ¬ f.drop.Active := by simp [Active, (drop_spec hactive).1]
            exact ih hnext (fun hnot => (hover hnot).elim) fun hnot => (hover hnot).elim
        | release =>
            have hspan := unaffected_span.innerAct false f .release
            refine ih hnext (fun _ => ?_) fun _ => hok hactive
            exact (congrArg (·.status) hspan).trans (hunset hactive)
      · have hover := (step_over libs hactive event).1
        exact ih hnext (fun hnot => (hover hnot).elim) fun hnot => (hover hnot).elim

end Twin

end Flight

/-- The first flight, a call of `OtelTraceService`, is traced as the second, the same call of
`GrpcServerTraceService`. -/
structure TracedAlike (events : List (Event ε)) (f g : Flight ε) : Prop where
  parent : f.span.parent = g.span.parent
  marks : f.marks.map Mark.plain = g.marks.map Mark.plain
  status : f.span.status = g.span.status
  failed : (∃ description, f.span.status = .error description) ↔ Failed (firstOutcome events)
  result : f.result.map plainResult = g.result.map plainResult

theorem failed_statusAfter (libs : Libraries) (outcome : Option (Except ε Response)) :
    (∃ description, Service.grpcServer.statusAfter libs outcome = .error description) ↔
      Failed outcome := by
  cases outcome with
  | none => simp [Service.statusAfter, Failed]
  | some outcome =>
      cases outcome with
      | error e => simp [Service.statusAfter, Failed]
      | ok response =>
          by_cases herror : response.isServerError = true
          · simp [Service.statusAfter, Failed, herror]
          · simp [Service.statusAfter, Failed, herror]

/-- The two server middlewares trace a call alike unless the inner service fails it with an
error, which only the gRPC one records. -/
theorem traced_alike_iff (libs : Libraries) (ids : Ids) (current : Context) (req : Request)
    (events : List (Event ε)) :
    TracedAlike events
        ((Service.otelTrace.call libs ids current req).run libs events)
        ((Service.grpcServer.call libs ids current req).run libs events) ↔
      ∀ e, firstOutcome events ≠ some (.error e) := by
  let f : Flight ε := (Service.otelTrace.call libs ids current req).run libs events
  let g : Flight ε := (Service.grpcServer.call libs ids current req).run libs events
  have hf : f.span.status = Service.otelTrace.statusAfter libs (firstOutcome events) :=
    Flight.status_run libs (Or.inl rfl) (fun hclient => by cases hclient) rfl events
  have hg : g.span.status = Service.grpcServer.statusAfter libs (firstOutcome events) :=
    Flight.status_run libs (Or.inl rfl) (fun hclient => by cases hclient) rfl events
  constructor
  · intro halike e herror
    have hstatus : f.span.status = g.span.status := halike.status
    rw [hf, hg, herror] at hstatus
    cases hstatus
  · intro hok
    have htwin : Flight.Twin (Service.otelTrace.call libs ids current req : Flight ε)
        (Service.grpcServer.call libs ids current req) := ⟨rfl, rfl, rfl⟩
    have hplain : f.plain = g.plain :=
      (htwin.run libs events (fun _ => rfl) fun _ => hok).plain
    have hparent : f.plain.span.parent = g.plain.span.parent := by rw [hplain]
    have hmarks : f.plain.marks = g.plain.marks := by rw [hplain]
    have hstatus : f.plain.span.status = g.plain.span.status := by rw [hplain]
    have hresult : f.plain.result = g.plain.result := by rw [hplain]
    refine ⟨hparent, hmarks, hstatus, ?_, hresult⟩
    have hsame : f.span.status = Service.grpcServer.statusAfter libs (firstOutcome events) :=
      Eq.trans hstatus hg
    change (∃ description, f.span.status = .error description) ↔ _
    rw [hsame]
    exact failed_statusAfter libs (firstOutcome events)

/-- An inner error leaves the HTTP span as it was. -/
theorem error_left_unset :
    let events : List (Event Unit) := [.poll Context.new ⟨[], some (.error ())⟩]
    let f := (Service.otelTrace.call sampleLibraries sampleIds Context.new plainRequest).run
      sampleLibraries events
    let g := (Service.grpcServer.call sampleLibraries sampleIds Context.new plainRequest).run
      sampleLibraries events
    f.span.status = .unset ∧ g.span.status = .error "transport error" ∧
      ¬ TracedAlike events f g := by
  intro events f g
  refine ⟨rfl, rfl, ?_⟩
  intro halike
  have hstatus : f.span.status = g.span.status := halike.status
  cases hstatus

end OtelBootstrap.Middleware
