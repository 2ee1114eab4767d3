import OtelBootstrap.Library.LastWrite
import OtelBootstrap.Middleware.Coverage

/-! # Services, futures and the handles they hold

The inner service tracks readiness per handle: a handle starts out not ready, `poll_ready`
decides whether it is, and a call uses that up. Handles are numbered as they are made, and
services and futures by their place in the lists that hold them. -/

namespace OtelBootstrap.Middleware

variable {ε : Type}

/-! ## What the inner service sees -/

inductive Readiness where
  | ready
  | pending
  | failed
  deriving DecidableEq, Repr

/-- `called` also says for which returned future the call was made. -/
inductive HandleEvent where
  | made (handle : ℕ)
  | cloned (source handle : ℕ)
  | polledReady (handle : ℕ) (outcome : Readiness)
  | called (handle future : ℕ)
  deriving DecidableEq, Repr

namespace HandleEvent

/-- The handle whose readiness the event decides. -/
def target : HandleEvent → ℕ
  | .made handle => handle
  | .cloned _ handle => handle
  | .polledReady handle _ => handle
  | .called handle _ => handle

def leavesReady : HandleEvent → Bool
  | .polledReady _ outcome => outcome = .ready
  | _ => false

def readiness (handle : ℕ) (event : HandleEvent) : Option Bool :=
  if event.target = handle then some event.leavesReady else none

def calls (handle : ℕ) : HandleEvent → Bool
  | .called h _ => h = handle
  | _ => false

def calledFor (future : ℕ) : HandleEvent → Bool
  | .called _ i => i = future
  | _ => false

end HandleEvent

/-- The handle's own `poll_ready` returned `Ready` and it was not called since. -/
def isReady (handle : ℕ) (log : List HandleEvent) : Bool :=
  (lastWrite (HandleEvent.readiness handle) log).getD false

theorem isReady_snoc_self (log : List HandleEvent) (event : HandleEvent) :
    isReady event.target (log ++ [event]) = event.leavesReady := by
  simp [isReady, lastWrite_snoc, HandleEvent.readiness]

theorem isReady_snoc_of_ne {handle : ℕ} (log : List HandleEvent) (event : HandleEvent)
    (h : event.target ≠ handle) : isReady handle (log ++ [event]) = isReady handle log := by
  simp [isReady, lastWrite_snoc, HandleEvent.readiness, h]

/-- A handle becomes ready by its own `poll_ready` only. -/
theorem polledReady_of_isReady {handle : ℕ} {log more : List HandleEvent}
    (hbefore : isReady handle log = false) (hafter : isReady handle (log ++ more) = true) :
    .polledReady handle .ready ∈ more := by
  induction more using List.reverseRecOn with
  | nil =>
      rw [List.append_nil, hbefore] at hafter
      cases hafter
  | append_singleton more event ih =>
      rw [← List.append_assoc] at hafter
      by_cases htarget : event.target = handle
      · subst htarget
        rw [isReady_snoc_self] at hafter
        cases event with
        | polledReady handle outcome =>
            obtain rfl : outcome = .ready := of_decide_eq_true hafter
            exact List.mem_append_right _ (List.mem_singleton_self _)
        | _ => cases hafter
      · rw [isReady_snoc_of_ne _ _ htarget] at hafter
        exact List.mem_append_left _ (ih hafter)

/-- What it takes to be ready: a `poll_ready` that returned `Ready`, and nothing since. -/
theorem exists_of_isReady {handle : ℕ} {log : List HandleEvent}
    (h : isReady handle log = true) :
    ∃ front back, log = front ++ .polledReady handle .ready :: back ∧
      ∀ event ∈ back, event.target ≠ handle := by
  induction log using List.reverseRecOn with
  | nil => cases h
  | append_singleton log event ih =>
      by_cases htarget : event.target = handle
      · subst htarget
        rw [isReady_snoc_self] at h
        cases event with
        | polledReady handle outcome =>
            obtain rfl : outcome = .ready := of_decide_eq_true h
            exact ⟨log, [], rfl, fun _ hmem => (List.not_mem_nil hmem).elim⟩
        | _ => cases h
      · rw [isReady_snoc_of_ne _ _ htarget] at h
        obtain ⟨front, back, rfl, hback⟩ := ih h
        refine ⟨front, back ++ [event], by simp, ?_⟩
        intro event' hmem
        rcases List.mem_append.mp hmem with hmem | hmem
        · exact hback event' hmem
        · rw [List.mem_singleton.mp hmem]
          exact htarget

/-! ## The services and the futures they return -/

/-- The services that hold an inner handle. -/
inductive Wrapper where
  | trace (service : Service)
  | spanEnricher
  deriving DecidableEq, Repr

/-- `granted` is what the caller has to go by: the last `poll_ready` of this handle returned
`Ready`, with no call since. -/
structure Wrapped where
  wrapper : Wrapper
  inner : ℕ
  granted : Bool
  deriving DecidableEq, Repr

/-- What `call` returned: a block that owns a handle, or the inner service's own future. -/
inductive Returned (ε : Type) where
  | traced (handle : ℕ) (flight : Flight ε)
  | inner

structure World (ε : Type) where
  handles : ℕ := 0
  log : List HandleEvent := []
  services : List Wrapped := []
  futures : List (Returned ε) := []

inductive Act (ε : Type) where
  | layer (wrapper : Wrapper)
  | clone (s : ℕ)
  | pollReady (s : ℕ) (outcome : Readiness)
  | call (s : ℕ) (ids : Ids) (current : Context) (req : Request)
  | future (i : ℕ) (event : Event ε)

/-- The block runs for the first time, and calls the handle it owns. -/
def Flight.callsInner (f : Flight ε) : Event ε → Bool
  | .poll _ _ => f.phase = .unstarted
  | _ => false

namespace World

def layer (w : World ε) (wrapper : Wrapper) : World ε :=
  { w with
    handles := w.handles + 1
    log := w.log ++ [.made w.handles]
    services := w.services ++ [⟨wrapper, w.handles, false⟩] }

def clone (w : World ε) (o : Wrapped) : World ε :=
  { w with
    handles := w.handles + 1
    log := w.log ++ [.cloned o.inner w.handles]
    services := w.services ++ [⟨o.wrapper, w.handles, false⟩] }

/-- Every service forwards `poll_ready` to the handle it holds. -/
def pollReady (w : World ε) (s : ℕ) (o : Wrapped) (outcome : Readiness) : World ε :=
  { w with
    log := w.log ++ [.polledReady o.inner outcome]
    services := w.services.set s { o with granted := outcome = .ready } }

/-- The clone stays in the service, and the block takes the handle that was polled. -/
def callTrace (libs : Libraries) (w : World ε) (s : ℕ) (o : Wrapped) (service : Service)
    (ids : Ids) (current : Context) (req : Request) : World ε where
  handles := w.handles + 1
  log := w.log ++ [.cloned o.inner w.handles]
  services := w.services.set s ⟨o.wrapper, w.handles, false⟩
  futures := w.futures ++ [.traced o.inner (service.call libs ids current req)]

/-- The enricher calls the handle it holds, and keeps it. -/
def callSpanEnricher (w : World ε) (s : ℕ) (o : Wrapped) : World ε :=
  { w with
    log := w.log ++ [.called o.inner w.futures.length]
    services := w.services.set s { o with granted := false }
    futures := w.futures ++ [.inner] }

def stepFuture (libs : Libraries) (w : World ε) (i handle : ℕ) (flight : Flight ε)
    (event : Event ε) : World ε :=
  { w with
    log := if flight.callsInner event then w.log ++ [.called handle i] else w.log
    futures := w.futures.set i (.traced handle (flight.step libs event)) }

def step (libs : Libraries) (w : World ε) : Act ε → World ε
  | .layer wrapper => w.layer wrapper
  | .clone s =>
      match w.services[s]? with
      | some o => w.clone o
      | none => w
  | .pollReady s outcome =>
      match w.services[s]? with
      | some o => w.pollReady s o outcome
      | none => w
  | .call s ids current req =>
      match w.services[s]? with
      | some o =>
          match o.wrapper with
          | .trace service => w.callTrace libs s o service ids current req
          | .spanEnricher => w.callSpanEnricher s o
      | none => w
  | .future i event =>
      match w.futures[i]? with
      | some (.traced handle flight) => w.stepFuture libs i handle flight event
      | some .inner => w
      | none => w

def run (libs : Libraries) (w : World ε) (acts : List (Act ε)) : World ε :=
  acts.foldl (step libs) w

/-- Callers call a service only after its last `poll_ready` returned `Ready`, with no call in
between. -/
def Permitted (w : World ε) : Act ε → Prop
  | .call s _ _ _ => ∃ o, w.services[s]? = some o ∧ o.granted = true
  | _ => True

def Respects (libs : Libraries) (w : World ε) : List (Act ε) → Prop
  | [] => True
  | act :: acts => w.Permitted act ∧ Respects libs (w.step libs act) acts

/-- Every way in which an act can go. -/
inductive Stepped (libs : Libraries) (w : World ε) : Act ε → World ε → Prop where
  | idle (act) : Stepped libs w act w
  | layer (wrapper) : Stepped libs w (.layer wrapper) (w.layer wrapper)
  | clone {s o} (hs : w.services[s]? = some o) : Stepped libs w (.clone s) (w.clone o)
  | pollReady {s o} (outcome) (hs : w.services[s]? = some o) :
      Stepped libs w (.pollReady s outcome) (w.pollReady s o outcome)
  | callTrace {s o service} (ids current req) (hs : w.services[s]? = some o)
      (hwrapper : o.wrapper = .trace service) :
      Stepped libs w (.call s ids current req) (w.callTrace libs s o service ids current req)
  | callSpanEnricher {s o} (ids current req) (hs : w.services[s]? = some o)
      (hwrapper : o.wrapper = .spanEnricher) :
      Stepped libs w (.call s ids current req) (w.callSpanEnricher s o)
  | future {i handle flight} (event) (hi : w.futures[i]? = some (.traced handle flight)) :
      Stepped libs w (.future i event) (w.stepFuture libs i handle flight event)

theorem stepped_step (libs : Libraries) (w : World ε) (act : Act ε) :
    Stepped libs w act (w.step libs act) := by
  cases act with
  | layer wrapper => exact .layer wrapper
  | clone s =>
      cases hs : w.services[s]? with
      | none => simpa only [step, hs] using .idle (.clone s)
      | some o => simpa only [step, hs] using .clone hs
  | pollReady s outcome =>
      cases hs : w.services[s]? with
      | none => simpa only [step, hs] using .idle (.pollReady s outcome)
      | some o => simpa only [step, hs] using .pollReady outcome hs
  | call s ids current req =>
      cases hs : w.services[s]? with
      | none => simpa only [step, hs] using .idle (.call s ids current req)
      | some o =>
          cases hwrapper : o.wrapper with
          | trace service =>
              simpa only [step, hs, hwrapper] using .callTrace ids current req hs hwrapper
          | spanEnricher =>
              simpa only [step, hs, hwrapper] using .callSpanEnricher ids current req hs hwrapper
  | future i event =>
      cases hi : w.futures[i]? with
      | none => simpa only [step, hi] using .idle (.future i event)
      | some future =>
          cases future with
          | inner => simpa only [step, hi] using .idle (.future i event)
          | traced handle flight => simpa only [step, hi] using .future event hi

end World

/-! ## Who holds which handle -/

/-- A service holds a handle for its next call, and a future the one it has yet to call. -/
inductive Owner where
  | service (s : ℕ)
  | future (i : ℕ)
  deriving DecidableEq, Repr

def Returned.unused : Returned ε → Option ℕ
  | .traced handle flight => if flight.phase = .unstarted then some handle else none
  | .inner => none

namespace World

def handleOf (w : World ε) : Owner → Option ℕ
  | .service s => w.services[s]?.map (·.inner)
  | .future i => w.futures[i]?.bind Returned.unused

theorem handleOf_service {w : World ε} {s : ℕ} {o : Wrapped} (h : w.services[s]? = some o) :
    w.handleOf (.service s) = some o.inner := by
  rw [handleOf, h]
  rfl

theorem handleOf_layer (w : World ε) (wrapper : Wrapper) :
    (w.layer wrapper).handleOf =
      Function.update w.handleOf (.service w.services.length) (some w.handles) := by
  funext a
  cases a with
  | service s =>
      simp only [handleOf, layer, getElem?_snoc]
      by_cases hs : s = w.services.length
      · simp [hs]
      · simp [hs, handleOf]
  | future i => rfl

theorem handleOf_clone (w : World ε) (o : Wrapped) :
    (w.clone o).handleOf =
      Function.update w.handleOf (.service w.services.length) (some w.handles) :=
  handleOf_layer w o.wrapper

theorem handleOf_set {w : World ε} {s : ℕ} {o : Wrapped} (h : w.services[s]? = some o)
    (o' : Wrapped) (a : Owner) :
    { w with services := w.services.set s o' }.handleOf a =
      Function.update w.handleOf (.service s) (some o'.inner) a := by
  obtain ⟨hs, -⟩ := List.getElem?_eq_some_iff.mp h
  cases a with
  | service s' =>
      by_cases hs' : s' = s
      · subst hs'
        simp [handleOf, hs]
      · have hne : Owner.service s' ≠ .service s := fun heq => hs' (Owner.service.inj heq)
        rw [Function.update_of_ne hne]
        simp only [handleOf, List.getElem?_set_ne (fun heq => hs' heq.symm)]
  | future i => rfl

theorem handleOf_pollReady {w : World ε} {s : ℕ} {o : Wrapped} (h : w.services[s]? = some o)
    (outcome : Readiness) : (w.pollReady s o outcome).handleOf = w.handleOf := by
  funext a
  have hset := handleOf_set h { o with granted := outcome = .ready } a
  rw [← handleOf_service h, Function.update_eq_self] at hset
  exact hset

theorem handleOf_callTrace (libs : Libraries) {w : World ε} {s : ℕ} {o : Wrapped}
    (h : w.services[s]? = some o) (service : Service) (ids : Ids) (current : Context)
    (req : Request) :
    (w.callTrace libs s o service ids current req).handleOf =
      Function.update (Function.update w.handleOf (.service s) (some w.handles))
        (.future w.futures.length) (some o.inner) := by
  funext a
  cases a with
  | service s' =>
      rw [Function.update_of_ne Owner.noConfusion]
      exact handleOf_set h ⟨o.wrapper, w.handles, false⟩ (.service s')
  | future i =>
      simp only [handleOf, callTrace, getElem?_snoc]
      by_cases hi : i = w.futures.length
      · subst hi
        have hphase : (service.call libs ids current req : Flight ε).phase = .unstarted := by
          cases service <;> rfl
        simp [Returned.unused, hphase]
      · have hne : Owner.future i ≠ .future w.futures.length :=
          fun heq => hi (Owner.future.inj heq)
        rw [if_neg hi, Function.update_of_ne hne, Function.update_of_ne Owner.noConfusion]
        rfl

theorem handleOf_beyond {w : World ε} {i : ℕ} (h : w.futures.length ≤ i) :
    w.handleOf (.future i) = none := by
  rw [handleOf, List.getElem?_eq_none h]
  rfl

theorem handleOf_callSpanEnricher {w : World ε} {s : ℕ} {o : Wrapped}
    (h : w.services[s]? = some o) : (w.callSpanEnricher s o).handleOf = w.handleOf := by
  funext a
  cases a with
  | service s' =>
      have hset := handleOf_set h { o with granted := false } (.service s')
      rw [← handleOf_service h, Function.update_eq_self] at hset
      exact hset
  | future i =>
      simp only [handleOf, callSpanEnricher, getElem?_snoc]
      by_cases hi : i = w.futures.length
      · subst hi
        simp [Returned.unused]
      · rw [if_neg hi]

end World

/-! ## When a block calls its handle -/

namespace Flight

theorem phase_resume (libs : Libraries) (f : Flight ε) (ambient : Context) (turn : Turn ε) :
    (f.resume libs ambient turn).phase =
      if turn.outcome.isSome then .finished else .suspended := by
  unfold resume
  cases f.service with
  | grpcClient =>
      unfold GrpcClientTraceService.resume
      cases turn.outcome <;> rfl
  | grpcServer =>
      unfold GrpcServerTraceService.resume
      cases turn.outcome with
      | none => rfl
      | some outcome => exact phase_dropCx _
  | otelTrace =>
      unfold OtelTraceService.resume
      cases turn.outcome with
      | none => rfl
      | some outcome => cases outcome <;> exact phase_dropCx _

/-- How often a flight has called the inner service. -/
def innerCalls (f : Flight ε) : ℕ :=
  f.marks.countP Mark.isInnerCalled

theorem unaffected_innerCalls : Unaffected fun f : Flight ε => f.innerCalls where
  counts _ _ _ := rfl
  mark f m hm := by simp [innerCalls, mark, hm]

theorem innerCalls_resume (libs : Libraries) (f : Flight ε) (ambient : Context)
    (turn : Turn ε) : (f.resume libs ambient turn).innerCalls = f.innerCalls := by
  have hpolled : (f.pollWithContext turn).dropCx.innerCalls = f.innerCalls := by
    rw [unaffected_innerCalls.dropCx, unaffected_innerCalls.pollWithContext]
  unfold resume
  cases f.service with
  | grpcClient =>
      unfold GrpcClientTraceService.resume
      cases turn.outcome <;> exact unaffected_innerCalls.pollInner f ambient false turn
  | grpcServer =>
      unfold GrpcServerTraceService.resume
      cases turn.outcome with
      | none => exact unaffected_innerCalls.pollWithContext f turn
      | some outcome =>
          have hmarks := (recordOutcome_sameClones libs (f.pollWithContext turn).dropCx
            outcome).marks
          exact (unaffected_innerCalls.dropCx _).trans
            ((congrArg (List.countP Mark.isInnerCalled) hmarks).trans hpolled)
  | otelTrace =>
      unfold OtelTraceService.resume
      cases turn.outcome with
      | none => exact unaffected_innerCalls.pollWithContext f turn
      | some outcome =>
          cases outcome with
          | error e => exact (unaffected_innerCalls.dropCx _).trans hpolled
          | ok response =>
              have hmarks := (recordResponse_sameClones libs (f.pollWithContext turn).dropCx
                response).marks
              exact (unaffected_innerCalls.dropCx _).trans
                ((congrArg (List.countP Mark.isInnerCalled) hmarks).trans hpolled)

theorem innerCalls_start (f : Flight ε) : f.start.innerCalls = f.innerCalls + 1 := by
  unfold start
  cases f.service <;> exact List.countP_append.trans rfl

/-- A flight calls the inner service when its block runs for the first time. -/
theorem innerCalls_step (libs : Libraries) (f : Flight ε) (event : Event ε) :
    (f.step libs event).innerCalls =
      f.innerCalls + if f.callsInner event then 1 else 0 := by
  cases event with
  | poll ambient turn =>
      cases hphase : f.phase with
      | unstarted =>
          simp only [step, poll, callsInner, hphase]
          rw [innerCalls_resume, innerCalls_start]
          rfl
      | suspended =>
          simp only [step, poll, callsInner, hphase]
          exact innerCalls_resume libs f ambient turn
      | finished | dropped =>
          simp only [step, poll, callsInner, hphase]
          rfl
  | drop =>
      have hgone : ({ f.mark .futureDropped with phase := .dropped } : Flight ε).innerCalls =
          f.innerCalls := List.countP_append.trans rfl
      simp only [step, drop, callsInner]
      cases f.phase with
      | unstarted | suspended =>
          cases f.service <;> simp only [unaffected_innerCalls.dropCx, hgone] <;> rfl
      | finished | dropped => rfl
  | release => exact unaffected_innerCalls.innerAct false f .release

/-- A block that has not run yet is one that no poll and no drop has reached. -/
theorem phase_step (libs : Libraries) {f : Flight ε} {event : Event ε}
    (h : (f.step libs event).phase = .unstarted) :
    f.phase = .unstarted ∧ f.callsInner event = false := by
  cases event with
  | poll ambient turn =>
      have hnot : ∀ g : Flight ε, (g.resume libs ambient turn).phase ≠ .unstarted := by
        intro g
        rw [phase_resume]
        split <;> decide
      simp only [step, poll] at h
      cases hphase : f.phase with
      | unstarted | suspended =>
          rw [hphase] at h
          exact (hnot _ h).elim
      | finished | dropped =>
          rw [hphase] at h
          cases hphase.symm.trans h
  | drop =>
      simp only [step, drop] at h
      cases hphase : f.phase with
      | unstarted | suspended =>
          rw [hphase] at h
          cases hservice : f.service <;> rw [hservice] at h <;>
            simp only [phase_dropCx] at h <;> cases h
      | finished | dropped =>
          rw [hphase] at h
          cases hphase.symm.trans h
  | release => exact ⟨(unaffected_phase.innerAct false f .release).symm.trans h, rfl⟩

end Flight

namespace World

theorem handleOf_stepFuture (libs : Libraries) {w : World ε} {i handle : ℕ} {flight : Flight ε}
    (h : w.futures[i]? = some (.traced handle flight)) (event : Event ε) :
    (w.stepFuture libs i handle flight event).handleOf =
      if (flight.step libs event).phase = .unstarted then w.handleOf
      else Function.update w.handleOf (.future i) none := by
  obtain ⟨hi, -⟩ := List.getElem?_eq_some_iff.mp h
  have hother : ∀ j, j ≠ i → (w.stepFuture libs i handle flight event).handleOf (.future j) =
      w.handleOf (.future j) := by
    intro j hj
    simp only [handleOf, stepFuture, List.getElem?_set_ne (fun heq => hj heq.symm)]
  have hself : (w.stepFuture libs i handle flight event).handleOf (.future i) =
      (Returned.traced handle (flight.step libs event)).unused := by
    simp only [handleOf, stepFuture, List.getElem?_set_self hi, Option.bind_some]
  funext a
  by_cases hphase : (flight.step libs event).phase = .unstarted
  · rw [if_pos hphase]
    cases a with
    | service s => rfl
    | future j =>
        by_cases hj : j = i
        · subst hj
          have hbefore := (Flight.phase_step libs hphase).1
          rw [hself, Returned.unused, if_pos hphase]
          simp only [handleOf, h, Option.bind_some, Returned.unused, if_pos hbefore]
        · exact hother j hj
  · rw [if_neg hphase]
    cases a with
    | service s => rw [Function.update_of_ne Owner.noConfusion]; rfl
    | future j =>
        by_cases hj : j = i
        · subst hj
          rw [hself, Returned.unused, if_neg hphase, Function.update_self]
        · have hne : Owner.future j ≠ .future i := fun heq => hj (Owner.future.inj heq)
          rw [Function.update_of_ne hne]
          exact hother j hj

end World

end OtelBootstrap.Middleware
