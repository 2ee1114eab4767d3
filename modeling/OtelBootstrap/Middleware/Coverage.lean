import OtelBootstrap.Library.Occurrences
import OtelBootstrap.Middleware.Flight

/-! # Which middleware spans cover their calls -/

namespace OtelBootstrap.Middleware

variable {ε : Type}

/-! ## The law -/

def Mark.isEnded : Mark → Bool
  | .ended _ => true
  | _ => false

def Mark.isInnerCalled : Mark → Bool
  | .innerCalled _ => true
  | _ => false

/-- The inner future has resolved or the returned future has been dropped. -/
def Over (marks : List Mark) : Prop :=
  .resolved ∈ marks ∨ .futureDropped ∈ marks

/-- The span has not ended. -/
def StillOpen (marks : List Mark) : Prop :=
  marks.countP Mark.isEnded = 0

namespace Flight

/-- Nothing is left that could hold the context. -/
def Settled (f : Flight ε) : Prop :=
  (f.phase = .finished ∨ f.phase = .dropped) ∧ f.innerClones = 0

/-- The span ends once, when all is over, and is open when the inner service is called. -/
structure Covered (f : Flight ε) : Prop where
  atMostOnce : f.marks.countP Mark.isEnded ≤ 1
  once : f.Settled → f.marks.countP Mark.isEnded = 1
  late : Before Mark.isEnded Over f.marks
  openAtCall : Before Mark.isInnerCalled StillOpen f.marks

/-! ## Counting clones -/

/-- Besides the inner service's, `held` clones are alive, and the span ends with the last. -/
structure Balanced (held : ℕ) (f : Flight ε) : Prop where
  clones : f.clones = held + f.innerClones
  ended : f.marks.countP Mark.isEnded = if f.clones = 0 then 1 else 0
  late : Before Mark.isEnded Over f.marks
  openAtCall : Before Mark.isInnerCalled StillOpen f.marks

namespace Balanced

variable {held : ℕ} {f : Flight ε}

theorem mark (h : Balanced held f) {m : Mark} (hended : m.isEnded = false)
    (hcalled : m.isInnerCalled = true → f.clones ≠ 0) : Balanced held (f.mark m) where
  clones := h.clones
  ended := by
    have hcount : (f.marks ++ [m]).countP Mark.isEnded = f.marks.countP Mark.isEnded := by
      simp [List.countP_append, hended]
    exact hcount.trans h.ended
  late := h.late.snoc fun hm => by simp [hended] at hm
  openAtCall := h.openAtCall.snoc fun hm => by
    have hopen := h.ended
    rw [if_neg (hcalled hm)] at hopen
    exact hopen

theorem cloneCx (h : Balanced (held + 1) f) : Balanced (held + 2) f.cloneCx where
  clones := by
    have hclones := h.clones
    simp only [Flight.cloneCx]
    omega
  ended := by
    have hclones := h.clones
    have hended := h.ended
    rw [if_neg (by omega)] at hended
    simpa [Flight.cloneCx] using hended
  late := h.late
  openAtCall := h.openAtCall

theorem dropCx (h : Balanced (held + 1) f) (hover : held = 0 → Over f.marks) :
    Balanced held f.dropCx := by
  have hclones := h.clones
  have hended := h.ended
  rw [if_neg (by omega)] at hended
  by_cases hlast : f.clones = 1
  · have hdrop : f.dropCx = { f with clones := f.clones - 1 }.mark (.ended f.span) := by
      simp only [Flight.dropCx, if_pos hlast]
    rw [hdrop]
    refine ⟨?_, ?_, ?_, ?_⟩
    · change f.clones - 1 = held + f.innerClones
      omega
    · change (f.marks ++ [Mark.ended f.span]).countP Mark.isEnded =
        if f.clones - 1 = 0 then 1 else 0
      rw [if_pos (by omega), List.countP_append, hended]
      rfl
    · exact h.late.snoc fun _ => hover (by omega)
    · exact h.openAtCall.snoc fun hm => by cases hm
  · have hdrop : f.dropCx = { f with clones := f.clones - 1 } := by
      simp only [Flight.dropCx, if_neg hlast]
    rw [hdrop]
    refine ⟨?_, ?_, h.late, h.openAtCall⟩
    · change f.clones - 1 = held + f.innerClones
      omega
    · change f.marks.countP Mark.isEnded = if f.clones - 1 = 0 then 1 else 0
      rw [if_neg (by omega)]
      exact hended

/-- The inner service drops one of its clones. -/
theorem release (h : Balanced held f) (attached : Bool) (hover : held = 0 → Over f.marks) :
    Balanced held (f.innerAct attached .release) := by
  by_cases hinner : f.innerClones = 0
  · simpa only [innerAct, if_pos hinner] using h
  · have hmoved : Balanced (held + 1) { f with innerClones := f.innerClones - 1 } :=
      ⟨by
        have hclones := h.clones
        change f.clones = held + 1 + (f.innerClones - 1)
        omega, h.ended, h.late, h.openAtCall⟩
    have hcomm : f.innerAct attached .release =
        { f with innerClones := f.innerClones - 1 }.dropCx := by
      simp only [innerAct, if_neg hinner, Flight.dropCx]
      by_cases hlast : f.clones = 1
      · simp only [if_pos hlast, Flight.mark]
      · simp only [if_neg hlast]
    rw [hcomm]
    exact hmoved.dropCx hover

theorem innerAct (h : Balanced (held + 1) f) (attached : Bool) (act : InnerAct) :
    Balanced (held + 1) (f.innerAct attached act) := by
  cases act with
  | release => exact h.release attached fun hzero => by omega
  | take =>
      cases attached with
      | false => exact h
      | true =>
          have hcloned := h.cloneCx
          refine ⟨?_, hcloned.ended, hcloned.late, hcloned.openAtCall⟩
          have hclones := hcloned.clones
          change f.cloneCx.clones = held + 1 + (f.innerClones + 1)
          change f.cloneCx.clones = held + 2 + f.innerClones at hclones
          omega

theorem innerActs (h : Balanced (held + 1) f) (attached : Bool) (acts : List InnerAct) :
    Balanced (held + 1) (acts.foldl (Flight.innerAct attached) f) := by
  induction acts generalizing f with
  | nil => exact h
  | cons act acts ih => exact ih (h.innerAct attached act)

theorem pollInner (h : Balanced (held + 1) f) (current : Context) (attached : Bool)
    (turn : Turn ε) : Balanced (held + 1) (f.pollInner current attached turn) := by
  have hmarked := h.mark (m := .innerPolled current) rfl fun hm => by cases hm
  have hacts := hmarked.innerActs attached turn.acts
  cases hready : turn.outcome.isSome with
  | false => simpa only [Flight.pollInner, hready, Bool.false_eq_true, if_false] using hacts
  | true =>
      have hresolved := hacts.mark (m := .resolved) rfl fun hm => by cases hm
      simpa only [Flight.pollInner, hready, if_true] using hresolved

theorem pollWithContext (h : Balanced (held + 2) f) (turn : Turn ε) :
    Balanced (held + 2) (f.pollWithContext turn) :=
  (h.cloneCx.pollInner f.cx true turn).dropCx fun hzero => by omega

end Balanced

/-! ### Marks only grow -/

theorem marks_mark (f : Flight ε) (m : Mark) : f.marks <+: (f.mark m).marks :=
  List.prefix_append f.marks [m]

theorem marks_dropCx (f : Flight ε) : f.marks <+: f.dropCx.marks := by
  by_cases hlast : f.clones = 1
  · simp only [Flight.dropCx, if_pos hlast]
    exact List.prefix_append f.marks [.ended f.span]
  · simp only [Flight.dropCx, if_neg hlast]
    exact List.prefix_rfl

theorem marks_innerAct (attached : Bool) (f : Flight ε) (act : InnerAct) :
    f.marks <+: (f.innerAct attached act).marks := by
  cases act with
  | take => cases attached <;> exact List.prefix_rfl
  | release =>
      by_cases hinner : f.innerClones = 0
      · simp only [Flight.innerAct, if_pos hinner]
        exact List.prefix_rfl
      · simpa only [Flight.innerAct, if_neg hinner] using marks_dropCx f

theorem marks_innerActs (attached : Bool) (acts : List InnerAct) (f : Flight ε) :
    f.marks <+: (acts.foldl (Flight.innerAct attached) f).marks := by
  induction acts generalizing f with
  | nil => exact List.prefix_rfl
  | cons act acts ih => exact (marks_innerAct attached f act).trans (ih _)

theorem marks_pollInner (f : Flight ε) (current : Context) (attached : Bool) (turn : Turn ε) :
    f.marks <+: (f.pollInner current attached turn).marks := by
  have hacts := (marks_mark f (.innerPolled current)).trans
    (marks_innerActs attached turn.acts (f.mark (.innerPolled current)))
  by_cases hready : turn.outcome.isSome = true
  · simp only [Flight.pollInner, hready, if_true]
    exact hacts.trans (marks_mark _ .resolved)
  · simpa only [Flight.pollInner, if_neg hready] using hacts

theorem over_dropCx {f : Flight ε} (h : Over f.marks) : Over f.dropCx.marks := by
  have hsubset := (marks_dropCx f).subset
  exact h.imp (fun hmem => hsubset hmem) (fun hmem => hsubset hmem)

theorem over_pollInner (f : Flight ε) (current : Context) (attached : Bool) {turn : Turn ε}
    (h : turn.outcome.isSome = true) : Over (f.pollInner current attached turn).marks := by
  simp [Flight.pollInner, h, Over, Flight.mark]

theorem over_pollWithContext (f : Flight ε) {turn : Turn ε} (h : turn.outcome.isSome = true) :
    Over (f.pollWithContext turn).marks :=
  over_dropCx (over_pollInner f.cloneCx f.cx true h)

/-! ## What clones and polls leave alone -/

/-- A quantity that the clones have no part in, nor any mark but that of the inner call. -/
structure Unaffected {α : Type} (field : Flight ε → α) : Prop where
  counts : ∀ f clones innerClones, field { f with clones, innerClones } = field f
  mark : ∀ f m, m.isInnerCalled = false → field (f.mark m) = field f

namespace Unaffected

variable {α : Type} {field : Flight ε → α} (h : Unaffected field)
include h

theorem dropCx (f : Flight ε) : field f.dropCx = field f := by
  have hdropped : field { f with clones := f.clones - 1 } = field f := h.counts f _ f.innerClones
  unfold Flight.dropCx
  split
  · exact (h.mark _ _ rfl).trans hdropped
  · exact hdropped

theorem innerAct (attached : Bool) (f : Flight ε) (act : InnerAct) :
    field (f.innerAct attached act) = field f := by
  cases act with
  | take =>
      cases attached with
      | true => exact h.counts f _ _
      | false => rfl
  | release =>
      by_cases hinner : f.innerClones = 0
      · rw [Flight.innerAct, if_pos hinner]
      · rw [Flight.innerAct, if_neg hinner]
        exact (h.counts f.dropCx f.dropCx.clones _).trans (h.dropCx f)

theorem innerActs (attached : Bool) (acts : List InnerAct) (f : Flight ε) :
    field (acts.foldl (Flight.innerAct attached) f) = field f := by
  induction acts generalizing f with
  | nil => rfl
  | cons act acts ih => exact (ih _).trans (h.innerAct attached f act)

theorem pollInner (f : Flight ε) (current : Context) (attached : Bool) (turn : Turn ε) :
    field (f.pollInner current attached turn) = field f := by
  have hacts := (h.innerActs attached turn.acts (f.mark (.innerPolled current))).trans
    (h.mark f _ rfl)
  unfold Flight.pollInner
  split
  · exact (h.mark _ _ rfl).trans hacts
  · exact hacts

theorem pollWithContext (f : Flight ε) (turn : Turn ε) :
    field (f.pollWithContext turn) = field f := by
  have hcloned : field f.cloneCx = field f := h.counts f _ f.innerClones
  exact (h.dropCx _).trans ((h.pollInner f.cloneCx f.cx true turn).trans hcloned)

end Unaffected

theorem unaffected_service : Unaffected fun f : Flight ε => f.service :=
  ⟨fun _ _ _ => rfl, fun _ _ _ => rfl⟩

theorem unaffected_phase : Unaffected fun f : Flight ε => f.phase :=
  ⟨fun _ _ _ => rfl, fun _ _ _ => rfl⟩

@[simp] theorem service_mark (f : Flight ε) (m : Mark) : (f.mark m).service = f.service :=
  rfl

@[simp] theorem service_dropCx (f : Flight ε) : f.dropCx.service = f.service :=
  unaffected_service.dropCx f

@[simp] theorem phase_dropCx (f : Flight ε) : f.dropCx.phase = f.phase :=
  unaffected_phase.dropCx f

@[simp] theorem service_pollWithContext (f : Flight ε) (turn : Turn ε) :
    (f.pollWithContext turn).service = f.service :=
  unaffected_service.pollWithContext f turn

/-! ## The server middlewares -/

/-- Only what is written to the span differs. -/
structure SameClones (f g : Flight ε) : Prop where
  service : g.service = f.service
  clones : g.clones = f.clones
  innerClones : g.innerClones = f.innerClones
  marks : g.marks = f.marks

theorem SameClones.refl (f : Flight ε) : SameClones f f :=
  ⟨rfl, rfl, rfl, rfl⟩

theorem SameClones.balanced {held : ℕ} {f g : Flight ε} (h : SameClones f g)
    (hf : Balanced held f) : Balanced held g where
  clones := by rw [h.clones, h.innerClones, hf.clones]
  ended := by rw [h.marks, h.clones, hf.ended]
  late := by rw [h.marks]; exact hf.late
  openAtCall := by rw [h.marks]; exact hf.openAtCall

theorem recordOutcome_sameClones (libs : Libraries) (f : Flight ε)
    (outcome : Except ε Response) :
    SameClones f (GrpcServerTraceService.recordOutcome libs f outcome) := by
  cases outcome with
  | error e => exact ⟨rfl, rfl, rfl, rfl⟩
  | ok resp =>
      unfold GrpcServerTraceService.recordOutcome
      by_cases herror : resp.isServerError = true
      · simp only [herror, if_true]
        exact ⟨rfl, rfl, rfl, rfl⟩
      · simp only [herror]
        exact ⟨rfl, rfl, rfl, rfl⟩

theorem recordResponse_sameClones (libs : Libraries) (f : Flight ε) (response : Response) :
    SameClones f (OtelTraceService.recordResponse libs f response) := by
  unfold OtelTraceService.recordResponse
  by_cases herror : response.isServerError = true
  · simp only [herror, if_true]
    exact ⟨rfl, rfl, rfl, rfl⟩
  · simp only [herror]
    exact ⟨rfl, rfl, rfl, rfl⟩

theorem drop_unstarted {f : Flight ε} (hservice : f.service ≠ .grpcClient)
    (hphase : f.phase = .unstarted) :
    f.drop = dropCx { f.mark .futureDropped with phase := .dropped } := by
  cases hkind : f.service with
  | grpcClient => exact absurd hkind hservice
  | grpcServer => simp only [drop, hphase, hkind]
  | otelTrace => simp only [drop, hphase, hkind]

theorem drop_suspended {f : Flight ε} (hservice : f.service ≠ .grpcClient)
    (hphase : f.phase = .suspended) :
    f.drop = (dropCx { f.mark .futureDropped with phase := .dropped }).dropCx := by
  cases hkind : f.service with
  | grpcClient => exact absurd hkind hservice
  | grpcServer => simp only [drop, hphase, hkind]
  | otelTrace => simp only [drop, hphase, hkind]

end Flight

/-- The clones that the block and `with_context` hold. -/
def Phase.held : Phase → ℕ
  | .unstarted => 1
  | .suspended => 2
  | .finished => 0
  | .dropped => 0

namespace Flight

/-- Between two events of a call of a server middleware. -/
structure Sound (f : Flight ε) : Prop where
  service : f.service ≠ .grpcClient
  balanced : Balanced f.phase.held f
  isOver : f.phase.held = 0 → Over f.marks

namespace Sound

variable {f : Flight ε}

/-- The block runs to its end: `with_context` goes, then what the block has captured. -/
theorem finish {f g : Flight ε} (hbalanced : Balanced 2 f) (hservice : f.service ≠ .grpcClient)
    (hover : Over f.marks) (hg : SameClones f.dropCx g) (result : Except ε Response) :
    Sound (g.finish result).dropCx := by
  have hdropped : Balanced 1 f.dropCx := hbalanced.dropCx fun hzero => by omega
  have hfinish : SameClones f.dropCx (g.finish result) :=
    ⟨hg.service, hg.clones, hg.innerClones, hg.marks⟩
  have hover' : Over (g.finish result).marks := by
    rw [hfinish.marks]
    exact over_dropCx hover
  have hphase : (g.finish result).dropCx.phase = .finished := phase_dropCx _
  refine ⟨?_, ?_, ?_⟩
  · rw [service_dropCx, hfinish.service, service_dropCx]
    exact hservice
  · rw [hphase]
    exact (hfinish.balanced hdropped).dropCx fun _ => hover'
  · exact fun _ => over_dropCx hover'

theorem suspend {f : Flight ε} (hbalanced : Balanced 2 f) (hservice : f.service ≠ .grpcClient) :
    Sound { f with phase := .suspended } where
  service := hservice
  balanced := ⟨hbalanced.clones, hbalanced.ended, hbalanced.late, hbalanced.openAtCall⟩
  isOver := fun hzero => by cases hzero

theorem resume (libs : Libraries) (hservice : f.service ≠ .grpcClient) (h : Balanced 2 f)
    (ambient : Context) (turn : Turn ε) : Sound (f.resume libs ambient turn) := by
  have hpolled := h.pollWithContext turn
  have hpolledService : (f.pollWithContext turn).service ≠ .grpcClient := by
    rw [service_pollWithContext]
    exact hservice
  cases houtcome : turn.outcome with
  | none =>
      cases hkind : f.service with
      | grpcClient => exact absurd hkind hservice
      | grpcServer =>
          simp only [Flight.resume, hkind, GrpcServerTraceService.resume, houtcome]
          exact suspend hpolled hpolledService
      | otelTrace =>
          simp only [Flight.resume, hkind, OtelTraceService.resume, houtcome]
          exact suspend hpolled hpolledService
  | some outcome =>
      have hover : Over (f.pollWithContext turn).marks :=
        over_pollWithContext f (by rw [houtcome]; rfl)
      cases hkind : f.service with
      | grpcClient => exact absurd hkind hservice
      | grpcServer =>
          simp only [Flight.resume, hkind, GrpcServerTraceService.resume, houtcome]
          exact finish hpolled hpolledService hover (recordOutcome_sameClones libs _ outcome) _
      | otelTrace =>
          cases outcome with
          | error e =>
              simp only [Flight.resume, hkind, OtelTraceService.resume, houtcome]
              exact finish hpolled hpolledService hover (SameClones.refl _) _
          | ok response =>
              simp only [Flight.resume, hkind, OtelTraceService.resume, houtcome]
              exact finish hpolled hpolledService hover
                (recordResponse_sameClones libs _ response) _

theorem start (hservice : f.service ≠ .grpcClient) (h : Balanced 1 f) :
    f.start.service ≠ .grpcClient ∧ Balanced 2 f.start := by
  have hstart : f.start = (f.mark (.innerCalled f.request)).cloneCx := by
    cases hkind : f.service with
    | grpcClient => exact absurd hkind hservice
    | grpcServer => simp only [Flight.start, hkind, GrpcServerTraceService.start]
    | otelTrace => simp only [Flight.start, hkind, OtelTraceService.start]
  have hopen : f.clones ≠ 0 := by
    have hclones := h.clones
    omega
  rw [hstart]
  exact ⟨hservice, (h.mark rfl fun _ => hopen).cloneCx⟩

theorem poll (libs : Libraries) (h : Sound f) (ambient : Context) (turn : Turn ε) :
    Sound (f.poll libs ambient turn) := by
  have hbalanced := h.balanced
  cases hphase : f.phase with
  | unstarted =>
      rw [hphase] at hbalanced
      obtain ⟨hservice, hstarted⟩ := start h.service hbalanced
      simpa only [Flight.poll, hphase] using resume libs hservice hstarted ambient turn
  | suspended =>
      rw [hphase] at hbalanced
      simpa only [Flight.poll, hphase] using resume libs h.service hbalanced ambient turn
  | finished => simpa only [Flight.poll, hphase] using h
  | dropped => simpa only [Flight.poll, hphase] using h

/-- The future is dropped where it stands, with all that the block holds. -/
theorem drop (h : Sound f) : Sound f.drop := by
  have hbalanced := h.balanced
  let gone : Flight ε := { f.mark .futureDropped with phase := .dropped }
  have hgone : Over gone.marks := Or.inr (List.mem_append_right _ List.mem_cons_self)
  have hmarked : Balanced f.phase.held gone := by
    have hm := hbalanced.mark (m := .futureDropped) rfl fun hm => by cases hm
    exact ⟨hm.clones, hm.ended, hm.late, hm.openAtCall⟩
  cases hphase : f.phase with
  | unstarted =>
      rw [hphase] at hmarked
      rw [drop_unstarted h.service hphase]
      refine ⟨by rw [service_dropCx]; exact h.service, ?_, fun _ => over_dropCx hgone⟩
      rw [phase_dropCx]
      exact hmarked.dropCx fun _ => hgone
  | suspended =>
      rw [hphase] at hmarked
      rw [drop_suspended h.service hphase]
      refine ⟨by rw [service_dropCx, service_dropCx]; exact h.service, ?_,
        fun _ => over_dropCx (over_dropCx hgone)⟩
      rw [phase_dropCx, phase_dropCx]
      exact (hmarked.dropCx fun hzero => by omega).dropCx fun _ => over_dropCx hgone
  | finished => simpa only [Flight.drop, hphase] using h
  | dropped => simpa only [Flight.drop, hphase] using h

theorem release (h : Sound f) : Sound (f.innerAct false .release) := by
  have hservice := unaffected_service.innerAct false f .release
  have hphase := unaffected_phase.innerAct false f .release
  refine ⟨by rw [hservice]; exact h.service, ?_, ?_⟩
  · rw [hphase]
    exact h.balanced.release false h.isOver
  · intro hzero
    rw [hphase] at hzero
    by_cases hinner : f.innerClones = 0
    · simpa only [innerAct, if_pos hinner] using h.isOver hzero
    · simpa only [innerAct, if_neg hinner] using over_dropCx (h.isOver hzero)

theorem step (libs : Libraries) (h : Sound f) (event : Event ε) : Sound (f.step libs event) := by
  cases event with
  | poll ambient turn => exact h.poll libs ambient turn
  | drop => exact h.drop
  | release => exact h.release

theorem run (libs : Libraries) (h : Sound f) (events : List (Event ε)) :
    Sound (f.run libs events) := by
  induction events generalizing f with
  | nil => exact h
  | cons event events ih => exact ih (h.step libs event)

theorem covered (h : Sound f) : f.Covered where
  atMostOnce := by
    rw [h.balanced.ended]
    by_cases hzero : f.clones = 0
    · simp [hzero]
    · simp [hzero]
  once := by
    intro ⟨hphase, hinner⟩
    have hclones := h.balanced.clones
    have hheld : f.phase.held = 0 := by
      rcases hphase with hphase | hphase
      · rw [hphase]
        rfl
      · rw [hphase]
        rfl
    rw [h.balanced.ended, if_pos (by omega)]
  late := h.balanced.late
  openAtCall := h.balanced.openAtCall

end Sound

end Flight

/-- A server middleware's call starts with the one clone that the block captures. -/
theorem sound_call (libs : Libraries) (ids : Ids) (current : Context) (req : Request)
    {service : Service} (hservice : service ≠ .grpcClient) :
    Flight.Sound (service.call libs ids current req : Flight ε) := by
  cases service with
  | grpcClient => exact absurd rfl hservice
  | grpcServer =>
      refine ⟨hservice, ⟨rfl, rfl, Before.nil, Before.nil⟩, fun hzero => ?_⟩
      cases hzero
  | otelTrace =>
      refine ⟨hservice, ⟨rfl, rfl, Before.nil, Before.nil⟩, fun hzero => ?_⟩
      cases hzero

/-! ## The client middleware -/

namespace Flight

/-- A client call whose span has ended before anything else. -/
structure EndedFirst (f : Flight ε) : Prop where
  service : f.service = .grpcClient
  ended : ∃ span, [.ended span] <+: f.marks

namespace EndedFirst

variable {f : Flight ε}

theorem grow (h : EndedFirst f) {g : Flight ε} (hservice : g.service = f.service)
    (hmarks : f.marks <+: g.marks) : EndedFirst g where
  service := hservice.trans h.service
  ended := by
    obtain ⟨span, hspan⟩ := h.ended
    exact ⟨span, hspan.trans hmarks⟩

theorem resume (libs : Libraries) (h : EndedFirst f) (ambient : Context) (turn : Turn ε) :
    EndedFirst (f.resume libs ambient turn) := by
  have hpolled := h.grow (unaffected_service.pollInner f ambient false turn)
    (marks_pollInner f ambient false turn)
  simp only [Flight.resume, h.service, GrpcClientTraceService.resume]
  cases turn.outcome with
  | none => exact ⟨hpolled.service, hpolled.ended⟩
  | some outcome => exact ⟨hpolled.service, hpolled.ended⟩

theorem poll (libs : Libraries) (h : EndedFirst f) (ambient : Context) (turn : Turn ε) :
    EndedFirst (f.poll libs ambient turn) := by
  cases hphase : f.phase with
  | unstarted =>
      have hstart : f.start = f.mark (.innerCalled f.request) := by
        simp only [Flight.start, h.service, GrpcClientTraceService.start]
      have hstarted : EndedFirst f.start := by
        rw [hstart]
        exact h.grow rfl (marks_mark f _)
      simpa only [Flight.poll, hphase] using hstarted.resume libs ambient turn
  | suspended => simpa only [Flight.poll, hphase] using h.resume libs ambient turn
  | finished => simpa only [Flight.poll, hphase] using h
  | dropped => simpa only [Flight.poll, hphase] using h

theorem drop (h : EndedFirst f) : EndedFirst f.drop := by
  have hmarked := h.grow (service_mark f .futureDropped) (marks_mark f .futureDropped)
  cases hphase : f.phase with
  | unstarted =>
      simp only [Flight.drop, hphase, h.service]
      exact ⟨hmarked.service, hmarked.ended⟩
  | suspended =>
      simp only [Flight.drop, hphase, h.service]
      exact ⟨hmarked.service, hmarked.ended⟩
  | finished => simpa only [Flight.drop, hphase] using h
  | dropped => simpa only [Flight.drop, hphase] using h

theorem step (libs : Libraries) (h : EndedFirst f) (event : Event ε) :
    EndedFirst (f.step libs event) := by
  cases event with
  | poll ambient turn => exact h.poll libs ambient turn
  | drop => exact h.drop
  | release =>
      exact h.grow (unaffected_service.innerAct false f .release) (marks_innerAct false f .release)

theorem run (libs : Libraries) (h : EndedFirst f) (events : List (Event ε)) :
    EndedFirst (f.run libs events) := by
  induction events generalizing f with
  | nil => exact h
  | cons event events ih => exact ih (h.step libs event)

theorem not_covered (h : EndedFirst f) : ¬f.Covered := by
  intro hcovered
  obtain ⟨span, rest, hmarks⟩ := h.ended
  have hlate : Over [] := hcovered.late [] (.ended span) rest hmarks.symm rfl
  simp [Over] at hlate

end EndedFirst

end Flight

/-! ## Every run -/

theorem endedFirst_call (libs : Libraries) (ids : Ids) (current : Context) (req : Request) :
    Flight.EndedFirst (Service.grpcClient.call libs ids current req : Flight ε) :=
  ⟨rfl, _, List.prefix_rfl⟩

/-- Whatever the inner service does and however the future is polled or dropped, the span
covers the call exactly in the services whose block captures the context. -/
theorem covered_iff (libs : Libraries) (ids : Ids) (current : Context) (req : Request)
    (service : Service) (events : List (Event ε)) :
    ((service.call libs ids current req).run libs events).Covered ↔ service ≠ .grpcClient := by
  constructor
  · intro hcovered hclient
    rw [hclient] at hcovered
    exact ((endedFirst_call libs ids current req).run libs events).not_covered hcovered
  · intro hservice
    exact ((sound_call libs ids current req hservice).run libs events).covered

/-- The client span has ended when the request is sent. -/
theorem client_span_ends_first :
    let f : Flight Unit := (Service.grpcClient.call sampleLibraries sampleIds Context.new
      plainRequest).run sampleLibraries
        [.poll Context.new ⟨[], some (.ok ⟨200, []⟩)⟩]
    f.marks = [.ended f.span, .innerCalled f.request, .innerPolled Context.new, .resolved] ∧
      ¬f.Covered := by
  intro f
  refine ⟨rfl, ?_⟩
  intro hcovered
  have hopen : StillOpen [.ended f.span] :=
    hcovered.openAtCall [.ended f.span] (.innerCalled f.request)
      [.innerPolled Context.new, .resolved] rfl rfl
  cases hopen

end OtelBootstrap.Middleware
