import OtelBootstrap.Library.Ownership
import OtelBootstrap.Middleware.Handles

/-! # Readiness of the handles that are called -/

namespace OtelBootstrap.Middleware

variable {ε : Type}

/-! ## What holds of every handle -/

/-- Every handle has one owner, whoever may call a handle finds it ready, and no handle was
ever called unready or for a future twice. -/
structure World.Held (w : World ε) : Prop where
  exclusive : Exclusive w.handleOf
  bounded : ∀ a h, w.handleOf a = some h → h < w.handles
  granted : ∀ (s : ℕ) (o : Wrapped), w.services[s]? = some o → o.granted = true →
    isReady o.inner w.log = true
  loaded : ∀ i h, w.handleOf (.future i) = some h → isReady h w.log = true
  lawful : ∀ h, Before (HandleEvent.calls h) (fun front => isReady h front = true) w.log
  once : ∀ i, w.log.countP (HandleEvent.calledFor i) ≤ 1
  unused : ∀ i, w.handleOf (.future i) ≠ none ∨ w.futures.length ≤ i →
    w.log.countP (HandleEvent.calledFor i) = 0

namespace World.Held

variable {w w' : World ε}

theorem initial : Held ({} : World ε) := by
  have hnone : ∀ a, ({} : World ε).handleOf a = none := by
    intro a
    cases a <;> rfl
  refine ⟨?_, ?_, ?_, ?_, fun h => Before.nil, fun i => Nat.zero_le 1, fun i _ => rfl⟩
  · intro a b h ha
    rw [hnone a] at ha
    cases ha
  · intro a h ha
    rw [hnone a] at ha
    cases ha
  · intro s o hs
    cases hs
  · intro i h hi
    rw [hnone] at hi
    cases hi

/-- One more event: a call must find its handle ready and its future without a call. -/
theorem extend (hw : Held w) (event : HandleEvent) (hlog : w'.log = w.log ++ [event])
    (hexclusive : Exclusive w'.handleOf)
    (hbounded : ∀ a h, w'.handleOf a = some h → h < w'.handles)
    (hgranted : ∀ (s : ℕ) (o : Wrapped), w'.services[s]? = some o → o.granted = true →
      isReady o.inner (w.log ++ [event]) = true)
    (hloaded : ∀ i h, w'.handleOf (.future i) = some h → isReady h (w.log ++ [event]) = true)
    (hcall : ∀ handle i, event = .called handle i →
      isReady handle w.log = true ∧ w.log.countP (HandleEvent.calledFor i) = 0)
    (hunused : ∀ i, w'.handleOf (.future i) ≠ none ∨ w'.futures.length ≤ i →
      (w.handleOf (.future i) ≠ none ∨ w.futures.length ≤ i) ∧ event.calledFor i = false) :
    Held w' where
  exclusive := hexclusive
  bounded := hbounded
  granted := by
    rw [hlog]
    exact hgranted
  loaded := by
    rw [hlog]
    exact hloaded
  lawful := by
    intro h
    rw [hlog]
    apply (hw.lawful h).snoc
    intro hcalls
    cases event with
    | called handle i =>
        obtain rfl : handle = h := of_decide_eq_true hcalls
        exact (hcall handle i rfl).1
    | _ => cases hcalls
  once := by
    intro i
    rw [hlog, List.countP_append, List.countP_singleton]
    split
    · rename_i hfor
      cases event with
      | called handle j =>
          obtain rfl : j = i := of_decide_eq_true hfor
          have hunused : w.log.countP (HandleEvent.calledFor j) = 0 := (hcall handle j rfl).2
          omega
      | _ => cases hfor
    · exact hw.once i
  unused := by
    intro i hi
    obtain ⟨hbefore, hfor⟩ := hunused i hi
    rw [hlog, List.countP_append, List.countP_singleton, hw.unused i hbefore, hfor]
    rfl

/-- The next handle to be made is nobody's. -/
theorem free (hw : Held w) (a : Owner) : w.handleOf a ≠ some w.handles :=
  fun ha => Nat.lt_irrefl _ (hw.bounded a w.handles ha)

/-- An event of a fresh handle changes nothing for those that are held. -/
theorem isReady_fresh (hw : Held w) {event : HandleEvent} (htarget : event.target = w.handles)
    {a : Owner} {h : ℕ} (ha : w.handleOf a = some h) :
    isReady h (w.log ++ [event]) = isReady h w.log := by
  apply isReady_snoc_of_ne
  rw [htarget]
  rintro rfl
  exact hw.free a ha

/-- A fresh handle goes to a new service, which nobody has polled. -/
theorem grow (hw : Held w) (event : HandleEvent) {wrapper : Wrapper}
    (htarget : event.target = w.handles) (hcalls : ∀ handle i, event ≠ .called handle i)
    (hhandles : w'.handles = w.handles + 1) (hlog : w'.log = w.log ++ [event])
    (hservices : w'.services = w.services ++ [⟨wrapper, w.handles, false⟩])
    (hfutures : w'.futures = w.futures)
    (hhandleOf : w'.handleOf =
      Function.update w.handleOf (.service w.services.length) (some w.handles)) : Held w' := by
  have hfuture : ∀ i, w'.handleOf (.future i) = w.handleOf (.future i) := by
    intro i
    rw [hhandleOf, Function.update_of_ne Owner.noConfusion]
  refine hw.extend event hlog ?_ ?_ ?_ ?_ ?_ ?_
  · rw [hhandleOf]
    exact hw.exclusive.acquire _ hw.free
  · intro a h ha
    rw [hhandles]
    rw [hhandleOf] at ha
    by_cases hnew : a = .service w.services.length
    · subst hnew
      rw [Function.update_self] at ha
      cases ha
      exact Nat.lt_succ_self _
    · rw [Function.update_of_ne hnew] at ha
      exact Nat.lt_succ_of_lt (hw.bounded a h ha)
  · intro s o hs hgranted
    rw [hservices, getElem?_snoc] at hs
    split at hs
    · cases hs
      cases hgranted
    · rw [hw.isReady_fresh htarget (handleOf_service hs)]
      exact hw.granted s o hs hgranted
  · intro i h hi
    rw [hfuture] at hi
    rw [hw.isReady_fresh htarget hi]
    exact hw.loaded i h hi
  · intro handle i hevent
    exact (hcalls handle i hevent).elim
  · intro i hi
    rw [hfuture, hfutures] at hi
    refine ⟨hi, ?_⟩
    cases event with
    | called handle j => exact (hcalls handle j rfl).elim
    | _ => rfl

theorem layer (hw : Held w) (wrapper : Wrapper) : Held (w.layer wrapper) :=
  hw.grow (.made w.handles) rfl (fun _ _ h => by cases h) rfl rfl rfl rfl
    (handleOf_layer w wrapper)

theorem clone (hw : Held w) (o : Wrapped) : Held (w.clone o) :=
  hw.grow (.cloned o.inner w.handles) rfl (fun _ _ h => by cases h) rfl rfl rfl rfl
    (handleOf_clone w o)

/-- The handle that one service holds is nobody else's. -/
theorem inner_ne (hw : Held w) {s s' : ℕ} {o o' : Wrapped} (hs : w.services[s]? = some o)
    (hs' : w.services[s']? = some o') (hne : s' ≠ s) : o.inner ≠ o'.inner := by
  intro heq
  have hsame := hw.exclusive _ _ _ (handleOf_service hs) (heq ▸ handleOf_service hs')
  exact hne (Owner.service.inj hsame).symm

theorem inner_ne_future (hw : Held w) {s i h : ℕ} {o : Wrapped}
    (hs : w.services[s]? = some o) (hi : w.handleOf (.future i) = some h) : o.inner ≠ h := by
  rintro rfl
  cases hw.exclusive _ _ _ (handleOf_service hs) hi

/-- A service that was set to `o'` and every other one. -/
theorem services_set {s : ℕ} {o o' : Wrapped} (hs : w.services[s]? = some o) {t : ℕ}
    {u : Wrapped} (ht : (w.services.set s o')[t]? = some u) :
    (t = s ∧ u = o') ∨ (t ≠ s ∧ w.services[t]? = some u) := by
  obtain ⟨hlt, -⟩ := List.getElem?_eq_some_iff.mp hs
  by_cases hts : t = s
  · subst hts
    rw [List.getElem?_set_self hlt] at ht
    exact Or.inl ⟨rfl, (Option.some.inj ht).symm⟩
  · rw [List.getElem?_set_ne (fun heq => hts heq.symm)] at ht
    exact Or.inr ⟨hts, ht⟩

/-- An event of the handle that a service holds, which the service keeps. -/
theorem touch (hw : Held w) (event : HandleEvent) {s : ℕ} {o o' : Wrapped}
    (hs : w.services[s]? = some o) (hservices : w'.services = w.services.set s o')
    (htarget : event.target = o.inner) (hinner : o'.inner = o.inner)
    (hready : o'.granted = true → event.leavesReady = true)
    (hlog : w'.log = w.log ++ [event]) (hhandles : w'.handles = w.handles)
    (hhandleOf : w'.handleOf = w.handleOf)
    (hcall : ∀ handle i, event = .called handle i →
      isReady handle w.log = true ∧ w.log.countP (HandleEvent.calledFor i) = 0)
    (hunused : ∀ i, w.handleOf (.future i) ≠ none ∨ w'.futures.length ≤ i →
      (w.handleOf (.future i) ≠ none ∨ w.futures.length ≤ i) ∧ event.calledFor i = false) :
    Held w' := by
  refine hw.extend event hlog ?_ ?_ ?_ ?_ hcall ?_
  · rw [hhandleOf]
    exact hw.exclusive
  · rw [hhandleOf, hhandles]
    exact hw.bounded
  · intro t u ht hgranted
    rw [hservices] at ht
    rcases services_set hs ht with ⟨-, rfl⟩ | ⟨hts, ht⟩
    · rw [hinner, ← htarget, isReady_snoc_self]
      exact hready hgranted
    · have hne : event.target ≠ u.inner := by
        rw [htarget]
        exact hw.inner_ne hs ht hts
      rw [isReady_snoc_of_ne w.log event hne]
      exact hw.granted t u ht hgranted
  · intro i h hi
    rw [hhandleOf] at hi
    have hne : event.target ≠ h := by
      rw [htarget]
      exact hw.inner_ne_future hs hi
    rw [isReady_snoc_of_ne w.log event hne]
    exact hw.loaded i h hi
  · intro i hi
    rw [hhandleOf] at hi
    exact hunused i hi

theorem pollReady (hw : Held w) {s : ℕ} {o : Wrapped} (hs : w.services[s]? = some o)
    (outcome : Readiness) : Held (w.pollReady s o outcome) := by
  refine hw.touch (.polledReady o.inner outcome) hs rfl rfl rfl id rfl rfl
    (handleOf_pollReady hs outcome) ?_ ?_
  · intro handle i hevent
    cases hevent
  · exact fun i hi => ⟨hi, rfl⟩

theorem callSpanEnricher (hw : Held w) {s : ℕ} {o : Wrapped} (hs : w.services[s]? = some o)
    (hgranted : o.granted = true) : Held (w.callSpanEnricher s o) := by
  have hlength : (w.callSpanEnricher s o).futures.length = w.futures.length + 1 := by
    simp [World.callSpanEnricher]
  refine hw.touch (.called o.inner w.futures.length) hs rfl rfl rfl
    (fun hgranted => (Bool.false_ne_true hgranted).elim) rfl rfl
    (handleOf_callSpanEnricher hs) ?_ ?_
  · intro handle i hevent
    cases hevent
    exact ⟨hw.granted s o hs hgranted, hw.unused w.futures.length (Or.inr (Nat.le_refl _))⟩
  · intro i hi
    rw [hlength] at hi
    have hne : w.futures.length ≠ i := by
      rintro rfl
      rcases hi with hi | hi
      · exact hi (handleOf_beyond (Nat.le_refl _))
      · omega
    exact ⟨hi.imp_right fun hle => by omega, decide_eq_false hne⟩

theorem callTrace (hw : Held w) (libs : Libraries) {s : ℕ} {o : Wrapped}
    (hs : w.services[s]? = some o) (hgranted : o.granted = true) (service : Service) (ids : Ids)
    (current : Context) (req : Request) :
    Held (w.callTrace libs s o service ids current req) := by
  have hhandleOf := handleOf_callTrace libs hs service ids current req
  have hkeep : ∀ a h, w.handleOf a = some h →
      isReady h (w.log ++ [.cloned o.inner w.handles]) = isReady h w.log :=
    fun a h ha => hw.isReady_fresh rfl ha
  have hnew : (w.callTrace libs s o service ids current req).handleOf
      (.future w.futures.length) = some o.inner := by
    rw [hhandleOf, Function.update_self]
  have hold : ∀ i, i ≠ w.futures.length →
      (w.callTrace libs s o service ids current req).handleOf (.future i) =
        w.handleOf (.future i) := by
    intro i hi
    have hne : Owner.future i ≠ .future w.futures.length :=
      fun heq => hi (Owner.future.inj heq)
    rw [hhandleOf, Function.update_of_ne hne, Function.update_of_ne Owner.noConfusion]
  refine hw.extend (.cloned o.inner w.handles) rfl ?_ ?_ ?_ ?_ ?_ ?_
  · rw [hhandleOf]
    exact hw.exclusive.handOver _ (handleOf_service hs) hw.free
  · intro a h ha
    rw [hhandleOf] at ha
    by_cases hfuture : a = .future w.futures.length
    · subst hfuture
      rw [Function.update_self] at ha
      cases ha
      exact Nat.lt_succ_of_lt (hw.bounded _ _ (handleOf_service hs))
    · rw [Function.update_of_ne hfuture] at ha
      by_cases hservice : a = .service s
      · subst hservice
        rw [Function.update_self] at ha
        cases ha
        exact Nat.lt_succ_self _
      · rw [Function.update_of_ne hservice] at ha
        exact Nat.lt_succ_of_lt (hw.bounded a h ha)
  · intro t u ht hu
    rcases services_set hs ht with ⟨-, rfl⟩ | ⟨-, ht⟩
    · cases hu
    · rw [hkeep _ _ (handleOf_service ht)]
      exact hw.granted t u ht hu
  · intro i h hi
    by_cases hlast : i = w.futures.length
    · subst hlast
      rw [hnew] at hi
      cases hi
      rw [hkeep _ _ (handleOf_service hs)]
      exact hw.granted s o hs hgranted
    · rw [hold i hlast] at hi
      rw [hkeep _ _ hi]
      exact hw.loaded i h hi
  · intro handle i hevent
    cases hevent
  · intro i hi
    have hlength : (w.callTrace libs s o service ids current req).futures.length =
        w.futures.length + 1 := by
      simp [World.callTrace]
    refine ⟨?_, rfl⟩
    by_cases hlast : i = w.futures.length
    · exact Or.inr (Nat.le_of_eq hlast.symm)
    · rw [hold i hlast, hlength] at hi
      exact hi.imp_right fun hle => by omega

theorem stepFuture (hw : Held w) (libs : Libraries) {i handle : ℕ} {flight : Flight ε}
    (hi : w.futures[i]? = some (.traced handle flight)) (event : Event ε) :
    Held (w.stepFuture libs i handle flight event) := by
  have hlength : (w.stepFuture libs i handle flight event).futures.length = w.futures.length := by
    simp [World.stepFuture]
  have hhandleOf := handleOf_stepFuture libs hi event
  have hexclusive : Exclusive (w.stepFuture libs i handle flight event).handleOf := by
    rw [hhandleOf]
    split
    · exact hw.exclusive
    · exact hw.exclusive.release _
  -- at most the future itself gives its handle up
  have hkept : ∀ a h, (w.stepFuture libs i handle flight event).handleOf a = some h →
      w.handleOf a = some h := by
    intro a h ha
    rw [hhandleOf] at ha
    split at ha
    · exact ha
    · by_cases hself : a = .future i
      · subst hself
        rw [Function.update_self] at ha
        cases ha
      · rw [Function.update_of_ne hself] at ha
        exact ha
  have hbounded : ∀ a h, (w.stepFuture libs i handle flight event).handleOf a = some h →
      h < w.handles := fun a h ha => hw.bounded a h (hkept a h ha)
  have hholds : ∀ j, (w.stepFuture libs i handle flight event).handleOf (.future j) ≠ none →
      w.handleOf (.future j) ≠ none := by
    intro j hj
    obtain ⟨h, hh⟩ := Option.ne_none_iff_exists'.mp hj
    rw [hkept _ _ hh]
    exact Option.some_ne_none h
  cases hcalls : flight.callsInner event with
  | false =>
      have hlog : (w.stepFuture libs i handle flight event).log = w.log := by
        simp [World.stepFuture, hcalls]
      refine ⟨hexclusive, hbounded, ?_, ?_, ?_, ?_, ?_⟩
      · rw [hlog]
        exact hw.granted
      · rw [hlog]
        exact fun j h hj => hw.loaded j h (hkept _ _ hj)
      · rw [hlog]
        exact hw.lawful
      · rw [hlog]
        exact hw.once
      · rw [hlog, hlength]
        exact fun j hj => hw.unused j (hj.imp_left (hholds j))
  | true =>
      have hlog : (w.stepFuture libs i handle flight event).log =
          w.log ++ [.called handle i] := by
        simp [World.stepFuture, hcalls]
      have hphase : flight.phase = .unstarted := by
        cases event with
        | poll ambient turn => exact of_decide_eq_true hcalls
        | _ => cases hcalls
      have hstepped : (flight.step libs event).phase ≠ .unstarted := by
        intro hstill
        rw [(Flight.phase_step libs hstill).2] at hcalls
        cases hcalls
      have hself : w.handleOf (.future i) = some handle := by
        simp only [handleOf, hi, Option.bind_some, Returned.unused, if_pos hphase]
      have hgone : (w.stepFuture libs i handle flight event).handleOf (.future i) = none := by
        rw [hhandleOf, if_neg hstepped, Function.update_self]
      refine hw.extend (.called handle i) hlog hexclusive hbounded ?_ ?_ ?_ ?_
      · intro s o hs hgranted
        rw [isReady_snoc_of_ne w.log (.called handle i) (hw.inner_ne_future hs hself).symm]
        exact hw.granted s o hs hgranted
      · intro j h hj
        have hne : handle ≠ h := by
          rintro rfl
          obtain rfl := Owner.future.inj (hw.exclusive _ _ _ (hkept _ _ hj) hself)
          rw [hgone] at hj
          cases hj
        rw [isReady_snoc_of_ne w.log (.called handle i) hne]
        exact hw.loaded j h (hkept _ _ hj)
      · intro handle' j hevent
        cases hevent
        exact ⟨hw.loaded i handle hself, hw.unused i (Or.inl (by rw [hself]; simp))⟩
      · intro j hj
        rw [hlength] at hj
        refine ⟨hj.imp_left (hholds j), decide_eq_false ?_⟩
        rintro rfl
        rcases hj with hj | hj
        · exact hj hgone
        · rw [handleOf_beyond hj] at hself
          cases hself

theorem stepped (hw : Held w) {libs : Libraries} {act : Act ε} {next : World ε}
    (h : w.Stepped libs act next) (hact : w.Permitted act) : Held next := by
  cases h with
  | idle => exact hw
  | layer wrapper => exact hw.layer wrapper
  | clone hs => exact hw.clone _
  | pollReady outcome hs => exact hw.pollReady hs outcome
  | callTrace ids current req hs hwrapper =>
      obtain ⟨o, ho, hgranted⟩ := hact
      obtain rfl := Option.some.inj (ho.symm.trans hs)
      exact hw.callTrace libs hs hgranted _ ids current req
  | callSpanEnricher ids current req hs hwrapper =>
      obtain ⟨o, ho, hgranted⟩ := hact
      obtain rfl := Option.some.inj (ho.symm.trans hs)
      exact hw.callSpanEnricher hs hgranted
  | future event hi => exact hw.stepFuture libs hi event

theorem step (hw : Held w) (libs : Libraries) {act : Act ε} (hact : w.Permitted act) :
    Held (w.step libs act) :=
  hw.stepped (World.stepped_step libs w act) hact

theorem run (hw : Held w) (libs : Libraries) {acts : List (Act ε)}
    (hacts : w.Respects libs acts) : Held (w.run libs acts) := by
  induction acts generalizing w with
  | nil => exact hw
  | cons act acts ih => exact ih (hw.step libs hacts.1) hacts.2

end World.Held

/-! ## The log and the flights -/

/-- The log holds the calls that the flights have made. -/
structure World.Agrees (w : World ε) : Prop where
  flights : ∀ (i handle : ℕ) (flight : Flight ε),
    w.futures[i]? = some (.traced handle flight) →
    flight.innerCalls = w.log.countP (HandleEvent.calledFor i)
  beyond : ∀ i, w.futures.length ≤ i → w.log.countP (HandleEvent.calledFor i) = 0

namespace World.Agrees

variable {w w' : World ε}

theorem quiet (hw : Agrees w) {event : HandleEvent} (hlog : w'.log = w.log ++ [event])
    (hevent : ∀ i, event.calledFor i = false) (hfutures : w'.futures = w.futures) :
    Agrees w' := by
  have hcount : ∀ i, w'.log.countP (HandleEvent.calledFor i) =
      w.log.countP (HandleEvent.calledFor i) := by
    intro i
    rw [hlog, List.countP_append, List.countP_singleton, hevent i]
    rfl
  refine ⟨?_, ?_⟩
  · intro i handle flight hi
    rw [hfutures] at hi
    rw [hcount]
    exact hw.flights i handle flight hi
  · intro i hi
    rw [hfutures] at hi
    rw [hcount]
    exact hw.beyond i hi

/-- A call returns one more future, for which at most that call has been made. -/
theorem grow (hw : Agrees w) {event : HandleEvent} {future : Returned ε}
    (hlog : w'.log = w.log ++ [event]) (hfutures : w'.futures = w.futures ++ [future])
    (hevent : ∀ i, i ≠ w.futures.length → event.calledFor i = false)
    (hfuture : ∀ handle flight, future = .traced handle flight →
      flight.innerCalls = 0 ∧ event.calledFor w.futures.length = false) : Agrees w' := by
  have hcount : ∀ i, event.calledFor i = false → w'.log.countP (HandleEvent.calledFor i) =
      w.log.countP (HandleEvent.calledFor i) := by
    intro i hi
    rw [hlog, List.countP_append, List.countP_singleton, hi]
    rfl
  refine ⟨?_, ?_⟩
  · intro i handle flight hi
    rw [hfutures, getElem?_snoc] at hi
    split at hi
    · rename_i hlast
      subst hlast
      obtain ⟨hcalls, hquiet⟩ := hfuture handle flight (Option.some.inj hi)
      rw [hcount _ hquiet, hw.beyond _ (Nat.le_refl _), hcalls]
    · rename_i hold
      rw [hcount i (hevent i hold)]
      exact hw.flights i handle flight hi
  · intro i hi
    rw [hfutures, List.length_append, List.length_singleton] at hi
    rw [hcount i (hevent i (by omega))]
    exact hw.beyond i (by omega)

theorem stepFuture (hw : Agrees w) (libs : Libraries) {i handle : ℕ} {flight : Flight ε}
    (hi : w.futures[i]? = some (.traced handle flight)) (event : Event ε) :
    Agrees (w.stepFuture libs i handle flight event) := by
  obtain ⟨hlt, -⟩ := List.getElem?_eq_some_iff.mp hi
  have hother : ∀ j, j ≠ i → (w.stepFuture libs i handle flight event).log.countP
      (HandleEvent.calledFor j) = w.log.countP (HandleEvent.calledFor j) := by
    intro j hj
    have hquiet : (HandleEvent.called handle i).calledFor j = false :=
      decide_eq_false fun heq => hj heq.symm
    unfold World.stepFuture
    dsimp only
    split
    · rw [List.countP_append, List.countP_singleton, hquiet]
      rfl
    · rfl
  refine ⟨?_, ?_⟩
  · intro j handle' flight' hj
    by_cases hji : j = i
    · subst hji
      simp only [World.stepFuture, List.getElem?_set_self hlt, Option.some.injEq,
        Returned.traced.injEq] at hj
      obtain ⟨-, rfl⟩ := hj
      rw [Flight.innerCalls_step, hw.flights j handle flight hi]
      have hself : (HandleEvent.called handle j).calledFor j = true := decide_eq_true rfl
      cases hcalls : flight.callsInner event with
      | true =>
          simp only [World.stepFuture, hcalls, if_true, List.countP_append,
            List.countP_singleton, hself]
      | false => simp [World.stepFuture, hcalls]
    · simp only [World.stepFuture, List.getElem?_set_ne (fun heq => hji heq.symm)] at hj
      rw [hother j hji]
      exact hw.flights j handle' flight' hj
  · intro j hj
    have hlength : (w.stepFuture libs i handle flight event).futures.length =
        w.futures.length := by
      simp [World.stepFuture]
    rw [hlength] at hj
    rw [hother j (by omega)]
    exact hw.beyond j hj

theorem innerCalls_call (libs : Libraries) (ids : Ids) (current : Context) (req : Request)
    (service : Service) : (service.call libs ids current req : Flight ε).innerCalls = 0 := by
  cases service <;> rfl

theorem stepped (hw : Agrees w) {libs : Libraries} {act : Act ε} {next : World ε}
    (h : w.Stepped libs act next) : Agrees next := by
  cases h with
  | idle => exact hw
  | layer wrapper => exact hw.quiet rfl (fun _ => rfl) rfl
  | clone hs => exact hw.quiet rfl (fun _ => rfl) rfl
  | pollReady outcome hs => exact hw.quiet rfl (fun _ => rfl) rfl
  | callTrace ids current req hs hwrapper =>
      refine hw.grow rfl rfl (fun _ _ => rfl) ?_
      intro handle flight hfuture
      cases hfuture
      exact ⟨innerCalls_call libs ids current req _, rfl⟩
  | callSpanEnricher ids current req hs hwrapper =>
      refine hw.grow rfl rfl (fun i hi => decide_eq_false fun heq => hi heq.symm) ?_
      intro handle flight hfuture
      cases hfuture
  | future event hi => exact hw.stepFuture libs hi event

theorem step (hw : Agrees w) (libs : Libraries) (act : Act ε) : Agrees (w.step libs act) :=
  hw.stepped (World.stepped_step libs w act)

/-- However the services are used, a flight has called the inner service as often as the
log says. -/
theorem run (libs : Libraries) (acts : List (Act ε)) :
    Agrees (({} : World ε).run libs acts) := by
  have hstart : Agrees ({} : World ε) := ⟨fun i handle flight hi => (nomatch hi), fun _ _ => rfl⟩
  induction acts using List.reverseRecOn with
  | nil => exact hstart
  | append_singleton acts act ih =>
      rw [World.run, List.foldl_append]
      exact ih.step libs act

end World.Agrees

/-! ## Runs -/

namespace World

theorem log_step (libs : Libraries) (w : World ε) (act : Act ε) :
    w.log <+: (w.step libs act).log := by
  cases act with
  | layer wrapper => exact List.prefix_append ..
  | clone s | pollReady s outcome =>
      unfold step
      dsimp only
      split
      · exact List.prefix_append ..
      · exact List.prefix_rfl
  | call s ids current req =>
      unfold step
      dsimp only
      split
      · split
        · exact List.prefix_append ..
        · exact List.prefix_append ..
      · exact List.prefix_rfl
  | future i event =>
      unfold step
      dsimp only
      split
      · unfold stepFuture
        dsimp only
        split
        · exact List.prefix_append ..
        · exact List.prefix_rfl
      · exact List.prefix_rfl
      · exact List.prefix_rfl

theorem log_run (libs : Libraries) (w : World ε) (acts : List (Act ε)) :
    w.log <+: (w.run libs acts).log := by
  induction acts generalizing w with
  | nil => exact List.prefix_rfl
  | cons act acts ih => exact (log_step libs w act).trans (ih _)

/-- Whatever handle a call leaves in the service is one that has to be polled again. -/
theorem not_ready_after_call (libs : Libraries) {w : World ε} {s : ℕ} {ids : Ids}
    {current : Context} {req : Request} {o : Wrapped}
    (ho : (w.step libs (.call s ids current req)).services[s]? = some o) :
    isReady o.inner (w.step libs (.call s ids current req)).log = false := by
  cases hs : w.services[s]? with
  | none =>
      simp only [step, hs] at ho
      cases ho
  | some o' =>
      obtain ⟨hlt, -⟩ := List.getElem?_eq_some_iff.mp hs
      simp only [step, hs] at ho ⊢
      cases hwrapper : o'.wrapper with
      | trace service =>
          rw [hwrapper] at ho
          simp only [callTrace, List.getElem?_set_self hlt, Option.some.injEq] at ho ⊢
          subst ho
          exact isReady_snoc_self w.log (.cloned o'.inner w.handles)
      | spanEnricher =>
          rw [hwrapper] at ho
          simp only [callSpanEnricher, List.getElem?_set_self hlt, Option.some.injEq] at ho ⊢
          subst ho
          exact isReady_snoc_self w.log (.called o'.inner w.futures.length)

end World

/-- If callers keep to the contract, so do the middlewares: every call of an inner handle
finds it polled ready and not called since, no future makes two, and the handle a service
is left with after a call is polled before it is called. -/
theorem called_when_ready (libs : Libraries) {acts : List (Act ε)}
    (hacts : ({} : World ε).Respects libs acts) :
    (∀ (before : List HandleEvent) (handle i : ℕ) (after : List HandleEvent),
      (({} : World ε).run libs acts).log = before ++ .called handle i :: after →
      ∃ front back : List HandleEvent, before = front ++ .polledReady handle .ready :: back ∧
        ∀ event ∈ back, event.target ≠ handle) ∧
    (∀ i, (({} : World ε).run libs acts).log.countP (HandleEvent.calledFor i) ≤ 1) ∧
    (∀ (i handle : ℕ) (flight : Flight ε),
      (({} : World ε).run libs acts).futures[i]? = some (.traced handle flight) →
      flight.innerCalls ≤ 1) ∧
    ∀ (before : List (Act ε)) (s : ℕ) (ids : Ids) (current : Context) (req : Request)
      (after : List (Act ε)) (o : Wrapped),
      acts = before ++ .call s ids current req :: after →
      (({} : World ε).run libs (before ++ [.call s ids current req])).services[s]? = some o →
      ∃ more : List HandleEvent, (({} : World ε).run libs acts).log =
          (({} : World ε).run libs (before ++ [.call s ids current req])).log ++ more ∧
        ∀ (mid : List HandleEvent) (i : ℕ) (rest : List HandleEvent),
          more = mid ++ .called o.inner i :: rest → .polledReady o.inner .ready ∈ mid := by
  have hheld := World.Held.initial.run libs hacts
  refine ⟨?_, hheld.once, ?_, ?_⟩
  · intro before handle i after hlog
    exact exists_of_isReady (hheld.lawful handle before _ after hlog (decide_eq_true rfl))
  · intro i handle flight hi
    rw [(World.Agrees.run libs acts).flights i handle flight hi]
    exact hheld.once i
  · intro before s ids current req after o heq ho
    have hleft : isReady o.inner
        (({} : World ε).run libs (before ++ [.call s ids current req])).log = false := by
      rw [World.run, List.foldl_append] at ho ⊢
      exact World.not_ready_after_call libs ho
    have hsplit : ({} : World ε).run libs acts =
        (({} : World ε).run libs (before ++ [.call s ids current req])).run libs after := by
      rw [heq, World.run, World.run, World.run, ← List.foldl_append, List.append_cons]
    obtain ⟨more, hmore⟩ := World.log_run libs
      (({} : World ε).run libs (before ++ [.call s ids current req])) after
    rw [← hsplit] at hmore
    refine ⟨more, hmore.symm, ?_⟩
    rintro mid i rest rfl
    apply polledReady_of_isReady hleft
    apply hheld.lawful o.inner _ (.called o.inner i) rest _ (decide_eq_true rfl)
    rw [← hmore, List.append_assoc]

/-- A service that traces, called twice before its first future is polled, and an enricher. -/
def sampleActs : List (Act Unit) :=
  [.layer (.trace .otelTrace), .pollReady 0 .ready,
    .call 0 sampleIds Context.new plainRequest, .pollReady 0 .pending, .pollReady 0 .ready,
    .call 0 sampleIds Context.new plainRequest, .clone 0,
    .future 1 (.poll Context.new ⟨[], none⟩), .future 0 (.poll Context.new ⟨[], none⟩),
    .future 1 .drop, .layer .spanEnricher, .pollReady 2 .ready,
    .call 2 sampleIds Context.new plainRequest]

theorem sampleActs_ready :
    ({} : World Unit).Respects sampleLibraries sampleActs ∧
      (({} : World Unit).run sampleLibraries sampleActs).log =
        [.made 0, .polledReady 0 .ready, .cloned 0 1, .polledReady 1 .pending,
          .polledReady 1 .ready, .cloned 1 2, .cloned 2 3, .called 1 1, .called 0 0, .made 4,
          .polledReady 4 .ready, .called 4 2] ∧
      ∀ i, (({} : World Unit).run sampleLibraries sampleActs).log.countP
        (HandleEvent.calledFor i) ≤ 1 := by
  have hacts : ({} : World Unit).Respects sampleLibraries sampleActs :=
    ⟨trivial, trivial, ⟨_, rfl, rfl⟩, trivial, trivial, ⟨_, rfl, rfl⟩, trivial, trivial, trivial,
      trivial, trivial, trivial, ⟨_, rfl, rfl⟩, trivial⟩
  exact ⟨hacts, rfl, (called_when_ready sampleLibraries hacts).2.1⟩

end OtelBootstrap.Middleware
