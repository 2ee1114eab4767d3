import OtelBootstrap.Boot.History

/-! # The state a history leaves behind -/

namespace OtelBootstrap.Boot

open Sections

variable {ι : Type*} [DecidableEq ι] (timeline : Timeline)

def Section.isAttach : Section ι → Bool
  | .attach .. => true
  | _ => false

omit [DecidableEq ι] in
theorem isAttach_of_attachOf {i : ι} {k : Section ι} {exporter : Exporter}
    (h : attachOf timeline (i, k) = some exporter) : k.isAttach = true := by
  cases k with
  | attach provider serviceName spanContext => rfl
  | _ => cases h

/-- A history determines everything in the state but the service name. -/
structure Describes (h : List (ι × Section ι)) (state : State) : Prop where
  exporter : state.exporter = (attachment timeline h).map (·.exporter)
  ready : state.ready = firstReady timeline h
  phases : state.phases = ((recorded timeline h).take maxPhases).map fun p =>
    ⟨p.2, (attachment timeline h).isSome⟩
  dropped : state.dropped = UInt64.ofNat ((recorded timeline h).length - maxPhases)
  rootEnded : state.rootEnded = true ↔ Ended timeline h

/-- The first attach alone returned a number, and only its handles own the boot. -/
structure Owned (h : List (ι × Section ι)) (s : Shared ι) : Prop where
  attached : ∀ i result, s.attached i = some result →
    ∃ a, attachment timeline h = some a ∧ (result.isSome ↔ i = a.op) ∧
      ∀ n, result = some n → n = min maxPhases (recorded timeline a.before).length
  handles : ∀ i made, s.handles i = some made →
    ∃ a, attachment timeline h = some a ∧ (made.bootOwner = true ↔ i = a.op)
  first : ∀ a, attachment timeline h = some a → ∃ n, s.attached a.op = some (some n)

/-- No operation attaches twice. -/
def OneAttach (h : List (ι × Section ι)) : Prop :=
  ∀ i, ((h.filter (fun p => p.1 = i)).map Prod.snd).countP Section.isAttach ≤ 1

namespace Describes

variable {timeline} {h : List (ι × Section ι)} {state : State}

theorem initial : Describes timeline ([] : List (ι × Section ι)) {} := by
  refine ⟨rfl, rfl, rfl, by simp [recorded], ?_⟩
  simp [Ended, attachment]

theorem exporter_of_some {a : Attachment ι} (hd : Describes timeline h state)
    (ha : attachment timeline h = some a) : state.exporter = some a.exporter := by
  rw [hd.exporter, ha, Option.map_some]

theorem exporter_of_none (hd : Describes timeline h state)
    (ha : attachment timeline h = none) : state.exporter = none := by
  rw [hd.exporter, ha, Option.map_none]

theorem rootEnded_eq_false (hd : Describes timeline h state) (he : ¬ Ended timeline h) :
    state.rootEnded = false := by
  rw [← Bool.not_eq_true, hd.rootEnded]
  exact he

theorem length_phases (hd : Describes timeline h state) :
    state.phases.length = min maxPhases (recorded timeline h).length := by
  rw [hd.phases, List.length_map, List.length_take]

theorem not_exported (hd : Describes timeline h state)
    (ha : attachment timeline h = none) :
    ∀ recorded ∈ state.phases, recorded.exported = false := by
  rw [hd.phases, ha]
  intro recorded hr
  obtain ⟨p, -, rfl⟩ := List.mem_map.mp hr
  rfl

/-- A section that records, attaches, closes and readies nothing. -/
theorem neutral {x : ι × Section ι} {state' : State} (hd : Describes timeline h state)
    (hrecord : recordOf timeline x = none) (hready : readyOf timeline x = none)
    (hattach : attachOf timeline x = none)
    (hclose : ∀ a, attachment timeline h = some a → closeOf a.op x = none)
    (hstate : { state with service := state'.service } = state') :
    Describes timeline (h ++ [x]) state' := by
  have hrecorded : recorded timeline (h ++ [x]) = recorded timeline h := by
    simp [recorded, hrecord]
  have hfirst : firstReady timeline (h ++ [x]) = firstReady timeline h := by
    simp [firstReady_snoc, hready]
  rw [← hstate]
  refine ⟨?_, ?_, ?_, ?_, ?_⟩
  · rw [attachment_exporter_snoc timeline hattach]; exact hd.exporter
  · rw [hfirst]; exact hd.ready
  · rw [hrecorded, attachment_isSome_snoc timeline hattach]; exact hd.phases
  · rw [hrecorded]; exact hd.dropped
  · rw [ended_snoc_of_neutral timeline hattach hready hclose]; exact hd.rootEnded

theorem record (hd : Describes timeline h state) (i : ι) (call : RecordCall) :
    Describes timeline (h ++ [(i, .record call)])
      (timeline.record state call.name call.start call.end_ call.outcome).1 := by
  have hattach : attachOf timeline (i, Section.record call) = none := rfl
  have hkeep : (timeline.record state call.name call.start call.end_ call.outcome).1 =
      state.keep ⟨timeline.phaseOf call.name call.start call.end_ call.outcome,
        (attachment timeline h).isSome⟩ := by
    cases ha : attachment timeline h with
    | none => rw [timeline.record_of_detached (hd.exporter_of_none ha)]; rfl
    | some a => rw [timeline.record_of_attached (hd.exporter_of_some ha)]; rfl
  rw [hkeep]
  refine ⟨?_, ?_, ?_, ?_, ?_⟩
  · rw [State.keep_exporter, attachment_exporter_snoc timeline hattach]
    exact hd.exporter
  · rw [State.keep_ready, hd.ready, firstReady_snoc]
    simp [readyOf]
  · rw [recorded_append, attachment_isSome_snoc timeline hattach]
    exact State.keep_phases hd.phases (i, _)
  · rw [recorded_append]
    exact State.keep_dropped hd.length_phases hd.dropped (i, _) _
  · rw [State.keep_rootEnded, ended_snoc_of_neutral timeline hattach rfl fun a _ => rfl]
    exact hd.rootEnded

/-- The root is due once `x` has run, and the state says so. -/
theorem of_ended {x : ι × Section ι} {state' : State} (hd : Describes timeline h state)
    (hrecord : recordOf timeline x = none) (hattach : attachOf timeline x = none)
    (hended : Ended timeline (h ++ [x])) (hready : state'.ready = firstReady timeline (h ++ [x]))
    (hstate : { state with ready := state'.ready, rootEnded := true } = state') :
    Describes timeline (h ++ [x]) state' := by
  have hrecorded : recorded timeline (h ++ [x]) = recorded timeline h := by
    simp [recorded, hrecord]
  rw [← hstate]
  refine ⟨?_, hready, ?_, ?_, ?_⟩
  · rw [attachment_exporter_snoc timeline hattach]; exact hd.exporter
  · rw [hrecorded, attachment_isSome_snoc timeline hattach]; exact hd.phases
  · rw [hrecorded]; exact hd.dropped
  · simp [hended]

theorem markReady (hd : Describes timeline h state) (i : ι) (end_ : Instant) :
    Describes timeline (h ++ [(i, .ready end_)]) (timeline.ready state end_).1 := by
  have hattach : attachOf timeline (i, Section.ready end_) = none := rfl
  have hrecorded : recorded timeline (h ++ [(i, .ready end_)]) = recorded timeline h := by
    simp [recorded, recordOf]
  have hexporter := attachment_exporter_snoc timeline (h := h) hattach
  have hisSome := attachment_isSome_snoc timeline (h := h) hattach
  cases hr : firstReady timeline h with
  | some r =>
      rw [timeline.ready_of_ready (by rw [hd.ready, hr]; rfl)]
      refine ⟨?_, ?_, ?_, ?_, ?_⟩
      · rw [hexporter]; exact hd.exporter
      · rw [firstReady_snoc, hr]; exact hd.ready.trans hr
      · rw [hrecorded, hisSome]; exact hd.phases
      · rw [hrecorded]; exact hd.dropped
      · rw [hd.rootEnded]
        simp [Ended, hisSome, firstReady_snoc, hr]
  | none =>
      have hready : state.ready = none := hd.ready.trans hr
      have hfirst : firstReady timeline (h ++ [(i, .ready end_)]) =
          some (timeline.wall end_, end_ - timeline.origin) := by
        rw [firstReady_snoc, hr]; rfl
      have hended : Ended timeline (h ++ [(i, .ready end_)]) ↔
          (attachment timeline h).isSome := by
        simp [Ended, hisSome, hfirst]
      cases ha : attachment timeline h with
      | none =>
          rw [timeline.ready_of_detached hready (hd.exporter_of_none ha)]
          refine ⟨?_, hfirst.symm, ?_, ?_, ?_⟩
          · rw [hexporter]; exact hd.exporter
          · rw [hrecorded, hisSome]; exact hd.phases
          · rw [hrecorded]; exact hd.dropped
          · rw [hended, ha, hd.rootEnded]
            simp [not_ended_of_unattached timeline ha]
      | some a =>
          have hdue : Ended timeline (h ++ [(i, .ready end_)]) := by simp [hended, ha]
          by_cases he : Ended timeline h
          · have hroot : state.rootEnded = true := hd.rootEnded.mpr he
            rw [timeline.ready_of_ended hready hroot]
            exact hd.of_ended rfl hattach hdue hfirst.symm (by rw [← hroot])
          · rw [timeline.ready_of_open hready (hd.rootEnded_eq_false he)
              (hd.exporter_of_some ha)]
            exact hd.of_ended rfl hattach hdue hfirst.symm rfl

theorem attach (hd : Describes timeline h state) (i : ι) (provider : SdkTracerProvider)
    (serviceName : String) (spanContext : SpanContext) :
    Describes timeline (h ++ [(i, .attach provider serviceName spanContext)])
      (timeline.attach state provider serviceName spanContext).1 := by
  have hrecorded : recorded timeline (h ++ [(i, .attach provider serviceName spanContext)]) =
      recorded timeline h := by
    simp [recorded, recordOf]
  have hfirst : firstReady timeline (h ++ [(i, .attach provider serviceName spanContext)]) =
      firstReady timeline h := by
    simp [firstReady_snoc, readyOf]
  cases ha : attachment timeline h with
  | some a =>
      rw [timeline.attach_of_attached (by rw [hd.exporter_of_some ha]; rfl)]
      have hsnoc := attachment_snoc_of_some timeline ha
        (i, .attach provider serviceName spanContext)
      refine ⟨?_, ?_, ?_, ?_, ?_⟩
      · simpa [hsnoc] using hd.exporter_of_some ha
      · rw [hfirst]; exact hd.ready
      · rw [hrecorded, hsnoc, hd.phases, ha]
        rfl
      · rw [hrecorded]; exact hd.dropped
      · rw [ended_snoc_of_some timeline ha, hd.rootEnded]
        simp [readyOf, closeOf]
  | none =>
      have hnew : attachment timeline (h ++ [(i, .attach provider serviceName spanContext)]) =
          some ⟨h, i, timeline.connect provider spanContext, []⟩ := by
        rw [attachment_snoc, ha]
        rfl
      have hended : Ended timeline (h ++ [(i, .attach provider serviceName spanContext)]) ↔
          (firstReady timeline h).isSome := by
        simp [ended_snoc_of_none timeline ha, attachOf]
      have hopen : state.rootEnded = false :=
        hd.rootEnded_eq_false (not_ended_of_unattached timeline ha)
      have hphases : (state.phases.map fun recorded => { recorded with exported := true }) =
          ((recorded timeline h).take maxPhases).map fun p => ⟨p.2, true⟩ := by
        rw [hd.phases, List.map_map]
        rfl
      cases hr : firstReady timeline h with
      | none =>
          rw [timeline.attach_of_unready (hd.exporter_of_none ha) (hd.not_exported ha)
            (hd.ready.trans hr)]
          refine ⟨by rw [hnew]; rfl, ?_, ?_, ?_, ?_⟩
          · rw [hfirst]; exact hd.ready
          · rw [hrecorded, hnew]; exact hphases
          · rw [hrecorded]; exact hd.dropped
          · rw [hended, hr]
            simp [State.connected, hopen]
      | some r =>
          rw [timeline.attach_of_readied (hd.exporter_of_none ha) (hd.not_exported ha) hopen
            (hd.ready.trans hr)]
          refine ⟨by rw [hnew]; rfl, ?_, ?_, ?_, ?_⟩
          · rw [hfirst]; exact hd.ready
          · rw [hrecorded, hnew]; exact hphases
          · rw [hrecorded]; exact hd.dropped
          · simp [hended, hr]

theorem close {x : ι × Section ι} (hd : Describes timeline h state) (now : Instant)
    (hrecord : recordOf timeline x = none) (hready : readyOf timeline x = none)
    (hattach : attachOf timeline x = none)
    (hclose : ∀ a, attachment timeline h = some a → closeOf a.op x = some now) :
    Describes timeline (h ++ [x]) (timeline.close state now).1 := by
  have hfirst : firstReady timeline (h ++ [x]) = firstReady timeline h := by
    simp [firstReady_snoc, hready]
  cases ha : attachment timeline h with
  | none =>
      rw [timeline.close_of_detached (hd.exporter_of_none ha)]
      refine hd.neutral hrecord hready hattach ?_ rfl
      intro a ha'
      simp [ha] at ha'
  | some a =>
      have hdue : Ended timeline (h ++ [x]) := by
        simp [ended_snoc_of_some timeline ha, hclose a ha]
      by_cases he : Ended timeline h
      · have hroot : state.rootEnded = true := hd.rootEnded.mpr he
        rw [timeline.close_of_ended hroot]
        exact hd.of_ended hrecord hattach hdue (hd.ready.trans hfirst.symm) (by rw [← hroot])
      · rw [timeline.close_of_open (hd.rootEnded_eq_false he) (hd.exporter_of_some ha)]
        exact hd.of_ended hrecord hattach hdue (hd.ready.trans hfirst.symm) rfl

end Describes

namespace Owned

variable {timeline} {h : List (ι × Section ι)} {s s' : Shared ι}

omit [DecidableEq ι] in
theorem initial : Owned timeline ([] : List (ι × Section ι)) {} :=
  ⟨fun _ _ hi => (nomatch hi), fun _ _ hi => (nomatch hi), fun _ ha => (nomatch ha)⟩

omit [DecidableEq ι] in
/-- Later sections do not take the boot from the handles that own it. -/
theorem neutral {x : ι × Section ι} (ho : Owned timeline h s)
    (hx : attachOf timeline x = none) (hattached : s'.attached = s.attached)
    (hhandles : s'.handles = s.handles) : Owned timeline (h ++ [x]) s' := by
  refine ⟨?_, ?_, ?_⟩
  · intro i result hi
    rw [hattached] at hi
    obtain ⟨a, ha, hspec⟩ := ho.attached i result hi
    exact ⟨_, attachment_snoc_of_some timeline ha x, hspec⟩
  · intro i made hi
    rw [hhandles] at hi
    obtain ⟨a, ha, hspec⟩ := ho.handles i made hi
    exact ⟨_, attachment_snoc_of_some timeline ha x, hspec⟩
  · intro b hb
    cases ha : attachment timeline h with
    | none => simp [attachment_snoc_of_not timeline ha hx] at hb
    | some a =>
        rw [attachment_snoc_of_some timeline ha, Option.some.injEq] at hb
        subst b
        rw [hattached]
        exact ho.first a ha

/-- The first attach returns how many phases were buffered. -/
theorem attachFirst {i : ι} {k : Section ι} {exporter : Exporter} {result : Option ℕ}
    (ho : Owned timeline h s) (ha : attachment timeline h = none)
    (hk : attachOf timeline (i, k) = some exporter)
    (hresult : result = some (min maxPhases (recorded timeline h).length))
    (hattached : s'.attached = Function.update s.attached i (some result))
    (hhandles : s'.handles = s.handles) : Owned timeline (h ++ [(i, k)]) s' := by
  have hnew : attachment timeline (h ++ [(i, k)]) = some ⟨h, i, exporter, []⟩ := by
    rw [attachment_snoc, ha, hk]
    rfl
  refine ⟨?_, ?_, ?_⟩
  · intro j r hj
    rw [hattached] at hj
    by_cases hji : j = i
    · subst j
      simp only [Function.update_self, Option.some.injEq] at hj
      subst r
      refine ⟨_, hnew, by simp [hresult], ?_⟩
      intro n hn
      simpa [hresult] using hn.symm
    · rw [Function.update_of_ne hji] at hj
      obtain ⟨a, ha', -⟩ := ho.attached j r hj
      simp [ha] at ha'
  · intro j made hj
    rw [hhandles] at hj
    obtain ⟨a, ha', -⟩ := ho.handles j made hj
    simp [ha] at ha'
  · intro b hb
    rw [hnew, Option.some.injEq] at hb
    subst b
    exact ⟨_, by rw [hattached, hresult, Function.update_self]⟩

/-- Every later attach returns `none`. -/
theorem attachAgain {i : ι} {k : Section ι} {exporter : Exporter} {a : Attachment ι}
    (ho : Owned timeline h s) (ha : attachment timeline h = some a)
    (hk : attachOf timeline (i, k) = some exporter) (hone : OneAttach (h ++ [(i, k)]))
    (hattached : s'.attached = Function.update s.attached i (some none))
    (hhandles : s'.handles = s.handles) : Owned timeline (h ++ [(i, k)]) s' := by
  have hsnoc := attachment_snoc_of_some timeline ha (i, k)
  have hother : i ≠ a.op := by
    rintro rfl
    obtain ⟨k', hh, hk', -⟩ := attachment_eq_some timeline ha
    have hcount := hone a.op
    rw [hh] at hcount
    simp [isAttach_of_attachOf timeline hk, isAttach_of_attachOf timeline hk'] at hcount
    omega
  refine ⟨?_, ?_, ?_⟩
  · intro j r hj
    rw [hattached] at hj
    by_cases hji : j = i
    · subst j
      simp only [Function.update_self, Option.some.injEq] at hj
      subst r
      exact ⟨_, hsnoc, by simp [hother], by simp⟩
    · rw [Function.update_of_ne hji] at hj
      obtain ⟨b, hb, hspec⟩ := ho.attached j r hj
      exact ⟨_, attachment_snoc_of_some timeline hb (i, k), hspec⟩
  · intro j made hj
    rw [hhandles] at hj
    obtain ⟨b, hb, hspec⟩ := ho.handles j made hj
    exact ⟨_, attachment_snoc_of_some timeline hb (i, k), hspec⟩
  · intro b hb
    rw [hsnoc, Option.some.injEq] at hb
    subst b
    rw [hattached, Function.update_of_ne hother.symm]
    exact ho.first a ha

theorem returnHandles (ho : Owned timeline h s) (i : ι) (provider : SdkTracerProvider)
    {result : Option ℕ} (hi : s.attached i = some result) (hattached : s'.attached = s.attached)
    (hhandles : s'.handles =
      Function.update s.handles i (some ⟨provider, result.isSome⟩)) :
    Owned timeline (h ++ [(i, .handles provider)]) s' := by
  have hsame : Owned timeline (h ++ [(i, .handles provider)])
      { s' with handles := s.handles } := ho.neutral rfl hattached rfl
  refine ⟨hsame.attached, ?_, hsame.first⟩
  intro j made hj
  rw [hhandles] at hj
  by_cases hji : j = i
  · subst j
    simp only [Function.update_self, Option.some.injEq] at hj
    subst made
    obtain ⟨a, ha, hspec, -⟩ := ho.attached i result hi
    exact ⟨_, attachment_snoc_of_some timeline ha _, hspec⟩
  · rw [Function.update_of_ne hji] at hj
    exact hsame.handles j made hj

end Owned

theorem oneAttach_of_snoc {h : List (ι × Section ι)} {x : ι × Section ι}
    (hone : OneAttach (h ++ [x])) : OneAttach h := by
  intro i
  have hi := hone i
  rw [List.filter_append, List.map_append, List.countP_append] at hi
  omega

theorem attach_result {h : List (ι × Section ι)} {state : State}
    (hd : Describes timeline h state) (provider : SdkTracerProvider) (serviceName : String)
    (spanContext : SpanContext) :
    (timeline.attach state provider serviceName spanContext).2.1 =
      if (attachment timeline h).isSome then none
      else some (min maxPhases (recorded timeline h).length) := by
  cases ha : attachment timeline h with
  | some a =>
      rw [timeline.attach_of_attached (by rw [hd.exporter_of_some ha]; rfl)]
      rfl
  | none =>
      rw [← hd.length_phases]
      cases hr : firstReady timeline h with
      | none =>
          rw [timeline.attach_of_unready (hd.exporter_of_none ha) (hd.not_exported ha)
            (hd.ready.trans hr)]
          rfl
      | some r =>
          rw [timeline.attach_of_readied (hd.exporter_of_none ha) (hd.not_exported ha)
            (hd.rootEnded_eq_false (not_ended_of_unattached timeline ha)) (hd.ready.trans hr)]
          rfl

/-- One section keeps the history's description of the state. -/
theorem exec_describes {h : List (ι × Section ι)} {s s' : Shared ι} {i : ι} {k : Section ι}
    {es : List Effect} (hexec : exec timeline i k s = some (s', es))
    (hone : OneAttach (h ++ [(i, k)])) (hd : Describes timeline h s.state)
    (ho : Owned timeline h s) :
    Describes timeline (h ++ [(i, k)]) s'.state ∧ Owned timeline (h ++ [(i, k)]) s' := by
  cases k with
  | record call =>
      cases hexec
      exact ⟨hd.record i call, ho.neutral rfl rfl rfl⟩
  | setServiceName name =>
      cases hexec
      exact ⟨hd.neutral rfl rfl rfl (fun _ _ => rfl) rfl, ho.neutral rfl rfl rfl⟩
  | ready end_ =>
      cases hexec
      exact ⟨hd.markReady i end_, ho.neutral rfl rfl rfl⟩
  | attach provider serviceName spanContext =>
      simp only [exec, Option.some.injEq, Prod.mk.injEq] at hexec
      obtain ⟨rfl, rfl⟩ := hexec
      refine ⟨hd.attach i provider serviceName spanContext, ?_⟩
      have hresult := attach_result timeline hd provider serviceName spanContext
      cases ha : attachment timeline h with
      | none =>
          rw [ha] at hresult
          exact ho.attachFirst ha rfl hresult rfl rfl
      | some a =>
          rw [ha, Option.isSome_some, if_pos rfl] at hresult
          refine ho.attachAgain ha rfl hone ?_ rfl
          rw [hresult]
  | close now =>
      cases hexec
      exact ⟨hd.close now rfl rfl rfl (fun _ _ => rfl), ho.neutral rfl rfl rfl⟩
  | handles provider =>
      simp only [exec] at hexec
      split at hexec
      · cases hexec
      · rename_i result hi
        cases hexec
        exact ⟨hd.neutral rfl rfl rfl (fun _ _ => rfl) rfl,
          ho.returnHandles i provider hi rfl rfl⟩
  | closeBoot handles now =>
      simp only [exec] at hexec
      split at hexec
      · cases hexec
      · rename_i made hmade
        obtain ⟨a, ha, howner⟩ := ho.handles handles made hmade
        by_cases hboot : made.bootOwner = true
        · simp only [hboot, if_true] at hexec
          cases hexec
          refine ⟨hd.close now rfl rfl rfl ?_, ho.neutral rfl rfl rfl⟩
          intro b hb
          obtain rfl := Option.some.inj (ha.symm.trans hb)
          simp [closeOf, howner.mp hboot]
        · simp only [hboot] at hexec
          cases hexec
          refine ⟨hd.neutral rfl rfl rfl ?_ rfl, ho.neutral rfl rfl rfl⟩
          intro b hb
          obtain rfl := Option.some.inj (ha.symm.trans hb)
          have hother : handles ≠ a.op := fun he => hboot (howner.mpr he)
          simp [closeOf, hother]
  | shutdownProvider handles =>
      simp only [exec] at hexec
      split at hexec
      · cases hexec
      · cases hexec
        exact ⟨hd.neutral rfl rfl rfl (fun _ _ => rfl) rfl, ho.neutral rfl rfl rfl⟩

variable {timeline} {ops : ι → Op ι}

/-- The sections of a history, run one after another, leave the state it describes. -/
theorem replays_describes {h : List (ι × Section ι)} {s : Shared ι} {es : List (ι × Effect)}
    (hr : (machine timeline ops).Replays {} h s es) (hone : OneAttach h) :
    Describes timeline h s.state ∧ Owned timeline h s := by
  induction hr with
  | nil => exact ⟨Describes.initial, Owned.initial⟩
  | snoc hr hexec ih =>
      obtain ⟨hd, ho⟩ := ih (oneAttach_of_snoc hone)
      exact exec_describes timeline hexec hone hd ho

omit [DecidableEq ι] in
theorem attach_count_program (op : Op ι) : op.program.countP Section.isAttach ≤ 1 := by
  cases op with
  | endGuard name start ending now => simp [Op.program, Ending.calls_phase, Section.isAttach]
  | init provider serviceName spanContext => exact Nat.le_refl 1
  | _ => simp [Op.program, Section.isAttach]

/-- The program of an operation holds at most one attach, hence so does every history. -/
theorem oneAttach_of_run (r : (machine timeline ops).Run {}) :
    OneAttach (history r.final.trace) := by
  intro i
  have hprogram := (machine timeline ops).run?_program r.ran i
  have hcount := attach_count_program (ops i)
  change ((machine timeline ops).program i).countP Section.isAttach ≤ 1 at hcount
  rw [← hprogram, List.countP_append] at hcount
  omega

/-- After every run the shared state is the one that the history describes. -/
theorem run_describes {c : Config ι (Section ι) Effect (Shared ι)} {xs : List (Choice ι)}
    (h : (machine timeline ops).run? ((machine timeline ops).start {}) xs = some c) :
    Describes timeline (history c.trace) c.shared.state ∧
      Owned timeline (history c.trace) c.shared := by
  obtain ⟨es, hreplay, -⟩ := (machine timeline ops).run?_linearizes h
  exact replays_describes hreplay (oneAttach_of_run ⟨xs, c, h⟩)

end OtelBootstrap.Boot
