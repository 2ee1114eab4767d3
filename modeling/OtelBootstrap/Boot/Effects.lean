import OtelBootstrap.Boot.Trace

/-! # The effects a history leaves behind -/

namespace OtelBootstrap.Boot

open Sections

variable {ι : Type*} [DecidableEq ι] (timeline : Timeline)

/-! ## What each section leaves, read off the history before it -/

/-- The root span ended after `h`, with the counts of `h`. -/
def rootEnd (h : List (ι × Section ι)) (exporter : Exporter) (end_ : SystemTime)
    (outcome : String) : Effect :=
  .endRootSpan exporter end_ outcome (min maxPhases (recorded timeline h).length)
    (UInt64.ofNat ((recorded timeline h).length - maxPhases))

namespace Describes

variable {timeline} {h : List (ι × Section ι)} {state : State}

theorem rootEnd_eq (hd : Describes timeline h state) (exporter : Exporter) (end_ : SystemTime)
    (outcome : String) :
    Effect.endRootSpan exporter end_ outcome state.phases.length state.dropped =
      rootEnd timeline h exporter end_ outcome := by
  rw [rootEnd, hd.length_phases, hd.dropped]

theorem record_effects (hd : Describes timeline h state) (call : RecordCall) :
    (timeline.record state call.name call.start call.end_ call.outcome).2 =
      .echo (timeline.phaseLine state
          (timeline.phaseOf call.name call.start call.end_ call.outcome)) ::
        match attachment timeline h with
        | none => []
        | some a =>
            [.exportPhase a.exporter
              (timeline.phaseOf call.name call.start call.end_ call.outcome)] := by
  cases ha : attachment timeline h with
  | none => rw [timeline.record_of_detached (hd.exporter_of_none ha)]
  | some a => rw [timeline.record_of_attached (hd.exporter_of_some ha)]

open Classical in
theorem ready_effects (hd : Describes timeline h state) (end_ : Instant) :
    (timeline.ready state end_).2 =
      if (firstReady timeline h).isSome then []
      else .echo (timeline.readyEcho state end_) ::
        match attachment timeline h with
        | none => []
        | some a =>
            if Ended timeline h then []
            else [rootEnd timeline h a.exporter (timeline.wall end_) "ready",
              .bootReady (millis (end_ - timeline.origin))] := by
  cases hr : firstReady timeline h with
  | some r =>
      rw [timeline.ready_of_ready (by rw [hd.ready, hr]; rfl)]
      rfl
  | none =>
      have hready : state.ready = none := hd.ready.trans hr
      cases ha : attachment timeline h with
      | none =>
          rw [timeline.ready_of_detached hready (hd.exporter_of_none ha)]
          rfl
      | some a =>
          by_cases he : Ended timeline h
          · rw [timeline.ready_of_ended hready (hd.rootEnded.mpr he)]
            simp [he]
          · rw [timeline.ready_of_open hready (hd.rootEnded_eq_false he)
              (hd.exporter_of_some ha), hd.rootEnd_eq]
            simp [he]

theorem attach_effects (hd : Describes timeline h state) (provider : SdkTracerProvider)
    (serviceName : String) (spanContext : SpanContext) :
    (timeline.attach state provider serviceName spanContext).2.2 =
      match attachment timeline h with
      | some _ => []
      | none =>
          (((recorded timeline h).take maxPhases).map fun p =>
            .exportPhase (timeline.connect provider spanContext) p.2) ++
          match firstReady timeline h with
          | none => []
          | some (wall, at_) =>
              [rootEnd timeline h (timeline.connect provider spanContext) wall "ready",
                .bootReady (millis at_)] := by
  cases ha : attachment timeline h with
  | some a =>
      rw [timeline.attach_of_attached (by rw [hd.exporter_of_some ha]; rfl)]
  | none =>
      have hexports : (state.phases.map fun recorded =>
          Effect.exportPhase (timeline.connect provider spanContext) recorded.phase) =
          ((recorded timeline h).take maxPhases).map fun p =>
            .exportPhase (timeline.connect provider spanContext) p.2 := by
        rw [hd.phases, List.map_map]
        rfl
      cases hr : firstReady timeline h with
      | none =>
          rw [timeline.attach_of_unready (hd.exporter_of_none ha) (hd.not_exported ha)
            (hd.ready.trans hr), hexports]
          simp
      | some r =>
          rw [timeline.attach_of_readied (hd.exporter_of_none ha) (hd.not_exported ha)
            (hd.rootEnded_eq_false (not_ended_of_unattached timeline ha)) (hd.ready.trans hr),
            hexports, hd.rootEnd_eq]

/-- What is left of a record once its export is set aside. -/
theorem record_filterMap {β : Type*} {f : ι × Effect → Option β}
    (hf : ∀ i exporter phase, f (i, .exportPhase exporter phase) = none)
    (hd : Describes timeline h state) (i : ι) (call : RecordCall) :
    ((timeline.record state call.name call.start call.end_ call.outcome).2.map (i, ·)).filterMap f =
      [(i, Effect.echo (timeline.phaseLine state
        (timeline.phaseOf call.name call.start call.end_ call.outcome)))].filterMap f := by
  rw [hd.record_effects]
  cases attachment timeline h with
  | none => rfl
  | some a =>
      simp only [List.map_cons, List.map_nil, List.filterMap_cons, hf]

/-- What is left of a ready once the root's end is set aside. -/
theorem ready_filterMap {β : Type*} {f : ι × Effect → Option β}
    (hend : ∀ i exporter end_ outcome count dropped,
      f (i, .endRootSpan exporter end_ outcome count dropped) = none)
    (hevent : ∀ i took, f (i, .bootReady took) = none)
    (hd : Describes timeline h state) (i : ι) (end_ : Instant) :
    ((timeline.ready state end_).2.map (i, ·)).filterMap f =
      if (firstReady timeline h).isSome then []
      else [(i, Effect.echo (timeline.readyEcho state end_))].filterMap f := by
  rw [hd.ready_effects]
  split
  · rfl
  · cases attachment timeline h with
    | none => rfl
    | some a =>
        dsimp only
        split
        · rfl
        · simp only [List.map_cons, List.map_nil, List.filterMap_cons, rootEnd, hend, hevent]

/-- What is left of an attach once its exports are set aside. -/
theorem attach_filterMap {β : Type*} {f : ι × Effect → Option β}
    (hf : ∀ i exporter phase, f (i, .exportPhase exporter phase) = none)
    (hd : Describes timeline h state) (i : ι) (provider : SdkTracerProvider)
    (serviceName : String) (spanContext : SpanContext) :
    ((timeline.attach state provider serviceName spanContext).2.2.map (i, ·)).filterMap f =
      match attachment timeline h, firstReady timeline h with
      | none, some (wall, at_) =>
          [(i, rootEnd timeline h (timeline.connect provider spanContext) wall "ready"),
            (i, .bootReady (millis at_))].filterMap f
      | _, _ => [] := by
  have hphases : ∀ l : List (ι × Phase), ((l.map fun p =>
      Effect.exportPhase (timeline.connect provider spanContext) p.2).map (i, ·)).filterMap f =
      [] := by
    intro l
    apply List.filterMap_eq_nil_iff.mpr
    intro x hx
    obtain ⟨effect, he, rfl⟩ := List.mem_map.mp hx
    obtain ⟨p, -, rfl⟩ := List.mem_map.mp he
    exact hf i _ _
  rw [hd.attach_effects]
  cases attachment timeline h with
  | some a => rfl
  | none =>
      rw [List.map_append, List.filterMap_append, hphases, List.nil_append]
      cases firstReady timeline h <;> rfl

open Classical in
theorem close_effects (hd : Describes timeline h state) (now : Instant) :
    (timeline.close state now).2 =
      match attachment timeline h with
      | none => []
      | some a =>
          if Ended timeline h then []
          else [rootEnd timeline h a.exporter (timeline.wall now) "incomplete"] := by
  cases ha : attachment timeline h with
  | none => rw [timeline.close_of_detached (hd.exporter_of_none ha)]
  | some a =>
      by_cases he : Ended timeline h
      · rw [timeline.close_of_ended (hd.rootEnded.mpr he)]
        simp [he]
      · rw [timeline.close_of_open (hd.rootEnded_eq_false he) (hd.exporter_of_some ha),
          hd.rootEnd_eq]
        simp [he]

/-- A close ends the root or leaves nothing. -/
theorem close_filterMap {β : Type*} {f : ι × Effect → Option β}
    (hf : ∀ i exporter end_ outcome count dropped,
      f (i, .endRootSpan exporter end_ outcome count dropped) = none)
    (hd : Describes timeline h state) (i : ι) (now : Instant) :
    ((timeline.close state now).2.map (i, ·)).filterMap f = [] := by
  rw [hd.close_effects]
  cases attachment timeline h with
  | none => rfl
  | some a =>
      dsimp only
      split
      · rfl
      · exact List.filterMap_cons_none (hf ..)

end Describes

/-! ## What a section counts as -/

/-- A section leaves the effects of what it counts as in the history before it. -/
inductive Emits (h : List (ι × Section ι)) (state : State) (i : ι) :
    Section ι → List Effect → Prop where
  | record (call) : Emits h state i (.record call)
      (timeline.record state call.name call.start call.end_ call.outcome).2
  | ready (end_) : Emits h state i (.ready end_) (timeline.ready state end_).2
  | attach (provider serviceName spanContext) :
      Emits h state i (.attach provider serviceName spanContext)
        (timeline.attach state provider serviceName spanContext).2.2
  | close {k a now} (ha : attachment timeline h = some a)
      (hk : closeOf a.op (i, k) = some now) :
      Emits h state i k (timeline.close state now).2
  | neutral {k} (hrecord : recordOf timeline (i, k) = none)
      (hready : readyOf timeline (i, k) = none) (hattach : attachOf timeline (i, k) = none)
      (hclose : ∀ a, attachment timeline h = some a → closeOf a.op (i, k) = none) :
      Emits h state i k []

variable {timeline}

theorem closeOf_of_close {op i : ι} {k : Section ι} {now : Instant}
    (hk : closeOf op (i, k) = some now) :
    recordOf timeline (i, k) = none ∧ readyOf timeline (i, k) = none ∧
      attachOf timeline (i, k) = none := by
  cases k with
  | close now => exact ⟨rfl, rfl, rfl⟩
  | closeBoot handles now => exact ⟨rfl, rfl, rfl⟩
  | _ => cases hk

theorem exec_emits {h : List (ι × Section ι)} {s s' : Shared ι} {i : ι} {k : Section ι}
    {es : List Effect} (hexec : exec timeline i k s = some (s', es))
    (hd : Describes timeline h s.state) (ho : Owned timeline h s) :
    Emits timeline h s.state i k es := by
  cases k with
  | record call =>
      cases hexec
      exact .record call
  | setServiceName name =>
      cases hexec
      exact .neutral rfl rfl rfl fun _ _ => rfl
  | ready end_ =>
      cases hexec
      exact .ready end_
  | attach provider serviceName spanContext =>
      simp only [exec, Option.some.injEq, Prod.mk.injEq] at hexec
      rw [← hexec.2]
      exact .attach provider serviceName spanContext
  | close now =>
      cases hexec
      cases ha : attachment timeline h with
      | some a => exact .close ha rfl
      | none =>
          -- a close before the attach is silent
          rw [timeline.close_of_detached (hd.exporter_of_none ha)]
          refine .neutral rfl rfl rfl fun a hsome => ?_
          rw [ha] at hsome
          cases hsome
  | handles provider =>
      simp only [exec] at hexec
      split at hexec
      · cases hexec
      · cases hexec
        exact .neutral rfl rfl rfl fun _ _ => rfl
  | closeBoot handles now =>
      simp only [exec] at hexec
      split at hexec
      · cases hexec
      · rename_i made hmade
        obtain ⟨a, ha, howner⟩ := ho.handles handles made hmade
        by_cases hboot : made.bootOwner = true
        · simp only [hboot, if_true] at hexec
          cases hexec
          refine .close ha ?_
          simp [closeOf, howner.mp hboot]
        · -- only the handles that own the boot close it
          simp only [hboot] at hexec
          cases hexec
          refine .neutral rfl rfl rfl ?_
          intro b hb
          obtain rfl := Option.some.inj (ha.symm.trans hb)
          have hother : handles ≠ a.op := fun he => hboot (howner.mpr he)
          simp [closeOf, hother]
  | shutdownProvider handles =>
      simp only [exec] at hexec
      split at hexec
      · cases hexec
      · cases hexec
        exact .neutral rfl rfl rfl fun _ _ => rfl

end OtelBootstrap.Boot
