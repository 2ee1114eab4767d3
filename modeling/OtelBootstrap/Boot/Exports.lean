import OtelBootstrap.Boot.Effects

/-! # Phases are exported exactly once

A phase is exported by the operation that recorded it when an exporter was attached
before, and by the attach otherwise, as far as the buffer went. -/

namespace OtelBootstrap.Boot

open Sections

variable {ι : Type*} [DecidableEq ι] {timeline : Timeline} {ops : ι → Op ι}

/-! ## Exports -/

def exportOf : ι × Effect → Option (ι × Exporter × Phase)
  | (i, .exportPhase exporter phase) => some (i, exporter, phase)
  | _ => none

/-- The calls of `export`, each with the operation that made it. -/
def exports (es : List (ι × Effect)) : List (ι × Exporter × Phase) :=
  es.filterMap exportOf

variable (timeline) in
/-- The calls a history asks for: the buffered phases by the operation that attached, the
later ones by the operations that recorded them. -/
def exportable (h : List (ι × Section ι)) : List (ι × Exporter × Phase) :=
  match attachment timeline h with
  | none => []
  | some a =>
      ((recorded timeline a.before).take maxPhases).map (fun p => (a.op, a.exporter, p.2)) ++
        (recorded timeline a.after).map fun p => (p.1, a.exporter, p.2)

omit [DecidableEq ι] in
theorem exports_append (es es' : List (ι × Effect)) :
    exports (es ++ es') = exports es ++ exports es' := by
  simp [exports]

omit [DecidableEq ι] in
theorem exportable_snoc_of_neutral {h : List (ι × Section ι)} {x : ι × Section ι}
    (hattach : attachOf timeline x = none) (hrecord : recordOf timeline x = none) :
    exportable timeline (h ++ [x]) = exportable timeline h := by
  cases ha : attachment timeline h with
  | none => simp [exportable, ha, attachment_snoc_of_not timeline ha hattach]
  | some a =>
      simp [exportable, ha, attachment_snoc_of_some timeline ha, recorded, hrecord]

theorem exports_ready {h : List (ι × Section ι)} {state : State}
    (hd : Describes timeline h state) (i : ι) (end_ : Instant) :
    exports ((timeline.ready state end_).2.map (i, ·)) = [] := by
  rw [exports, hd.ready_filterMap (fun _ _ _ _ _ _ => rfl) (fun _ _ => rfl)]
  split <;> rfl

theorem exports_attach {h : List (ι × Section ι)} {state : State}
    (hd : Describes timeline h state) (i : ι) (provider : SdkTracerProvider)
    (serviceName : String) (spanContext : SpanContext) :
    exportable timeline (h ++ [(i, .attach provider serviceName spanContext)]) =
      exportable timeline h ++
        exports ((timeline.attach state provider serviceName spanContext).2.2.map (i, ·)) := by
  rw [hd.attach_effects]
  cases ha : attachment timeline h with
  | some a =>
      simp [exportable, ha, attachment_snoc_of_some timeline ha, recorded, recordOf, exports]
  | none =>
      have hnew : attachment timeline (h ++ [(i, .attach provider serviceName spanContext)]) =
          some ⟨h, i, timeline.connect provider spanContext, []⟩ := by
        rw [attachment_snoc, ha]
        rfl
      have hphases : ∀ l : List (ι × Phase), exports ((l.map fun p =>
          Effect.exportPhase (timeline.connect provider spanContext) p.2).map (i, ·)) =
          l.map fun p => (i, timeline.connect provider spanContext, p.2) := by
        intro l
        simp [exports, exportOf, List.filterMap_map, Function.comp_def]
      have hbefore : exportable timeline h = [] := by
        rw [exportable, ha]
      rw [List.map_append, exports_append, hphases, hbefore, exportable, hnew]
      cases firstReady timeline h <;> simp [recorded, exports, exportOf, rootEnd]

theorem exports_record {h : List (ι × Section ι)} {state : State}
    (hd : Describes timeline h state) (i : ι) (call : RecordCall) :
    exportable timeline (h ++ [(i, .record call)]) = exportable timeline h ++
      exports ((timeline.record state call.name call.start call.end_ call.outcome).2.map
        (i, ·)) := by
  rw [hd.record_effects]
  cases ha : attachment timeline h with
  | none =>
      rw [exportable, exportable, attachment_snoc_of_not timeline ha rfl, ha]
      rfl
  | some a =>
      simp only [exportable, ha, attachment_snoc_of_some timeline ha, recorded_append,
        List.map_append, List.append_assoc]
      rfl

/-- One section leaves exactly the exports that the history it extends asks for. -/
theorem exports_step {h : List (ι × Section ι)} {state : State} {i : ι} {k : Section ι}
    {es : List Effect} (hemits : Emits timeline h state i k es)
    (hd : Describes timeline h state) :
    exportable timeline (h ++ [(i, k)]) =
      exportable timeline h ++ exports (es.map (i, ·)) := by
  cases hemits with
  | record call => exact exports_record hd i call
  | ready end_ =>
      rw [exportable_snoc_of_neutral rfl rfl, exports_ready hd, List.append_nil]
  | attach provider serviceName spanContext =>
      exact exports_attach hd i provider serviceName spanContext
  | close ha hk =>
      obtain ⟨hrecord, -, hattach⟩ := closeOf_of_close hk
      rw [exportable_snoc_of_neutral hattach hrecord, exports,
        hd.close_filterMap (fun _ _ _ _ _ _ => rfl), List.append_nil]
  | neutral hrecord hready hattach hclose =>
      rw [exportable_snoc_of_neutral hattach hrecord]
      exact (List.append_nil _).symm

theorem replays_exports {h : List (ι × Section ι)} {s : Shared ι} {es : List (ι × Effect)}
    (hr : (machine timeline ops).Replays {} h s es) (hone : OneAttach h) :
    exports es = exportable timeline h := by
  induction hr with
  | nil => rfl
  | snoc hr hexec ih =>
      have hone' := oneAttach_of_snoc hone
      obtain ⟨hd, ho⟩ := replays_describes hr hone'
      rw [exports_append, exports_step (exec_emits hexec hd ho) hd, ih hone']

/-! ## Phase lines -/

def phaseEchoOf : ι × Effect → Option (ι × String × Outcome × Duration × Duration)
  | (i, .echo (.phase name outcome took at_ _)) => some (i, name, outcome, took, at_)
  | _ => none

/-- The phase lines echoed, each with the operation that echoed it. -/
def phaseEchoes (es : List (ι × Effect)) :
    List (ι × String × Outcome × Duration × Duration) :=
  es.filterMap phaseEchoOf

variable (timeline) in
/-- The lines a history asks for. -/
def echoable (h : List (ι × Section ι)) : List (ι × String × Outcome × Duration × Duration) :=
  (recorded timeline h).map fun p => (p.1, p.2.name, p.2.outcome, p.2.took, p.2.at_)

/-- Only a record echoes a phase line. -/
theorem phaseEchoes_step {h : List (ι × Section ι)} {state : State} {i : ι} {k : Section ι}
    {es : List Effect} (hemits : Emits timeline h state i k es)
    (hd : Describes timeline h state) :
    phaseEchoes (es.map (i, ·)) =
      ((recordOf timeline (i, k)).map fun p =>
        (p.1, p.2.name, p.2.outcome, p.2.took, p.2.at_)).toList := by
  cases hemits with
  | record call =>
      rw [phaseEchoes, hd.record_filterMap (fun _ _ _ => rfl)]
      rfl
  | ready end_ =>
      rw [phaseEchoes, hd.ready_filterMap (fun _ _ _ _ _ _ => rfl) (fun _ _ => rfl)]
      split <;> rfl
  | attach provider serviceName spanContext =>
      rw [phaseEchoes, hd.attach_filterMap (fun _ _ _ => rfl)]
      cases attachment timeline h with
      | some a => rfl
      | none => cases firstReady timeline h <;> rfl
  | close ha hk =>
      rw [phaseEchoes, hd.close_filterMap (fun _ _ _ _ _ _ => rfl), (closeOf_of_close hk).1]
      rfl
  | neutral hrecord hready hattach hclose =>
      rw [hrecord]
      rfl

theorem replays_phaseEchoes {h : List (ι × Section ι)} {s : Shared ι}
    {es : List (ι × Effect)} (hr : (machine timeline ops).Replays {} h s es)
    (hone : OneAttach h) : phaseEchoes es = echoable timeline h := by
  induction hr with
  | nil => rfl
  | @snoc h s₁ es i k s₂ es' hr hexec ih =>
      have hone' := oneAttach_of_snoc hone
      obtain ⟨hd, ho⟩ := replays_describes hr hone'
      have hstep := phaseEchoes_step (exec_emits hexec hd ho) hd
      rw [phaseEchoes] at hstep
      rw [phaseEchoes, List.filterMap_append, hstep, ← phaseEchoes, ih hone', echoable,
        echoable, recorded_append, List.map_append]
      cases hk : recordOf timeline (i, k) <;> simp [recorded, hk]

/-! ## Whole runs -/

variable (timeline) in
/-- The phases that the first attach makes due: those recorded after it, and the first
`maxPhases` of all. -/
def due (h : List (ι × Section ι)) (a : Attachment ι) : List Phase :=
  ((recorded timeline h).zipIdx.filter fun q =>
    q.2 < maxPhases ∨ (recorded timeline a.before).length ≤ q.2).map fun q => q.1.2

theorem filter_zipIdx_lt {α : Type*} (l : List α) (n k : ℕ) :
    ((l.zipIdx k).filter fun q => q.2 < k + n).map Prod.fst = l.take n := by
  induction l generalizing n k with
  | nil => simp
  | cons x l ih =>
      cases n with
      | zero =>
          rw [List.take_zero, List.map_eq_nil_iff, List.filter_eq_nil_iff]
          rintro ⟨y, j⟩ hj
          have hle := List.le_snd_of_mem_zipIdx hj
          simpa using hle
      | succ n =>
          have hrest := ih n (k + 1)
          rw [show k + 1 + n = k + (n + 1) by omega] at hrest
          rw [List.zipIdx_cons, List.filter_cons_of_pos (by simp), List.map_cons, hrest,
            List.take_succ_cons]

omit [DecidableEq ι] in
theorem due_eq {h : List (ι × Section ι)} {a : Attachment ι}
    (ha : attachment timeline h = some a) :
    due timeline h a =
      ((recorded timeline a.before).take maxPhases ++ recorded timeline a.after).map
        Prod.snd := by
  obtain ⟨k, hh, hk, -⟩ := attachment_eq_some timeline ha
  have hrecorded : recorded timeline h =
      recorded timeline a.before ++ recorded timeline a.after := by
    have hnone : recordOf timeline (a.op, k) = none := by
      cases k with
      | record call => cases hk
      | _ => rfl
    rw [hh, recorded_append, recorded, recorded, List.filterMap_cons_none hnone]
    rfl
  have hbefore : ((recorded timeline a.before).zipIdx.filter fun q =>
      q.2 < maxPhases ∨ (recorded timeline a.before).length ≤ q.2).map Prod.fst =
      (recorded timeline a.before).take maxPhases := by
    rw [← filter_zipIdx_lt (recorded timeline a.before) maxPhases 0]
    congr 1
    apply List.filter_congr
    rintro ⟨x, j⟩ hj
    have hlt := List.snd_lt_of_mem_zipIdx hj
    simp at hlt
    simp
    omega
  have hafter : (((recorded timeline a.after).zipIdx
      (recorded timeline a.before).length).filter fun q =>
        q.2 < maxPhases ∨ (recorded timeline a.before).length ≤ q.2).map Prod.fst =
      recorded timeline a.after := by
    rw [List.filter_eq_self.mpr, List.zipIdx_map_fst]
    rintro ⟨x, j⟩ hj
    have hle := List.le_snd_of_mem_zipIdx hj
    simp [hle]
  have hfst : due timeline h a =
      (((recorded timeline h).zipIdx.filter fun q =>
        q.2 < maxPhases ∨ (recorded timeline a.before).length ≤ q.2).map Prod.fst).map
          Prod.snd := by
    rw [due, List.map_map]
    rfl
  rw [hfst, hrecorded, List.zipIdx_append, List.filter_append, List.map_append, hbefore,
    Nat.zero_add, hafter]

omit [DecidableEq ι] in
/-- The first attach is an attach section of the operation it names. -/
theorem attachment_connect {h : List (ι × Section ι)} {a : Attachment ι}
    (ha : attachment timeline h = some a) :
    ∃ provider serviceName spanContext,
      h = a.before ++ (a.op, .attach provider serviceName spanContext) :: a.after ∧
        a.exporter = timeline.connect provider spanContext := by
  obtain ⟨k, hh, hk, -⟩ := attachment_eq_some timeline ha
  cases k with
  | attach provider serviceName spanContext =>
      exact ⟨provider, serviceName, spanContext, hh, (Option.some.inj hk).symm⟩
  | _ => cases hk

theorem recorded_filter (h : List (ι × Section ι)) (i : ι) :
    (recorded timeline h).filter (fun p => p.1 = i) =
      recorded timeline (h.filter fun x => x.1 = i) := by
  rw [recorded, recorded, List.filter_filterMap, List.filterMap_filter]
  congr 1
  funext x
  cases x with | mk j k =>
  by_cases hj : j = i
  · cases k with
    | record call => simp [recordOf, hj]
    | _ => simp [recordOf]
  · cases k with
    | record call => simp [recordOf, hj]
    | _ => simp [recordOf]

/-- A guard that ended recorded one phase, however it ended. -/
theorem recorded_of_endGuard (r : (machine timeline ops).Run {}) (hdone : r.final.Complete)
    {i : ι} {name : String} {start now : Instant} {ending : Ending}
    (hi : ops i = .endGuard name start ending now)
    (hstarted : ∃ k, (i, k) ∈ history r.final.trace) :
    (recorded timeline (history r.final.trace)).filter (fun p => p.1 = i) =
      [(i, timeline.phaseOf name start now ending.outcome)] := by
  rcases hstarted with ⟨k, hk⟩
  have hprogram := (machine timeline ops).history_of_complete r.ran hdone hk
  have hcall : (machine timeline ops).program i =
      [.record ⟨name, start, now, ending.outcome⟩] := by
    change (ops i).program = _
    rw [hi, Op.program, Ending.calls_phase]
    rfl
  rw [recorded_filter, hprogram, hcall]
  rfl

/-- The effects of a completed run are, up to order, those its history asks for. -/
theorem emitted_of_complete (r : (machine timeline ops).Run {}) (hdone : r.final.Complete) :
    (exports (emitted r.final.trace)).Perm (exportable timeline (history r.final.trace)) ∧
      (phaseEchoes (emitted r.final.trace)).Perm
        (echoable timeline (history r.final.trace)) := by
  obtain ⟨es, hreplay, hperm⟩ := (machine timeline ops).run?_linearizes r.ran
  have hone := oneAttach_of_run r
  rw [hdone.1, List.append_nil] at hperm
  rw [← replays_exports hreplay hone, ← replays_phaseEchoes hreplay hone]
  exact ⟨hperm.filterMap _, hperm.filterMap _⟩

/-- The span that `export` sends has the tracer and root of the exporter, and the start,
end and outcome of the phase. -/
theorem exportPhase_span (exporter : Exporter) (phase : Phase) :
    (exportPhase exporter phase).1.tracer = exporter.tracer ∧
      (exportPhase exporter phase).1.parent = some exporter.root.spanContext ∧
      (exportPhase exporter phase).1.name = phase.name ∧
      (exportPhase exporter phase).1.start = phase.start ∧
      (exportPhase exporter phase).1.end_ = some phase.end_ ∧
      ("boot.outcome", .string phase.outcome.asStr) ∈
        (exportPhase exporter phase).1.attributes := by
  rcases phase with ⟨name, outcome, start, end_, took, at_⟩
  cases outcome <;> simp [exportPhase, SdkTracer.buildWithContext, Span.endWithTimestamp]

/-- Once every operation that started has completed: each guard that ended left one record
and one phase line; nothing is exported without an attach; after one, the phases due are
exported once each, through the exporter of the one attach that succeeded; and that attach
returned the number of phases buffered when it took the lock. -/
theorem exported_exactly_once (r : (machine timeline ops).Run {}) (hdone : r.final.Complete) :
    (∀ i name start ending now, ops i = .endGuard name start ending now →
      (∃ k, (i, k) ∈ history r.final.trace) →
        (recorded timeline (history r.final.trace)).filter (fun p => p.1 = i) =
            [(i, timeline.phaseOf name start now ending.outcome)] ∧
          (phaseEchoes (emitted r.final.trace)).filter (fun p => p.1 = i) =
            [(i, name, ending.outcome, now - start, now - timeline.origin)] ∧
          (timeline.phaseOf name start now ending.outcome).start =
            timeline.originWall + (start - timeline.origin) ∧
          (timeline.phaseOf name start now ending.outcome).end_ =
            timeline.originWall + (now - timeline.origin)) ∧
    (attachment timeline (history r.final.trace) = none →
      exports (emitted r.final.trace) = []) ∧
    (∀ a, attachment timeline (history r.final.trace) = some a →
      ((exports (emitted r.final.trace)).map Prod.snd).Perm
          ((due timeline (history r.final.trace) a).map fun phase => (a.exporter, phase)) ∧
        (∃ provider serviceName spanContext,
          (a.op, .attach provider serviceName spanContext) ∈ history r.final.trace ∧
            a.exporter = timeline.connect provider spanContext) ∧
        ∃ n, r.final.shared.attached a.op = some (some n)) ∧
    (∀ x ∈ exports (emitted r.final.trace),
      let span := (exportPhase x.2.1 x.2.2).1
      span.tracer = x.2.1.tracer ∧ span.parent = some x.2.1.root.spanContext ∧
        span.name = x.2.2.name ∧ span.start = x.2.2.start ∧ span.end_ = some x.2.2.end_ ∧
        ("boot.outcome", .string x.2.2.outcome.asStr) ∈ span.attributes) ∧
    (∀ i n, r.final.shared.attached i = some (some n) →
      ∃ a, attachment timeline (history r.final.trace) = some a ∧ i = a.op ∧
        ∃ before after c, r.schedule = before ++ .enter i :: after ∧
          (machine timeline ops).run? ((machine timeline ops).start {}) before = some c ∧
          history c.trace = a.before ∧ n = c.shared.state.phases.length) := by
  obtain ⟨hexports, hechoes⟩ := emitted_of_complete r hdone
  obtain ⟨-, howned⟩ := run_describes r.ran
  refine ⟨?_, ?_, ?_, fun x _ => exportPhase_span x.2.1 x.2.2, ?_⟩
  · intro i name start ending now hi hstarted
    have hrecorded := recorded_of_endGuard r hdone hi hstarted
    refine ⟨hrecorded, ?_, timeline.phaseOf_times name start now ending.outcome⟩
    have hfilter := hechoes.filter (fun p => p.1 = i)
    have hone : (echoable timeline (history r.final.trace)).filter (fun p => p.1 = i) =
        [(i, name, ending.outcome, now - start, now - timeline.origin)] := by
      rw [echoable, List.filter_map]
      have hsame := congrArg (List.map fun p : ι × Phase =>
        (p.1, p.2.name, p.2.outcome, p.2.took, p.2.at_)) hrecorded
      exact hsame
    rw [hone] at hfilter
    exact List.perm_singleton.mp hfilter
  · intro ha
    rw [exportable, ha] at hexports
    exact hexports.eq_nil
  · intro a ha
    refine ⟨?_, ?_, howned.first a ha⟩
    · have hmap := hexports.map Prod.snd
      rw [exportable, ha] at hmap
      rw [due_eq ha]
      simpa [List.map_map, Function.comp_def] using hmap
    · obtain ⟨provider, serviceName, spanContext, hh, hexporter⟩ := attachment_connect ha
      refine ⟨provider, serviceName, spanContext, ?_, hexporter⟩
      rw [hh]
      simp
  · intro i n hi
    obtain ⟨a, ha, hop, hcount⟩ := howned.attached i _ hi
    obtain rfl := hop.mp rfl
    obtain ⟨provider, serviceName, spanContext, hh, -⟩ := attachment_connect ha
    obtain ⟨before, after, c, s', es, hschedule, hc, hbefore, -⟩ :=
      (machine timeline ops).run?_section r.ran rfl hh
    refine ⟨a, ha, rfl, before, after, c, hschedule, hc, hbefore, ?_⟩
    rw [(run_describes hc).1.length_phases, hbefore]
    exact hcount n rfl

/-- A guard finishes, a provider is attached, and another guard is dropped. -/
def sampleOps : Party → Op Party
  | .first => .endGuard "db" 10 .finish 15
  | .second => .flush ⟨0⟩ "svc" ⟨1, 2⟩
  | .third => .endGuard "cache" 20 .drop 30

def sampleTimeline : Timeline :=
  ⟨0, .processStart, 1000, "exe"⟩

/-- The attach overtakes the first guard's line, and the last guard exports at once. -/
def sampleRun : (machine sampleTimeline sampleOps).Run {} :=
  .of [.enter .first, .enter .second, .emit 1, .emit 0, .enter .third, .emit 0, .emit 0] rfl

theorem sampleRun_complete : sampleRun.final.Complete :=
  ⟨rfl, fun i _ _ => match i with | .first => rfl | .second => rfl | .third => rfl⟩

theorem sampleRun_exported :
    sampleRun.final.Complete ∧
      (phaseEchoes (emitted sampleRun.final.trace)).filter (fun p => p.1 = .third) =
        [(.third, "cache", .failed, 10, 30)] :=
  ⟨sampleRun_complete, ((exported_exactly_once sampleRun sampleRun_complete).1 .third "cache" 20
    .drop 30 rfl ⟨.record ⟨"cache", 20, 30, .failed⟩, by decide⟩).2.1⟩

end OtelBootstrap.Boot
