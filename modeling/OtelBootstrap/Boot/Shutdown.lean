import OtelBootstrap.Boot.Exports
import OtelBootstrap.Boot.Root

/-! # Shutdown of the owning handles

The spans of a phase and of the root are ended after the lock is released, so a shutdown
on another thread can overtake them. -/

namespace OtelBootstrap.Boot

open Sections

variable {ι : Type*} [DecidableEq ι] {timeline : Timeline} {ops : ι → Op ι}

/-! ## What the timeline claims -/

variable (timeline) in
/-- The phases that took the lock after the attach and before the first close: they are
marked as exported. -/
def claimed (a : Attachment ι) : List (ι × Phase) :=
  recorded timeline (a.after.takeWhile fun x => (closeOf a.op x).isNone)

/-- The shutdown of the owning handles is about to start on their tracer provider. -/
structure ShutdownStep (r : (machine timeline ops).Run {})
    (c : Config ι (Section ι) Effect (Shared ι)) (a : Attachment ι) : Prop where
  scheduled : ∃ before i after rest, r.schedule = before ++ .enter i :: after ∧
    (machine timeline ops).run? ((machine timeline ops).start {}) before = some c ∧
    c.todo i = .shutdownProvider a.op :: rest
  attached : attachment timeline (history c.trace) = some a

/-- Every claimed phase and a root that was taken have been ended. -/
structure NothingLost (timeline : Timeline) (c : Config ι (Section ι) Effect (Shared ι))
    (a : Attachment ι) : Prop where
  phases : ∀ p ∈ claimed timeline a, (p.1, a.exporter, p.2) ∈ exports (emitted c.trace)
  root : Ended timeline (history c.trace) →
    ∃ e ∈ rootEnds (emitted c.trace), e.exporter = a.exporter

/-- No operation that recorded a claimed phase still has to export it, and none that took
the root still has to end it. -/
structure TailsDone (timeline : Timeline) (c : Config ι (Section ι) Effect (Shared ι))
    (a : Attachment ι) : Prop where
  exported : ∀ p ∈ claimed timeline a, ∀ exporter phase,
    (p.1, .exportPhase exporter phase) ∉ c.pending
  ended : ∀ i exporter end_ outcome count dropped,
    (i, .endRootSpan exporter end_ outcome count dropped) ∉ c.pending

/-! ## Exports of one operation -/

omit [DecidableEq ι] in
theorem mem_exports {i : ι} {exporter : Exporter} {phase : Phase} {es : List (ι × Effect)} :
    (i, exporter, phase) ∈ exports es ↔ (i, .exportPhase exporter phase) ∈ es := by
  rw [exports, List.mem_filterMap]
  constructor
  · rintro ⟨⟨j, effect⟩, hmem, h⟩
    cases effect with
    | exportPhase exporter' phase' =>
        cases h
        exact hmem
    | _ => cases h
  · intro hmem
    exact ⟨_, hmem, rfl⟩

omit [DecidableEq ι] in
theorem mem_rootEnds {e : RootEnd} {es : List (ι × Effect)} :
    e ∈ rootEnds es ↔
      ∃ i, (i, .endRootSpan e.exporter e.end_ e.outcome e.count e.dropped) ∈ es := by
  rw [rootEnds, List.mem_filterMap]
  constructor
  · rintro ⟨⟨j, effect⟩, hmem, h⟩
    cases effect with
    | endRootSpan exporter end_ outcome count dropped =>
        cases h
        exact ⟨j, hmem⟩
    | _ => cases h
  · rintro ⟨i, hmem⟩
    exact ⟨_, hmem, rfl⟩

omit [DecidableEq ι] in
/-- An operation that records does nothing else. -/
theorem program_of_record {op : Op ι} {call : RecordCall} (h : .record call ∈ op.program) :
    op.program = [.record call] := by
  cases op with
  | endGuard name start ending now =>
      rw [Op.program, Ending.calls_phase] at h ⊢
      rw [List.map_singleton, List.mem_singleton] at h
      rw [List.map_singleton, h]
  | _ => simp [Op.program] at h

theorem filter_of_record {c : Config ι (Section ι) Effect (Shared ι)} {xs : List (Choice ι)}
    (h : (machine timeline ops).run? ((machine timeline ops).start {}) xs = some c) {i : ι}
    {call : RecordCall} (hi : (i, .record call) ∈ history c.trace) :
    ((history c.trace).filter fun x => x.1 = i).map Prod.snd = [.record call] := by
  have hprogram := (machine timeline ops).run?_program h i
  have hmem : Section.record call ∈
      ((history c.trace).filter fun x => x.1 = i).map Prod.snd :=
    List.mem_map.mpr ⟨_, List.mem_filter.mpr ⟨hi, by simp⟩, rfl⟩
  have hsingle : (machine timeline ops).program i = [.record call] := by
    have hin : Section.record call ∈ (machine timeline ops).program i := by
      rw [← hprogram]
      exact List.mem_append_left _ hmem
    exact program_of_record hin
  rw [hsingle, List.append_eq_singleton_iff] at hprogram
  rcases hprogram with ⟨hnil, -⟩ | ⟨hone, -⟩
  · rw [hnil] at hmem
    cases hmem
  · exact hone

/-- An operation that records exports at most once. -/
theorem exportable_count_le {c : Config ι (Section ι) Effect (Shared ι)}
    {xs : List (Choice ι)}
    (h : (machine timeline ops).run? ((machine timeline ops).start {}) xs = some c) {i : ι}
    {call : RecordCall} (hi : (i, .record call) ∈ history c.trace) :
    (exportable timeline (history c.trace)).countP (fun x => x.1 = i) ≤ 1 := by
  cases ha : attachment timeline (history c.trace) with
  | none => simp [exportable, ha]
  | some a =>
      have hfilter := filter_of_record h hi
      obtain ⟨provider, serviceName, spanContext, hh, -⟩ := attachment_connect ha
      have hother : a.op ≠ i := by
        rintro rfl
        have hmem : Section.attach provider serviceName spanContext ∈
            ((history c.trace).filter fun x => x.1 = a.op).map Prod.snd := by
          refine List.mem_map.mpr ⟨(a.op, _), List.mem_filter.mpr ⟨?_, by simp⟩, rfl⟩
          rw [hh]
          simp
        rw [hfilter] at hmem
        simp at hmem
      have hrecorded : (recorded timeline (history c.trace)).countP (fun p => p.1 = i) ≤ 1 := by
        rw [List.countP_eq_length_filter, recorded_filter]
        have hone : ((history c.trace).filter fun x => x.1 = i).length = 1 := by
          rw [← List.length_map Prod.snd, hfilter]
          rfl
        rw [← hone]
        exact List.length_filterMap_le ..
      have hafter : (recorded timeline a.after).countP (fun p => p.1 = i) ≤
          (recorded timeline (history c.trace)).countP (fun p => p.1 = i) := by
        apply List.Sublist.countP_le
        apply List.Sublist.filterMap
        rw [hh]
        exact (List.sublist_cons_self ..).trans (List.sublist_append_right ..)
      have hbefore : (((recorded timeline a.before).take maxPhases).map fun p =>
          (a.op, a.exporter, p.2)).countP (fun x => x.1 = i) = 0 := by
        rw [List.countP_eq_zero]
        intro x hx
        obtain ⟨p, -, rfl⟩ := List.mem_map.mp hx
        simpa using hother
      rw [exportable, ha, List.countP_append, hbefore, List.countP_map, Nat.zero_add]
      exact Nat.le_trans hafter hrecorded

/-! ## Shutdown against unlocked tails -/

/-- What is claimed is due for export by the operation that recorded it. -/
theorem claimed_exportable {h : List (ι × Section ι)} {a : Attachment ι}
    (ha : attachment timeline h = some a) {p : ι × Phase}
    (hp : p ∈ claimed timeline a) :
    (p.1, a.exporter, p.2) ∈ exportable timeline h ∧ ∃ call, (p.1, .record call) ∈ h := by
  have hafter : p ∈ recorded timeline a.after :=
    ((List.takeWhile_sublist _).filterMap _).subset hp
  refine ⟨?_, ?_⟩
  · rw [exportable, ha]
    exact List.mem_append_right _ (List.mem_map.mpr ⟨p, hafter, rfl⟩)
  · obtain ⟨⟨i, k⟩, hmem, hk⟩ := List.mem_filterMap.mp hafter
    obtain ⟨_, _, _, hh, -⟩ := attachment_connect ha
    cases k with
    | record call =>
        cases hk
        refine ⟨call, ?_⟩
        rw [hh]
        exact List.mem_append_right _ (List.mem_cons_of_mem _ hmem)
    | _ => cases hk

/-- What was ended and what is still to be ended make up what the history asks for. -/
theorem effects_of_run {c : Config ι (Section ι) Effect (Shared ι)} {xs : List (Choice ι)}
    (h : (machine timeline ops).run? ((machine timeline ops).start {}) xs = some c) :
    (exports (emitted c.trace) ++ exports c.pending).Perm
        (exportable timeline (history c.trace)) ∧
      ∃ ends, RootSpec timeline (history c.trace) ends ∧
        (rootEnds (emitted c.trace) ++ rootEnds c.pending).Perm ends := by
  obtain ⟨es, hreplay, hperm⟩ := (machine timeline ops).run?_linearizes h
  have hone := oneAttach_of_run ⟨xs, c, h⟩
  refine ⟨?_, _, replays_rootEnds hreplay hone, ?_⟩
  · rw [← replays_exports hreplay hone, ← exports_append]
    exact hperm.filterMap _
  · have hsplit : rootEnds (emitted c.trace ++ c.pending) =
        rootEnds (emitted c.trace) ++ rootEnds c.pending := List.filterMap_append ..
    rw [← hsplit]
    exact hperm.filterMap _

/-- Nothing is lost at a moment exactly when no unlocked tail is left at that moment. -/
theorem nothingLost_iff_tailsDone {c : Config ι (Section ι) Effect (Shared ι)}
    {xs : List (Choice ι)} {a : Attachment ι}
    (h : (machine timeline ops).run? ((machine timeline ops).start {}) xs = some c)
    (ha : attachment timeline (history c.trace) = some a) :
    NothingLost timeline c a ↔ TailsDone timeline c a := by
  obtain ⟨hexports, ends, hspec, hends⟩ := effects_of_run h
  constructor
  · intro hn
    refine ⟨?_, ?_⟩
    · intro p hp exporter phase hpending
      obtain ⟨-, call, hcall⟩ := claimed_exportable ha hp
      have hle := exportable_count_le h hcall
      have hemitted := hn.phases p hp
      have hfirst : 0 < (exports (emitted c.trace)).countP (fun x => x.1 = p.1) :=
        List.countP_pos_iff.mpr ⟨_, hemitted, by simp⟩
      have hsecond : 0 < (exports c.pending).countP (fun x => x.1 = p.1) :=
        List.countP_pos_iff.mpr ⟨_, mem_exports.mpr hpending, by simp⟩
      rw [← hexports.countP_eq, List.countP_append] at hle
      omega
    · intro i exporter end_ outcome count dropped hpending
      have hin : (⟨exporter, end_, outcome, count, dropped⟩ : RootEnd) ∈ rootEnds c.pending :=
        mem_rootEnds.mpr ⟨i, hpending⟩
      have hended : Ended timeline (history c.trace) := by
        apply Classical.byContradiction
        intro hopen
        rw [hspec.still_open hopen] at hends
        have hnil := hends.eq_nil
        rw [List.append_eq_nil_iff] at hnil
        rw [hnil.2] at hin
        cases hin
      obtain ⟨e, he, -⟩ := hn.root hended
      have hlength := hends.length_eq
      have hle := hspec.length_le
      have hfirst := List.length_pos_of_mem he
      have hsecond := List.length_pos_of_mem hin
      rw [List.length_append] at hlength
      omega
  · intro ht
    refine ⟨?_, ?_⟩
    · intro p hp
      obtain ⟨hdue, -⟩ := claimed_exportable ha hp
      rcases List.mem_append.mp (hexports.mem_iff.mpr hdue) with hemitted | hpending
      · exact hemitted
      · exact absurd (mem_exports.mp hpending) (ht.exported p hp _ _)
    · intro hended
      obtain ⟨before, x, after, a', end_, outcome, -, -, -, ha', -, heq⟩ := hspec.once hended
      obtain rfl := Option.some.inj (ha.symm.trans ha')
      have hin : summary timeline before a.exporter end_ outcome ∈ ends := by simp [heq]
      rcases List.mem_append.mp (hends.mem_iff.mpr hin) with hemitted | hpending
      · exact ⟨_, hemitted, rfl⟩
      · obtain ⟨i, hi⟩ := mem_rootEnds.mp hpending
        exact absurd hi (ht.ended i _ _ _ _ _)

/-- A run loses nothing to the shutdown of the owning handles exactly when, whenever that
shutdown reaches the tracer provider, no claimed phase and no taken root is still in the
unlocked tail of an operation. -/
theorem nothing_lost_iff (r : (machine timeline ops).Run {}) :
    (∀ c a, ShutdownStep r c a → NothingLost timeline c a) ↔
      ∀ c a, ShutdownStep r c a → TailsDone timeline c a := by
  constructor
  · intro hn c a hstep
    obtain ⟨before, -, -, -, -, hc, -⟩ := hstep.scheduled
    exact (nothingLost_iff_tailsDone hc hstep.attached).mp (hn c a hstep)
  · intro ht c a hstep
    obtain ⟨before, -, -, -, -, hc, -⟩ := hstep.scheduled
    exact (nothingLost_iff_tailsDone hc hstep.attached).mpr (ht c a hstep)

/-- `init`, a phase that finishes on another thread, and the shutdown of the handles. -/
def raceOps : Party → Op Party
  | .first => .init ⟨0⟩ "svc" ⟨1, 2⟩
  | .second => .endGuard "warm" 3 .finish 5
  | .third => .shutdown .first 6

def raceTimeline : Timeline :=
  ⟨0, .processStart, 0, "exe"⟩

/-- The phase is recorded, the boot is closed, the provider is shut down, and only then is
the span of the phase ended. -/
def raceRun : (machine raceTimeline raceOps).Run {} :=
  .of [.enter .first, .enter .first, .enter .second, .enter .third, .emit 2, .enter .third,
    .emit 0, .emit 0] rfl

theorem phase_lost_to_shutdown :
    raceRun.final.Complete ∧
      ∃ c a, ShutdownStep raceRun c a ∧ ¬ NothingLost raceTimeline c a := by
  refine ⟨⟨rfl, fun i _ _ => match i with | .first => rfl | .second => rfl | .third => rfl⟩, ?_⟩
  let early : (machine raceTimeline raceOps).Run {} :=
    .of [.enter .first, .enter .first, .enter .second, .enter .third, .emit 2] rfl
  let a : Attachment Party := ⟨[], .first, raceTimeline.connect ⟨0⟩ ⟨1, 2⟩,
    [(.first, .handles ⟨0⟩), (.second, .record ⟨"warm", 3, 5, .ok⟩),
      (.third, .closeBoot .first 6)]⟩
  refine ⟨early.final, a, ⟨⟨early.schedule, .third, [.emit 0, .emit 0], [], rfl,
    early.ran, rfl⟩, rfl⟩, ?_⟩
  intro hn
  have hclaimed : (.second, raceTimeline.phaseOf "warm" 3 5 .ok) ∈ claimed raceTimeline a := by
    decide
  have hnone : exports (emitted early.final.trace) = [] := rfl
  have hin := hn.phases _ hclaimed
  rw [hnone] at hin
  cases hin

end OtelBootstrap.Boot
