import OtelBootstrap.Boot.Effects

/-! # The root span is ended at most once

Whoever makes the root due ends it: a ready or a close after the attach, or the attach
itself after a ready. -/

namespace OtelBootstrap.Boot

open Sections

variable {ι : Type*} [DecidableEq ι] {timeline : Timeline} {ops : ι → Op ι}

/-! ## Root ends and ready lines -/

/-- One call of `end_root_span`. -/
structure RootEnd where
  exporter : Exporter
  end_ : SystemTime
  outcome : String
  count : ℕ
  dropped : UInt64
  deriving DecidableEq, Repr

/-- The root span as that call ends it. -/
def RootEnd.span (e : RootEnd) : Span :=
  endRootSpan e.exporter e.end_ e.outcome e.count e.dropped

def rootEndOf : ι × Effect → Option RootEnd
  | (_, .endRootSpan exporter end_ outcome count dropped) =>
      some ⟨exporter, end_, outcome, count, dropped⟩
  | _ => none

def rootEnds (es : List (ι × Effect)) : List RootEnd :=
  es.filterMap rootEndOf

def readyLineOf : ι × Effect → Option (Duration × Origin)
  | (_, .echo (.ready at_ origin _)) => some (at_, origin)
  | _ => none

/-- The ready lines echoed. -/
def readyLines (es : List (ι × Effect)) : List (Duration × Origin) :=
  es.filterMap readyLineOf

variable (timeline) in
/-- The root end that the step after `h` makes. -/
def summary (h : List (ι × Section ι)) (exporter : Exporter) (end_ : SystemTime)
    (outcome : String) : RootEnd :=
  ⟨exporter, end_, outcome, min maxPhases (recorded timeline h).length,
    UInt64.ofNat ((recorded timeline h).length - maxPhases)⟩

variable (timeline) in
/-- How a history says its root ended: ready if a ready came before every close that
follows the attach, and incomplete otherwise. -/
structure EndsAs (h : List (ι × Section ι)) (end_ : SystemTime) (outcome : String) :
    Prop where
  ready : ReadyFirst timeline h →
    (∃ at_, firstReady timeline h = some (end_, at_)) ∧ outcome = "ready"
  closed : ¬ ReadyFirst timeline h →
    (∃ now, closedAt timeline h = some now ∧ end_ = timeline.wall now) ∧
      outcome = "incomplete"

/-! ## One section -/

theorem readyFirst_of_unattached {h : List (ι × Section ι)}
    (ha : attachment timeline h = none) (hready : (firstReady timeline h).isSome) :
    ReadyFirst timeline h := by
  induction h using List.reverseRecOn with
  | nil => cases hready
  | append_singleton h x ih =>
      have hbefore : attachment timeline h = none := by
        rw [attachment_eq_none] at ha ⊢
        intro y hy
        exact ha y (List.mem_append_left _ hy)
      rw [readyFirst_snoc]
      rw [firstReady_snoc, Option.isSome_or, Bool.or_eq_true] at hready
      rcases hready with hready | hready
      · exact Or.inl (ih hbefore hready)
      · exact Or.inr ⟨hready, closedAt_of_unattached timeline hbefore⟩

/-- Once the root is due, nothing changes how it ended. -/
theorem EndsAs.snoc {h : List (ι × Section ι)} {end_ : SystemTime} {outcome : String}
    (he : EndsAs timeline h end_ outcome) (x : ι × Section ι) :
    EndsAs timeline (h ++ [x]) end_ outcome := by
  by_cases hfirst : ReadyFirst timeline h
  · obtain ⟨⟨at_, hat⟩, houtcome⟩ := he.ready hfirst
    refine ⟨fun _ => ⟨⟨at_, ?_⟩, houtcome⟩, ?_⟩
    · rw [firstReady_snoc, hat]
      rfl
    · intro hnot
      exact absurd ((readyFirst_snoc timeline h x).mpr (Or.inl hfirst)) hnot
  · obtain ⟨⟨now, hnow, hend⟩, houtcome⟩ := he.closed hfirst
    refine ⟨?_, fun _ => ⟨⟨now, closedAt_append_of_some timeline hnow [x], hend⟩, houtcome⟩⟩
    intro hready
    rcases (readyFirst_snoc timeline h x).mp hready with hready | ⟨-, hopen⟩
    · exact absurd hready hfirst
    · rw [hnow] at hopen
      cases hopen

theorem rootEnds_ready {h : List (ι × Section ι)} {state : State}
    (hd : Describes timeline h state) (i : ι) (end_ : Instant) :
    (Ended timeline h → rootEnds ((timeline.ready state end_).2.map (i, ·)) = []) ∧
      (attachment timeline h = none →
        rootEnds ((timeline.ready state end_).2.map (i, ·)) = []) := by
  rw [hd.ready_effects]
  refine ⟨?_, ?_⟩
  · intro he
    split
    · rfl
    · cases attachment timeline h with
      | none => rfl
      | some a => rfl
  · intro ha
    rw [ha]
    split <;> rfl

theorem rootEnds_close {h : List (ι × Section ι)} {state : State} {a : Attachment ι}
    (hd : Describes timeline h state) (ha : attachment timeline h = some a) (i : ι)
    (now : Instant) :
    (Ended timeline h → rootEnds ((timeline.close state now).2.map (i, ·)) = []) ∧
      (¬ Ended timeline h → rootEnds ((timeline.close state now).2.map (i, ·)) =
        [summary timeline h a.exporter (timeline.wall now) "incomplete"]) := by
  rw [hd.close_effects, ha]
  refine ⟨?_, ?_⟩
  · intro he
    simp [he, rootEnds]
  · intro he
    simp [he, rootEnds, rootEndOf, rootEnd, summary]

/-- A section after the root was ended does not end it again. -/
theorem rootEnds_of_ended {h : List (ι × Section ι)} {state : State} {i : ι}
    {k : Section ι} {es : List Effect} (hemits : Emits timeline h state i k es)
    (hd : Describes timeline h state) (he : Ended timeline h) :
    rootEnds (es.map (i, ·)) = [] := by
  cases hemits with
  | record call => exact hd.record_filterMap (fun _ _ _ => rfl) i call
  | ready end_ => exact (rootEnds_ready hd i end_).1 he
  | attach provider serviceName spanContext =>
      obtain ⟨a, ha⟩ := Option.isSome_iff_exists.mp he.1
      rw [hd.attach_effects, ha]
      rfl
  | close ha hk => exact (rootEnds_close hd ha i _).1 he
  | neutral hrecord hready hattach hclose => rfl

/-- A section that does not make the root due does not end it. -/
theorem rootEnds_of_open {h : List (ι × Section ι)} {state : State} {i : ι}
    {k : Section ι} {es : List Effect} (hemits : Emits timeline h state i k es)
    (hd : Describes timeline h state) (hopen : ¬ Ended timeline (h ++ [(i, k)])) :
    rootEnds (es.map (i, ·)) = [] := by
  cases hemits with
  | record call => exact hd.record_filterMap (fun _ _ _ => rfl) i call
  | ready end_ =>
      cases ha : attachment timeline h with
      | none => exact (rootEnds_ready hd i end_).2 ha
      | some a =>
          refine absurd ?_ hopen
          simp [ended_snoc_of_some timeline ha, readyOf]
  | attach provider serviceName spanContext =>
      rw [rootEnds, hd.attach_filterMap (fun _ _ _ => rfl)]
      cases ha : attachment timeline h with
      | some a => rfl
      | none =>
          cases hr : firstReady timeline h with
          | none => rfl
          | some r =>
              refine absurd ?_ hopen
              simp [ended_snoc_of_none timeline ha, attachOf, hr]
  | close ha hk =>
      refine absurd ?_ hopen
      simp [ended_snoc_of_some timeline ha, hk]
  | neutral hrecord hready hattach hclose => rfl

/-- Attached, not ready and not closed: the root is still open. -/
theorem open_of_not_ended {h : List (ι × Section ι)} {a : Attachment ι}
    (ha : attachment timeline h = some a) (hopen : ¬ Ended timeline h) :
    firstReady timeline h = none ∧ closedAt timeline h = none := by
  simpa [Ended, ha] using hopen

theorem endsAs_ready {h : List (ι × Section ι)} (hready : firstReady timeline h = none)
    (hclosed : closedAt timeline h = none) (i : ι) (end_ : Instant) :
    EndsAs timeline (h ++ [(i, .ready end_)]) (timeline.wall end_) "ready" := by
  have hfirst : ReadyFirst timeline (h ++ [(i, .ready end_)]) :=
    (readyFirst_snoc timeline h _).mpr (Or.inr ⟨rfl, hclosed⟩)
  refine ⟨fun _ => ⟨⟨end_ - timeline.origin, ?_⟩, rfl⟩, fun hnot => absurd hfirst hnot⟩
  rw [firstReady_snoc, hready]
  rfl

theorem endsAs_closed {h : List (ι × Section ι)} {a : Attachment ι} {x : ι × Section ι}
    {now : Instant} (ha : attachment timeline h = some a)
    (hready : firstReady timeline h = none) (hclosed : closedAt timeline h = none)
    (hx : closeOf a.op x = some now) :
    EndsAs timeline (h ++ [x]) (timeline.wall now) "incomplete" := by
  have hnot : ¬ ReadyFirst timeline (h ++ [x]) := by
    intro hfirst
    rcases (readyFirst_snoc timeline h x).mp hfirst with hfirst | ⟨hx', -⟩
    · have hsome := firstReady_of_readyFirst timeline hfirst
      simp [hready] at hsome
    · rcases x with ⟨i, k⟩
      cases k with
      | ready end_ => cases hx
      | _ => cases hx'
  refine ⟨fun hfirst => absurd hfirst hnot, fun _ => ⟨⟨now, ?_, rfl⟩, rfl⟩⟩
  rw [closedAt_snoc_of_some timeline ha, hclosed, hx]
  rfl

/-- The section that makes the root due ends it, with the counts of the history before. -/
theorem rootEnds_of_due {h : List (ι × Section ι)} {state : State} {i : ι}
    {k : Section ι} {es : List Effect} (hemits : Emits timeline h state i k es)
    (hd : Describes timeline h state) (hopen : ¬ Ended timeline h)
    (hdue : Ended timeline (h ++ [(i, k)])) :
    ∃ a end_ outcome, attachment timeline (h ++ [(i, k)]) = some a ∧
      EndsAs timeline (h ++ [(i, k)]) end_ outcome ∧
      rootEnds (es.map (i, ·)) = [summary timeline h a.exporter end_ outcome] := by
  cases hemits with
  | record call =>
      refine absurd ?_ hopen
      exact (ended_snoc_of_neutral timeline rfl rfl fun _ _ => rfl).mp hdue
  | ready end_ =>
      cases ha : attachment timeline h with
      | none => cases ((ended_snoc_of_none timeline ha _).mp hdue).1
      | some a =>
          obtain ⟨hready, hclosed⟩ := open_of_not_ended ha hopen
          refine ⟨_, timeline.wall end_, "ready", attachment_snoc_of_some timeline ha _,
            endsAs_ready hready hclosed i end_, ?_⟩
          rw [hd.ready_effects, if_neg (by simp [hready]), ha]
          simp only [if_neg hopen]
          rfl
  | attach provider serviceName spanContext =>
      cases ha : attachment timeline h with
      | some a =>
          -- a second attach changes nothing
          refine absurd ?_ hopen
          simpa [ended_snoc_of_some timeline ha, readyOf, closeOf] using hdue
      | none =>
          obtain ⟨-, hready⟩ := (ended_snoc_of_none timeline ha _).mp hdue
          have hfirst := readyFirst_of_unattached ha hready
          obtain ⟨⟨wall, at_⟩, hr⟩ := Option.isSome_iff_exists.mp hready
          refine ⟨⟨h, i, timeline.connect provider spanContext, []⟩, wall, "ready", ?_, ?_, ?_⟩
          · rw [attachment_snoc, ha]
            rfl
          · refine EndsAs.snoc ⟨fun _ => ⟨⟨at_, hr⟩, rfl⟩, ?_⟩ _
            exact fun hnot => absurd hfirst hnot
          · rw [rootEnds, hd.attach_filterMap (fun _ _ _ => rfl), ha, hr]
            rfl
  | close ha hk =>
      obtain ⟨hready, hclosed⟩ := open_of_not_ended ha hopen
      exact ⟨_, _, "incomplete", attachment_snoc_of_some timeline ha _,
        endsAs_closed ha hready hclosed hk, (rootEnds_close hd ha i _).2 hopen⟩
  | neutral hrecord hready hattach hclose =>
      exact absurd ((ended_snoc_of_neutral timeline hattach hready hclose).mp hdue) hopen

/-! ## Whole histories -/

variable (timeline) in
/-- What a history says about the calls of `end_root_span`. -/
structure RootSpec (h : List (ι × Section ι)) (ends : List RootEnd) : Prop where
  still_open : ¬ Ended timeline h → ends = []
  once : Ended timeline h → ∃ before x after a end_ outcome,
    h = before ++ x :: after ∧ ¬ Ended timeline before ∧ Ended timeline (before ++ [x]) ∧
    attachment timeline h = some a ∧ EndsAs timeline h end_ outcome ∧
    ends = [summary timeline before a.exporter end_ outcome]

theorem RootSpec.length_le {h : List (ι × Section ι)} {ends : List RootEnd}
    (hs : RootSpec timeline h ends) : ends.length ≤ 1 := by
  by_cases he : Ended timeline h
  · obtain ⟨before, x, after, a, end_, outcome, -, -, -, -, -, rfl⟩ := hs.once he
    exact Nat.le_refl 1
  · rw [hs.still_open he]
    exact Nat.zero_le 1

theorem replays_rootEnds {h : List (ι × Section ι)} {s : Shared ι} {es : List (ι × Effect)}
    (hr : (machine timeline ops).Replays {} h s es) (hone : OneAttach h) :
    RootSpec timeline h (rootEnds es) := by
  induction hr with
  | nil => exact ⟨fun _ => rfl, fun he => absurd he (not_ended_of_unattached timeline rfl)⟩
  | @snoc h s₁ es i k s₂ es' hr hexec ih =>
      have hone' := oneAttach_of_snoc hone
      have hspec := ih hone'
      obtain ⟨hd, ho⟩ := replays_describes hr hone'
      have hemits := exec_emits hexec hd ho
      have hsplit : rootEnds (es ++ es'.map (i, ·)) = rootEnds es ++ rootEnds (es'.map (i, ·)) :=
        List.filterMap_append ..
      rw [hsplit]
      by_cases he : Ended timeline h
      · have hdue := ended_append timeline he [(i, k)]
        refine ⟨fun hnot => absurd hdue hnot, fun _ => ?_⟩
        obtain ⟨before, x, after, a, end_, outcome, hh, hopen, hx, ha, hends, heq⟩ :=
          hspec.once he
        refine ⟨before, x, after ++ [(i, k)], _, end_, outcome, by simp [hh], hopen, hx,
          attachment_snoc_of_some timeline ha _, hends.snoc _, ?_⟩
        rw [rootEnds_of_ended hemits hd he, heq]
        rfl
      · rw [hspec.still_open he, List.nil_append]
        refine ⟨fun hopen => rootEnds_of_open hemits hd hopen, fun hdue => ?_⟩
        obtain ⟨a, end_, outcome, ha, hends, heq⟩ := rootEnds_of_due hemits hd he hdue
        exact ⟨h, (i, k), [], a, end_, outcome, rfl, he, hdue, ha, hends, heq⟩

/-- The first ready echoes its line, and nothing else does. -/
theorem readyLines_step {h : List (ι × Section ι)} {state : State} {i : ι}
    {k : Section ι} {es : List Effect} (hemits : Emits timeline h state i k es)
    (hd : Describes timeline h state) :
    readyLines (es.map (i, ·)) =
      if (firstReady timeline h).isSome then []
      else ((readyOf timeline (i, k)).map fun r => (r.2, timeline.originSource)).toList := by
  have hneutral : readyOf timeline (i, k) = none → (if (firstReady timeline h).isSome then []
      else ((readyOf timeline (i, k)).map fun r => (r.2, timeline.originSource)).toList) =
        [] := by
    intro hk
    rw [hk]
    split <;> rfl
  cases hemits with
  | record call =>
      rw [hneutral rfl]
      exact hd.record_filterMap (fun _ _ _ => rfl) i call
  | ready end_ => exact hd.ready_filterMap (fun _ _ _ _ _ _ => rfl) (fun _ _ => rfl) i end_
  | attach provider serviceName spanContext =>
      rw [hneutral rfl, readyLines, hd.attach_filterMap (fun _ _ _ => rfl)]
      cases attachment timeline h with
      | some a => rfl
      | none => cases firstReady timeline h <;> rfl
  | close ha hk =>
      rw [hneutral (closeOf_of_close hk).2.1, readyLines]
      exact hd.close_filterMap (fun _ _ _ _ _ _ => rfl) i _
  | neutral hrecord hready hattach hclose => exact (hneutral hready).symm

theorem replays_readyLines {h : List (ι × Section ι)} {s : Shared ι}
    {es : List (ι × Effect)} (hr : (machine timeline ops).Replays {} h s es)
    (hone : OneAttach h) :
    readyLines es =
      ((firstReady timeline h).map fun r => (r.2, timeline.originSource)).toList := by
  induction hr with
  | nil => rfl
  | @snoc h s₁ es i k s₂ es' hr hexec ih =>
      have hone' := oneAttach_of_snoc hone
      obtain ⟨hd, ho⟩ := replays_describes hr hone'
      have hstep := readyLines_step (exec_emits hexec hd ho) hd
      have hsplit : readyLines (es ++ es'.map (i, ·)) =
          readyLines es ++ readyLines (es'.map (i, ·)) := List.filterMap_append ..
      rw [hsplit, hstep, ih hone', firstReady_snoc]
      cases hf : firstReady timeline h <;> simp

/-! ## Whole runs -/

theorem i64OrMax_of_le {n : ℕ} (h : n ≤ maxPhases) : i64OrMax n = n := by
  have hmax : maxPhases < 2 ^ 63 := by decide
  exact if_pos (Nat.lt_of_le_of_lt h hmax)

variable (timeline) in
omit [DecidableEq ι] in
/-- The attributes under which the root span is exported. -/
theorem summary_span (h : List (ι × Section ι)) (exporter : Exporter) (end_ : SystemTime)
    (outcome : String) :
    (summary timeline h exporter end_ outcome).span.end_ = some end_ ∧
      (summary timeline h exporter end_ outcome).span.attributes =
        exporter.root.span.attributes ++
          [("boot.outcome", .string outcome),
            ("boot.phase_count", .i64 (min (recorded timeline h).length maxPhases)),
            ("boot.phases_dropped", .i64 (i64OrMax (((recorded timeline h).length -
              min (recorded timeline h).length maxPhases) % 2 ^ 64)))] := by
  have hcount : i64OrMax (min maxPhases (recorded timeline h).length) =
      min (recorded timeline h).length maxPhases := by
    rw [i64OrMax_of_le (Nat.min_le_left ..), Nat.min_comm]
  have hdropped : (recorded timeline h).length - maxPhases =
      (recorded timeline h).length - min (recorded timeline h).length maxPhases := by
    omega
  refine ⟨rfl, ?_⟩
  simp [summary, RootEnd.span, endRootSpan, Span.setAttribute, Span.endWithTimestamp, hcount,
    hdropped]

theorem rootSpec_of_complete (r : (machine timeline ops).Run {}) (hdone : r.final.Complete) :
    RootSpec timeline (history r.final.trace) (rootEnds (emitted r.final.trace)) := by
  obtain ⟨es, hreplay, hperm⟩ := (machine timeline ops).run?_linearizes r.ran
  have hspec := replays_rootEnds hreplay (oneAttach_of_run r)
  rw [hdone.1, List.append_nil] at hperm
  have hends : (rootEnds (emitted r.final.trace)).Perm (rootEnds es) := hperm.filterMap _
  by_cases he : Ended timeline (history r.final.trace)
  · obtain ⟨before, x, after, a, end_, outcome, hh, hopen, hdue, ha, has, heq⟩ := hspec.once he
    refine ⟨fun hnot => absurd he hnot, fun _ => ?_⟩
    rw [heq] at hends
    exact ⟨before, x, after, a, end_, outcome, hh, hopen, hdue, ha, has,
      List.perm_singleton.mp hends⟩
  · refine ⟨fun hnot => ?_, fun hdue => absurd hdue he⟩
    rw [hspec.still_open hnot] at hends
    exact hends.eq_nil

/-- In every run the root is ended at most once, and a close before the attach changes
nothing. Once the operations that started have completed, the ready line was echoed exactly
when something was ready; the root was ended if it was due, by the section that made it due,
the way the order of ready and close says, with the counts of the phases recorded before. -/
theorem root_ended_once (r : (machine timeline ops).Run {}) :
    (rootEnds (emitted r.final.trace)).length ≤ 1 ∧
    (attachment timeline (history r.final.trace) = none →
      ∀ i now, exec timeline i (.close now) r.final.shared = some (r.final.shared, [])) ∧
    (r.final.Complete →
      readyLines (emitted r.final.trace) =
        ((firstReady timeline (history r.final.trace)).map fun r =>
          (r.2, timeline.originSource)).toList ∧
      (¬ Ended timeline (history r.final.trace) → rootEnds (emitted r.final.trace) = []) ∧
      (Ended timeline (history r.final.trace) →
        ∃ before x after a end_ outcome e,
          history r.final.trace = before ++ x :: after ∧
          ¬ Ended timeline before ∧ Ended timeline (before ++ [x]) ∧
          attachment timeline (history r.final.trace) = some a ∧
          EndsAs timeline (history r.final.trace) end_ outcome ∧
          rootEnds (emitted r.final.trace) = [e] ∧ e.exporter = a.exporter ∧
          e.span.end_ = some end_ ∧
          e.span.attributes = a.exporter.root.span.attributes ++
            [("boot.outcome", .string outcome),
              ("boot.phase_count", .i64 (min (recorded timeline before).length maxPhases)),
              ("boot.phases_dropped", .i64 (i64OrMax (((recorded timeline before).length -
                min (recorded timeline before).length maxPhases) % 2 ^ 64)))])) := by
  obtain ⟨es, hreplay, hperm⟩ := (machine timeline ops).run?_linearizes r.ran
  have hone := oneAttach_of_run r
  refine ⟨?_, ?_, ?_⟩
  · have hends : (rootEnds (emitted r.final.trace) ++ rootEnds r.final.pending).Perm
        (rootEnds es) := by
      have hmap := hperm.filterMap rootEndOf
      rwa [List.filterMap_append] at hmap
    have hlength := hends.length_eq
    have hle := (replays_rootEnds hreplay hone).length_le
    rw [List.length_append] at hlength
    omega
  · intro ha i now
    have hd := (run_describes r.ran).1
    rw [exec, timeline.close_of_detached (hd.exporter_of_none ha)]
    rfl
  · intro hdone
    have hspec := rootSpec_of_complete r hdone
    refine ⟨?_, hspec.still_open, ?_⟩
    · have hlines : (readyLines (emitted r.final.trace)).Perm (readyLines es) := by
        rw [hdone.1, List.append_nil] at hperm
        exact hperm.filterMap _
      rw [replays_readyLines hreplay hone] at hlines
      cases hr : firstReady timeline (history r.final.trace) with
      | none =>
          rw [hr] at hlines
          exact hlines.eq_nil
      | some ready =>
          rw [hr] at hlines
          exact List.perm_singleton.mp hlines
    · intro he
      obtain ⟨before, x, after, a, end_, outcome, hh, hopen, hdue, ha, has, heq⟩ := hspec.once he
      obtain ⟨hend, hattributes⟩ := summary_span timeline before a.exporter end_ outcome
      exact ⟨before, x, after, a, end_, outcome, _, hh, hopen, hdue, ha, has, heq, rfl, hend,
        hattributes⟩

/-! ## A count that does not fit its attribute -/

/-- An attach, a ready, and any number of guards that finish. -/
def manyOps : ℕ → Op ℕ
  | 0 => .flush ⟨0⟩ "svc" ⟨1, 2⟩
  | 1 => .ready 7
  | _ + 2 => .endGuard "step" 3 .finish 5

def manyTimeline : Timeline :=
  ⟨0, .processStart, 0, "exe"⟩

/-- `n` guards finish between the attach and the ready. -/
def manyHistory (n : ℕ) : List (ℕ × Section ℕ) :=
  (0, .attach ⟨0⟩ "svc" ⟨1, 2⟩) ::
    (List.range' 2 n).map (fun i => (i, .record ⟨"step", 3, 5, .ok⟩))

theorem manyHistory_succ (n : ℕ) :
    manyHistory (n + 1) = manyHistory n ++ [(n + 2, .record ⟨"step", 3, 5, .ok⟩)] := by
  rw [manyHistory, List.range'_concat, List.map_append, ← List.cons_append, Nat.one_mul,
    Nat.add_comm 2 n]
  rfl

theorem recorded_many (n : ℕ) : (recorded manyTimeline (manyHistory n)).length = n := by
  induction n with
  | zero => rfl
  | succ n ih =>
      rw [manyHistory_succ, recorded_append, List.length_append, ih]
      rfl

theorem replays_many (n : ℕ) :
    ∃ s es, (machine manyTimeline manyOps).Replays {} (manyHistory n) s es := by
  induction n with
  | zero => exact ⟨_, _, .snoc .nil rfl⟩
  | succ n ih =>
      rcases ih with ⟨s, es, hr⟩
      rw [manyHistory_succ]
      exact ⟨_, _, .snoc hr rfl⟩

theorem attachment_many (n : ℕ) :
    ∃ after, attachment manyTimeline (manyHistory n) =
      some ⟨[], 0, manyTimeline.connect ⟨0⟩ ⟨1, 2⟩, after⟩ :=
  ⟨_, rfl⟩

theorem not_ended_many (n : ℕ) : ¬ Ended manyTimeline (manyHistory n) := by
  induction n with
  | zero => simp [Ended, firstReady, closedAt, attachment, manyHistory, readyOf, attachOf]
  | succ n ih =>
      rw [manyHistory_succ, ended_snoc_of_neutral manyTimeline rfl rfl fun _ _ => rfl]
      exact ih

theorem run_many (n : ℕ) :
    ∃ r : (machine manyTimeline manyOps).Run {}, r.final.Complete ∧
      history r.final.trace = manyHistory n ++ [(1, .ready 7)] := by
  obtain ⟨s, es, hr⟩ := replays_many n
  have hlast : (machine manyTimeline manyOps).Replays {} (manyHistory n ++ [(1, .ready 7)]) _ _ :=
    .snoc hr rfl
  refine hlast.completeRun _ ?_ ?_
  · have hnodup : (0 :: (List.range' 2 n ++ [1])).Nodup := by
      rw [List.nodup_cons, List.nodup_append]
      refine ⟨by simp, List.nodup_range', by simp, ?_⟩
      intro a ha b hb he
      rw [List.mem_range'_1] at ha
      rw [List.mem_singleton] at hb
      omega
    simpa [manyHistory, List.map_map, Function.comp_def] using hnodup
  · intro i k hi
    simp only [manyHistory, List.cons_append, List.mem_cons, List.mem_append, List.mem_map,
      List.mem_range'_1, Prod.mk.injEq, List.not_mem_nil, or_false] at hi
    rcases hi with ⟨rfl, rfl⟩ | ⟨j, hj, rfl, rfl⟩ | ⟨rfl, rfl⟩
    · rfl
    · obtain ⟨m, rfl⟩ := Nat.exists_eq_add_of_le' hj.1
      rfl
    · rfl

/-- After `2 ^ 63 + 256` phases the number dropped does not fit the attribute, which then
says one less. -/
theorem phases_dropped_clamped :
    ∃ r : (machine manyTimeline manyOps).Run {}, r.final.Complete ∧
      history r.final.trace = manyHistory (2 ^ 63 + 256) ++ [(1, .ready 7)] ∧
      ¬ Ended manyTimeline (manyHistory (2 ^ 63 + 256)) ∧
      ∃ e, rootEnds (emitted r.final.trace) = [e] ∧
        ("boot.phases_dropped",
          .i64 ((recorded manyTimeline (manyHistory (2 ^ 63 + 256))).length -
            min (recorded manyTimeline (manyHistory (2 ^ 63 + 256))).length maxPhases)) ∉
          e.span.attributes := by
  obtain ⟨r, hdone, hhistory⟩ := run_many (2 ^ 63 + 256)
  refine ⟨r, hdone, hhistory, not_ended_many _, ?_⟩
  have hdue : Ended manyTimeline (history r.final.trace) := by
    obtain ⟨after, ha⟩ := attachment_many (2 ^ 63 + 256)
    rw [hhistory, ended_snoc_of_some manyTimeline ha]
    exact Or.inr (Or.inl rfl)
  obtain ⟨before, x, after, a, end_, outcome, hh, hopen, hended, ha, -, heq⟩ :=
    (rootSpec_of_complete r hdone).once hdue
  have hbefore : manyHistory (2 ^ 63 + 256) = before :=
    ended_unique manyTimeline (hhistory.symm.trans hh) (not_ended_many _) (hhistory ▸ hdue) hopen
      hended
  refine ⟨_, heq, ?_⟩
  have hexporter : a.exporter = manyTimeline.connect ⟨0⟩ ⟨1, 2⟩ := by
    obtain ⟨after, hmany⟩ := attachment_many (2 ^ 63 + 256)
    rw [hhistory, attachment_snoc_of_some manyTimeline hmany] at ha
    obtain rfl := Option.some.inj ha
    rfl
  have hdropped : 2 ^ 63 + 256 - min (2 ^ 63 + 256) maxPhases = 2 ^ 63 := by decide
  have hclamped : i64OrMax (2 ^ 63 % 2 ^ 64) = 2 ^ 63 - 1 := by decide
  rw [(summary_span manyTimeline before a.exporter end_ outcome).2, ← hbefore, recorded_many,
    hdropped, hclamped, hexporter]
  simp [Timeline.connect, SdkTracer.buildWithContext]

end OtelBootstrap.Boot