import OtelBootstrap.Boot.Reader
import OtelBootstrap.Boot.Root
import OtelBootstrap.Boot.Exports
import OtelBootstrap.Library.Text

/-! # The boot lines of a whole run

`echo` writes a line and a newline to stderr. What a run has written there reads back as what
its threads have recorded. -/

namespace OtelBootstrap.Boot

open Sections

/-! ## Text -/

/-- What `eprintln!` writes for some lines. -/
def stderrText (lines : List EchoLine) : String :=
  String.ofList (lines.flatMap fun line => line.text.toList ++ ['\n'])

/-- What a reader of the stream knows of a phase or of the milestone: the texts of its fields. -/
inductive Report where
  | phase (name outcome tookMs atMs service : String)
  | ready (atMs origin service : String)
  deriving DecidableEq, Repr

def EchoLine.report : EchoLine → Report
  | .phase name outcome took at_ service =>
      .phase name outcome.asStr (toString (millis took)) (toString (millis at_)) service
  | .ready at_ origin service => .ready (toString (millis at_)) origin.asStr service

/-- A reader that takes no line but these two. -/
def report : List (String × Option String) → Option Report
  | [("boot", none), ("phase", some name), ("outcome", some outcome), ("took_ms", some tookMs),
      ("at_ms", some atMs), ("service", some service)] =>
      some (.phase name outcome tookMs atMs service)
  | [("boot", none), ("phase", some _), ("outcome", some _), ("took_ms", some _),
      ("at_ms", some atMs), ("origin", some origin), ("service", some service)] =>
      some (.ready atMs origin service)
  | _ => none

def readStream (text : String) : Option (List Report) :=
  (Text.lines '\n' text.toList).mapM fun line =>
    (Logfmt.read (String.ofList line)).bind report

/-! ## Reading back -/

theorem read_text (line : EchoLine) : (Logfmt.read line.text).bind report = some line.report := by
  cases line with
  | phase name outcome took at_ service =>
      rw [EchoLine.text, read_line]
      rfl
  | ready at_ origin service =>
      rw [EchoLine.text, read_readyLine]
      rfl

theorem newline_not_mem_text (line : EchoLine) : '\n' ∉ line.text.toList := by
  have hnewline : isControl '\n' = true := by decide
  intro hmem
  cases line with
  | phase name outcome took at_ service =>
      rw [EchoLine.text, line_eq, String.toList_ofList] at hmem
      have hplain := isControl_lineText (plainKey_lineFields name outcome took at_ service) hmem
      exact Bool.noConfusion (hnewline.symm.trans hplain)
  | ready at_ origin service =>
      rw [EchoLine.text, readyLine_eq, String.toList_ofList] at hmem
      have hplain := isControl_lineText (plainKey_readyFields at_ origin service) hmem
      exact Bool.noConfusion (hnewline.symm.trans hplain)

/-- Lines come back one for one, whatever the phases and the services are called. -/
theorem readStream_stderrText (lines : List EchoLine) :
    readStream (stderrText lines) = some (lines.map EchoLine.report) := by
  have hlines : Text.lines '\n' (stderrText lines).toList =
      lines.map fun line => line.text.toList := by
    rw [stderrText, String.toList_ofList, ← List.flatMap_map (fun line : EchoLine =>
      line.text.toList) (· ++ ['\n'])]
    apply Text.lines_flatMap
    intro text htext
    obtain ⟨line, -, rfl⟩ := List.mem_map.mp htext
    exact newline_not_mem_text line
  have hread : ∀ line : EchoLine, (Logfmt.read (String.ofList line.text.toList)).bind report =
      some line.report := by
    intro line
    rw [String.ofList_toList]
    exact read_text line
  rw [readStream, hlines]
  clear hlines
  induction lines with
  | nil => rfl
  | cons line lines ih =>
      rw [List.map_cons, List.mapM_cons, hread line, ih]
      rfl

/-! ## Whole runs -/

section Runs

variable {ι : Type*}

def echoOf : ι × Effect → Option EchoLine
  | (_, .echo line) => some line
  | _ => none

/-- The lines echoed, in the order in which they reached stderr. -/
def echoes (es : List (ι × Effect)) : List EchoLine :=
  es.filterMap echoOf

/-- The name, the outcome and the times of a phase. -/
def Report.phaseTexts : Report → Option (String × String × String × String)
  | .phase name outcome tookMs atMs _ => some (name, outcome, tookMs, atMs)
  | .ready .. => none

/-- The time of the milestone, and what it counts from. -/
def Report.readyTexts : Report → Option (String × String)
  | .phase .. => none
  | .ready atMs origin _ => some (atMs, origin)

theorem phaseTexts_echoes (es : List (ι × Effect)) :
    ((echoes es).map EchoLine.report).filterMap Report.phaseTexts =
      (phaseEchoes es).map fun (_, name, outcome, took, at_) =>
        (name, outcome.asStr, toString (millis took), toString (millis at_)) := by
  rw [echoes, phaseEchoes, List.map_filterMap, List.filterMap_filterMap, List.map_filterMap]
  refine List.filterMap_congr fun x _ => ?_
  rcases x with ⟨i, effect⟩
  cases effect with
  | echo line => cases line <;> rfl
  | exportPhase exporter phase => rfl
  | endRootSpan exporter end_ outcome count dropped => rfl
  | bootReady tookMs => rfl

theorem readyTexts_echoes (es : List (ι × Effect)) :
    ((echoes es).map EchoLine.report).filterMap Report.readyTexts =
      (readyLines es).map fun (at_, origin) => (toString (millis at_), origin.asStr) := by
  rw [echoes, readyLines, List.map_filterMap, List.filterMap_filterMap, List.map_filterMap]
  refine List.filterMap_congr fun x _ => ?_
  rcases x with ⟨i, effect⟩
  cases effect with
  | echo line => cases line <;> rfl
  | exportPhase exporter phase => rfl
  | endRootSpan exporter end_ outcome count dropped => rfl
  | bootReady tookMs => rfl

variable [DecidableEq ι] {timeline : Timeline} {ops : ι → Op ι}

/-- Whatever is named what, and however its threads interleave, the stderr of a complete run
reads back as one report for each phase that was recorded, and one of the first ready. -/
theorem stream_accounts (r : (machine timeline ops).Run {}) (hdone : r.final.Complete) :
    ∃ reports, readStream (stderrText (echoes (emitted r.final.trace))) = some reports ∧
      (reports.filterMap Report.phaseTexts).Perm
        ((recorded timeline (history r.final.trace)).map fun p =>
          (p.2.name, p.2.outcome.asStr, toString (millis p.2.took), toString (millis p.2.at_))) ∧
      reports.filterMap Report.readyTexts =
        ((firstReady timeline (history r.final.trace)).map fun ready =>
          (toString (millis ready.2), timeline.originSource.asStr)).toList := by
  refine ⟨_, readStream_stderrText _, ?_, ?_⟩
  · rw [phaseTexts_echoes]
    have hechoes := (emitted_of_complete r hdone).2.map fun p =>
      (p.2.1, p.2.2.1.asStr, toString (millis p.2.2.2.1), toString (millis p.2.2.2.2))
    rwa [echoable, List.map_map] at hechoes
  · obtain ⟨es, hreplay, hperm⟩ := (machine timeline ops).run?_linearizes r.ran
    rw [hdone.1, List.append_nil] at hperm
    have hready : (readyLines (emitted r.final.trace)).Perm
        ((firstReady timeline (history r.final.trace)).map fun ready =>
          (ready.2, timeline.originSource)).toList := by
      rw [← replays_readyLines hreplay (oneAttach_of_run r)]
      exact hperm.filterMap _
    rw [readyTexts_echoes]
    cases hfirst : firstReady timeline (history r.final.trace) with
    | none =>
        rw [hfirst] at hready
        rw [hready.eq_nil]
        rfl
    | some ready =>
        rw [hfirst] at hready
        rw [List.perm_singleton.mp hready]
        rfl

end Runs

/-- A phase whose name tries to be a line of its own, and a ready. -/
def forgingOps : Party → Op Party
  | .first => .endGuard "x\nboot phase=ready" 10 .finish 15000000
  | .second => .ready 20000000
  | .third => .ready 30000000

def forgingRun : (machine sampleTimeline forgingOps).Run {} :=
  .of [.enter .second, .enter .first, .emit 1, .enter .third, .emit 0] rfl

theorem forging_read_back :
    ∃ reports, readStream (stderrText (echoes (emitted forgingRun.final.trace))) = some reports ∧
      (reports.filterMap Report.phaseTexts).Perm [("x\nboot phase=ready", "ok", "14", "15")] ∧
      reports.filterMap Report.readyTexts = [("20", "process_start")] := by
  have hdone : forgingRun.final.Complete :=
    ⟨rfl, fun i _ _ => match i with | .first => rfl | .second => rfl | .third => rfl⟩
  obtain ⟨reports, hread, hphases, hready⟩ := stream_accounts forgingRun hdone
  refine ⟨reports, hread, ?_, ?_⟩
  · refine hphases.trans (List.Perm.of_eq ?_)
    decide +kernel
  · rw [hready]
    decide +kernel

end OtelBootstrap.Boot
