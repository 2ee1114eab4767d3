import Mathlib.Data.List.GetD
import Mathlib.Data.List.Nodup
import OtelBootstrap.Library.Embedding
import OtelBootstrap.LogBridge.Tasks

/-! # Tasks log as if each ran alone

A run is compared with the run of one of its tasks, in which the same threads poll that task
alone. The spans of the task have other numbers there, and nothing else differs. -/

namespace OtelBootstrap.LogBridge

/-! ## Renamed calls -/

def Call.rename (e : ℕ → ℕ) : Call → Call
  | .newSpan parent fields => .newSpan (parent.map e) fields
  | .recordLogAttr span key value => .recordLogAttr (e span) key value
  | .event metadata span fields => .event metadata (span.map e) fields

/-- The spans that a call names. -/
def Call.names : Call → List ℕ
  | .newSpan parent _ => parent.toList
  | .recordLogAttr span _ _ => [span]
  | .event _ span _ => span.toList

variable {bridge : SpanAwareLogBridge} {f g : Registry} {e : ℕ → ℕ}

theorem injectSpanContext_renamed (h : f.Embeds g e) {span : ℕ} (hspan : span < f.size)
    (record : LogRecord) :
    bridge.injectSpanContext g (e span) record = bridge.injectSpanContext f span record := by
  rw [SpanAwareLogBridge.injectSpanContext, SpanAwareLogBridge.injectSpanContext,
    h.ancestors_eq hspan, List.foldl_map]
  apply List.foldl_ext
  intro record ancestor hancestor
  have hle := Forest.lt_of_mem_ancestors hancestor
  rw [h.get?_eq (by omega)]

/-- An event makes the same record in both. -/
theorem onEvent_renamed (h : f.Embeds g e) (metadata : Metadata) {span : Option ℕ}
    (hspan : ∀ s ∈ span, s < f.size) (fields : List Field) :
    bridge.onEvent g metadata (span.map e) fields = bridge.onEvent f metadata span fields := by
  cases span with
  | none => rfl
  | some s =>
      have hs : s < f.size := hspan s rfl
      simp only [SpanAwareLogBridge.onEvent, Option.map_some, Option.filter_some, hs,
        h.lt_size hs, decide_true, if_true, injectSpanContext_renamed h hs]

/-- A call and its renamed twin do the same to both registries. -/
theorem step?_renamed (h : f.Embeds g e) {call : Call}
    (hnames : ∀ span ∈ call.names, span < f.size)
    (hnext : (∃ parent fields, call = .newSpan parent fields) → e f.size = g.size) {state : State}
    (hstep : step? bridge { registry := g } (call.rename e) = some state) :
    ∃ alone, step? bridge { registry := f } call = some alone ∧
      alone.registry.Embeds state.registry e ∧ alone.emitted = state.emitted := by
  cases call with
  | newSpan parent fields =>
      have hparent : ∀ p ∈ parent, p < f.size := by
        intro p hp
        exact hnames p (by simpa [Call.names] using hp)
      simp only [Call.rename, step?] at hstep
      split at hstep
      · rename_i hparent'
        cases hstep
        refine ⟨{ registry := f.add parent (bridge.onNewSpan fields) hparent },
          dif_pos hparent, ?_, rfl⟩
        exact h.add_both (hnext ⟨parent, fields, rfl⟩) _ hparent hparent' rfl
      · cases hstep
  | recordLogAttr span key value =>
      have hspan : span < f.size := hnames span (by simp [Call.names])
      simp only [Call.rename, step?] at hstep
      split at hstep
      · cases hstep
        refine ⟨{ registry := recordSpanLogAttrOn f span key value }, if_pos hspan, ?_, rfl⟩
        simp only [recordSpanLogAttrOn]
        exact h.modify_both hspan _
      · cases hstep
  | event metadata span fields =>
      have hspan : ∀ s ∈ span, s < f.size := by
        intro s hs
        exact hnames s (by simpa [Call.names] using hs)
      simp only [Call.rename, step?] at hstep
      split at hstep
      · cases hstep
        refine ⟨{ registry := f, emitted := [bridge.onEvent f metadata span fields] },
          if_pos hspan, h, ?_⟩
        rw [← onEvent_renamed h metadata hspan]
        rfl
      · cases hstep

/-- A call that names none of its spans leaves the smaller registry where it was. -/
theorem step?_outside (h : f.Embeds g e) {call : Call}
    (hnames : ∀ span ∈ call.names, ∀ i < f.size, e i ≠ span) {state : State}
    (hstep : step? bridge { registry := g } call = some state) : f.Embeds state.registry e := by
  cases call with
  | newSpan parent fields =>
      simp only [step?] at hstep
      split at hstep
      · rename_i hparent
        cases hstep
        exact h.add_right _ hparent
      · cases hstep
  | recordLogAttr span key value =>
      simp only [step?] at hstep
      split at hstep
      · cases hstep
        have hother : ∀ i < f.size, e i ≠ span := hnames span (by simp [Call.names])
        simp only [recordSpanLogAttrOn]
        exact h.modify_right hother _
      · cases hstep
  | event metadata span fields =>
      simp only [step?] at hstep
      split at hstep
      · cases hstep
        exact h
      · cases hstep

/-! ## Renamed tasks -/

theorem current_map {stack : List ℕ} (h : ∀ a ∈ stack, ∀ b ∈ stack, e a = e b → a = b) :
    current (stack.map e) = (current stack).map e := by
  induction stack with
  | nil => rfl
  | cons span stack ih =>
      have hmem : e span ∈ stack.map e ↔ span ∈ stack := by
        constructor
        · intro hmem
          obtain ⟨a, ha, heq⟩ := List.mem_map.mp hmem
          rw [← h a (List.mem_cons_of_mem _ ha) span List.mem_cons_self heq]
          exact ha
        · exact List.mem_map_of_mem
      rw [List.map_cons, current, current]
      by_cases hagain : span ∈ stack
      · rw [if_pos (hmem.mpr hagain), if_pos hagain]
        exact ih fun a ha b hb => h a (List.mem_cons_of_mem _ ha) b (List.mem_cons_of_mem _ hb)
      · rw [if_neg (fun hmem' => hagain (hmem.mp hmem')), if_neg hagain]
        rfl

namespace Task

/-- The number that a span of the task has among all spans. -/
def number (task : Task) (n : ℕ) : ℕ :=
  task.spans.getD n 0

/-- The task where its spans are all there are. -/
def alone (task : Task) : Task :=
  { task with spans := List.range task.spans.length }

theorem getElem?_spans {task : Task} {n : ℕ} (h : n < task.spans.length) :
    task.spans[n]? = some (task.number n) := by
  rw [number, List.getD_eq_getElem _ _ h, List.getElem?_eq_getElem h]

theorem entered_eq {task : Task} (h : task.Resolved) :
    task.entered = (task.frames.map Prod.fst).map task.number := by
  rw [List.map_map, entered, ← List.filterMap_eq_map]
  apply List.filterMap_congr
  intro frame hframe
  exact getElem?_spans (h frame hframe)

theorem entered_alone {task : Task} (h : task.Resolved) :
    task.alone.entered = task.frames.map Prod.fst := by
  rw [entered, alone, ← List.filterMap_eq_map]
  apply List.filterMap_congr
  intro frame hframe
  exact List.getElem?_range (h frame hframe)

theorem number_injective {task : Task} (h : task.spans.Nodup) :
    ∀ n < task.spans.length, ∀ m < task.spans.length, task.number n = task.number m → n = m := by
  intro n hn m hm heq
  rw [number, number, List.getD_eq_getElem _ _ hn, List.getD_eq_getElem _ _ hm] at heq
  exact (List.Nodup.getElem_inj_iff h).mp heq

end Task

/-- What a task that runs alone does where the task in company does `advance`. -/
theorem Advances.alone {task : Task} {size : ℕ} {advance : Advance} (hresolved : task.Resolved)
    (hnodup : task.spans.Nodup) (h : Advances task task.entered size advance) :
    ∃ mine : Advance, Advances task.alone task.alone.entered task.spans.length mine ∧
      mine.task = advance.task.alone ∧ advance.call = mine.call.map (Call.rename task.number) ∧
      ∀ call, mine.call = some call → ∀ span ∈ call.names, span < task.spans.length := by
  have hcurrent : current task.entered = (current task.alone.entered).map task.number := by
    rw [Task.entered_eq hresolved, ← Task.entered_alone hresolved]
    apply current_map
    have hlt : ∀ a ∈ task.alone.entered, a < task.spans.length := by
      intro a ha
      simpa [Task.alone] using Task.mem_spans_of_entered ha
    exact fun a ha b hb => Task.number_injective hnodup a (hlt a ha) b (hlt b hb)
  have hinside : ∀ span ∈ current task.alone.entered, span < task.spans.length := by
    intro span hspan
    simpa [Task.alone] using Task.mem_spans_of_entered (mem_of_current hspan)
  have hspans : ∀ {n span}, task.spans[n]? = some span → task.alone.spans[n]? = some n ∧
      task.number n = span ∧ n < task.spans.length := by
    intro n span hn
    have hlt := (List.getElem?_eq_some_iff.mp hn).1
    refine ⟨List.getElem?_range hlt, ?_, hlt⟩
    exact Option.some.inj ((Task.getElem?_spans hlt).symm.trans hn)
  cases h with
  | finish hcode hframes => exact ⟨_, .finish hcode hframes, rfl, rfl, fun _ hc => by cases hc⟩
  | leave hcode hframes hspan =>
      exact ⟨_, .leave hcode hframes (hspans hspan).1, rfl, rfl, fun _ hc => by cases hc⟩
  | pause hcode => exact ⟨_, .pause hcode, rfl, rfl, fun _ hc => by cases hc⟩
  | event hcode =>
      refine ⟨_, .event hcode, rfl, by simp [Call.rename, hcurrent], ?_⟩
      rintro call hc span hspan
      obtain rfl := Option.some.inj hc
      exact hinside span (by simpa [Call.names] using hspan)
  | newSpan hcode =>
      refine ⟨_, .newSpan hcode, ?_, by simp [Call.rename, hcurrent], ?_⟩
      · simp [Task.alone, List.range_succ]
      · rintro call hc span hspan
        obtain rfl := Option.some.inj hc
        exact hinside span (by simpa [Call.names] using hspan)
  | record hcode hspan =>
      rename_i handle key value rest span
      cases handle with
      | current =>
          obtain rfl := Option.some.inj hspan
          refine ⟨_, .record hcode rfl, rfl, ?_, ?_⟩
          · simp [hcurrent, Option.map_map, Function.comp_def, Call.rename]
          · rintro call hc span hspan'
            obtain ⟨top, htop, rfl⟩ := Option.map_eq_some_iff.mp hc
            rw [Call.names, List.mem_singleton] at hspan'
            exact hspan' ▸ hinside top htop
      | created n =>
          obtain ⟨span, hn, rfl⟩ := Option.map_eq_some_iff.mp hspan
          obtain ⟨halone, hnumber, hlt⟩ := hspans hn
          refine ⟨_, .record hcode (show task.alone.resolve _ (.created n) = some (some n) by
            simp [Task.resolve, halone]), rfl, ?_, ?_⟩
          · simp [Call.rename, hnumber]
          · rintro call hc span hspan'
            obtain rfl := Option.some.inj hc
            rw [Call.names, List.mem_singleton] at hspan'
            exact hspan' ▸ hlt
  | enter hcode hspan =>
      exact ⟨_, .enter hcode (hspans hspan).1, rfl, rfl, fun _ hc => by cases hc⟩

theorem Call.rename_congr {call : Call} {e' : ℕ → ℕ}
    (h : ∀ span ∈ call.names, e' span = e span) : call.rename e' = call.rename e := by
  cases call with
  | newSpan parent fields =>
      cases parent with
      | none => rfl
      | some p => simp [Call.rename, h p (by simp [Call.names])]
  | recordLogAttr span key value => simp [Call.rename, h span (by simp [Call.names])]
  | event metadata span fields =>
      cases span with
      | none => rfl
      | some s => simp [Call.rename, h s (by simp [Call.names])]

theorem Call.names_rename (call : Call) (e : ℕ → ℕ) :
    (call.rename e).names = call.names.map e := by
  cases call with
  | newSpan parent fields => cases parent <;> rfl
  | recordLogAttr span key value => rfl
  | event metadata span fields => cases span <;> rfl

theorem creations_rename (call : Option Call) (e : ℕ → ℕ) :
    (creations (call.map (Call.rename e)).toList).length = (creations call.toList).length := by
  cases call with
  | none => rfl
  | some call => cases call <;> rfl

/-! ## A task in company, and alone -/

namespace Executor

variable {ι τ : Type} [DecidableEq ι] [DecidableEq τ]

omit [DecidableEq τ] in
theorem recordsOf_append (x : Executor ι τ) (i j : ι) (emitted : List LogRecord) :
    recordsOf { x with records := x.records ++ emitted.map (i, ·) } j =
      x.recordsOf j ++ if i = j then emitted else [] := by
  have hall : (emitted.map (i, ·)).filter (fun record => record.1 = j) =
      if i = j then emitted.map (i, ·) else [] := by
    by_cases hij : i = j
    · simp [hij]
    · simp [hij]
  rw [recordsOf, List.filter_append, List.map_append, hall]
  by_cases hij : i = j
  · simp [hij, recordsOf, Function.comp_def]
  · simp [hij, recordsOf]

/-- The run of a task alone stands where the task stands in `x`, under other numbers. -/
structure Twin (i : ι) (x alone : Executor ι τ) : Prop where
  task : alone.tasks i = (x.tasks i).alone
  size : alone.registry.size = (x.tasks i).spans.length
  embeds : alone.registry.Embeds x.registry (x.tasks i).number
  workers : ∀ t, alone.workers t =
    if (x.workers t).running = some i then
      { running := some i, stack := (alone.tasks i).entered }
    else {}
  records : alone.recordsOf i = x.recordsOf i

namespace Twin

omit [DecidableEq τ] in
theorem initial (works : ι → Work) (i : ι) :
    Twin i (start works : Executor ι τ) (start works) where
  task := rfl
  size := rfl
  embeds := .empty_left _ _
  workers _ := rfl
  records := rfl

variable {i : ι} {x alone : Executor ι τ} {t : τ}

theorem beginPoll (h : Twin i x alone) (hs : Sound x) (hfree : (x.workers t).running = none)
    (hidle : (x.tasks i).stage = .idle) : Twin i (x.beginPoll t i) (alone.beginPoll t i) := by
  have hempty : alone.workers t = {} := by
    rw [h.workers t, if_neg (by simp [hfree])]
  have hmine : (x.beginPoll t i).tasks i = { x.tasks i with stage := .polled } := by
    simp [Executor.beginPoll]
  have halone : (alone.beginPoll t i).tasks i = { alone.tasks i with stage := .polled } := by
    simp [Executor.beginPoll]
  refine ⟨?_, ?_, ?_, ?_, h.records⟩
  · rw [halone, hmine, h.task]
    rfl
  · rw [hmine]
    exact h.size
  · rw [hmine]
    exact h.embeds
  · intro t'
    by_cases ht : t' = t
    · subst ht
      simp [Executor.beginPoll, hempty, Task.entered]
    · have hother := hs.not_running hidle t'
      simp only [Executor.beginPoll, Function.update_of_ne ht, h.workers t', if_neg hother]

/-- The same call of the same task. -/
theorem goOn (h : Twin i x alone) (hs : Sound x) (hrunning : (x.workers t).running = some i)
    {bridge : SpanAwareLogBridge} {advance : Advance} {state : State}
    (hadvances : Advances (x.tasks i) (x.workers t).stack x.registry.size advance)
    (hcall : LogBridge.run? bridge { registry := x.registry } advance.call.toList = some state) :
    ∃ alone', Steps bridge alone t i alone' ∧ Twin i (x.goOn t i advance state) alone' := by
  have hpolled := hs.busy t i hrunning
  have hkeeps := hadvances.keeps hpolled
  rw [hpolled.stack] at hadvances
  obtain ⟨mine, hmine, htask, hrename, hnames⟩ :=
    hadvances.alone hpolled.resolved (hs.nodup i)
  have hworker : alone.workers t = { running := some i, stack := (alone.tasks i).entered } := by
    rw [h.workers t, if_pos hrunning]
  rw [← h.task, ← h.size] at hmine
  have hkeepsAlone := hmine.keeps
    ⟨by rw [h.task]; exact hpolled.stage, by
      rw [h.task]
      intro frame hframe
      simpa [Task.alone] using hpolled.resolved frame hframe, rfl⟩
  -- the numbers after the step are those before it, and one more where a span is created
  have hnumber : ∀ n < (x.tasks i).spans.length,
      advance.task.number n = (x.tasks i).number n := by
    intro n hn
    rw [Task.number, hkeeps.spans, List.getD_append _ _ _ _ hn]
    rfl
  have hembeds : alone.registry.Embeds x.registry advance.task.number :=
    h.embeds.congr fun n hn => hnumber n (h.size ▸ hn)
  obtain ⟨state', hcall', hembeds', hemitted⟩ : ∃ state',
      LogBridge.run? bridge { registry := alone.registry } mine.call.toList = some state' ∧
        state'.registry.Embeds state.registry advance.task.number ∧
        state'.emitted = state.emitted := by
    rw [hrename] at hcall
    cases hc : mine.call with
    | none =>
        rw [hc] at hcall
        obtain rfl := Option.some.inj hcall
        exact ⟨_, rfl, hembeds, rfl⟩
    | some call =>
        rw [hc, Option.map_some, Option.toList_some, run?_singleton] at hcall
        have hinside : ∀ span ∈ call.names, span < (x.tasks i).spans.length := hnames call hc
        rw [← Call.rename_congr fun span hspan => hnumber span (hinside span hspan)] at hcall
        rw [Option.toList_some, run?_singleton]
        refine step?_renamed hembeds (fun span hspan => h.size ▸ hinside span hspan) ?_ hcall
        rintro ⟨parent, fields, rfl⟩
        rw [Task.number, hkeeps.spans, hrename, hc, h.size, List.getD_append_right _ _ _ _
          (Nat.le_refl _), Nat.sub_self]
        rfl
  have hsize : state'.registry.size = advance.task.spans.length := by
    rw [size_of_run hcall', h.size, hkeeps.spans, List.length_append, List.length_map, hrename,
      creations_rename]
  refine ⟨alone.goOn t i mine state', ?_, ?_, ?_, ?_, ?_, ?_⟩
  · exact .goesOn (by rw [hworker]) (by rw [hworker]; exact hmine) hcall'
  · simpa [Executor.goOn] using htask
  · simpa [Executor.goOn] using hsize
  · simpa [Executor.goOn] using hembeds'
  · intro t'
    by_cases ht : t' = t
    · subst ht
      have hstage : mine.task.stage = advance.task.stage := by rw [htask]; rfl
      by_cases hgoes : advance.task.stage = .polled
      · simp [Executor.goOn, hstage, hgoes, hkeepsAlone.polled (hstage.trans hgoes)]
      · simp [Executor.goOn, hstage, hgoes, hkeepsAlone.left (hstage ▸ hgoes)]
    · have hother : (x.workers t').running ≠ some i := fun hr => ht (hs.one t' t i hr hrunning)
      simp only [Executor.goOn, Function.update_of_ne ht, h.workers t', if_neg hother]
  · have hleft := recordsOf_append alone i i state'.emitted
    have hright := recordsOf_append x i i state.emitted
    rw [if_pos rfl] at hleft hright
    exact hleft.trans (by rw [h.records, hemitted]; exact hright.symm)

/-- What another task does is nothing to this one. -/
theorem outside (h : Twin i x alone) (hs : Sound x) {j : ι} (hj : j ≠ i)
    {bridge : SpanAwareLogBridge} {x' : Executor ι τ} (hstep : Steps bridge x t j x') :
    Twin i x' alone := by
  cases hstep with
  | begins hfree hidle =>
      have htask : (x.beginPoll t j).tasks i = x.tasks i := by
        simp [Executor.beginPoll, hj.symm]
      refine ⟨htask ▸ h.task, htask ▸ h.size, htask ▸ h.embeds, ?_, h.records⟩
      intro t'
      by_cases ht : t' = t
      · subst ht
        simp [Executor.beginPoll, hj, h.workers t', hfree]
      · simp only [Executor.beginPoll, Function.update_of_ne ht, h.workers t']
  | goesOn hrunning hadvances hcall =>
      rename_i advance state
      have hpolled := hs.busy t j hrunning
      rw [hpolled.stack] at hadvances
      obtain ⟨mine, -, -, hrename, hnames⟩ := hadvances.alone hpolled.resolved (hs.nodup j)
      have htask : (x.goOn t j advance state).tasks i = x.tasks i := by
        simp [Executor.goOn, hj.symm]
      have hmem : ∀ k, ∀ n < (x.tasks k).spans.length, (x.tasks k).number n ∈ (x.tasks k).spans :=
        fun k n hn => List.mem_of_getElem? (Task.getElem?_spans hn)
      have hembeds : alone.registry.Embeds state.registry (x.tasks i).number := by
        cases hc : mine.call with
        | none =>
            rw [hrename, hc] at hcall
            obtain rfl := Option.some.inj hcall
            exact h.embeds
        | some call =>
            rw [hrename, hc, Option.map_some, Option.toList_some, run?_singleton] at hcall
            refine step?_outside h.embeds ?_ hcall
            intro span hspan n hn heq
            rw [Call.names_rename] at hspan
            obtain ⟨m, hm, rfl⟩ := List.mem_map.mp hspan
            refine hs.apart j i hj _ (hmem j m (hnames call hc m hm)) ?_
            rw [← heq]
            exact hmem i n (h.size ▸ hn)
      refine ⟨htask ▸ h.task, htask ▸ h.size, htask ▸ hembeds, ?_, ?_⟩
      · intro t'
        by_cases ht : t' = t
        · subst ht
          have hne : (some j : Option ι) ≠ some i := fun he => hj (Option.some.inj he)
          rw [h.workers t', hrunning, if_neg hne]
          by_cases hgoes : advance.task.stage = .polled
          · simp [Executor.goOn, hgoes, hj]
          · simp [Executor.goOn, hgoes]
        · simp only [Executor.goOn, Function.update_of_ne ht, h.workers t']
      · have happend := recordsOf_append x j i state.emitted
        rw [if_neg hj, List.append_nil] at happend
        exact h.records.trans happend.symm

end Twin

variable (bridge : SpanAwareLogBridge)

theorem run?_twin {i : ι} {x alone x' : Executor ι τ} (h : Twin i x alone) (hs : Sound x)
    {turns : List (τ × ι)} (hrun : x.run? bridge turns = some x') :
    ∃ alone', alone.run? bridge (turns.filter (·.2 = i)) = some alone' ∧ Twin i x' alone' := by
  induction turns generalizing x alone with
  | nil =>
      obtain rfl := Option.some.inj hrun
      exact ⟨alone, rfl, h⟩
  | cons turn turns ih =>
      obtain ⟨mid, hmid, hrest⟩ := Option.bind_eq_some_iff.mp hrun
      have hstep := (steps_iff bridge).mp hmid
      rcases turn with ⟨t, j⟩
      by_cases hj : j = i
      · subst hj
        rw [List.filter_cons_of_pos (by simp)]
        obtain ⟨alone', hstep', htwin⟩ :
            ∃ alone', Steps bridge alone t j alone' ∧ Twin j mid alone' := by
          cases hstep with
          | begins hfree hidle =>
              refine ⟨_, .begins ?_ ?_, h.beginPoll hs hfree hidle⟩
              · rw [h.workers t, if_neg (by simp [hfree])]
              · rw [h.task]
                exact hidle
          | goesOn hrunning hadvances hcall => exact h.goOn hs hrunning hadvances hcall
        obtain ⟨last, hlast, htwin'⟩ := ih htwin (hs.step hstep) hrest
        exact ⟨last, Option.bind_eq_some_iff.mpr ⟨alone', (steps_iff bridge).mpr hstep', hlast⟩,
          htwin'⟩
      · rw [List.filter_cons_of_neg (by simpa using hj)]
        exact ih (h.outside hs hj hstep) (hs.step hstep) hrest

/-- Whatever tasks are polled, on however many threads and in whatever order: each logs the very
records that it logs when it is polled alone. -/
theorem tasks_log_apart (works : ι → Work) {turns : List (τ × ι)} {x : Executor ι τ}
    (hrun : (start works).run? bridge turns = some x) (i : ι) :
    ∃ alone, (start works).run? bridge (turns.filter (·.2 = i)) = some alone ∧
      alone.recordsOf i = x.recordsOf i := by
  obtain ⟨alone, halone, htwin⟩ :=
    run?_twin bridge (Twin.initial works i) (Sound.initial works) hrun
  exact ⟨alone, halone, htwin.records⟩

end Executor

/-- The first of two requests that share a thread logs what it logs by itself. -/
theorem oneThread_apart :
    ∃ x, (Executor.start twoRequests).run? requestsBridge oneThread = some x ∧
      (x.recordsOf false).length = 1 ∧
        ∃ alone, (Executor.start twoRequests).run? requestsBridge
            (oneThread.filter (·.2 = false)) = some alone ∧
          alone.recordsOf false = x.recordsOf false := by
  have hran : ((Executor.start twoRequests).run? requestsBridge oneThread).map
      (fun x => (x.recordsOf false).length) = some 1 := by
    decide +kernel
  obtain ⟨x, hrun, hlogged⟩ := Option.map_eq_some_iff.mp hran
  exact ⟨x, hrun, hlogged, Executor.tasks_log_apart requestsBridge twoRequests hrun false⟩

end OtelBootstrap.LogBridge
