import OtelBootstrap.Boot.Root

/-! # Clock readings and lock order

An operation reads the monotonic clock first and takes the lock later, so the order of
the readings and the order of the sections can differ. -/

namespace OtelBootstrap.Boot

open Sections

/-! ## Operations that have yet to read the clock -/

/-- One call into the crate, before it has read the clock. -/
inductive Task (ι : Type*) where
  | endGuard (name : String) (start : Instant) (ending : Ending)
  | setServiceName (name : String)
  | ready
  | flush (provider : SdkTracerProvider) (serviceName : String) (spanContext : SpanContext)
  | init (provider : SdkTracerProvider) (serviceName : String) (spanContext : SpanContext)
  | close
  | shutdown (handles : ι)
  | dropHandles (handles : ι)
  deriving DecidableEq, Repr

/-- The call with the instant it read. -/
def Task.op {ι : Type*} : Task ι → Instant → Op ι
  | .endGuard name start ending, now => .endGuard name start ending now
  | .setServiceName name, _ => .setServiceName name
  | .ready, now => .ready now
  | .flush provider serviceName spanContext, _ => .flush provider serviceName spanContext
  | .init provider serviceName spanContext, _ => .init provider serviceName spanContext
  | .close, now => .close now
  | .shutdown handles, now => .shutdown handles now
  | .dropHandles handles, now => .dropHandles handles now

/-- `reading i` is what operation `i` read; until then it has nothing to enter. -/
structure Clocked (ι : Type*) where
  clock : Instant
  reading : ι → Option Instant
  config : Config ι (Section ι) Effect (Shared ι)

/-- What happens next: time passes, an operation reads the clock, or one that has read it
goes on. -/
inductive Move (ι : Type*) where
  | tick (elapsed : Duration)
  | read (i : ι)
  | step (x : Choice ι)

namespace Clocked

variable {ι : Type*}

def start (clock : Instant) : Clocked ι where
  clock
  reading := fun _ => none
  config := { shared := {}, todo := fun _ => [], pending := [], trace := [] }

/-- The sections that took the lock, in the order in which they did. -/
def locked (c : Clocked ι) : List (ι × Section ι) :=
  history c.config.trace

def state (c : Clocked ι) : State :=
  c.config.shared.state

variable [DecidableEq ι] (timeline : Timeline) (tasks : ι → Task ι)

/-- The sections and their effects, without a schedule of operations. -/
def locks : Machine ι (Section ι) Effect (Shared ι) where
  program _ := []
  exec := exec timeline

/-- An operation reads the clock once. -/
def step? (c : Clocked ι) : Move ι → Option (Clocked ι)
  | .tick elapsed => some { c with clock := c.clock + elapsed }
  | .read i =>
      if (c.reading i).isSome then none
      else some { c with
        reading := Function.update c.reading i (some c.clock)
        config := { c.config with
          todo := Function.update c.config.todo i ((tasks i).op c.clock).program } }
  | .step x => ((locks timeline).step? c.config x).map fun config => { c with config }

def run? (c : Clocked ι) : List (Move ι) → Option (Clocked ι)
  | [] => some c
  | x :: xs => (step? timeline tasks c x).bind (run? · xs)

end Clocked

/-- Every phase kept, as `Timeline::phases` lists them. -/
def Timeline.phases (state : State) : List Phase :=
  state.phases.map (·.phase)

/-! ## Instants -/

section Instants

variable {ι : Type*}

/-- The instant with which a section ends a phase or marks the boot ready. -/
def instantOf : ι × Section ι → Option Instant
  | (_, .record call) => some call.end_
  | (_, .ready end_) => some end_
  | _ => none

def instants (h : List (ι × Section ι)) : List Instant :=
  h.filterMap instantOf

theorem instants_append (g h : List (ι × Section ι)) :
    instants (g ++ h) = instants g ++ instants h := by
  simp [instants]

variable (timeline : Timeline)

/-- The sections that took the lock before the first ready did. -/
def beforeReady (h : List (ι × Section ι)) : List (ι × Section ι) :=
  h.takeWhile fun x => (readyOf timeline x).isNone

theorem beforeReady_split {h : List (ι × Section ι)} {r : SystemTime × Duration}
    (hr : firstReady timeline h = some r) :
    ∃ i end_ after, h = beforeReady timeline h ++ (i, .ready end_) :: after ∧
      r = (timeline.wall end_, end_ - timeline.origin) := by
  induction h with
  | nil => cases hr
  | cons x h ih =>
      rw [firstReady, List.findSome?_cons] at hr
      cases hx : readyOf timeline x with
      | some r' =>
          rw [hx] at hr
          cases hr
          obtain ⟨i, k⟩ := x
          cases k with
          | ready end_ =>
              cases hx
              exact ⟨i, end_, h, rfl, rfl⟩
          | _ => cases hx
      | none =>
          rw [hx] at hr
          obtain ⟨i, end_, after, hh, hr⟩ := ih hr
          refine ⟨i, end_, after, ?_, hr⟩
          rw [beforeReady, List.takeWhile_cons_of_pos (by rw [hx]; rfl), List.cons_append]
          exact congrArg (x :: ·) hh

/-- A recorded phase ended at an instant that its section carried. -/
theorem mem_recorded {h : List (ι × Section ι)} {p : ι × Phase}
    (hp : p ∈ recorded timeline h) :
    ∃ end_ ∈ instants h, p.2.end_ = timeline.wall end_ ∧ p.2.at_ = end_ - timeline.origin ∧
      timeline.originWall ≤ p.2.start := by
  obtain ⟨⟨i, k⟩, hmem, hk⟩ := List.mem_filterMap.mp hp
  cases k with
  | record call =>
      cases hk
      exact ⟨call.end_, List.mem_filterMap.mpr ⟨_, hmem, rfl⟩, rfl, rfl, Nat.le_add_right _ _⟩
  | _ => cases hk

theorem wall_mono {a b : Instant} (h : a ≤ b) : timeline.wall a ≤ timeline.wall b :=
  Nat.add_le_add_left (Nat.sub_le_sub_right h timeline.origin) timeline.originWall

end Instants

/-! ## A clocked run is a run -/

namespace Clocked

variable {ι : Type*} [DecidableEq ι] {timeline : Timeline} {tasks : ι → Task ι}

/-- The scheduler's choices among the moves. -/
def choiceOf : Move ι → Option (Choice ι)
  | .step x => some x
  | _ => none

/-- The configuration in which every operation was handed its reading beforehand. -/
def foretold (ops : ι → Op ι) (c : Clocked ι) : Config ι (Section ι) Effect (Shared ι) :=
  { c.config with
    todo := fun i => if (c.reading i).isSome then c.config.todo i else (ops i).program }

/-- Nothing is to be entered before the clock was read. -/
def Idle (c : Clocked ι) : Prop :=
  ∀ i, c.reading i = none → c.config.todo i = []

theorem step?_read {c c' : Clocked ι} {i : ι}
    (h : step? timeline tasks c (.read i) = some c') :
    c.reading i = none ∧
      c' = ⟨c.clock, Function.update c.reading i (some c.clock), { c.config with
        todo := Function.update c.config.todo i ((tasks i).op c.clock).program }⟩ := by
  simp only [step?] at h
  split at h
  · cases h
  · rename_i hi
    exact ⟨by simpa using hi, (Option.some.inj h).symm⟩

theorem step?_idle {c c' : Clocked ι} {x : Move ι} (h : step? timeline tasks c x = some c')
    (hidle : Idle c) : Idle c' := by
  cases x with
  | tick elapsed =>
      cases h
      exact hidle
  | read i =>
      obtain ⟨-, rfl⟩ := step?_read h
      intro j hj
      by_cases hji : j = i
      · subst hji
        simp at hj
      · simp only [Function.update_of_ne hji] at hj ⊢
        exact hidle j hj
  | step x =>
      obtain ⟨config, hstep, rfl⟩ := Option.map_eq_some_iff.mp h
      intro j hj
      cases x with
      | enter i =>
          obtain ⟨k, rest, s', es, htodo, -, -, rfl⟩ := (locks timeline).step?_enter hstep
          have hji : j ≠ i := by
            rintro rfl
            rw [hidle j hj] at htodo
            cases htodo
          simp only [Function.update_of_ne hji]
          exact hidle j hj
      | emit n =>
          obtain ⟨i, e, -, rfl⟩ := (locks timeline).step?_emit hstep
          exact hidle j hj

theorem foretold_step {ops : ι → Op ι} {c : Clocked ι} {x : Choice ι}
    {config : Config ι (Section ι) Effect (Shared ι)}
    (h : (locks timeline).step? c.config x = some config) (hidle : Idle c) :
    (machine timeline ops).step? (foretold ops c) x =
      some (foretold ops { c with config }) := by
  cases x with
  | enter i =>
      obtain ⟨k, rest, s', es, htodo, hfree, hexec, rfl⟩ := (locks timeline).step?_enter h
      have hread : (c.reading i).isSome = true := by
        by_contra hnone
        rw [hidle i (by simpa using hnone)] at htodo
        cases htodo
      have hnext : (foretold ops c).todo i = k :: rest := by
        simp [foretold, hread, htodo]
      have hany : (foretold ops c).pending.any (fun p => decide (p.1 = i)) = false := by
        rw [List.any_eq_false]
        intro p hp
        simpa using hfree p hp
      have hexec' : (machine timeline ops).exec i k (foretold ops c).shared = some (s', es) :=
        hexec
      have hrest : Function.update (foretold ops c).todo i rest = (foretold ops
          { c with config := ⟨s', Function.update c.config.todo i rest,
            c.config.pending ++ es.map (i, ·), c.config.trace ++ [(i, .enter k)]⟩ }).todo := by
        funext j
        by_cases hji : j = i
        · subst hji
          simp [foretold, hread]
        · simp [foretold, Function.update_of_ne hji]
      simp only [Machine.step?, hnext, hany, hexec', hrest]
      rfl
  | emit n =>
      obtain ⟨i, e, hget, rfl⟩ := (locks timeline).step?_emit h
      have hpending : (foretold ops c).pending[n]? = some (i, e) := hget
      rw [Machine.step?, hpending]
      rfl

theorem step?_reading {c c' : Clocked ι} {x : Move ι} (h : step? timeline tasks c x = some c')
    {i : ι} {now : Instant} (hi : c.reading i = some now) : c'.reading i = some now := by
  cases x with
  | tick elapsed =>
      cases h
      exact hi
  | read j =>
      obtain ⟨hj, rfl⟩ := step?_read h
      have hij : i ≠ j := by
        rintro rfl
        cases hi.symm.trans hj
      simp only [Function.update_of_ne hij]
      exact hi
  | step x =>
      obtain ⟨config, -, rfl⟩ := Option.map_eq_some_iff.mp h
      exact hi

theorem run?_reading {c c' : Clocked ι} {xs : List (Move ι)}
    (h : run? timeline tasks c xs = some c') {i : ι} {now : Instant}
    (hi : c.reading i = some now) : c'.reading i = some now := by
  induction xs generalizing c with
  | nil =>
      cases h
      exact hi
  | cons x xs ih =>
      obtain ⟨b, hb, hrest⟩ := Option.bind_eq_some_iff.mp h
      exact ih hrest (step?_reading hb hi)

/-- With every reading known, the moves that are steps make a run of the operations. -/
theorem run?_foretold {ops : ι → Op ι} {c c' : Clocked ι} {xs : List (Move ι)}
    (h : run? timeline tasks c xs = some c') (hidle : Idle c)
    (hops : ∀ i now, c'.reading i = some now → ops i = (tasks i).op now) :
    (machine timeline ops).run? (foretold ops c) (xs.filterMap choiceOf) =
      some (foretold ops c') := by
  induction xs generalizing c with
  | nil =>
      cases h
      rfl
  | cons x xs ih =>
      obtain ⟨b, hb, hrest⟩ := Option.bind_eq_some_iff.mp h
      have hnext := ih hrest (step?_idle hb hidle)
      cases x with
      | tick elapsed =>
          cases hb
          exact hnext
      | read i =>
          obtain ⟨hi, rfl⟩ := step?_read hb
          have hop : ops i = (tasks i).op c.clock :=
            hops i c.clock (run?_reading hrest (by simp))
          have hsame : foretold ops c = foretold ops
              ⟨c.clock, Function.update c.reading i (some c.clock), { c.config with
                todo := Function.update c.config.todo i ((tasks i).op c.clock).program }⟩ := by
            simp only [foretold, Config.mk.injEq, true_and, and_true]
            funext j
            by_cases hji : j = i
            · subst hji
              simp [hi, hop]
            · simp [Function.update_of_ne hji]
          rw [hsame]
          exact hnext
      | step x =>
          obtain ⟨config, hstep, rfl⟩ := Option.map_eq_some_iff.mp hb
          change (machine timeline ops).run? (foretold ops c) (x :: xs.filterMap choiceOf) = _
          rw [Machine.run?, foretold_step hstep hidle]
          exact hnext

omit [DecidableEq ι] in
theorem idle_start (clock : Instant) : Idle (start clock : Clocked ι) :=
  fun _ _ => rfl

/-- What is known of runs holds of clocked runs. -/
theorem exists_run {clock : Instant} {c : Clocked ι} {xs : List (Move ι)}
    (h : run? timeline tasks (start clock) xs = some c) :
    ∃ ops, ∃ r : (machine timeline ops).Run {}, r.final.shared = c.config.shared ∧
      r.final.trace = c.config.trace := by
  let ops : ι → Op ι := fun i => (tasks i).op ((c.reading i).getD clock)
  have hops : ∀ i now, c.reading i = some now → ops i = (tasks i).op now := by
    intro i now hi
    simp only [ops, hi, Option.getD_some]
  have hrun := run?_foretold h (idle_start clock) hops
  exact ⟨ops, ⟨_, foretold ops c, hrun⟩, rfl, rfl⟩

/-! ## What the order of the sections is good for -/

variable (timeline) in
/-- The sections took the lock in the order of their instants, and with them the phases
and the ready. -/
structure InOrder (c : Clocked ι) : Prop where
  locked : (instants c.locked).Pairwise (· ≤ ·)
  phases_at : ((Timeline.phases c.state).map (·.at_)).Pairwise (· ≤ ·)
  phases_end : ((Timeline.phases c.state).map (·.end_)).Pairwise (· ≤ ·)
  ready : ∀ wall at_, c.state.ready = some (wall, at_) →
    ∀ p ∈ recorded timeline (beforeReady timeline c.locked), p.2.end_ ≤ wall ∧ p.2.at_ ≤ at_
  root : ∀ e ∈ rootEnds (emitted c.config.trace), e.outcome = "ready" →
    ∀ p ∈ recorded timeline (beforeReady timeline c.locked),
      e.span.start ≤ p.2.start ∧ ∃ end_, e.span.end_ = some end_ ∧ p.2.end_ ≤ end_

omit [DecidableEq ι] in
/-- No phase recorded before the first ready ended after it. -/
theorem ready_of_sorted {h : List (ι × Section ι)} (hsorted : (instants h).Pairwise (· ≤ ·))
    {wall : SystemTime} {at_ : Duration} (hr : firstReady timeline h = some (wall, at_))
    {p : ι × Phase} (hp : p ∈ recorded timeline (beforeReady timeline h)) :
    p.2.end_ ≤ wall ∧ p.2.at_ ≤ at_ := by
  obtain ⟨i, end_, after, hh, hready⟩ := beforeReady_split timeline hr
  obtain ⟨now, hnow, hend, hat, -⟩ := mem_recorded timeline hp
  rw [hh, instants_append, List.pairwise_append] at hsorted
  have hle : now ≤ end_ := hsorted.2.2 now hnow end_ List.mem_cons_self
  obtain ⟨rfl, rfl⟩ := Prod.mk.inj hready
  rw [hend, hat]
  exact ⟨wall_mono timeline hle, Nat.sub_le_sub_right hle timeline.origin⟩

omit [DecidableEq ι] in
/-- The phases recorded are timed by some of the instants, in the same order. -/
theorem recorded_sublist (h : List (ι × Section ι)) {f : Instant → ℕ} {g : Phase → ℕ}
    (hg : ∀ name start end_ outcome, g (timeline.phaseOf name start end_ outcome) = f end_) :
    ((recorded timeline h).map fun p => g p.2).Sublist ((instants h).map f) := by
  induction h with
  | nil => exact List.Sublist.slnil
  | cons x h ih =>
      obtain ⟨i, k⟩ := x
      cases k with
      | record call =>
          have hhead := hg call.name call.start call.end_ call.outcome
          simp only [recorded, instants, List.filterMap_cons, recordOf, instantOf, List.map_cons,
            hhead]
          exact ih.cons_cons _
      | ready end_ => exact ih.cons _
      | _ => exact ih

/-- What a phase takes from the instant of its section grows with the instants. -/
theorem phases_sorted {h : List (ι × Section ι)} {state : State}
    (hd : Describes timeline h state) (hsorted : (instants h).Pairwise (· ≤ ·))
    {f : Instant → ℕ} (hf : ∀ {a b : Instant}, a ≤ b → f a ≤ f b) {g : Phase → ℕ}
    (hg : ∀ name start end_ outcome, g (timeline.phaseOf name start end_ outcome) = f end_) :
    ((Timeline.phases state).map g).Pairwise (· ≤ ·) := by
  have hkept : (Timeline.phases state).map g =
      ((recorded timeline h).take maxPhases).map fun p => g p.2 := by
    rw [Timeline.phases, hd.phases, List.map_map, List.map_map]
    rfl
  have htake := ((List.take_sublist maxPhases (recorded timeline h)).map fun p => g p.2).trans
    (recorded_sublist h hg)
  rw [hkept]
  exact (hsorted.map f fun _ _ hle => hf hle).sublist htake

omit [DecidableEq ι] in
theorem start_of_attachOf {x : ι × Section ι} {exporter : Exporter}
    (hx : attachOf timeline x = some exporter) :
    exporter.root.span.start = timeline.originWall := by
  obtain ⟨i, k⟩ := x
  cases k with
  | attach provider serviceName spanContext =>
      cases hx
      rfl
  | _ => cases hx

/-- A root span that ended as ready encloses the phases recorded before the ready. -/
theorem root_of_sorted {clock : Instant} {c : Clocked ι} {xs : List (Move ι)}
    (h : run? timeline tasks (start clock) xs = some c)
    (hsorted : (instants c.locked).Pairwise (· ≤ ·)) {e : RootEnd}
    (he : e ∈ rootEnds (emitted c.config.trace)) (houtcome : e.outcome = "ready") {p : ι × Phase}
    (hp : p ∈ recorded timeline (beforeReady timeline c.locked)) :
    e.span.start ≤ p.2.start ∧ ∃ end_, e.span.end_ = some end_ ∧ p.2.end_ ≤ end_ := by
  obtain ⟨ops, r, -, htrace⟩ := exists_run h
  obtain ⟨es, hreplay, hperm⟩ := (machine timeline ops).run?_linearizes r.ran
  have hspec := replays_rootEnds hreplay (oneAttach_of_run r)
  rw [htrace] at hspec hperm
  have hmem : e ∈ rootEnds es := by
    obtain ⟨x, hx, hex⟩ := List.mem_filterMap.mp he
    exact List.mem_filterMap.mpr ⟨x, hperm.subset (List.mem_append_left _ hx), hex⟩
  have hended : Ended timeline (history c.config.trace) := by
    by_contra hopen
    rw [hspec.still_open hopen] at hmem
    cases hmem
  obtain ⟨before, x, after, a, end_, outcome, -, -, -, ha, has, hends⟩ := hspec.once hended
  rw [hends, List.mem_singleton] at hmem
  subst hmem
  obtain ⟨k, -, hattach, -⟩ := attachment_eq_some timeline ha
  have hfirst : ReadyFirst timeline (history c.config.trace) := by
    by_contra hnot
    have hincomplete := (has.closed hnot).2
    rw [show outcome = "ready" from houtcome] at hincomplete
    exact absurd hincomplete (by decide +kernel)
  obtain ⟨⟨at_, hat⟩, -⟩ := has.ready hfirst
  refine ⟨?_, end_, rfl, (ready_of_sorted hsorted hat hp).1⟩
  obtain ⟨-, -, -, -, hstart⟩ := mem_recorded timeline hp
  rw [← start_of_attachOf hattach] at hstart
  exact hstart

/-- The order of the instants is all that the rest depends on. -/
theorem inOrder_iff {clock : Instant} {c : Clocked ι} {xs : List (Move ι)}
    (h : run? timeline tasks (start clock) xs = some c) :
    InOrder timeline c ↔ (instants c.locked).Pairwise (· ≤ ·) := by
  refine ⟨InOrder.locked, fun hsorted => ?_⟩
  obtain ⟨ops, r, hshared, htrace⟩ := exists_run h
  have hd := (run_describes r.ran).1
  rw [hshared, htrace] at hd
  refine ⟨hsorted, ?_, ?_, ?_, ?_⟩
  · exact phases_sorted hd hsorted (f := fun end_ => end_ - timeline.origin)
      (fun hle => Nat.sub_le_sub_right hle timeline.origin) fun _ _ _ _ => rfl
  · exact phases_sorted hd hsorted (f := timeline.wall) (wall_mono timeline) fun _ _ _ _ => rfl
  · intro wall at_ hready p hp
    exact ready_of_sorted hsorted (hd.ready.symm.trans hready) hp
  · intro e he houtcome p hp
    exact root_of_sorted h hsorted he houtcome hp

/-! ## When an operation takes the lock in turn -/

/-- Operation `i` has read `now` and has yet to take the lock with it. -/
def Waits (c : Clocked ι) (i : ι) (now : Instant) : Prop :=
  ∃ k ∈ c.config.todo i, instantOf (i, k) = some now

/-- No operation that read an earlier instant is still waiting for the lock. -/
def InTurn (c : Clocked ι) : Move ι → Prop
  | .step (.enter i) => ∀ k rest now, c.config.todo i = k :: rest →
      instantOf (i, k) = some now → ∀ j now', Waits c j now' → now ≤ now'
  | _ => True

variable (timeline tasks) in
/-- Every operation takes the lock in turn. -/
def Unovertaken (c : Clocked ι) : List (Move ι) → Prop
  | [] => True
  | x :: xs => InTurn c x ∧ ∀ c', step? timeline tasks c x = some c' → Unovertaken c' xs

omit [DecidableEq ι] in
theorem instantOf_program {task : Task ι} {now now' : Instant} {i : ι} {k : Section ι}
    (hk : k ∈ (task.op now).program) (hnow : instantOf (i, k) = some now') : now' = now := by
  cases task with
  | endGuard name start ending =>
      simp only [Task.op, Op.program, Ending.calls_phase, List.map_cons, List.map_nil,
        List.mem_singleton] at hk
      subst hk
      exact (Option.some.inj hnow).symm
  | ready =>
      obtain rfl := List.mem_singleton.mp hk
      exact (Option.some.inj hnow).symm
  | setServiceName | flush | close =>
      obtain rfl := List.mem_singleton.mp hk
      cases hnow
  | init | shutdown | dropHandles =>
      rcases List.mem_cons.mp hk with rfl | hk
      · cases hnow
      · obtain rfl := List.mem_singleton.mp hk
        cases hnow

/-- The instants in lock order come before those still waited with, and the clock has
passed them all. -/
structure Settled (c : Clocked ι) : Prop where
  sorted : (instants c.locked).Pairwise (· ≤ ·)
  ahead : ∀ now ∈ instants c.locked, ∀ i now', Waits c i now' → now ≤ now'
  passed : ∀ now ∈ instants c.locked, now ≤ c.clock
  read : ∀ i now, Waits c i now → now ≤ c.clock

/-- What one move leaves of those that wait. -/
theorem step?_waits {c c' : Clocked ι} {x : Move ι} (h : step? timeline tasks c x = some c')
    (hidle : Idle c) :
    ∃ new, c'.locked = c.locked ++ new ∧
      ∀ i now, Waits c i now → Waits c' i now ∨ now ∈ instants new := by
  cases x with
  | tick elapsed =>
      cases h
      exact ⟨[], (List.append_nil _).symm, fun i now hw => Or.inl hw⟩
  | read i =>
      obtain ⟨hi, rfl⟩ := step?_read h
      refine ⟨[], (List.append_nil _).symm, ?_⟩
      rintro j now ⟨k, hk, hnow⟩
      have hji : j ≠ i := by
        rintro rfl
        rw [hidle j hi] at hk
        cases hk
      refine Or.inl ⟨k, ?_, hnow⟩
      simp only [Function.update_of_ne hji]
      exact hk
  | step x =>
      obtain ⟨config, hstep, rfl⟩ := Option.map_eq_some_iff.mp h
      cases x with
      | enter i =>
          obtain ⟨k, rest, s', es, htodo, -, -, rfl⟩ := (locks timeline).step?_enter hstep
          refine ⟨[(i, k)], by simp [locked], ?_⟩
          rintro j now ⟨k', hk, hnow⟩
          by_cases hji : j = i
          · subst hji
            rw [htodo] at hk
            rcases List.mem_cons.mp hk with rfl | hk
            · exact Or.inr (List.mem_filterMap.mpr ⟨_, List.mem_singleton_self _, hnow⟩)
            · exact Or.inl ⟨k', by simpa using hk, hnow⟩
          · refine Or.inl ⟨k', ?_, hnow⟩
            simp only [Function.update_of_ne hji]
            exact hk
      | emit n =>
          obtain ⟨i, e, -, rfl⟩ := (locks timeline).step?_emit hstep
          exact ⟨[], by simp [locked], fun j now hw => Or.inl hw⟩

/-- Whoever waits no longer has taken the lock. -/
theorem run?_waits {c c' : Clocked ι} {xs : List (Move ι)}
    (h : run? timeline tasks c xs = some c') (hidle : Idle c) :
    ∃ new, c'.locked = c.locked ++ new ∧
      ∀ i now, Waits c i now → Waits c' i now ∨ now ∈ instants new := by
  induction xs generalizing c with
  | nil =>
      cases h
      exact ⟨[], (List.append_nil _).symm, fun i now hw => Or.inl hw⟩
  | cons x xs ih =>
      obtain ⟨b, hb, hrest⟩ := Option.bind_eq_some_iff.mp h
      obtain ⟨new, hnew, hwaits⟩ := step?_waits hb hidle
      obtain ⟨more, hmore, hrun⟩ := ih hrest (step?_idle hb hidle)
      refine ⟨new ++ more, by rw [hmore, hnew, List.append_assoc], ?_⟩
      intro i now hw
      rw [instants_append, List.mem_append]
      rcases hwaits i now hw with hw | hmem
      · exact (hrun i now hw).imp_right Or.inr
      · exact Or.inr (Or.inl hmem)

omit [DecidableEq ι] in
theorem settled_start (clock : Instant) : Settled (start clock : Clocked ι) := by
  refine ⟨List.Pairwise.nil, ?_, ?_, ?_⟩
  · exact fun now hmem => (List.not_mem_nil hmem).elim
  · exact fun now hmem => (List.not_mem_nil hmem).elim
  · rintro i now ⟨k, hk, -⟩
    exact (List.not_mem_nil hk).elim

omit [DecidableEq ι] in
/-- One more operation takes the lock, with an instant that nobody who waits precedes. -/
theorem Settled.enter {c c' : Clocked ι} {x : ι × Section ι} (hc : Settled c)
    (hclock : c'.clock = c.clock) (hlocked : c'.locked = c.locked ++ [x])
    (hwaits : ∀ j now, Waits c' j now → Waits c j now)
    (hx : ∀ now, instantOf x = some now → Waits c x.1 now)
    (hturn : ∀ now, instantOf x = some now → ∀ j now', Waits c j now' → now ≤ now') :
    Settled c' := by
  have hinstants : ∀ now ∈ instants c'.locked,
      now ∈ instants c.locked ∨ instantOf x = some now := by
    intro now hmem
    rw [hlocked, instants_append, List.mem_append] at hmem
    refine hmem.imp_right fun hlast => ?_
    obtain ⟨y, hy, hnow⟩ := List.mem_filterMap.mp hlast
    rw [← List.mem_singleton.mp hy]
    exact hnow
  refine ⟨?_, ?_, ?_, ?_⟩
  · rw [hlocked, instants_append, List.pairwise_append]
    refine ⟨hc.sorted, ?_, ?_⟩
    · cases hnow : instantOf x with
      | none => simp [instants, hnow]
      | some now => simp [instants, hnow]
    · intro now hmem now' hlast
      obtain ⟨y, hy, hnow⟩ := List.mem_filterMap.mp hlast
      rw [List.mem_singleton.mp hy] at hnow
      exact hc.ahead now hmem x.1 now' (hx now' hnow)
  · intro now hmem j now' hw
    rcases hinstants now hmem with hmem | hnow
    · exact hc.ahead now hmem j now' (hwaits j now' hw)
    · exact hturn now hnow j now' (hwaits j now' hw)
  · intro now hmem
    rw [hclock]
    rcases hinstants now hmem with hmem | hnow
    · exact hc.passed now hmem
    · exact hc.read x.1 now (hx now hnow)
  · intro j now hw
    rw [hclock]
    exact hc.read j now (hwaits j now hw)

theorem step?_settled {c c' : Clocked ι} {x : Move ι} (h : step? timeline tasks c x = some c')
    (hturn : InTurn c x) (hc : Settled c) : Settled c' := by
  cases x with
  | tick elapsed =>
      cases h
      exact ⟨hc.sorted, hc.ahead, fun now hmem => Nat.le_add_right_of_le (hc.passed now hmem),
        fun i now hw => Nat.le_add_right_of_le (hc.read i now hw)⟩
  | read i =>
      obtain ⟨-, rfl⟩ := step?_read h
      -- what newly waits, waits with what the clock says
      have hwaits : ∀ j now, Waits ⟨c.clock, Function.update c.reading i (some c.clock),
          { c.config with
            todo := Function.update c.config.todo i ((tasks i).op c.clock).program }⟩ j now →
          now = c.clock ∨ Waits c j now := by
        rintro j now ⟨k, hk, hnow⟩
        by_cases hji : j = i
        · subst hji
          simp only [Function.update_self] at hk
          exact Or.inl (instantOf_program hk hnow)
        · simp only [Function.update_of_ne hji] at hk
          exact Or.inr ⟨k, hk, hnow⟩
      refine ⟨hc.sorted, ?_, hc.passed, ?_⟩
      · intro now hmem j now' hw
        rcases hwaits j now' hw with rfl | hw
        · exact hc.passed now hmem
        · exact hc.ahead now hmem j now' hw
      · intro j now hw
        rcases hwaits j now hw with rfl | hw
        · exact Nat.le_refl _
        · exact hc.read j now hw
  | step x =>
      obtain ⟨config, hstep, rfl⟩ := Option.map_eq_some_iff.mp h
      cases x with
      | enter i =>
          obtain ⟨k, rest, s', es, htodo, -, -, rfl⟩ := (locks timeline).step?_enter hstep
          refine hc.enter (x := (i, k)) rfl (by simp [locked]) ?_ ?_ ?_
          · rintro j now ⟨k', hk, hnow⟩
            refine ⟨k', ?_, hnow⟩
            by_cases hji : j = i
            · subst hji
              simp only [Function.update_self] at hk
              rw [htodo]
              exact List.mem_cons_of_mem k hk
            · simp only [Function.update_of_ne hji] at hk
              exact hk
          · intro now hnow
            refine ⟨k, ?_, hnow⟩
            rw [htodo]
            exact List.mem_cons_self
          · intro now hnow
            exact hturn k rest now htodo hnow
      | emit n =>
          obtain ⟨i, e, -, rfl⟩ := (locks timeline).step?_emit hstep
          have hlocked : locked { c with config := ⟨c.config.shared, c.config.todo,
              c.config.pending.eraseIdx n, c.config.trace ++ [(i, .emit e)]⟩ } = locked c := by
            simp [locked]
          exact ⟨by rw [hlocked]; exact hc.sorted, by rw [hlocked]; exact hc.ahead,
            by rw [hlocked]; exact hc.passed, hc.read⟩

theorem run?_settled {c c' : Clocked ι} {xs : List (Move ι)}
    (h : run? timeline tasks c xs = some c') (hturns : Unovertaken timeline tasks c xs)
    (hc : Settled c) : Settled c' := by
  induction xs generalizing c with
  | nil =>
      cases h
      exact hc
  | cons x xs ih =>
      obtain ⟨b, hb, hrest⟩ := Option.bind_eq_some_iff.mp h
      exact ih hrest (hturns.2 b hb) (step?_settled hb hturns.1 hc)

/-- Whoever is overtaken and takes the lock after all does so out of order. -/
theorem unovertaken_of_sorted {c c' : Clocked ι} {xs : List (Move ι)}
    (h : run? timeline tasks c xs = some c') (hidle : Idle c)
    (hdone : ∀ i now, ¬ Waits c' i now) (hsorted : (instants c'.locked).Pairwise (· ≤ ·)) :
    Unovertaken timeline tasks c xs := by
  induction xs generalizing c with
  | nil => exact True.intro
  | cons x xs ih =>
      obtain ⟨b, hb, hrest⟩ := Option.bind_eq_some_iff.mp h
      have hidle' := step?_idle hb hidle
      refine ⟨?_, ?_⟩
      · cases x with
        | tick elapsed => exact True.intro
        | read i => exact True.intro
        | step x =>
            obtain ⟨config, hstep, rfl⟩ := Option.map_eq_some_iff.mp hb
            cases x with
            | emit n => exact True.intro
            | enter i =>
                intro k rest now htodo hnow j now' hw
                obtain ⟨new, hnew, hwaits⟩ := step?_waits hb hidle
                obtain ⟨more, hmore, hrun⟩ := run?_waits hrest hidle'
                have hlast : instants new = [now] := by
                  obtain ⟨k', rest', s', es, htodo', -, -, rfl⟩ :=
                    (locks timeline).step?_enter hstep
                  obtain ⟨rfl, rfl⟩ := List.cons.inj (htodo.symm.trans htodo')
                  have hentered : new = [(i, k)] :=
                    List.append_cancel_left (hnew.symm.trans (by simp [locked]))
                  simp [hentered, instants, hnow]
                rw [hmore, hnew, instants_append, instants_append, hlast,
                  List.pairwise_append] at hsorted
                rcases hwaits j now' hw with hw | hmem
                · rcases hrun j now' hw with hw | hmem
                  · exact (hdone j now' hw).elim
                  · exact hsorted.2.2 now (List.mem_append_right _ (List.mem_singleton_self now))
                      now' hmem
                · rw [hlast, List.mem_singleton] at hmem
                  exact Nat.le_of_eq hmem.symm
      · intro b' hb'
        obtain rfl := Option.some.inj (hb.symm.trans hb')
        exact ih hrest hidle'

/-- The order of the sections is the order of their instants when every operation takes
the lock in turn, and once nobody waits any more, only then. -/
theorem in_order_iff {clock : Instant} {c : Clocked ι} {xs : List (Move ι)}
    (h : run? timeline tasks (start clock) xs = some c) :
    (Unovertaken timeline tasks (start clock) xs → InOrder timeline c) ∧
      ((∀ i now, ¬ Waits c i now) →
        (InOrder timeline c ↔ Unovertaken timeline tasks (start clock) xs)) := by
  have hforward : Unovertaken timeline tasks (start clock) xs → InOrder timeline c := by
    intro hturns
    have hsettled := run?_settled h hturns (settled_start clock)
    exact (inOrder_iff h).mpr hsettled.sorted
  refine ⟨hforward, fun hdone => ⟨?_, hforward⟩⟩
  intro horder
  exact unovertaken_of_sorted h (idle_start clock) hdone horder.locked

/-- Two guards and a ready. -/
def sampleTasks : Party → Task Party
  | .first => .endGuard "config" 2 .finish
  | .second => .endGuard "cache" 3 .finish
  | .third => .ready

def sampleTimeline : Timeline :=
  ⟨0, .processStart, 0, "exe"⟩

/-- Every operation takes the lock as soon as it has read the clock. -/
def inTurn : List (Move Party) :=
  [.tick 5, .read .first, .step (.enter .first), .read .second, .tick 5,
    .step (.enter .second), .read .third, .step (.enter .third)]

/-- The first guard and the ready wait while the second guard overtakes them. -/
def overtaking : List (Move Party) :=
  [.tick 10, .read .first, .tick 5, .read .third, .tick 5, .read .second,
    .step (.enter .second), .step (.enter .first), .step (.enter .third)]

/-- A run in which every operation that read the clock has gone on to its end. -/
theorem inTurn_in_order :
    ∃ c, run? sampleTimeline sampleTasks (start 0) inTurn = some c ∧
      Unovertaken sampleTimeline sampleTasks (start 0) inTurn ∧ InOrder sampleTimeline c := by
  have hran : (run? sampleTimeline sampleTasks (start 0) inTurn).isSome := by decide
  have hrun := (Option.some_get hran).symm
  have hdone : ∀ i now,
      ¬ Waits ((run? sampleTimeline sampleTasks (start 0) inTurn).get hran) i now := by
    rintro i now ⟨k, hk, -⟩
    cases i <;> exact List.not_mem_nil hk
  have hsorted : ([5, 5, 10] : List Instant).Pairwise (· ≤ ·) := by decide
  have hturns : Unovertaken sampleTimeline sampleTasks (start 0) inTurn :=
    unovertaken_of_sorted hrun (idle_start 0) hdone hsorted
  exact ⟨_, hrun, hturns, (in_order_iff hrun).1 hturns⟩

/-- The second guard ended at `20` and is listed before the first, which ended at `10`, and
the boot was ready at `15`. -/
theorem second_overtakes :
    ∃ c, run? sampleTimeline sampleTasks (start 0) overtaking = some c ∧
      ¬ InOrder sampleTimeline c ∧ (Timeline.phases c.state).map (·.at_) = [20, 10] ∧
      c.state.ready = some (15, 15) := by
  have hran : (run? sampleTimeline sampleTasks (start 0) overtaking).isSome := by decide
  refine ⟨_, (Option.some_get hran).symm, ?_, rfl, rfl⟩
  intro horder
  have hlisted : ([20, 10] : List Duration).Pairwise (· ≤ ·) := horder.phases_at
  exact absurd hlisted (by decide)

end Clocked

end OtelBootstrap.Boot
