import OtelBootstrap.Boot.Equations
import OtelBootstrap.Builder.Init
import OtelBootstrap.Library.Sections

/-! # Shutting down what the handles hold

`shutdown` asks every provider in turn and absorbs its error. A drop leaves that to a thread
of its own, and waits for it no longer than its timeout. -/

namespace OtelBootstrap.Builder

open Boot (Duration Instant)
open Sections

/-! ## Providers -/

inductive ProviderKind where
  | tracer
  | meter
  | logger
  deriving DecidableEq, Repr

def ProviderKind.name : ProviderKind → String
  | .tracer => "tracer"
  | .meter => "meter"
  | .logger => "logger"

/-- A provider that handles hold. -/
structure Held where
  kind : ProviderKind
  id : ℕ
  deriving DecidableEq, Repr

/-- In the order in which they are shut down. -/
def TelemetryHandles.held (self : TelemetryHandles) : List Held :=
  ⟨.tracer, self.tracerProvider.id⟩ ::
    ((self.meterProvider.map fun mp => ⟨.meter, mp.id⟩).toList ++
      (self.loggerProvider.map fun lp => ⟨.logger, lp.id⟩).toList)

/-- What the SDK answers: `shutdown` to the first call for a provider, and `alreadyShutdown` to
every later one. -/
structure ShutdownLibrary where
  shutdown : Held → Except String Unit
  alreadyShutdown : String

/-- The provider answers its first `shutdown` with `Ok`. -/
def ShutdownLibrary.flushes (libs : ShutdownLibrary) (provider : Held) : Bool :=
  match libs.shutdown provider with
  | .ok () => true
  | .error _ => false

def shutdownError (provider : Held) (e : String) : String :=
  provider.kind.name ++ " provider shutdown error: " ++ e

/-! ## Calls and their sections -/

/-- `inTime` tells whether the message of the thread arrives before the timeout. -/
inductive ShutdownCall where
  | shutdown (handles : TelemetryHandles) (now : Instant)
  | drop (handles : TelemetryHandles) (now : Instant) (inTime : Bool)
  deriving DecidableEq, Repr

inductive Thread where
  | caller
  | background
  deriving DecidableEq, Repr

inductive ShutdownSection where
  | closeBoot (owner : Bool) (now : Instant)
  | shutdownProvider (provider : Held)
  | spawn
  | enter
  | send
  | recvTimeout (timeout : Duration) (inTime : Bool)
  deriving DecidableEq, Repr

inductive ShutdownEffect where
  | boot (effect : Boot.Effect)
  | flush (provider : Held)
  | warn (provider : Held) (message : String)
  | timedOut (timeout : Duration)
  deriving DecidableEq, Repr

namespace ShutdownCall

def handles : ShutdownCall → TelemetryHandles
  | .shutdown handles _ => handles
  | .drop handles _ _ => handles

def now : ShutdownCall → Instant
  | .shutdown _ now => now
  | .drop _ now _ => now

/-- The thread that shuts the providers down. -/
def worker : ShutdownCall → Thread
  | .shutdown .. => .caller
  | .drop .. => .background

def providers (call : ShutdownCall) : List ShutdownSection :=
  call.handles.held.map .shutdownProvider

def program (call : ShutdownCall) : Thread → List ShutdownSection
  | .caller =>
      .closeBoot call.handles.bootOwner call.now ::
        match call with
        | .shutdown .. => call.providers
        | .drop handles _ inTime => [.spawn, .recvTimeout handles.shutdownTimeout inTime]
  | .background =>
      match call with
      | .shutdown .. => []
      | .drop .. => .enter :: (call.providers ++ [.send])

end ShutdownCall

/-- Which providers are down, which drops have spawned their thread, and whose thread has sent
its message. -/
structure ShutdownState (ι : Type) where
  boot : Boot.State
  down : List Held := []
  spawned : List ι := []
  sent : List ι := []

section Machine

variable {ι : Type} [DecidableEq ι] (libs : ShutdownLibrary) (timeline : Boot.Timeline)

/-- The first call for a provider flushes it, whatever comes of that. -/
def shutdownProvider (provider : Held) (s : ShutdownState ι) :
    ShutdownState ι × List ShutdownEffect :=
  if provider ∈ s.down then (s, [.warn provider (shutdownError provider libs.alreadyShutdown)])
  else
    ({ s with down := s.down ++ [provider] },
      .flush provider ::
        match libs.shutdown provider with
        | .ok () => []
        | .error e => [.warn provider (shutdownError provider e)])

def closeBoot (owner : Bool) (now : Instant) (s : ShutdownState ι) :
    ShutdownState ι × List ShutdownEffect :=
  if owner then
    let (boot, effects) := timeline.close s.boot now
    ({ s with boot }, effects.map .boot)
  else (s, [])

/-- The thread runs once it is spawned; whether its message is there in time decides which way
the wait for it ends. -/
def shutdownExec (i : ι × Thread) (k : ShutdownSection) (s : ShutdownState ι) :
    Option (ShutdownState ι × List ShutdownEffect) :=
  match k with
  | .closeBoot owner now => some (closeBoot timeline owner now s)
  | .shutdownProvider provider => some (shutdownProvider libs provider s)
  | .spawn => some ({ s with spawned := i.1 :: s.spawned }, [])
  | .enter => if i.1 ∈ s.spawned then some (s, []) else none
  | .send => some ({ s with sent := i.1 :: s.sent }, [])
  | .recvTimeout timeout inTime =>
      if inTime then (if i.1 ∈ s.sent then some (s, []) else none)
      else (if i.1 ∈ s.sent then none else some (s, [.timedOut timeout]))

/-- Every way in which a section runs. -/
inductive Executed (i : ι × Thread) (s : ShutdownState ι) :
    ShutdownSection → ShutdownState ι → List ShutdownEffect → Prop where
  | closeBoot (owner now) : Executed i s (.closeBoot owner now)
      (closeBoot timeline owner now s).1 (closeBoot timeline owner now s).2
  | shutdownProvider (provider) : Executed i s (.shutdownProvider provider)
      (shutdownProvider libs provider s).1 (shutdownProvider libs provider s).2
  | spawn : Executed i s .spawn { s with spawned := i.1 :: s.spawned } []
  | enter (hspawned : i.1 ∈ s.spawned) : Executed i s .enter s []
  | send : Executed i s .send { s with sent := i.1 :: s.sent } []
  | inTime (timeout) (hsent : i.1 ∈ s.sent) : Executed i s (.recvTimeout timeout true) s []
  | late (timeout) (hsent : i.1 ∉ s.sent) :
      Executed i s (.recvTimeout timeout false) s [.timedOut timeout]

theorem executed_of_exec {i : ι × Thread} {k : ShutdownSection} {s s' : ShutdownState ι}
    {es : List ShutdownEffect} (hexec : shutdownExec libs timeline i k s = some (s', es)) :
    Executed libs timeline i s k s' es := by
  cases k with
  | closeBoot owner now =>
      obtain ⟨rfl, rfl⟩ := Prod.mk.inj (Option.some.inj hexec)
      exact .closeBoot owner now
  | shutdownProvider provider =>
      obtain ⟨rfl, rfl⟩ := Prod.mk.inj (Option.some.inj hexec)
      exact .shutdownProvider provider
  | spawn =>
      obtain ⟨rfl, rfl⟩ := Prod.mk.inj (Option.some.inj hexec)
      exact .spawn
  | enter =>
      simp only [shutdownExec, Option.ite_none_right_eq_some] at hexec
      obtain ⟨rfl, rfl⟩ := Prod.mk.inj (Option.some.inj hexec.2)
      exact .enter hexec.1
  | send =>
      obtain ⟨rfl, rfl⟩ := Prod.mk.inj (Option.some.inj hexec)
      exact .send
  | recvTimeout timeout inTime =>
      cases inTime with
      | false =>
          simp only [shutdownExec, Bool.false_eq_true, if_false,
            Option.ite_none_left_eq_some] at hexec
          obtain ⟨rfl, rfl⟩ := Prod.mk.inj (Option.some.inj hexec.2)
          exact .late timeout hexec.1
      | true =>
          simp only [shutdownExec, if_true, Option.ite_none_right_eq_some] at hexec
          obtain ⟨rfl, rfl⟩ := Prod.mk.inj (Option.some.inj hexec.2)
          exact .inTime timeout hexec.1

/-- Any number of calls, on handles of any number of `init`s. -/
def shutdownMachine (calls : ι → ShutdownCall) :
    Machine (ι × Thread) ShutdownSection ShutdownEffect (ShutdownState ι) where
  program i := (calls i.1).program i.2
  exec := shutdownExec libs timeline

end Machine

/-! ## Accounts of a run -/

section Accounts

variable {ι : Type}

def flushOf : (ι × Thread) × ShutdownEffect → Option Held
  | (_, .flush provider) => some provider
  | _ => none

def warnOf : (ι × Thread) × ShutdownEffect → Option Held
  | (_, .warn provider _) => some provider
  | _ => none

def isRootEnd : (ι × Thread) × ShutdownEffect → Bool
  | (_, .boot (.endRootSpan ..)) => true
  | _ => false

def askOf : (ι × Thread) × ShutdownSection → Option Held
  | (_, .shutdownProvider provider) => some provider
  | _ => none

def closesBoot : (ι × Thread) × ShutdownSection → Bool
  | (_, .closeBoot owner _) => owner
  | _ => false

/-- The providers flushed. -/
def flushed (es : List ((ι × Thread) × ShutdownEffect)) : List Held :=
  es.filterMap flushOf

/-- The providers warned about. -/
def warned (es : List ((ι × Thread) × ShutdownEffect)) : List Held :=
  es.filterMap warnOf

/-- The providers asked to shut down. -/
def asked (h : List ((ι × Thread) × ShutdownSection)) : List Held :=
  h.filterMap askOf

/-- How a state and the effects so far account for a history that began with `boot`. -/
structure Accounts (libs : ShutdownLibrary) (boot : Boot.State)
    (h : List ((ι × Thread) × ShutdownSection)) (s : ShutdownState ι)
    (es : List ((ι × Thread) × ShutdownEffect)) : Prop where
  down : flushed es = s.down
  nodup : s.down.Nodup
  asked : ∀ p, p ∈ s.down ↔ p ∈ asked h
  warned : ∀ p, (warned es).count p + (if p ∈ s.down ∧ libs.flushes p = true then 1 else 0) =
    (Builder.asked h).count p
  timeline : s.boot = if h.any closesBoot then boot.takeRootToEnd.2 else boot
  roots : es.countP isRootEnd =
    if h.any closesBoot && boot.takeRootToEnd.1.isSome then 1 else 0

theorem takeRootToEnd_twice (boot : Boot.State) :
    boot.takeRootToEnd.2.takeRootToEnd = (none, boot.takeRootToEnd.2) := by
  cases hended : boot.rootEnded with
  | true =>
      rw [Boot.State.takeRootToEnd_of_ended hended]
      exact Boot.State.takeRootToEnd_of_ended hended
  | false =>
      cases hexporter : boot.exporter with
      | none =>
          rw [Boot.State.takeRootToEnd_of_detached hexporter]
          exact Boot.State.takeRootToEnd_of_detached hexporter
      | some exporter =>
          rw [Boot.State.takeRootToEnd_of_open hended hexporter]
          exact Boot.State.takeRootToEnd_of_ended rfl

theorem close_eq (timeline : Boot.Timeline) (boot : Boot.State) (now : Instant) :
    (timeline.close boot now).1 = boot.takeRootToEnd.2 ∧
      ∀ i : ι × Thread, (((timeline.close boot now).2.map ShutdownEffect.boot).map
        (i, ·)).countP isRootEnd = if boot.takeRootToEnd.1.isSome then 1 else 0 := by
  rw [Boot.Timeline.close]
  rcases boot.takeRootToEnd with ⟨due, after⟩
  cases due with
  | none => exact ⟨rfl, fun _ => rfl⟩
  | some due => exact ⟨rfl, fun _ => rfl⟩

/-- What one call of a provider's `shutdown` adds. -/
theorem shutdownProvider_spec (libs : ShutdownLibrary) (provider : Held) (s : ShutdownState ι)
    (i : ι × Thread) :
    (shutdownProvider libs provider s).1 =
        { s with down := if provider ∈ s.down then s.down else s.down ++ [provider] } ∧
      flushed ((shutdownProvider libs provider s).2.map (i, ·)) =
        (if provider ∈ s.down then [] else [provider]) ∧
      warned ((shutdownProvider libs provider s).2.map (i, ·)) =
        (if provider ∉ s.down ∧ libs.flushes provider = true then [] else [provider]) ∧
      ((shutdownProvider libs provider s).2.map (i, ·)).countP isRootEnd = 0 := by
  by_cases hdown : provider ∈ s.down
  · simp [shutdownProvider, hdown, flushed, flushOf, warned, warnOf, isRootEnd]
  · cases hanswer : libs.shutdown provider <;>
      simp [shutdownProvider, ShutdownLibrary.flushes, hdown, hanswer, flushed, flushOf, warned,
        warnOf, isRootEnd, List.filterMap_cons]

theorem mem_asked {h : List ((ι × Thread) × ShutdownSection)} {p : Held} :
    p ∈ asked h ↔ ∃ i thread, ((i, thread), .shutdownProvider p) ∈ h := by
  rw [asked, List.mem_filterMap]
  constructor
  · rintro ⟨⟨⟨i, thread⟩, k⟩, hmem, hk⟩
    cases k with
    | shutdownProvider q =>
        obtain rfl := Option.some.inj hk
        exact ⟨i, thread, hmem⟩
    | closeBoot owner now => cases hk
    | spawn => cases hk
    | enter => cases hk
    | send => cases hk
    | recvTimeout timeout inTime => cases hk
  · rintro ⟨i, thread, hmem⟩
    exact ⟨_, hmem, rfl⟩

theorem any_closesBoot {h : List ((ι × Thread) × ShutdownSection)} :
    h.any closesBoot = true ↔ ∃ i thread now, ((i, thread), .closeBoot true now) ∈ h := by
  rw [List.any_eq_true]
  constructor
  · rintro ⟨⟨⟨i, thread⟩, k⟩, hmem, hk⟩
    cases k with
    | closeBoot owner now =>
        obtain rfl : owner = true := hk
        exact ⟨i, thread, now, hmem⟩
    | shutdownProvider provider => cases hk
    | spawn => cases hk
    | enter => cases hk
    | send => cases hk
    | recvTimeout timeout inTime => cases hk
  · rintro ⟨i, thread, now, hmem⟩
    exact ⟨_, hmem, rfl⟩

namespace Accounts

variable {libs : ShutdownLibrary} {timeline : Boot.Timeline} {boot : Boot.State}
  {h : List ((ι × Thread) × ShutdownSection)} {s : ShutdownState ι}
  {es : List ((ι × Thread) × ShutdownEffect)}

theorem initial (libs : ShutdownLibrary) (boot : Boot.State) :
    Accounts libs boot ([] : List ((ι × Thread) × ShutdownSection)) { boot } [] where
  down := rfl
  nodup := List.nodup_nil
  asked p := by simp [Builder.asked]
  warned p := by simp [Builder.asked, Builder.warned]
  timeline := rfl
  roots := rfl

/-- A section that asks for nothing and closes nothing. -/
theorem neutral (ha : Accounts libs boot h s es) {x : (ι × Thread) × ShutdownSection}
    {s' : ShutdownState ι} {es' : List ((ι × Thread) × ShutdownEffect)}
    (hask : askOf x = none) (hclose : closesBoot x = false)
    (hflush : flushed es' = []) (hwarn : Builder.warned es' = [])
    (hroot : es'.countP isRootEnd = 0) (hdown : s'.down = s.down) (hboot : s'.boot = s.boot) :
    Accounts libs boot (h ++ [x]) s' (es ++ es') := by
  have hasked : Builder.asked (h ++ [x]) = Builder.asked h := by
    simp [Builder.asked, hask]
  have hclosed : (h ++ [x]).any closesBoot = h.any closesBoot := by
    simp [hclose]
  refine ⟨?_, ?_, ?_, ?_, ?_, ?_⟩
  · rw [hdown, flushed, List.filterMap_append, ← flushed, ← flushed, hflush, List.append_nil]
    exact ha.down
  · rw [hdown]
    exact ha.nodup
  · rw [hdown, hasked]
    exact ha.asked
  · intro p
    rw [hdown, hasked, Builder.warned, List.filterMap_append, ← Builder.warned,
      ← Builder.warned, hwarn, List.append_nil]
    exact ha.warned p
  · rw [hboot, hclosed]
    exact ha.timeline
  · rw [List.countP_append, hroot, hclosed]
    exact ha.roots

theorem closeBoot (ha : Accounts libs boot h s es) (i : ι × Thread) (owner : Bool)
    (now : Instant) :
    Accounts libs boot (h ++ [(i, .closeBoot owner now)])
      (Builder.closeBoot timeline owner now s).1
      (es ++ (Builder.closeBoot timeline owner now s).2.map (i, ·)) := by
  cases owner with
  | false => exact ha.neutral rfl rfl rfl rfl rfl rfl rfl
  | true =>
      obtain ⟨hstate, hroots⟩ := close_eq timeline s.boot now
      have hnothing : ∀ {β : Type} (f : (ι × Thread) × ShutdownEffect → Option β),
          (∀ e, f (i, .boot e) = none) →
          (((timeline.close s.boot now).2.map ShutdownEffect.boot).map (i, ·)).filterMap f =
            [] := by
        intro β f hf
        rw [List.filterMap_eq_nil_iff]
        intro x hx
        rw [List.map_map] at hx
        obtain ⟨e, -, rfl⟩ := List.mem_map.mp hx
        exact hf e
      have hasked : Builder.asked (h ++ [(i, .closeBoot true now)]) = Builder.asked h := by
        simp [Builder.asked, askOf]
      have hclosed : (h ++ [(i, ShutdownSection.closeBoot true now)]).any closesBoot = true := by
        simp [closesBoot]
      simp only [Builder.closeBoot, if_true]
      refine ⟨?_, ha.nodup, ?_, ?_, ?_, ?_⟩
      · rw [flushed, List.filterMap_append, hnothing flushOf fun _ => rfl, List.append_nil]
        exact ha.down
      · rw [hasked]
        exact ha.asked
      · intro p
        rw [hasked, Builder.warned, List.filterMap_append, hnothing warnOf fun _ => rfl,
          List.append_nil]
        exact ha.warned p
      · rw [hclosed, if_pos rfl]
        refine hstate.trans ?_
        rw [ha.timeline]
        split
        · rw [takeRootToEnd_twice]
        · rfl
      · rw [List.countP_append, hroots i, ha.roots, ha.timeline, hclosed]
        cases h.any closesBoot with
        | true => simp [takeRootToEnd_twice]
        | false => simp

theorem shutdownProvider (ha : Accounts libs boot h s es) (i : ι × Thread) (provider : Held) :
    Accounts libs boot (h ++ [(i, .shutdownProvider provider)])
      (Builder.shutdownProvider libs provider s).1
      (es ++ (Builder.shutdownProvider libs provider s).2.map (i, ·)) := by
  obtain ⟨hstate, hflushed, hwarned, hroots⟩ := shutdownProvider_spec libs provider s i
  have hasked : Builder.asked (h ++ [(i, .shutdownProvider provider)]) =
      Builder.asked h ++ [provider] := by
    simp [Builder.asked, askOf]
  have hclosed : (h ++ [(i, ShutdownSection.shutdownProvider provider)]).any closesBoot =
      h.any closesBoot := by
    simp [closesBoot]
  rw [hstate]
  refine ⟨?_, ?_, ?_, ?_, ?_, ?_⟩
  · rw [flushed, List.filterMap_append, ← flushed, ← flushed, hflushed, ha.down]
    split <;> simp
  · split
    · exact ha.nodup
    · rename_i hdown
      exact (List.perm_append_singleton provider s.down).symm.nodup
        (List.nodup_cons.mpr ⟨hdown, ha.nodup⟩)
  · intro p
    rw [hasked, List.mem_append, List.mem_singleton, ← ha.asked p]
    split
    · rename_i hdown
      exact ⟨Or.inl, fun hp => hp.elim id fun hp => hp ▸ hdown⟩
    · simp
  · intro p
    have hbefore := ha.warned p
    rw [hasked, List.count_append, Builder.warned, List.filterMap_append, ← Builder.warned,
      ← Builder.warned, hwarned, List.count_append, ← hbefore]
    by_cases hp : p = provider
    · subst hp
      by_cases hdown : p ∈ s.down <;> by_cases hok : libs.flushes p = true <;>
        simp [hdown, hok]
    · have hne : ¬ provider = p := fun he => hp he.symm
      by_cases hdown : provider ∈ s.down <;> by_cases hok : libs.flushes provider = true <;>
        simp [hdown, hok, hp, hne]
  · rw [hclosed]
    exact ha.timeline
  · rw [List.countP_append, hroots, hclosed]
    exact ha.roots

variable [DecidableEq ι]

/-- What one section adds. -/
theorem snoc (ha : Accounts libs boot h s es) {i : ι × Thread} {k : ShutdownSection}
    {s' : ShutdownState ι} {effects : List ShutdownEffect}
    (hexec : shutdownExec libs timeline i k s = some (s', effects)) :
    Accounts libs boot (h ++ [(i, k)]) s' (es ++ effects.map (i, ·)) := by
  cases executed_of_exec libs timeline hexec with
  | closeBoot owner now => exact ha.closeBoot i owner now
  | shutdownProvider provider => exact ha.shutdownProvider i provider
  | spawn => exact ha.neutral rfl rfl rfl rfl rfl rfl rfl
  | enter hspawned => exact ha.neutral rfl rfl rfl rfl rfl rfl rfl
  | send => exact ha.neutral rfl rfl rfl rfl rfl rfl rfl
  | inTime timeout hsent => exact ha.neutral rfl rfl rfl rfl rfl rfl rfl
  | late timeout hsent => exact ha.neutral rfl rfl rfl rfl rfl rfl rfl

theorem ofReplays {calls : ι → ShutdownCall}
    (hr : (shutdownMachine libs timeline calls).Replays { boot } h s es) :
    Accounts libs boot h s es := by
  induction hr with
  | nil => exact .initial libs boot
  | snoc hr hexec ih => exact ih.snoc hexec

end Accounts

end Accounts

/-! ## Whole runs -/

section Runs

variable {ι : Type} [DecidableEq ι] {libs : ShutdownLibrary} {timeline : Boot.Timeline}
  {calls : ι → ShutdownCall} {boot : Boot.State}

/-- Thread `thread` of call `i` has begun. -/
def Began (h : List ((ι × Thread) × ShutdownSection)) (i : ι) (thread : Thread) : Prop :=
  ∃ k, ((i, thread), k) ∈ h

theorem mem_program_of_mem (r : (shutdownMachine libs timeline calls).Run { boot }) {i : ι}
    {thread : Thread} {k : ShutdownSection}
    (hmem : ((i, thread), k) ∈ Sections.history r.final.trace) :
    k ∈ (calls i).program thread := by
  have hprogram := Machine.run?_program _ r.ran (i, thread)
  have hk : k ∈
      ((Sections.history r.final.trace).filter (fun p => p.1 = (i, thread))).map Prod.snd :=
    List.mem_map.mpr ⟨((i, thread), k), List.mem_filter.mpr ⟨hmem, by simp⟩, rfl⟩
  have hwhole : k ∈ (shutdownMachine libs timeline calls).program (i, thread) :=
    hprogram ▸ List.mem_append_left _ hk
  exact hwhole

theorem mem_of_mem_program (r : (shutdownMachine libs timeline calls).Run { boot })
    (hc : r.final.Complete) {i : ι} {thread : Thread}
    (hbegan : Began (Sections.history r.final.trace) i thread) {k : ShutdownSection}
    (hk : k ∈ (calls i).program thread) : ((i, thread), k) ∈ Sections.history r.final.trace := by
  obtain ⟨first, hfirst⟩ := hbegan
  have hmine := Machine.history_of_complete _ r.ran hc hfirst
  have hmem : ((i, thread), k) ∈
      (Sections.history r.final.trace).filter (fun p => p.1 = (i, thread)) := by
    rw [hmine]
    exact List.mem_map.mpr ⟨k, hk, rfl⟩
  exact (List.mem_filter.mp hmem).1

theorem shutdownProvider_mem_program {call : ShutdownCall} {thread : Thread} {p : Held} :
    ShutdownSection.shutdownProvider p ∈ call.program thread ↔
      thread = call.worker ∧ p ∈ call.handles.held := by
  cases call <;> cases thread <;>
    simp [ShutdownCall.program, ShutdownCall.providers, ShutdownCall.worker, ShutdownCall.handles]

theorem closeBoot_mem_program {call : ShutdownCall} {thread : Thread} {owner : Bool}
    {now : Instant} : ShutdownSection.closeBoot owner now ∈ call.program thread ↔
      thread = .caller ∧ owner = call.handles.bootOwner ∧ now = call.now := by
  cases call <;> cases thread <;> simp [ShutdownCall.program, ShutdownCall.providers]

theorem send_mem_program {call : ShutdownCall} {thread : Thread}
    (hk : ShutdownSection.send ∈ call.program thread) : thread = .background := by
  revert hk
  cases call <;> cases thread <;> simp [ShutdownCall.program, ShutdownCall.providers]

theorem recvTimeout_mem_program {call : ShutdownCall} {thread : Thread} {timeout : Duration}
    {inTime : Bool} (hk : .recvTimeout timeout inTime ∈ call.program thread) :
    call.worker = .background := by
  revert hk
  cases call <;> cases thread <;>
    simp [ShutdownCall.program, ShutdownCall.providers, ShutdownCall.worker]

/-- The message is the last thing that the thread of a drop does. -/
theorem send_last {call : ShutdownCall} {rest : List ShutdownSection}
    (htodo : .send :: rest <:+ call.program .background) : rest = [] := by
  cases call with
  | shutdown handles now => cases List.suffix_nil.mp htodo
  | drop handles now inTime =>
      obtain ⟨front, hfront⟩ := htodo
      rcases List.eq_nil_or_concat rest with rfl | ⟨rest, last, rfl⟩
      · rfl
      · rw [List.concat_eq_append, ← List.cons_append, ← List.append_assoc] at hfront
        have hprogram : (ShutdownCall.drop handles now inTime).program .background =
            (.enter :: (ShutdownCall.drop handles now inTime).providers) ++ [.send] := rfl
        rw [hprogram] at hfront
        have hsend : ShutdownSection.send ∈ front ++ .send :: rest := by simp
        rw [(List.append_inj' hfront rfl).1] at hsend
        simp [ShutdownCall.providers] at hsend

/-- Whoever shuts a provider down in a complete run, and the call it belongs to. -/
theorem mem_asked_of_complete (r : (shutdownMachine libs timeline calls).Run { boot })
    (hc : r.final.Complete) {p : Held} :
    p ∈ asked (Sections.history r.final.trace) ↔
      ∃ i, Began (Sections.history r.final.trace) i (calls i).worker ∧
        p ∈ (calls i).handles.held := by
  rw [mem_asked]
  constructor
  · rintro ⟨i, thread, hmem⟩
    obtain ⟨rfl, hp⟩ := shutdownProvider_mem_program.mp (mem_program_of_mem r hmem)
    exact ⟨i, ⟨_, hmem⟩, hp⟩
  · rintro ⟨i, hbegan, hp⟩
    exact ⟨i, _, mem_of_mem_program r hc hbegan (shutdownProvider_mem_program.mpr ⟨rfl, hp⟩)⟩

theorem any_closesBoot_of_complete (r : (shutdownMachine libs timeline calls).Run { boot })
    (hc : r.final.Complete) : (Sections.history r.final.trace).any closesBoot = true ↔
      ∃ i, (calls i).handles.bootOwner = true ∧
        Began (Sections.history r.final.trace) i .caller := by
  rw [any_closesBoot]
  constructor
  · rintro ⟨i, thread, now, hmem⟩
    obtain ⟨rfl, howner, -⟩ := closeBoot_mem_program.mp (mem_program_of_mem r hmem)
    exact ⟨i, howner.symm, _, hmem⟩
  · rintro ⟨i, howner, hbegan⟩
    exact ⟨i, .caller, (calls i).now,
      mem_of_mem_program r hc hbegan (closeBoot_mem_program.mpr ⟨rfl, howner.symm, rfl⟩)⟩

/-- What a complete run leaves, in terms of what it was asked. -/
theorem accounts_of_complete (r : (shutdownMachine libs timeline calls).Run { boot })
    (hc : r.final.Complete) :
    ∃ es, Accounts libs boot (Sections.history r.final.trace) r.final.shared es ∧
      (emitted r.final.trace).Perm es := by
  obtain ⟨es, hr, hperm⟩ := Machine.run?_linearizes _ r.ran
  rw [hc.1, List.append_nil] at hperm
  exact ⟨es, Accounts.ofReplays hr, hperm⟩

theorem flushed_perm (r : (shutdownMachine libs timeline calls).Run { boot })
    (hc : r.final.Complete) :
    (flushed (emitted r.final.trace)).Perm r.final.shared.down := by
  obtain ⟨es, ha, hperm⟩ := accounts_of_complete r hc
  rw [← ha.down]
  exact hperm.filterMap flushOf

theorem mem_flushed (r : (shutdownMachine libs timeline calls).Run { boot })
    (hc : r.final.Complete) {p : Held} :
    p ∈ flushed (emitted r.final.trace) ↔ p ∈ asked (Sections.history r.final.trace) := by
  obtain ⟨es, ha, -⟩ := accounts_of_complete r hc
  rw [(flushed_perm r hc).mem_iff, ha.asked p]

theorem warned_count (r : (shutdownMachine libs timeline calls).Run { boot })
    (hc : r.final.Complete) (p : Held) :
    (warned (emitted r.final.trace)).count p +
        (if p ∈ flushed (emitted r.final.trace) ∧ libs.flushes p = true then 1 else 0) =
      (asked (Sections.history r.final.trace)).count p := by
  obtain ⟨es, ha, hperm⟩ := accounts_of_complete r hc
  have hwarned : (warned (emitted r.final.trace)).Perm (warned es) := hperm.filterMap warnOf
  simp only [hwarned.count_eq, (flushed_perm r hc).mem_iff]
  exact ha.warned p

/-! ## The root span before the providers -/

abbrev ShutdownConfig (ι : Type) :=
  Config (ι × Thread) ShutdownSection ShutdownEffect (ShutdownState ι)

/-- Call `i` ends no root span any more. -/
def Passed (c : ShutdownConfig ι) (i : ι) : Prop :=
  (∀ owner now, .closeBoot owner now ∉ c.todo (i, .caller)) ∧
    ∀ x ∈ c.pending, x.1.1 = i → isRootEnd x = false

variable (calls) in
/-- What has come before a call's thread shuts anything down. -/
structure Ordered (c : ShutdownConfig ι) : Prop where
  todo : ∀ x, c.todo x <:+ (calls x.1).program x.2
  callers : ∀ x ∈ c.pending, isRootEnd x = true → x.1.2 = .caller
  spawned : ∀ i ∈ c.shared.spawned, Passed c i
  background : ∀ i, c.todo (i, .background) ≠ (calls i).program .background → Passed c i
  waiting : ∀ x ∈ c.pending, (flushOf x).isSome = true → Passed c x.1.1
  flushes : ∀ x ∈ emitted c.trace, (flushOf x).isSome = true → Passed c x.1.1
  emitted : (emitted c.trace).Pairwise fun x y =>
    (flushOf x).isSome = true → isRootEnd y = true → x.1.1 ≠ y.1.1

/-- Which section leaves a root end, a flush or a spawned thread behind. -/
theorem shutdownExec_leaves {x : ι × Thread} {k : ShutdownSection} {s s' : ShutdownState ι}
    {es : List ShutdownEffect} (hexec : shutdownExec libs timeline x k s = some (s', es)) :
    (∀ e ∈ es, isRootEnd (x, e) = true → ∃ owner now, k = .closeBoot owner now) ∧
      (∀ e ∈ es, (flushOf (x, e)).isSome = true → ∃ p, k = .shutdownProvider p) ∧
      (∀ i ∈ s'.spawned, i ∈ s.spawned ∨ k = .spawn ∧ i = x.1) := by
  cases executed_of_exec libs timeline hexec with
  | closeBoot owner now =>
      cases owner with
      | false => simp [closeBoot]
      | true =>
          refine ⟨fun _ _ _ => ⟨true, now, rfl⟩, ?_, fun i hi => Or.inl hi⟩
          intro e he hflush
          obtain ⟨effect, -, rfl⟩ := List.mem_map.mp he
          cases hflush
  | shutdownProvider provider =>
      obtain ⟨hstate, -, -, hnone⟩ := shutdownProvider_spec libs provider s x
      rw [List.countP_eq_zero] at hnone
      refine ⟨fun e he hend => ?_, fun _ _ _ => ⟨provider, rfl⟩, fun i hi => Or.inl ?_⟩
      · exact absurd hend (hnone _ (List.mem_map.mpr ⟨e, he, rfl⟩))
      · rw [hstate] at hi
        exact hi
  | spawn =>
      refine ⟨by simp, by simp, fun i hi => ?_⟩
      rcases List.mem_cons.mp hi with rfl | hi
      · exact Or.inr ⟨rfl, rfl⟩
      · exact Or.inl hi
  | enter hspawned => simp
  | send => simp
  | inTime timeout hsent => simp
  | late timeout hsent => simp [isRootEnd, flushOf]

theorem spawned_of_enter {x : ι × Thread} {s s' : ShutdownState ι} {es : List ShutdownEffect}
    (hexec : shutdownExec libs timeline x .enter s = some (s', es)) : x.1 ∈ s.spawned := by
  cases executed_of_exec libs timeline hexec with
  | enter hspawned => exact hspawned

/-- The caller closes the boot first. -/
theorem closeBoot_first {call : ShutdownCall} {k : ShutdownSection} {rest : List ShutdownSection}
    (htodo : k :: rest <:+ call.program .caller) (hk : ∀ owner now, k ≠ .closeBoot owner now) :
    ∀ owner now, .closeBoot owner now ∉ k :: rest := by
  intro owner now hmem
  have htail : k :: rest <:+ (call.program .caller).tail := by
    rcases List.suffix_cons_iff.mp htodo with hsame | htail
    · exact absurd (List.cons.inj hsame).1 (hk _ _)
    · exact htail
  have hclose := htail.subset hmem
  revert hclose
  cases call <;> simp [ShutdownCall.program, ShutdownCall.providers]

namespace Ordered

variable {c c' : ShutdownConfig ι}

theorem initial (s : ShutdownState ι) (hspawned : s.spawned = []) :
    Ordered calls ((shutdownMachine libs timeline calls).start s) where
  todo _ := List.suffix_rfl
  callers x hx := by cases hx
  spawned i hi := by
    rw [Machine.start, hspawned] at hi
    cases hi
  background i hne := absurd rfl hne
  waiting x hx := by cases hx
  flushes x hx := by cases hx
  emitted := List.Pairwise.nil

/-- Only the first section of a caller can still end a root span. -/
theorem passed_of_enter (ho : Ordered calls c) {x : ι × Thread} {k : ShutdownSection}
    {rest : List ShutdownSection} {s' : ShutdownState ι} {es : List ShutdownEffect}
    (htodo : c.todo x = k :: rest) (hidle : ∀ p ∈ c.pending, p.1 ≠ x)
    (hexec : shutdownExec libs timeline x k c.shared = some (s', es))
    (hk : ∀ owner now, k ≠ .closeBoot owner now) : Passed c x.1 := by
  obtain ⟨i, thread⟩ := x
  cases thread with
  | caller =>
      have hsuffix := ho.todo (i, .caller)
      rw [htodo] at hsuffix
      refine ⟨?_, ?_⟩
      · rw [htodo]
        exact closeBoot_first hsuffix hk
      · intro y hy hi
        by_contra hend
        rw [Bool.not_eq_false] at hend
        exact hidle y hy (Prod.ext hi (ho.callers y hy hend))
  | background =>
      by_cases henter : k = .enter
      · subst henter
        exact ho.spawned i (spawned_of_enter hexec)
      · refine ho.background i ?_
        rw [htodo]
        intro hsame
        cases hcall : calls i with
        | shutdown handles now =>
            rw [hcall] at hsame
            cases hsame
        | drop handles now inTime =>
            rw [hcall] at hsame
            exact henter (List.cons.inj hsame).1

theorem passed_step (ho : Ordered calls c) {i : ι} (hp : Passed c i)
    {choice : Choice (ι × Thread)}
    (hstep : (shutdownMachine libs timeline calls).step? c choice = some c') : Passed c' i := by
  cases choice with
  | emit n =>
      obtain ⟨x, e, -, rfl⟩ := Machine.step?_emit _ hstep
      exact ⟨hp.1, fun y hy => hp.2 y (List.mem_of_mem_eraseIdx hy)⟩
  | enter x =>
      obtain ⟨k, rest, s', es, htodo, -, hexec, rfl⟩ := Machine.step?_enter _ hstep
      have hsuffix := ho.todo x
      rw [htodo] at hsuffix
      refine ⟨?_, ?_⟩
      · intro owner now hmem
        by_cases hx : (i, Thread.caller) = x
        · subst hx
          refine hp.1 owner now ?_
          rw [htodo]
          refine List.mem_cons_of_mem _ ?_
          simpa using hmem
        · simp only [Function.update_of_ne hx] at hmem
          exact hp.1 owner now hmem
      · intro y hy hi
        rcases List.mem_append.mp hy with hy | hy
        · exact hp.2 y hy hi
        · obtain ⟨e, he, rfl⟩ := List.mem_map.mp hy
          by_contra hend
          rw [Bool.not_eq_false] at hend
          obtain ⟨owner, now, rfl⟩ := (shutdownExec_leaves hexec).1 e he hend
          have hcaller := closeBoot_mem_program.mp (hsuffix.subset List.mem_cons_self)
          obtain rfl : x = (i, .caller) := Prod.ext hi hcaller.1
          refine hp.1 owner now ?_
          rw [htodo]
          exact List.mem_cons_self

theorem step (ho : Ordered calls c) {choice : Choice (ι × Thread)}
    (hstep : (shutdownMachine libs timeline calls).step? c choice = some c') :
    Ordered calls c' := by
  have hkept : ∀ {i}, Passed c i → Passed c' i := fun hp => ho.passed_step hp hstep
  cases choice with
  | emit n =>
      obtain ⟨x, e, hget, rfl⟩ := Machine.step?_emit _ hstep
      have hmem : (x, e) ∈ c.pending := List.mem_of_getElem? hget
      have herase : ∀ {y}, y ∈ c.pending.eraseIdx n → y ∈ c.pending := List.mem_of_mem_eraseIdx
      refine ⟨ho.todo, fun y hy => ho.callers y (herase hy), fun i hi => hkept (ho.spawned i hi),
        fun i hi => hkept (ho.background i hi), fun y hy => ?_, ?_, ?_⟩
      · exact fun hflush => hkept (ho.waiting y (herase hy) hflush)
      · intro y hy hflush
        rw [emitted_append, emitted_emit] at hy
        rcases List.mem_append.mp hy with hy | hy
        · exact hkept (ho.flushes y hy hflush)
        · obtain rfl := List.mem_singleton.mp hy
          exact hkept (ho.waiting _ hmem hflush)
      · rw [emitted_append, emitted_emit, List.pairwise_append]
        refine ⟨ho.emitted, List.pairwise_singleton .., ?_⟩
        intro y hy z hz hflush hend hsame
        obtain rfl := List.mem_singleton.mp hz
        have hopen := (ho.flushes y hy hflush).2 _ hmem hsame.symm
        rw [hend] at hopen
        cases hopen
  | enter x =>
      obtain ⟨k, rest, s', es, htodo, hidle, hexec, rfl⟩ := Machine.step?_enter _ hstep
      obtain ⟨hends, hflushes, hspawned⟩ := shutdownExec_leaves hexec
      have hsuffix := ho.todo x
      rw [htodo] at hsuffix
      have hpassed := ho.passed_of_enter htodo hidle hexec
      refine ⟨?_, ?_, ?_, ?_, ?_, ?_, ?_⟩
      · intro y
        by_cases hy : y = x
        · subst hy
          simp only [Function.update_self]
          exact (List.suffix_cons k rest).trans hsuffix
        · simp only [Function.update_of_ne hy]
          exact ho.todo y
      · intro y hy hend
        rcases List.mem_append.mp hy with hy | hy
        · exact ho.callers y hy hend
        · obtain ⟨e, he, rfl⟩ := List.mem_map.mp hy
          obtain ⟨owner, now, rfl⟩ := hends e he hend
          exact (closeBoot_mem_program.mp (hsuffix.subset List.mem_cons_self)).1
      · intro i hi
        rcases hspawned i hi with hi | ⟨rfl, rfl⟩
        · exact hkept (ho.spawned i hi)
        · exact hkept (hpassed (by simp))
      · intro i hne
        by_cases hx : (i, Thread.background) = x
        · subst hx
          refine hkept (hpassed ?_)
          rintro owner now rfl
          cases (closeBoot_mem_program.mp (hsuffix.subset List.mem_cons_self)).1
        · simp only [Function.update_of_ne hx] at hne
          exact hkept (ho.background i hne)
      · intro y hy hflush
        rcases List.mem_append.mp hy with hy | hy
        · exact hkept (ho.waiting y hy hflush)
        · obtain ⟨e, he, rfl⟩ := List.mem_map.mp hy
          obtain ⟨p, rfl⟩ := hflushes e he hflush
          exact hkept (hpassed (by simp))
      · intro y hy hflush
        rw [emitted_append, emitted_enter, List.append_nil] at hy
        exact hkept (ho.flushes y hy hflush)
      · rw [emitted_append, emitted_enter, List.append_nil]
        exact ho.emitted

end Ordered

/-- A call that ends the boot's root span has ended it before it flushes anything, the tracer
provider the span goes through included. -/
theorem root_ends_first (r : (shutdownMachine libs timeline calls).Run { boot }) :
    (emitted r.final.trace).Pairwise fun x y =>
      (flushOf x).isSome = true → isRootEnd y = true → x.1.1 ≠ y.1.1 :=
  (Machine.run?_induction _ r.ran (Ordered.initial _ rfl) fun hstep ho => ho.step hstep).emitted

/-! ## A wait that ends in time -/

/-- The thread of every call whose message is there has done all it had to. -/
structure Reported (c : ShutdownConfig ι) : Prop where
  todo : ∀ i ∈ c.shared.sent, c.todo (i, .background) = []
  idle : ∀ i ∈ c.shared.sent, ∀ x ∈ c.pending, x.1 ≠ (i, .background)

/-- Only the message itself changes who has sent it, and it leaves nothing behind. -/
theorem sent_of_exec {x : ι × Thread} {k : ShutdownSection} {s s' : ShutdownState ι}
    {es : List ShutdownEffect} (hexec : shutdownExec libs timeline x k s = some (s', es)) :
    s'.sent = s.sent ∨ k = .send ∧ s'.sent = x.1 :: s.sent ∧ es = [] := by
  cases executed_of_exec libs timeline hexec with
  | closeBoot owner now => cases owner <;> exact Or.inl rfl
  | shutdownProvider provider =>
      rw [(shutdownProvider_spec libs provider s x).1]
      exact Or.inl rfl
  | send => exact Or.inr ⟨rfl, rfl, rfl⟩
  | _ => exact Or.inl rfl

theorem sent_of_return {x : ι × Thread} {timeout : Duration} {s s' : ShutdownState ι}
    {es : List ShutdownEffect}
    (hexec : shutdownExec libs timeline x (.recvTimeout timeout true) s = some (s', es)) :
    x.1 ∈ s.sent := by
  cases executed_of_exec libs timeline hexec with
  | inTime _ hsent => exact hsent

namespace Reported

variable {c c' : ShutdownConfig ι}

theorem initial (boot : Boot.State) :
    Reported ((shutdownMachine libs timeline calls).start { boot }) where
  todo i hi := by cases hi
  idle i hi := by cases hi

theorem step (hr : Reported c) (ho : Ordered calls c) {choice : Choice (ι × Thread)}
    (hstep : (shutdownMachine libs timeline calls).step? c choice = some c') : Reported c' := by
  cases choice with
  | emit n =>
      obtain ⟨x, e, -, rfl⟩ := Machine.step?_emit _ hstep
      exact ⟨hr.todo, fun i hi y hy => hr.idle i hi y (List.mem_of_mem_eraseIdx hy)⟩
  | enter x =>
      obtain ⟨k, rest, s', es, htodo, hidle, hexec, rfl⟩ := Machine.step?_enter _ hstep
      have hsuffix := ho.todo x
      rw [htodo] at hsuffix
      have hother : ∀ i ∈ c.shared.sent, x ≠ (i, .background) := by
        rintro i hi rfl
        cases (hr.todo i hi).symm.trans htodo
      have hkept : ∀ i ∈ c.shared.sent,
          Function.update c.todo x rest (i, .background) = [] ∧
            ∀ y ∈ c.pending ++ es.map (x, ·), y.1 ≠ (i, .background) := by
        intro i hi
        refine ⟨?_, List.forall_mem_append.mpr ⟨hr.idle i hi, ?_⟩⟩
        · rw [Function.update_of_ne (hother i hi).symm]
          exact hr.todo i hi
        · intro y hy
          obtain ⟨e, -, rfl⟩ := List.mem_map.mp hy
          exact hother i hi
      rcases sent_of_exec hexec with hsame | ⟨rfl, hsent, rfl⟩
      · refine ⟨fun i hi => ?_, fun i hi => ?_⟩
        · exact (hkept i (hsame ▸ hi)).1
        · exact (hkept i (hsame ▸ hi)).2
      · obtain ⟨i, thread⟩ := x
        obtain rfl : thread = .background := send_mem_program (hsuffix.subset List.mem_cons_self)
        obtain rfl : rest = [] := send_last hsuffix
        refine ⟨fun j hj => ?_, fun j hj => ?_⟩
        · rcases List.mem_cons.mp (hsent ▸ hj) with rfl | hj
          · exact Function.update_self ..
          · exact (hkept j hj).1
        · rcases List.mem_cons.mp (hsent ▸ hj) with rfl | hj
          · simpa using hidle
          · exact (hkept j hj).2

end Reported

/-- A drop that returned in time has had its thread ask every provider it holds, and nothing
that comes of it is still to come. -/
theorem worker_done (r : (shutdownMachine libs timeline calls).Run { boot })
    (before : List ((ι × Thread) × Event ShutdownSection ShutdownEffect)) (i : ι)
    (thread : Thread) (timeout : Duration)
    (after : List ((ι × Thread) × Event ShutdownSection ShutdownEffect))
    (htrace : r.final.trace =
      before ++ ((i, thread), .enter (.recvTimeout timeout true)) :: after) :
    (∀ p ∈ (calls i).handles.held, ((i, .background), .enter (.shutdownProvider p)) ∈ before) ∧
      ∀ e, ((i, .background), .emit e) ∉ after := by
  have hmem : ((i, thread), .recvTimeout timeout true) ∈ Sections.history r.final.trace := by
    rw [mem_history, htrace]
    simp
  have hworker := recvTimeout_mem_program (mem_program_of_mem r hmem)
  obtain ⟨ys, y, zs, a, b, hschedule, hran, ha, hstep, hb⟩ :=
    Machine.run?_split _ r.ran rfl htrace
  have hinvariant := Machine.run?_induction (motive := fun a => Ordered calls a ∧ Reported a) _
    hran ⟨Ordered.initial _ rfl, .initial boot⟩
    fun hstep h => ⟨h.1.step hstep, h.2.step h.1 hstep⟩
  have hsent : i ∈ a.shared.sent := by
    cases y with
    | emit n =>
        obtain ⟨x, e, -, rfl⟩ := Machine.step?_emit _ hstep
        simp [ha] at hb
    | enter x =>
        obtain ⟨k, rest, s', es, -, -, hexec, rfl⟩ := Machine.step?_enter _ hstep
        obtain ⟨rfl, rfl⟩ : x = (i, thread) ∧ k = .recvTimeout timeout true := by
          simpa [ha] using hb
        have hreturned : shutdownExec libs timeline (i, thread) (.recvTimeout timeout true)
            a.shared = some (s', es) := hexec
        exact sent_of_return hreturned
  have hdone := hinvariant.2.todo i hsent
  constructor
  · intro p hp
    have hprogram := Machine.run?_program _ hran (i, .background)
    rw [hdone, List.append_nil, ha] at hprogram
    have hk : ShutdownSection.shutdownProvider p ∈ (calls i).program .background :=
      shutdownProvider_mem_program.mpr ⟨hworker.symm, hp⟩
    have hasked : ShutdownSection.shutdownProvider p ∈ ((Sections.history before).filter
        (fun x => x.1 = (i, Thread.background))).map Prod.snd := hprogram ▸ hk
    obtain ⟨⟨x, k⟩, hx, rfl⟩ := List.mem_map.mp hasked
    obtain ⟨hx, hxi⟩ := List.mem_filter.mp hx
    obtain rfl : x = (i, .background) := of_decide_eq_true hxi
    exact mem_history.mp hx
  · intro e he
    have hrest : (shutdownMachine libs timeline calls).run? a (y :: zs) = some r.final := by
      have hwhole := r.ran
      rw [hschedule, Machine.run?_append, hran] at hwhole
      exact hwhole
    obtain ⟨t, hsplit, hsilent⟩ :=
      Machine.run?_silent _ hrest hdone (hinvariant.2.idle i hsent)
    rw [ha, htrace] at hsplit
    obtain rfl := List.append_cancel_left hsplit
    exact hsilent _ (List.mem_cons_of_mem _ he) rfl

/-! ## The law -/

/-- Shutting down is accounted for: a provider is flushed once however many calls hold it, and
only where a call's thread began; a drop that returned in time has had its thread ask every
provider it holds, and hears no more of it; a warning stands for each call of a provider's
`shutdown` but the one that succeeds; and the boot's root span ends at most once, when an owner
shuts down while it is open. -/
theorem shutdown_law (r : (shutdownMachine libs timeline calls).Run { boot })
    (hc : r.final.Complete) :
    (flushed (emitted r.final.trace)).Nodup ∧
      (∀ p, p ∈ flushed (emitted r.final.trace) ↔
        ∃ i, Began (Sections.history r.final.trace) i (calls i).worker ∧
          p ∈ (calls i).handles.held) ∧
      (∀ before i thread timeout after,
        r.final.trace = before ++ ((i, thread), .enter (.recvTimeout timeout true)) :: after →
        (∀ p ∈ (calls i).handles.held,
          ((i, .background), .enter (.shutdownProvider p)) ∈ before) ∧
        ∀ e, ((i, .background), .emit e) ∉ after) ∧
      (∀ p, (warned (emitted r.final.trace)).count p +
          (if p ∈ flushed (emitted r.final.trace) ∧ libs.flushes p = true then 1 else 0) =
        (asked (Sections.history r.final.trace)).count p) ∧
      (emitted r.final.trace).countP isRootEnd ≤ 1 ∧
      ((emitted r.final.trace).countP isRootEnd = 1 ↔ boot.takeRootToEnd.1.isSome = true ∧
        ∃ i, (calls i).handles.bootOwner = true ∧
          Began (Sections.history r.final.trace) i .caller) := by
  obtain ⟨es, ha, hperm⟩ := accounts_of_complete r hc
  have hdown : ∀ p, p ∈ flushed (emitted r.final.trace) ↔
      ∃ i, Began (Sections.history r.final.trace) i (calls i).worker ∧
        p ∈ (calls i).handles.held :=
    fun p => (mem_flushed r hc).trans (mem_asked_of_complete r hc)
  refine ⟨(flushed_perm r hc).symm.nodup ha.nodup, hdown, worker_done r, warned_count r hc, ?_, ?_⟩
  · rw [hperm.countP_eq, ha.roots]
    split <;> omega
  · rw [hperm.countP_eq, ha.roots, ← any_closesBoot_of_complete r hc]
    simp [and_comm]

/-- Handles that hold a tracer provider only, and own the boot. -/
def tracesOnly : TelemetryHandles where
  tracerProvider :=
    { id := 0, resource := [], sampler := .alwaysOn
      exporter := ⟨.traces, .grpc, "http://localhost:4317", none, none⟩
      maxExportBatchSize := none }
  meterProvider := none
  loggerProvider := none
  shutdownTimeout := defaultShutdownTimeout
  bootOwner := true
  profilingHandle := none

def flushingLibrary : ShutdownLibrary :=
  ⟨fun _ => .ok (), "Shutdown already invoked"⟩

def podTimeline : Boot.Timeline :=
  ⟨0, .processStart, 1000, "exe"⟩

def attachedBoot : Boot.State :=
  (podTimeline.attach {} ⟨0⟩ "svc" ⟨1, 2⟩).1

/-- The handles are shut down, and then dropped. -/
def shutdownThenDrop : Bool → ShutdownCall
  | false => .shutdown tracesOnly 10
  | true => .drop tracesOnly 20 true

def shutdownThenDropRun :
    (shutdownMachine flushingLibrary podTimeline shutdownThenDrop).Run { boot := attachedBoot } :=
  .of [.enter (false, .caller), .emit 0, .enter (false, .caller), .emit 0,
    .enter (true, .caller), .enter (true, .caller), .enter (true, .background),
    .enter (true, .background), .emit 0, .enter (true, .background), .enter (true, .caller)]
    (by decide)

theorem shutdownThenDrop_warned :
    shutdownThenDropRun.final.Complete ∧
      (warned (emitted shutdownThenDropRun.final.trace)).count ⟨.tracer, 0⟩ + 1 = 2 := by
  have hdone : shutdownThenDropRun.final.Complete :=
    ⟨by decide, fun i _ _ => match i with
      | (false, .caller) => by decide
      | (false, .background) => by decide
      | (true, .caller) => by decide
      | (true, .background) => by decide⟩
  exact ⟨hdone, (shutdown_law shutdownThenDropRun hdone).2.2.2.1 ⟨.tracer, 0⟩⟩

end Runs

end OtelBootstrap.Builder
