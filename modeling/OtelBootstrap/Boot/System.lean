import Mathlib.Data.List.Basic
import OtelBootstrap.Boot.Timeline
import OtelBootstrap.Library.Sections

/-! # Boot operations of concurrent threads -/

namespace OtelBootstrap.Boot

open Sections

/-! ## Phase guards -/

structure PhaseGuard where
  name : Option String
  start : Instant
  deriving DecidableEq, Repr

/-- The arguments of one call of `record`. -/
structure RecordCall where
  name : String
  start : Instant
  end_ : Instant
  outcome : Outcome
  deriving DecidableEq, Repr

def Timeline.phase (name : String) (start : Instant) : PhaseGuard :=
  ⟨some name, start⟩

namespace PhaseGuard

def endWith (guard : PhaseGuard) (outcome : Outcome) (now : Instant) :
    List RecordCall × PhaseGuard :=
  match guard.name with
  | none => ([], guard)
  | some name => ([⟨name, guard.start, now, outcome⟩], { guard with name := none })

def drop (guard : PhaseGuard) (now : Instant) : List RecordCall :=
  (guard.endWith .failed now).1

/-- `finish` takes the guard by value, so it is dropped on return. -/
def finish (guard : PhaseGuard) (now : Instant) : List RecordCall :=
  let (calls, guard) := guard.endWith .ok now
  calls ++ guard.drop now

def fail (guard : PhaseGuard) (now : Instant) : List RecordCall :=
  let (calls, guard) := guard.endWith .failed now
  calls ++ guard.drop now

end PhaseGuard

/-- The ways in which a guard's life ends. -/
inductive Ending where
  | finish
  | fail
  | drop
  deriving DecidableEq, Repr

def Ending.calls : Ending → PhaseGuard → Instant → List RecordCall
  | .finish => PhaseGuard.finish
  | .fail => PhaseGuard.fail
  | .drop => PhaseGuard.drop

def Ending.outcome : Ending → Outcome
  | .finish => .ok
  | .fail => .failed
  | .drop => .failed

/-- However a guard ends, it makes one call of `record`. -/
theorem Ending.calls_phase (ending : Ending) (name : String) (start now : Instant) :
    ending.calls (Timeline.phase name start) now = [⟨name, start, now, ending.outcome⟩] := by
  cases ending <;> rfl

/-! ## Operations and their sections -/

/-- The part of the handles that concerns the boot timeline. -/
structure BootHandles where
  tracerProvider : SdkTracerProvider
  bootOwner : Bool
  deriving DecidableEq, Repr

/-- Operations are named by `ι`; a pair of handles is named by the `init` that made it. -/
inductive Section (ι : Type*) where
  | record (call : RecordCall)
  | setServiceName (name : String)
  | ready (end_ : Instant)
  | attach (provider : SdkTracerProvider) (serviceName : String) (spanContext : SpanContext)
  | close (now : Instant)
  | handles (provider : SdkTracerProvider)
  | closeBoot (handles : ι) (now : Instant)
  | shutdownProvider (handles : ι)
  deriving DecidableEq, Repr

/-- One call into the crate, with the clock readings and identifiers it was given. -/
inductive Op (ι : Type*) where
  | endGuard (name : String) (start : Instant) (ending : Ending) (now : Instant)
  | setServiceName (name : String)
  | ready (end_ : Instant)
  | flush (provider : SdkTracerProvider) (serviceName : String) (spanContext : SpanContext)
  | init (provider : SdkTracerProvider) (serviceName : String) (spanContext : SpanContext)
  | close (now : Instant)
  | shutdown (handles : ι) (now : Instant)
  | dropHandles (handles : ι) (now : Instant)
  deriving DecidableEq, Repr

variable {ι : Type*}

/-- `init` returns its handles once `attach` has returned, and both `shutdown` and `drop`
close the boot before they shut the tracer provider down. -/
def Op.program : Op ι → List (Section ι)
  | .endGuard name start ending now =>
      (ending.calls (Timeline.phase name start) now).map .record
  | .setServiceName name => [.setServiceName name]
  | .ready end_ => [.ready end_]
  | .flush provider serviceName spanContext => [.attach provider serviceName spanContext]
  | .init provider serviceName spanContext =>
      [.attach provider serviceName spanContext, .handles provider]
  | .close now => [.close now]
  | .shutdown handles now => [.closeBoot handles now, .shutdownProvider handles]
  | .dropHandles handles now => [.closeBoot handles now, .shutdownProvider handles]

/-- `attached i` is what the `attach` of operation `i` returns. -/
structure Shared (ι : Type*) where
  state : State := {}
  attached : ι → Option (Option ℕ) := fun _ => none
  handles : ι → Option BootHandles := fun _ => none

/-- A section that leaves everything but the timeline alone. -/
def Shared.onTimeline (s : Shared ι) (r : State × List Effect) :
    Option (Shared ι × List Effect) :=
  some ({ s with state := r.1 }, r.2)

variable [DecidableEq ι]

def exec (timeline : Timeline) (i : ι) (k : Section ι) (s : Shared ι) :
    Option (Shared ι × List Effect) :=
  match k with
  | .record call =>
      s.onTimeline (timeline.record s.state call.name call.start call.end_ call.outcome)
  | .setServiceName name => s.onTimeline (Timeline.setServiceName s.state name, [])
  | .ready end_ => s.onTimeline (timeline.ready s.state end_)
  | .attach provider serviceName spanContext =>
      let r := timeline.attach s.state provider serviceName spanContext
      some ({ s with
        state := r.1
        attached := Function.update s.attached i (some r.2.1) }, r.2.2)
  | .close now => s.onTimeline (timeline.close s.state now)
  | .handles provider =>
      match s.attached i with
      | none => none
      | some result =>
          let made := ⟨provider, result.isSome⟩
          some ({ s with handles := Function.update s.handles i (some made) }, [])
  | .closeBoot handles now =>
      match s.handles handles with
      | none => none
      | some made =>
          if made.bootOwner then s.onTimeline (timeline.close s.state now) else some (s, [])
  | .shutdownProvider handles =>
      match s.handles handles with
      | none => none
      | some _ => some (s, [])

/-- Any number of operations on one timeline. -/
def machine (timeline : Timeline) (ops : ι → Op ι) :
    Machine ι (Section ι) Effect (Shared ι) where
  program i := (ops i).program
  exec := exec timeline

/-- The callers of a sample run. -/
inductive Party where
  | first
  | second
  | third
  deriving DecidableEq, Repr

end OtelBootstrap.Boot
