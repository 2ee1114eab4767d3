import Mathlib.Logic.Function.Basic
import OtelBootstrap.Export.Failure

/-! # The backoff of export failures -/

namespace OtelBootstrap.Export

open Boot (Duration Instant)
open LogBridge (Platform)

def firstBackoff : Duration := 60000000000

def maxBackoff : Duration := 3600000000000

structure Window where
  nextAllowed : Instant
  backoff : Duration
  deriving DecidableEq, Repr

abbrev Windows := String → Option Window

/-- `Duration::MAX`. -/
def durationMax : Duration := 18446744073709551615999999999

/-- `Duration * u32`, which panics where it overflows. -/
def Window.doubled (window : Window) : Option Duration :=
  if window.backoff * 2 ≤ durationMax then some (window.backoff * 2) else none

/-- `ExportFailureBackoff::admit`: whether an event of `kind` at `now` is let through. `none` is a
panic. -/
def admitFailure (windows : Windows) (kind : String) (now : Instant) : Option (Bool × Windows) :=
  match windows kind with
  | none =>
      let window : Window := { nextAllowed := now + firstBackoff, backoff := firstBackoff }
      some (true, Function.update windows kind (some window))
  | some window =>
      if now ≥ window.nextAllowed then
        window.doubled.map fun doubled =>
          let backoff := min doubled maxBackoff
          let window : Window := { nextAllowed := now + backoff, backoff }
          (true, Function.update windows kind (some window))
      else some (false, windows)

/-- An event, and the instant that was read for it before the lock was taken. -/
structure Call where
  event : Event
  now : Instant

variable (platform : Platform)

def Call.kind (call : Call) : Option String :=
  exportFailureKind platform call.event

def eventEnabled (windows : Windows) (call : Call) : Option (Bool × Windows) :=
  match call.kind platform with
  | some kind => admitFailure windows kind call.now
  | none => some (true, windows)

/-- What the calls were answered, in the order in which they took the lock. -/
structure Log where
  windows : Windows := fun _ => none
  answers : List (Call × Bool) := []

def Log.call? (log : Log) (call : Call) : Option Log :=
  (eventEnabled platform log.windows call).map fun (ok, windows) =>
    { windows, answers := log.answers ++ [(call, ok)] }

def Log.run? (log : Log) : List Call → Option Log
  | [] => some log
  | call :: calls => (log.call? platform call).bind (run? · calls)

end OtelBootstrap.Export
