import OtelBootstrap.Boot.Line
import OtelBootstrap.LogBridge.Bridge

/-! # How a failed export is recognised -/

namespace OtelBootstrap.Export

open LogBridge (Field Level Metadata Platform trimMatches)

/-- `str::contains`. -/
def contains (s pattern : String) : Bool :=
  s.toList.tails.any pattern.toList.isPrefixOf

/-! ## Results -/

/-- `OTelSdkResult`, over the errors of the SDK. -/
abbrev OTelSdkResult (ε : Type) := Except ε Unit

/-- `toStr` is the error's `to_string`. -/
def isUnavailable {ε : Type} (toStr : ε → String) (result : OTelSdkResult ε) : Bool :=
  match result with
  | .ok _ => false
  | .error error => contains (toStr error) "Unavailable"

/-! ## Events -/

structure Event where
  metadata : Metadata
  fields : List Field

/-- `Level`'s order, in which the most verbose level is the greatest. -/
def verbosity : Level → ℕ
  | .error => 0
  | .warn => 1
  | .info => 2
  | .debug => 3
  | .trace => 4

/-- The `name` field of an event, once one has been visited. -/
abbrev EventName := Option String

namespace EventName

def recordStr (visitor : EventName) (name value : String) : EventName :=
  if name = "name" then some value else visitor

def recordDebug (visitor : EventName) (name text : String) : EventName :=
  if name = "name" ∧ visitor.isNone then some (trimMatches '\"' text) else visitor

/-- Every method that the visitor does not define falls back to `record_debug`. -/
def visit (platform : Platform) (visitor : EventName) (field : Field) : EventName :=
  match field.value with
  | .str s => recordStr visitor field.name s
  | .bool b => recordDebug visitor field.name (toString b)
  | .i64 n => recordDebug visitor field.name (toString n.toInt)
  | .u64 n => recordDebug visitor field.name (toString n.toNat)
  | .i128 n => recordDebug visitor field.name (toString n.toInt)
  | .u128 n => recordDebug visitor field.name (toString n.toNat)
  | .f64 bits => recordDebug visitor field.name (platform.formatF64 bits)
  | .debug text => recordDebug visitor field.name text

def record (platform : Platform) (visitor : EventName) (fields : List Field) : EventName :=
  fields.foldl (visit platform) visitor

end EventName

/-- The failure kind of an SDK export-failure event, or `none` for any other event. -/
def exportFailureKind (platform : Platform) (event : Event) : Option String :=
  if !"opentelemetry".toList.isPrefixOf event.metadata.target.toList ||
      verbosity event.metadata.level > verbosity .warn then none
  else
    let name := EventName.record platform none event.fields
    let kind := name.getD event.metadata.name
    if contains kind "Export" then some kind else none

end OtelBootstrap.Export
