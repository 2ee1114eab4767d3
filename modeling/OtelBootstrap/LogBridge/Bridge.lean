import OtelBootstrap.Library.Forest
import OtelBootstrap.LogBridge.Record

/-! # The span-aware log bridge

Spans are numbered in the order in which they are created. -/

namespace OtelBootstrap.LogBridge

open Upsert

/-- What a span carries in its extensions. -/
structure Extensions where
  trackedSpanFields : Option (List (String × String)) := none
  spanLogAttrs : Option (List (String × AnyValue)) := none

abbrev Registry := Forest Extensions

structure SpanAwareLogBridge where
  platform : Platform
  spanFields : List String

/-- The static part of an event. -/
structure Metadata where
  level : Level
  target : String
  name : String

def recordSpanLogAttrOn (registry : Registry) (span : ℕ) (key : String) (value : AnyValue) :
    Registry :=
  registry.modify span fun ext =>
    { ext with spanLogAttrs := some (upsert key value (ext.spanLogAttrs.getD [])) }

namespace SpanAwareLogBridge

variable (bridge : SpanAwareLogBridge)

/-- The extensions of a span once `on_new_span` has seen it. -/
def onNewSpan (fields : List Field) : Extensions :=
  let tracked := (FieldCollector.record bridge.platform ⟨[], bridge.spanFields⟩ fields).fields
  if tracked.isEmpty then {} else { trackedSpanFields := some tracked }

def injectExtensions (record : LogRecord) (ext : Extensions) : LogRecord :=
  let record :=
    match ext.trackedSpanFields with
    | none => record
    | some tracked =>
        (bridge.platform.iter tracked).foldl
          (fun record entry => record.addAttribute entry.1 (.string entry.2)) record
  match ext.spanLogAttrs with
  | none => record
  | some logAttrs =>
      logAttrs.foldl (fun record entry => record.addAttribute entry.1 entry.2) record

def injectSpanContext (registry : Registry) (span : ℕ) (record : LogRecord) : LogRecord :=
  (registry.ancestors span).foldl
    (fun record ancestor =>
      match registry.get? ancestor with
      | none => record
      | some ext => bridge.injectExtensions record ext)
    record

/-- The record that an event emits. -/
def onEvent (registry : Registry) (metadata : Metadata) (span : Option ℕ) (fields : List Field) :
    LogRecord :=
  let record : LogRecord :=
    { severityNumber := some (severityOfLevel metadata.level)
      severityText := some metadata.level.asStr
      target := some metadata.target
      eventName := some metadata.name }
  let record := LogRecordVisitor.record record fields
  match span.filter (· < registry.size) with
  | none => record
  | some span => bridge.injectSpanContext registry span record

end SpanAwareLogBridge

/-! ## Runs -/

/-- What a program does under the bridge. -/
inductive Call where
  | newSpan (parent : Option ℕ) (fields : List Field)
  | recordLogAttr (span : ℕ) (key : String) (value : AnyValue)
  | event (metadata : Metadata) (span : Option ℕ) (fields : List Field)

structure State where
  registry : Registry := .empty
  emitted : List LogRecord := []

variable (bridge : SpanAwareLogBridge)

/-- A call that names a span needs one that was created. -/
def step? (state : State) : Call → Option State
  | .newSpan parent fields =>
      if h : ∀ p ∈ parent, p < state.registry.size then
        some { state with registry := state.registry.add parent (bridge.onNewSpan fields) h }
      else none
  | .recordLogAttr span key value =>
      if span < state.registry.size then
        some { state with registry := recordSpanLogAttrOn state.registry span key value }
      else none
  | .event metadata span fields =>
      if ∀ s ∈ span, s < state.registry.size then
        some { state with
          emitted := state.emitted ++ [bridge.onEvent state.registry metadata span fields] }
      else none

def run? (state : State) : List Call → Option State
  | [] => some state
  | call :: calls => (step? bridge state call).bind (run? · calls)

end OtelBootstrap.LogBridge
