import OtelBootstrap.LogBridge.History

/-! # What a log record carries

The attributes of the event, then those of every span in scope, nearest span first. -/

namespace OtelBootstrap.LogBridge

open Upsert

variable (bridge : SpanAwareLogBridge)

/-! ## Runs -/

theorem run?_append (state : State) (h g : List Call) :
    run? bridge state (h ++ g) = (run? bridge state h).bind (run? bridge · g) := by
  induction h generalizing state with
  | nil => rfl
  | cons call h ih =>
      simp only [List.cons_append, run?]
      cases step? bridge state call with
      | none => rfl
      | some state' => exact ih state'

theorem run?_snoc {h : List Call} {call : Call} {state state' : State}
    (hrun : run? bridge state (h ++ [call]) = some state') :
    ∃ mid, run? bridge state h = some mid ∧ step? bridge mid call = some state' := by
  rw [run?_append] at hrun
  obtain ⟨mid, hmid, hstep⟩ := Option.bind_eq_some_iff.mp hrun
  obtain ⟨last, hlast, heq⟩ := Option.bind_eq_some_iff.mp hstep
  obtain rfl := Option.some.inj heq
  exact ⟨mid, hmid, hlast⟩

theorem step?_describes {h : List Call} {call : Call} {state state' : State}
    (hstep : step? bridge state call = some state') (hd : Describes bridge h state.registry) :
    Describes bridge (h ++ [call]) state'.registry := by
  cases call with
  | newSpan parent fields =>
      simp only [step?] at hstep
      split at hstep
      · rename_i hparent
        cases hstep
        exact hd.newSpan hparent
      · cases hstep
  | recordLogAttr span key value =>
      simp only [step?] at hstep
      split at hstep
      · rename_i hspan
        cases hstep
        exact hd.recordLogAttr hspan key value
      · cases hstep
  | event metadata span fields =>
      simp only [step?] at hstep
      split at hstep
      · cases hstep
        exact hd.event metadata span fields
      · cases hstep

/-- After every run the registry holds what the history says. -/
theorem run?_describes {h : List Call} {state : State} (hrun : run? bridge {} h = some state) :
    Describes bridge h state.registry := by
  induction h using List.reverseRecOn generalizing state with
  | nil =>
      obtain rfl := Option.some.inj hrun
      exact Describes.initial
  | append_singleton h call ih =>
      obtain ⟨mid, hmid, hstep⟩ := run?_snoc bridge hrun
      exact step?_describes bridge hstep (ih hmid)

/-- An event emits one record, made from the registry that the calls before it left. -/
theorem run?_event {h : List Call} {metadata : Metadata} {span : Option ℕ}
    {fields : List Field} {state : State}
    (hrun : run? bridge {} (h ++ [.event metadata span fields]) = some state) :
    Describes bridge h state.registry ∧ (∀ s ∈ span, s < state.registry.size) ∧
      state.emitted.getLast? =
        some (bridge.onEvent state.registry metadata span fields) := by
  obtain ⟨mid, hmid, hstep⟩ := run?_snoc bridge hrun
  have hd := run?_describes bridge hmid
  simp only [step?] at hstep
  split at hstep
  · rename_i hspan
    cases hstep
    exact ⟨hd, hspan, by simp⟩
  · cases hstep

/-! ## Attributes -/

/-- The attributes that the event's own fields add. -/
def eventAttributes (fields : List Field) : List (String × AnyValue) :=
  (LogRecordVisitor.record {} fields).attributes

/-- The attributes that a span adds. -/
def spanAttributes (ext : Extensions) : List (String × AnyValue) :=
  (bridge.platform.iter (ext.trackedSpanFields.getD [])).map (fun entry =>
    (entry.1, .string entry.2)) ++ ext.spanLogAttrs.getD []

theorem visit_attributes (record : LogRecord) (field : Field) :
    (LogRecordVisitor.visit record field).attributes =
      record.attributes ++ (LogRecordVisitor.visit {} field).attributes := by
  rcases field with ⟨name, value⟩
  by_cases hname : name = "message" <;>
    cases value <;>
      simp [LogRecordVisitor.visit, LogRecordVisitor.recordStr, LogRecordVisitor.recordDebug,
        hname, LogRecord.setBody, LogRecord.addAttribute]

/-- The event's attributes do not depend on what the record held before. -/
theorem record_attributes (record : LogRecord) (fields : List Field) :
    (LogRecordVisitor.record record fields).attributes =
      record.attributes ++ eventAttributes fields := by
  have hfold : ∀ (fields : List Field) (record : LogRecord),
      (fields.foldl LogRecordVisitor.visit record).attributes =
        record.attributes ++
          fields.flatMap fun field => (LogRecordVisitor.visit {} field).attributes := by
    intro fields
    induction fields with
    | nil => simp
    | cons field fields ih =>
        intro record
        rw [List.foldl_cons, ih, visit_attributes, List.flatMap_cons, List.append_assoc]
  have hempty := hfold fields ({} : LogRecord)
  rw [List.nil_append] at hempty
  rw [eventAttributes, LogRecordVisitor.record, LogRecordVisitor.record, hfold, hempty]

theorem foldl_addAttribute {α : Type*} (f : α → String × AnyValue) (entries : List α)
    (record : LogRecord) :
    (entries.foldl (fun record entry => record.addAttribute (f entry).1 (f entry).2)
      record).attributes = record.attributes ++ entries.map f := by
  induction entries generalizing record with
  | nil => simp
  | cons entry entries ih =>
      rw [List.foldl_cons, ih, List.map_cons, LogRecord.addAttribute, List.append_assoc]
      rfl

theorem injectExtensions_attributes (record : LogRecord) (ext : Extensions) :
    (bridge.injectExtensions record ext).attributes =
      record.attributes ++ spanAttributes bridge ext := by
  have hempty : bridge.platform.iter [] = [] := (bridge.platform.iter_perm []).eq_nil
  rcases ext with ⟨tracked, logAttrs⟩
  cases tracked with
  | none =>
      cases logAttrs with
      | none => simp [SpanAwareLogBridge.injectExtensions, spanAttributes, hempty]
      | some logAttrs =>
          rw [SpanAwareLogBridge.injectExtensions, spanAttributes]
          simpa [hempty] using foldl_addAttribute id logAttrs record
  | some tracked =>
      have htracked := foldl_addAttribute (fun entry : String × String =>
        (entry.1, AnyValue.string entry.2)) (bridge.platform.iter tracked) record
      cases logAttrs with
      | none => simpa [SpanAwareLogBridge.injectExtensions, spanAttributes] using htracked
      | some logAttrs =>
          have hlog := foldl_addAttribute id logAttrs ((bridge.platform.iter tracked).foldl
            (fun record entry => record.addAttribute entry.1 (.string entry.2)) record)
          rw [htracked] at hlog
          simpa [SpanAwareLogBridge.injectExtensions, spanAttributes] using hlog

/-- The attributes of the spans in scope, in the order of the walk. -/
def scopeAttributes (registry : Registry) (spans : List ℕ) : List (String × AnyValue) :=
  spans.flatMap fun s => ((registry.get? s).map (spanAttributes bridge)).getD []

theorem injectSpanContext_attributes (registry : Registry) (span : ℕ) (record : LogRecord) :
    (bridge.injectSpanContext registry span record).attributes =
      record.attributes ++ scopeAttributes bridge registry (registry.ancestors span) := by
  rw [SpanAwareLogBridge.injectSpanContext]
  generalize registry.ancestors span = spans
  induction spans generalizing record with
  | nil => simp [scopeAttributes]
  | cons s spans ih =>
      rw [List.foldl_cons, ih]
      cases hs : registry.get? s with
      | none => simp [scopeAttributes, hs]
      | some ext => simp [scopeAttributes, hs, injectExtensions_attributes, List.append_assoc]

/-- The attributes of the record that an event in a span emits. -/
theorem onEvent_attributes (registry : Registry) (metadata : Metadata) {span : Option ℕ}
    (fields : List Field) (hspan : ∀ s ∈ span, s < registry.size) :
    (bridge.onEvent registry metadata span fields).attributes =
      eventAttributes fields ++
        scopeAttributes bridge registry ((span.map registry.ancestors).getD []) := by
  have hfilter : span.filter (· < registry.size) = span := by
    cases span with
    | none => rfl
    | some s => simp [hspan s rfl]
  rw [SpanAwareLogBridge.onEvent]
  simp only [hfilter]
  cases span with
  | none => simp [record_attributes, scopeAttributes]
  | some s =>
      rw [Option.map_some, Option.getD_some, injectSpanContext_attributes, record_attributes]
      rfl

/-! ## Whole histories -/

section Described

variable {bridge} {h : List Call} {registry : Registry}

theorem Describes.get?_eq (hd : Describes bridge h registry) (t : ℕ) :
    registry.get? t = (creations h)[t]?.map fun c => extensions bridge h t c.2 := by
  rw [Forest.get?, hd.nodes, List.getElem?_mapIdx, Option.map_map]
  rfl

theorem Describes.parent_eq (hd : Describes bridge h registry) :
    registry.parent = parentOf h := by
  funext t
  rw [Forest.parent, hd.nodes, List.getElem?_mapIdx, parentOf]
  cases (creations h)[t]? <;> rfl

theorem Describes.mem_ancestors (hd : Describes bridge h registry) {s t : ℕ} :
    t ∈ registry.ancestors s ↔ InScope h s t := by
  rw [Forest.mem_ancestors, hd.parent_eq]
  rfl

end Described

/-- A name is captured when it is listed, with the text of its last field. -/
theorem mem_capturedFields {fields : List Field} {name text : String} :
    (name, text) ∈ capturedFields bridge fields ↔
      name ∈ bridge.spanFields ∧
        latest name (fields.map (FieldCollector.entryOf bridge.platform)) = some text := by
  have hfilter : (fields.filter fun field => bridge.spanFields.contains field.name).map
      (FieldCollector.entryOf bridge.platform) =
      (fields.map (FieldCollector.entryOf bridge.platform)).filter fun entry =>
        bridge.spanFields.contains entry.1 := by
    rw [List.filter_map]
    rfl
  rw [capturedFields_eq, mem_upserts, hfilter, latest_filter]
  by_cases hlisted : name ∈ bridge.spanFields <;> simp [hlisted]

theorem mem_spanAttributes {h : List Call} {t : ℕ} {created : List Field} {key : String}
    {value : AnyValue} :
    (key, value) ∈ spanAttributes bridge (extensions bridge h t created) ↔
      (∃ text, (key, text) ∈ capturedFields bridge created ∧ value = .string text) ∨
        latest key (logAttrCalls h t) = some value := by
  have htracked : (extensions bridge h t created).trackedSpanFields.getD [] =
      capturedFields bridge created := by
    rw [extensions]
    cases capturedFields bridge created <;> rfl
  have hlog : (extensions bridge h t created).spanLogAttrs.getD [] =
      upserts (logAttrCalls h t) := by
    rw [extensions]
    cases logAttrCalls h t <;> rfl
  rw [spanAttributes, htracked, hlog, List.mem_append, mem_upserts, List.mem_map]
  apply or_congr_left
  constructor
  · rintro ⟨⟨name, text⟩, hmem, heq⟩
    obtain ⟨rfl, rfl⟩ := Prod.mk.inj heq
    exact ⟨text, (bridge.platform.iter_perm _).mem_iff.mp hmem, rfl⟩
  · rintro ⟨text, hmem, rfl⟩
    exact ⟨(key, text), (bridge.platform.iter_perm _).mem_iff.mpr hmem, rfl⟩

theorem mem_scopeAttributes {h : List Call} {registry : Registry}
    (hd : Describes bridge h registry) {s : ℕ} {key : String} {value : AnyValue} :
    (key, value) ∈ scopeAttributes bridge registry (registry.ancestors s) ↔
      ∃ t, InScope h s t ∧
        ((∃ parent created text, (creations h)[t]? = some (parent, created) ∧
            (key, text) ∈ capturedFields bridge created ∧ value = .string text) ∨
          latest key (logAttrCalls h t) = some value) := by
  rw [scopeAttributes, List.mem_flatMap]
  apply exists_congr
  intro t
  rw [hd.mem_ancestors, hd.get?_eq]
  apply and_congr_right
  intro hscope
  cases hc : (creations h)[t]? with
  | none =>
      simp [hd.fresh_of_none hc, latest]
  | some c =>
      rcases c with ⟨parent, created⟩
      rw [Option.map_some, Option.map_some, Option.getD_some, mem_spanAttributes]
      simp

/-- The record of an event carries what the event's own fields add and, for its span and
every ancestor, the listed creation fields and the last value of every attribute recorded
on that span; and nothing else. A span holds every recorded key once. -/
theorem record_carries_scope {h : List Call} {metadata : Metadata} {span : Option ℕ}
    {fields : List Field} {state : State}
    (hrun : run? bridge {} (h ++ [.event metadata span fields]) = some state) :
    (∃ record, state.emitted.getLast? = some record ∧ ∀ key value,
      (key, value) ∈ record.attributes ↔
        (key, value) ∈ eventAttributes fields ∨
        ∃ s t, span = some s ∧ InScope h s t ∧
          ((∃ parent created text, (creations h)[t]? = some (parent, created) ∧
              key ∈ bridge.spanFields ∧
              latest key (created.map (FieldCollector.entryOf bridge.platform)) = some text ∧
              value = .string text) ∨
            latest key (logAttrCalls h t) = some value)) ∧
    ∀ t ext, state.registry.get? t = some ext →
      ((ext.spanLogAttrs.getD []).map Prod.fst).Nodup ∧
        ∀ key value, (key, value) ∈ ext.spanLogAttrs.getD [] ↔
          latest key (logAttrCalls h t) = some value := by
  obtain ⟨hd, hspan, hlast⟩ := run?_event bridge hrun
  refine ⟨⟨_, hlast, ?_⟩, ?_⟩
  · intro key value
    rw [onEvent_attributes bridge state.registry metadata fields hspan, List.mem_append]
    apply or_congr_right
    cases span with
    | none => simp [scopeAttributes]
    | some s =>
        rw [Option.map_some, Option.getD_some, mem_scopeAttributes bridge hd]
        simp [mem_capturedFields, and_assoc]
  · intro t ext hget
    rw [hd.get?_eq] at hget
    obtain ⟨c, hc, rfl⟩ := Option.map_eq_some_iff.mp hget
    have hlog : (extensions bridge h t c.2).spanLogAttrs.getD [] =
        upserts (logAttrCalls h t) := by
      rw [extensions]
      cases logAttrCalls h t <;> rfl
    rw [hlog]
    exact ⟨nodup_upserts _, fun key value => mem_upserts⟩

/-- A request identifier on an outer span, written to once more, and an event in a child. -/
def requestBridge : SpanAwareLogBridge where
  platform := ⟨fun _ => "0.5", id, fun _ => .refl _⟩
  spanFields := ["request.id"]

def requestHistory : List Call :=
  [.newSpan none [⟨"request.id", .str "r-1"⟩, ⟨"peer", .str "p"⟩], .newSpan (some 0) [],
    .recordLogAttr 0 "enduser.id" (.string "u-1")]

theorem requestHistory_record :
    ∃ state, run? requestBridge {} (requestHistory ++
        [.event ⟨.info, "app", "event"⟩ (some 1) [⟨"message", .str "hello"⟩]]) = some state ∧
      ∃ record, state.emitted.getLast? = some record ∧
        ("enduser.id", .string "u-1") ∈ record.attributes := by
  refine ⟨_, rfl, ?_⟩
  have hrun : run? requestBridge {} (requestHistory ++
      [.event ⟨.info, "app", "event"⟩ (some 1) [⟨"message", .str "hello"⟩]]) = some _ := rfl
  obtain ⟨⟨record, hlast, hmem⟩, -⟩ := record_carries_scope requestBridge hrun
  refine ⟨record, hlast, (hmem _ _).mpr (Or.inr ⟨1, 0, rfl, ?_, Or.inr rfl⟩)⟩
  exact .single rfl

end OtelBootstrap.LogBridge
