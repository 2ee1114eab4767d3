import OtelBootstrap.LogBridge.Scope
import OtelBootstrap.Library.LastWrite

/-! # The types of event fields

`LogRecordVisitor` has a method for `i64` only, so every other integer falls back to
`record_debug`. -/

namespace OtelBootstrap.LogBridge

/-! ## What a field should become -/

def FitsI64 (z : ℤ) : Prop :=
  -9223372036854775808 ≤ z ∧ z < 9223372036854775808

instance (z : ℤ) : Decidable (FitsI64 z) :=
  inferInstanceAs (Decidable (_ ∧ _))

namespace FieldValue

/-- The integers that are not recorded as `i64`. -/
def wide : FieldValue → Option ℤ
  | .u64 n => some n.toNat
  | .i128 n => some n.toInt
  | .u128 n => some n.toNat
  | _ => none

def ofInteger (z : ℤ) (text : String) : AnyValue :=
  if FitsI64 z then .int (Int64.ofInt z) else .string text

/-- The value of an attribute that keeps the field's type, as far as OTLP has it. -/
def anyValue : FieldValue → AnyValue
  | .str s => .string s
  | .bool b => .boolean b
  | .i64 n => .int n
  | .u64 n => ofInteger n.toNat (toString n.toNat)
  | .i128 n => ofInteger n.toInt (toString n.toInt)
  | .u128 n => ofInteger n.toNat (toString n.toNat)
  | .f64 bits => .double bits
  | .debug text => .string text

/-- The text of a str or Debug value. -/
def text? : FieldValue → Option String
  | .str s => some s
  | .debug text => some text
  | _ => none

end FieldValue

/-- The body that a field gives: its text, if it is named `message`. -/
def Field.messageText (field : Field) : Option String :=
  if field.name = "message" then field.value.text? else none

/-- The attribute of a field that is not the message. -/
def Field.attribute? (field : Field) : Option (String × AnyValue) :=
  if field.messageText.isSome then none else some (field.name, field.value.anyValue)

/-- The attributes that keep every field's type. -/
def typedAttributes (fields : List Field) : List (String × AnyValue) :=
  fields.filterMap Field.attribute?

/-- The body is the message. -/
def messageBody (fields : List Field) : Option AnyValue :=
  (lastWrite Field.messageText fields).map .string

/-- An integer that is not an `i64` is not the message and does not fit. -/
def Field.Typed (field : Field) : Prop :=
  ∀ z, field.value.wide = some z → field.name ≠ "message" ∧ ¬FitsI64 z

/-! ## One field -/

/-- The attribute that the visitor adds for a field. -/
def Field.recorded (field : Field) : Option (String × AnyValue) :=
  (LogRecordVisitor.visit {} field).attributes.head?

theorem visit_eq (field : Field) :
    (LogRecordVisitor.visit {} field).attributes = field.recorded.toList := by
  rcases field with ⟨name, value⟩
  by_cases hname : name = "message" <;>
    cases value <;>
      simp [Field.recorded, LogRecordVisitor.visit, LogRecordVisitor.recordStr,
        LogRecordVisitor.recordDebug, hname, LogRecord.setBody, LogRecord.addAttribute]

theorem ofInteger_ne_string {z : ℤ} {text text' : String} (h : FitsI64 z) :
    FieldValue.ofInteger z text ≠ .string text' := by
  rw [FieldValue.ofInteger, if_pos h]
  nofun

theorem ofInteger_eq_text {z : ℤ} {text : String} :
    FieldValue.ofInteger z text = .string text ↔ ¬FitsI64 z := by
  constructor
  · intro heq hfits
    exact ofInteger_ne_string hfits heq
  · intro hnot
    rw [FieldValue.ofInteger, if_neg hnot]

/-- What a field that has no method of its own becomes. -/
theorem recorded_wide {field : Field} {z : ℤ} {text : String}
    (hvisit : LogRecordVisitor.visit {} field = LogRecordVisitor.recordDebug {} field.name text)
    (hvalue : field.value.anyValue = FieldValue.ofInteger z text)
    (hmessage : field.messageText = none) :
    field.recorded = field.attribute? ↔ field.name ≠ "message" ∧ ¬FitsI64 z := by
  rw [Field.recorded, hvisit, Field.attribute?, hmessage, hvalue]
  by_cases hname : field.name = "message"
  · simp [LogRecordVisitor.recordDebug, hname, LogRecord.setBody]
  · have hiff := @ofInteger_eq_text z text
    simpa [LogRecordVisitor.recordDebug, hname, LogRecord.addAttribute, eq_comm] using hiff

/-- A field is recorded with its type exactly when it is an `i64` or no integer that OTLP could
hold. -/
theorem recorded_eq_iff (field : Field) : field.recorded = field.attribute? ↔ field.Typed := by
  rcases field with ⟨name, value⟩
  cases value with
  | u64 n =>
      rw [recorded_wide rfl rfl (by simp [Field.messageText, FieldValue.text?])]
      simp [Field.Typed, FieldValue.wide]
  | i128 n =>
      rw [recorded_wide rfl rfl (by simp [Field.messageText, FieldValue.text?])]
      simp [Field.Typed, FieldValue.wide]
  | u128 n =>
      rw [recorded_wide rfl rfl (by simp [Field.messageText, FieldValue.text?])]
      simp [Field.Typed, FieldValue.wide]
  | _ =>
      refine iff_of_true ?_ (by simp [Field.Typed, FieldValue.wide])
      by_cases hname : name = "message" <;>
        simp [Field.recorded, Field.attribute?, Field.messageText, FieldValue.text?,
          FieldValue.anyValue, LogRecordVisitor.visit, LogRecordVisitor.recordStr,
          LogRecordVisitor.recordDebug, hname, LogRecord.setBody, LogRecord.addAttribute]

/-- The visitor never adds an attribute for a message. -/
theorem recorded_isSome_le (field : Field) :
    field.recorded.isSome = true → field.attribute?.isSome = true := by
  rcases field with ⟨name, value⟩
  by_cases hname : name = "message" <;>
    cases value <;>
      simp [Field.recorded, Field.attribute?, Field.messageText, FieldValue.text?,
        LogRecordVisitor.visit, LogRecordVisitor.recordStr, LogRecordVisitor.recordDebug, hname,
        LogRecord.setBody, LogRecord.addAttribute]

theorem visit_body (record : LogRecord) (field : Field) :
    (LogRecordVisitor.visit record field).body =
      (LogRecordVisitor.visit {} field).body.or record.body := by
  rcases field with ⟨name, value⟩
  by_cases hname : name = "message" <;>
    cases value <;>
      simp [LogRecordVisitor.visit, LogRecordVisitor.recordStr, LogRecordVisitor.recordDebug,
        hname, LogRecord.setBody, LogRecord.addAttribute]

theorem visit_body_of_typed {field : Field} (h : field.Typed) :
    (LogRecordVisitor.visit {} field).body = field.messageText.map .string := by
  rcases field with ⟨name, value⟩
  by_cases hname : name = "message"
  · -- a message that has no text is an integer of another type
    cases value with
    | u64 n => exact absurd hname (h _ rfl).1
    | i128 n => exact absurd hname (h _ rfl).1
    | u128 n => exact absurd hname (h _ rfl).1
    | _ =>
        simp [Field.messageText, FieldValue.text?, LogRecordVisitor.visit,
          LogRecordVisitor.recordStr, LogRecordVisitor.recordDebug, hname, LogRecord.setBody,
          LogRecord.addAttribute]
  · cases value <;>
      simp [Field.messageText, LogRecordVisitor.visit, LogRecordVisitor.recordStr,
        LogRecordVisitor.recordDebug, hname, LogRecord.addAttribute]

/-! ## All fields -/

section

variable {α β : Type*} {f g : α → Option β}

theorem length_filterMap_le (h : ∀ x, (f x).isSome = true → (g x).isSome = true) (l : List α) :
    (l.filterMap f).length ≤ (l.filterMap g).length := by
  induction l with
  | nil => exact Nat.le_refl 0
  | cons x l ih =>
      have hx := h x
      cases hf : f x with
      | none =>
          rw [List.filterMap_cons_none hf]
          exact Nat.le_trans ih (((List.sublist_cons_self x l).filterMap g).length_le)
      | some b =>
          obtain ⟨b', hg⟩ := Option.isSome_iff_exists.mp (hx (by rw [hf]; rfl))
          rw [List.filterMap_cons_some hf, List.filterMap_cons_some hg]
          exact Nat.succ_le_succ ih

/-- Where nothing is added that should not be, equal lists agree everywhere. -/
theorem filterMap_eq_iff (h : ∀ x, (f x).isSome = true → (g x).isSome = true) (l : List α) :
    l.filterMap f = l.filterMap g ↔ ∀ x ∈ l, f x = g x := by
  refine ⟨?_, List.filterMap_congr⟩
  induction l with
  | nil => exact fun _ => nofun
  | cons x l ih =>
      intro heq
      have hx := h x
      have hle := length_filterMap_le h l
      rw [List.forall_mem_cons]
      cases hf : f x with
      | none =>
          cases hg : g x with
          | none =>
              rw [List.filterMap_cons_none hf, List.filterMap_cons_none hg] at heq
              exact ⟨rfl, ih heq⟩
          | some b =>
              -- a missing entry makes the list too short
              rw [List.filterMap_cons_none hf, List.filterMap_cons_some hg] at heq
              have hlength := congrArg List.length heq
              rw [List.length_cons] at hlength
              omega
      | some b =>
          obtain ⟨b', hg⟩ := Option.isSome_iff_exists.mp (hx (by rw [hf]; rfl))
          rw [List.filterMap_cons_some hf, List.filterMap_cons_some hg] at heq
          obtain ⟨rfl, htail⟩ := List.cons.inj heq
          exact ⟨hg.symm, ih htail⟩

end

theorem eventAttributes_eq (fields : List Field) :
    eventAttributes fields = fields.filterMap Field.recorded := by
  induction fields using List.reverseRecOn with
  | nil => rfl
  | append_singleton fields field ih =>
      have hfold : (LogRecordVisitor.record {} (fields ++ [field])).attributes =
          (LogRecordVisitor.visit (LogRecordVisitor.record {} fields) field).attributes := by
        rw [LogRecordVisitor.record, List.foldl_append]
        rfl
      have hlast : [field].filterMap Field.recorded = field.recorded.toList := by
        cases h : field.recorded <;> simp [h]
      rw [eventAttributes, hfold, visit_attributes, visit_eq, List.filterMap_append, ← ih, hlast]
      rfl

theorem eventAttributes_eq_iff (fields : List Field) :
    eventAttributes fields = typedAttributes fields ↔ ∀ field ∈ fields, field.Typed := by
  rw [eventAttributes_eq, typedAttributes, filterMap_eq_iff recorded_isSome_le]
  exact forall₂_congr fun field _ => recorded_eq_iff field

theorem record_body (record : LogRecord) (fields : List Field) :
    (LogRecordVisitor.record record fields).body =
      (lastWrite (fun field => (LogRecordVisitor.visit {} field).body) fields).or record.body :=
  foldl_lastWrite_or LogRecordVisitor.visit (·.body) _ visit_body record fields

theorem record_body_of_typed {record : LogRecord} (hbody : record.body = none)
    {fields : List Field} (h : ∀ field ∈ fields, field.Typed) :
    (LogRecordVisitor.record record fields).body = messageBody fields := by
  have hwrite : fields.filterMap (fun field => (LogRecordVisitor.visit {} field).body) =
      fields.filterMap fun field => field.messageText.map .string :=
    List.filterMap_congr fun field hmem => visit_body_of_typed (h field hmem)
  rw [record_body, hbody, Option.or_none, messageBody, ← lastWrite_map, lastWrite, hwrite]
  rfl

/-! ## The whole record -/

variable (bridge : SpanAwareLogBridge)

theorem injectSpanContext_body (registry : Registry) (span : ℕ) (record : LogRecord) :
    (bridge.injectSpanContext registry span record).body = record.body := by
  have hadd : ∀ {α : Type} (entries : List α) (f : α → String × AnyValue) (record : LogRecord),
      (entries.foldl (fun record entry => record.addAttribute (f entry).1 (f entry).2)
        record).body = record.body := by
    intro α entries f
    induction entries with
    | nil => exact fun _ => rfl
    | cons entry entries ih => exact fun record => ih _
  have hinject : ∀ (record : LogRecord) (ext : Extensions),
      (bridge.injectExtensions record ext).body = record.body := by
    intro record ext
    rcases ext with ⟨tracked, logAttrs⟩
    cases tracked with
    | none =>
        cases logAttrs with
        | none => rfl
        | some logAttrs => exact hadd logAttrs id record
    | some tracked =>
        have htracked := hadd (bridge.platform.iter tracked)
          (fun entry => (entry.1, AnyValue.string entry.2)) record
        cases logAttrs with
        | none => exact htracked
        | some logAttrs => exact (hadd logAttrs id _).trans htracked
  rw [SpanAwareLogBridge.injectSpanContext]
  induction registry.ancestors span generalizing record with
  | nil => rfl
  | cons s spans ih =>
      rw [List.foldl_cons, ih]
      cases registry.get? s with
      | none => rfl
      | some ext => exact hinject record ext

/-- The record of an event, after the attributes of its own fields, is that of the same event
without fields. -/
theorem onEvent_own (registry : Registry) (metadata : Metadata) (span : Option ℕ)
    (fields : List Field) :
    (bridge.onEvent registry metadata span fields).attributes =
        eventAttributes fields ++ (bridge.onEvent registry metadata span []).attributes ∧
      ∃ record : LogRecord, record.body = none ∧
        (bridge.onEvent registry metadata span fields).body =
          (LogRecordVisitor.record record fields).body := by
  have hnone : eventAttributes [] = [] := rfl
  simp only [SpanAwareLogBridge.onEvent]
  cases span.filter (· < registry.size) with
  | none =>
      refine ⟨?_, _, rfl, rfl⟩
      simp only [record_attributes, hnone, List.nil_append, List.append_nil]
  | some s =>
      refine ⟨?_, _, rfl, injectSpanContext_body bridge registry s _⟩
      simp only [injectSpanContext_attributes, record_attributes, hnone, List.nil_append]

/-- The fields of an event keep their types and values exactly when no integer that is not an
`i64` fits in one or is named `message`. -/
theorem fields_typed_iff (registry : Registry) (metadata : Metadata) (span : Option ℕ)
    (fields : List Field) :
    ((bridge.onEvent registry metadata span fields).attributes =
          typedAttributes fields ++ (bridge.onEvent registry metadata span []).attributes ∧
        (bridge.onEvent registry metadata span fields).body = messageBody fields) ↔
      ∀ field ∈ fields, ∀ z, field.value.wide = some z →
        field.name ≠ "message" ∧ ¬FitsI64 z := by
  obtain ⟨hattributes, record, hnone, hbody⟩ := onEvent_own bridge registry metadata span fields
  rw [hattributes, List.append_left_inj, eventAttributes_eq_iff]
  constructor
  · exact fun h => h.1
  · intro h
    refine ⟨h, ?_⟩
    rw [hbody]
    exact record_body_of_typed hnone h

/-- The duration that the crate's own boot events record. -/
def bootFields : List Field :=
  [⟨"message", .str "boot phase complete"⟩, ⟨"took_ms", .u64 812⟩]

/-- Its number becomes text. -/
theorem duration_becomes_text :
    (requestBridge.onEvent .empty ⟨.info, "boot", "event"⟩ none bootFields).attributes =
        [("took_ms", .string "812")] ∧
      typedAttributes bootFields = [("took_ms", .int (Int64.ofInt 812))] ∧
      (requestBridge.onEvent .empty ⟨.info, "boot", "event"⟩ none bootFields).attributes ≠
        typedAttributes bootFields ++
          (requestBridge.onEvent .empty ⟨.info, "boot", "event"⟩ none []).attributes := by
  have hrecorded : (requestBridge.onEvent .empty ⟨.info, "boot", "event"⟩ none
      bootFields).attributes = [("took_ms", .string "812")] := rfl
  have htyped : typedAttributes bootFields = [("took_ms", .int (Int64.ofInt 812))] := by
    have hfits : FieldValue.ofInteger 812 "812" = .int (Int64.ofInt 812) := if_pos (by decide)
    rw [← hfits]
    rfl
  refine ⟨hrecorded, htyped, ?_⟩
  rw [hrecorded, htyped]
  intro h
  have hhead := congrArg Prod.snd (List.cons.inj h).1
  cases hhead

end OtelBootstrap.LogBridge
