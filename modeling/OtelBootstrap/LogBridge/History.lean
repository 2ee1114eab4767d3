import OtelBootstrap.LogBridge.Bridge

/-! # What a history of calls says about a span -/

namespace OtelBootstrap.LogBridge

open Upsert

/-! ## Reading a history -/

def creationOf : Call → Option (Option ℕ × List Field)
  | .newSpan parent fields => some (parent, fields)
  | _ => none

/-- The spans created, each with its parent and its creation-time fields. -/
def creations (h : List Call) : List (Option ℕ × List Field) :=
  h.filterMap creationOf

def logAttrOf (span : ℕ) : Call → Option (String × AnyValue)
  | .recordLogAttr s key value => if s = span then some (key, value) else none
  | _ => none

/-- The calls of `record_span_log_attr_on` on a span. -/
def logAttrCalls (h : List Call) (span : ℕ) : List (String × AnyValue) :=
  h.filterMap (logAttrOf span)

def parentOf (h : List Call) (span : ℕ) : Option ℕ :=
  (creations h)[span]?.bind Prod.fst

/-- A span or one of its ancestors. -/
def InScope (h : List Call) (span t : ℕ) : Prop :=
  Relation.ReflTransGen (fun a b => parentOf h a = some b) span t

variable (bridge : SpanAwareLogBridge)

/-- The listed fields of a span, with the text captured for each. -/
def capturedFields (fields : List Field) : List (String × String) :=
  (FieldCollector.record bridge.platform ⟨[], bridge.spanFields⟩ fields).fields

/-- The extensions that a history leaves on a span. -/
def extensions (h : List Call) (span : ℕ) (fields : List Field) : Extensions where
  trackedSpanFields :=
    if (capturedFields bridge fields).isEmpty then none else some (capturedFields bridge fields)
  spanLogAttrs :=
    if (logAttrCalls h span).isEmpty then none else some (upserts (logAttrCalls h span))

/-- The registry holds what the history says, and no span was written before it existed. -/
structure Describes (h : List Call) (registry : Registry) : Prop where
  nodes : registry.nodes =
    (creations h).mapIdx fun span c => (c.1, extensions bridge h span c.2)
  fresh : ∀ span, registry.size ≤ span → logAttrCalls h span = []

theorem creations_snoc (h : List Call) (call : Call) :
    creations (h ++ [call]) = creations h ++ (creationOf call).toList := by
  cases hc : creationOf call <;> simp [creations, hc]

theorem logAttrCalls_snoc (h : List Call) (call : Call) (span : ℕ) :
    logAttrCalls (h ++ [call]) span = logAttrCalls h span ++ (logAttrOf span call).toList := by
  cases hc : logAttrOf span call <;> simp [logAttrCalls, hc]

/-! ## Field capture -/

/-- The entry that a field leaves when its name is listed. -/
def FieldCollector.entryOf (platform : Platform) (field : Field) : String × String :=
  (field.name,
    match field.value with
    | .str s => s
    | .bool b => trimMatches '\"' (toString b)
    | .i64 n => trimMatches '\"' (toString n.toInt)
    | .u64 n => trimMatches '\"' (toString n.toNat)
    | .i128 n => trimMatches '\"' (toString n.toInt)
    | .u128 n => trimMatches '\"' (toString n.toNat)
    | .f64 bits => trimMatches '\"' (platform.formatF64 bits)
    | .debug text => trimMatches '\"' text)

theorem FieldCollector.visit_eq (platform : Platform) (visitor : FieldCollector)
    (field : Field) :
    visitor.visit platform field =
      if visitor.keys.contains field.name then
        { visitor with
          fields := upsert (entryOf platform field).1 (entryOf platform field).2
            visitor.fields }
      else visitor := by
  rcases field with ⟨name, value⟩
  cases value <;> rfl

/-- The collector writes the listed fields in order. -/
theorem capturedFields_eq (fields : List Field) :
    capturedFields bridge fields =
      upserts ((fields.filter fun field => bridge.spanFields.contains field.name).map
        (FieldCollector.entryOf bridge.platform)) := by
  have hrecord : ∀ fields : List Field,
      FieldCollector.record bridge.platform ⟨[], bridge.spanFields⟩ fields =
        ⟨upserts ((fields.filter fun field => bridge.spanFields.contains field.name).map
          (FieldCollector.entryOf bridge.platform)), bridge.spanFields⟩ := by
    intro fields
    induction fields using List.reverseRecOn with
    | nil => rfl
    | append_singleton fields field ih =>
        rw [FieldCollector.record] at ih ⊢
        rw [List.foldl_append, ih, List.foldl_cons, List.foldl_nil, FieldCollector.visit_eq,
          List.filter_append, List.map_append]
        by_cases hlisted : bridge.spanFields.contains field.name = true
        · rw [if_pos hlisted]
          simp only [List.filter_cons, hlisted, if_true, List.filter_nil, List.map_singleton,
            upserts_snoc]
        · rw [if_neg hlisted]
          simp only [List.filter_cons, if_neg hlisted, List.filter_nil, List.map_nil,
            List.append_nil]
  rw [capturedFields, hrecord]

theorem nodup_capturedFields (fields : List Field) :
    ((capturedFields bridge fields).map Prod.fst).Nodup := by
  rw [capturedFields_eq]
  exact nodup_upserts _

/-! ## Preservation -/

namespace Describes

variable {bridge} {h : List Call} {registry : Registry}

theorem initial : Describes bridge [] .empty :=
  ⟨rfl, fun _ _ => rfl⟩

theorem size_eq (hd : Describes bridge h registry) : registry.size = (creations h).length := by
  rw [Forest.size, hd.nodes, List.length_mapIdx]

/-- Nothing was recorded on a span that was never created. -/
theorem fresh_of_none (hd : Describes bridge h registry) {t : ℕ}
    (ht : (creations h)[t]? = none) : logAttrCalls h t = [] := by
  apply hd.fresh
  rw [hd.size_eq]
  exact List.getElem?_eq_none_iff.mp ht

theorem newSpan (hd : Describes bridge h registry) {parent : Option ℕ} {fields : List Field}
    (hparent : ∀ p ∈ parent, p < registry.size) :
    Describes bridge (h ++ [.newSpan parent fields])
      (registry.add parent (bridge.onNewSpan fields) hparent) := by
  have hcalls : ∀ span, logAttrCalls (h ++ [.newSpan parent fields]) span =
      logAttrCalls h span := by
    intro span
    rw [logAttrCalls_snoc]
    exact List.append_nil _
  have hext : ∀ span fields', extensions bridge (h ++ [.newSpan parent fields]) span fields' =
      extensions bridge h span fields' := by
    intro span fields'
    rw [extensions, hcalls, extensions]
  have hnew : extensions bridge h (creations h).length fields = bridge.onNewSpan fields := by
    rw [extensions, hd.fresh _ (Nat.le_of_eq hd.size_eq), SpanAwareLogBridge.onNewSpan,
      capturedFields]
    split <;> rfl
  refine ⟨?_, ?_⟩
  · rw [Forest.nodes_add, hd.nodes, creations_snoc]
    simp only [creationOf, Option.toList_some, List.mapIdx_append, hext, List.mapIdx_cons,
      List.mapIdx_nil, Nat.zero_add, hnew]
  · intro span hspan
    rw [hcalls]
    apply hd.fresh
    rw [Forest.size, Forest.nodes_add, List.length_append] at hspan
    exact Nat.le_trans (Nat.le_add_right _ _) hspan

theorem recordLogAttr (hd : Describes bridge h registry) {span : ℕ}
    (hspan : span < registry.size) (key : String) (value : AnyValue) :
    Describes bridge (h ++ [.recordLogAttr span key value])
      (recordSpanLogAttrOn registry span key value) := by
  have hcreations : creations (h ++ [.recordLogAttr span key value]) = creations h := by
    rw [creations_snoc]
    exact List.append_nil _
  have hother : ∀ s, s ≠ span →
      logAttrCalls (h ++ [.recordLogAttr span key value]) s = logAttrCalls h s := by
    intro s hs
    rw [logAttrCalls_snoc, logAttrOf, if_neg hs.symm]
    exact List.append_nil _
  have hsame : logAttrCalls (h ++ [.recordLogAttr span key value]) span =
      logAttrCalls h span ++ [(key, value)] := by
    rw [logAttrCalls_snoc, logAttrOf, if_pos rfl]
    rfl
  refine ⟨?_, ?_⟩
  · apply List.ext_getElem?
    intro i
    rw [recordSpanLogAttrOn, Forest.nodes_modify, hcreations, List.getElem?_modify, hd.nodes,
      List.getElem?_mapIdx, List.getElem?_mapIdx, Option.map_eq_map, Option.map_map]
    congr 1
    funext c
    by_cases hi : span = i
    · subst i
      simp only [Function.comp_apply, if_true, extensions, hsame, upserts_snoc]
      cases hcalls : logAttrCalls h span <;> simp [upserts]
    · simp only [Function.comp_apply, if_neg hi, extensions, hother i fun he => hi he.symm]
  · intro s hs
    have hs' : registry.size ≤ s := by
      rw [recordSpanLogAttrOn, Forest.size, Forest.nodes_modify, List.length_modify] at hs
      exact hs
    have hne : s ≠ span := by
      rintro rfl
      omega
    rw [hother s hne]
    exact hd.fresh s hs'

theorem event (hd : Describes bridge h registry) (metadata : Metadata) (span : Option ℕ)
    (fields : List Field) :
    Describes bridge (h ++ [.event metadata span fields]) registry := by
  have hcreations : creations (h ++ [.event metadata span fields]) = creations h := by
    rw [creations_snoc]
    exact List.append_nil _
  have hcalls : ∀ s, logAttrCalls (h ++ [.event metadata span fields]) s =
      logAttrCalls h s := by
    intro s
    rw [logAttrCalls_snoc]
    exact List.append_nil _
  refine ⟨?_, ?_⟩
  · rw [hd.nodes, hcreations]
    simp only [extensions, hcalls]
  · intro s hs
    rw [hcalls]
    exact hd.fresh s hs

end Describes

end OtelBootstrap.LogBridge
