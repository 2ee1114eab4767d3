import OtelBootstrap.LogBridge.Scope

/-! # Keys that come from two sources

Attributes are appended source by source and never merged. -/

namespace OtelBootstrap.LogBridge

open Upsert

variable (bridge : SpanAwareLogBridge)

/-! ## Sources -/

/-- The spans in scope of an event, nearest first. -/
def scopeOf (h : List Call) : Option ℕ → List ℕ
  | none => []
  | some s => Forest.chain (parentOf h) (s + 1) s

def createdFields (h : List Call) (t : ℕ) : List Field :=
  ((creations h)[t]?.map Prod.snd).getD []

/-- The listed names among the creation fields of a span. -/
def capturedKeys (h : List Call) (t : ℕ) : List String :=
  ((createdFields h t).map Field.name).filter fun name => bridge.spanFields.contains name

/-- The keys that were recorded on a span. -/
def recordedKeys (h : List Call) (t : ℕ) : List String :=
  (logAttrCalls h t).map Prod.fst

/-- The keys of every source of an event's attributes. -/
def sourceKeys (h : List Call) (span : Option ℕ) (fields : List Field) : List (List String) :=
  (eventAttributes fields).map Prod.fst ::
    (scopeOf h span).flatMap fun t => [capturedKeys bridge h t, recordedKeys h t]

/-- The event repeats no name, and no key comes from two sources. -/
def Unambiguous (h : List Call) (span : Option ℕ) (fields : List Field) : Prop :=
  ((eventAttributes fields).map Prod.fst).Nodup ∧
    (sourceKeys bridge h span fields).Pairwise List.Disjoint

/-- The value of a key on one span: recorded later beats captured at creation. -/
def spanValue (h : List Call) (t : ℕ) (key : String) : Option AnyValue :=
  (latest key (logAttrCalls h t)).or
    ((latest key (capturedFields bridge (createdFields h t))).map .string)

/-- The value of the nearest source: the event beats every span, and an inner span beats an
outer one. -/
def nearest (h : List Call) (span : Option ℕ) (fields : List Field) (key : String) :
    Option AnyValue :=
  (latest key (eventAttributes fields)).or
    ((scopeOf h span).findSome? fun t => spanValue bridge h t key)

/-- Every key at most once, with the value of its nearest source. -/
structure NearestWins (h : List Call) (span : Option ℕ) (fields : List Field)
    (record : LogRecord) : Prop where
  keys : (record.attributes.map Prod.fst).Nodup
  values : ∀ key value, (key, value) ∈ record.attributes →
    nearest bridge h span fields key = some value

/-! ## Attributes source by source -/

/-- The attributes captured at the creation of a span, in the order of the hash map. -/
def capturedAttributes (h : List Call) (t : ℕ) : List (String × AnyValue) :=
  (bridge.platform.iter (capturedFields bridge (createdFields h t))).map fun entry =>
    (entry.1, .string entry.2)

theorem scopeAttributes_eq {h : List Call} {registry : Registry}
    (hd : Describes bridge h registry) (spans : List ℕ) :
    scopeAttributes bridge registry spans =
      spans.flatMap fun t => capturedAttributes bridge h t ++ upserts (logAttrCalls h t) := by
  rw [scopeAttributes]
  congr 1
  funext t
  rw [hd.get?_eq, capturedAttributes, createdFields]
  cases hc : (creations h)[t]? with
  | none =>
      have hempty : bridge.platform.iter [] = [] := (bridge.platform.iter_perm []).eq_nil
      have hnil : capturedFields bridge [] = [] := rfl
      simp [hd.fresh_of_none hc, hnil, hempty, upserts]
  | some c =>
      simp only [Option.map_some, Option.getD_some, spanAttributes, extensions]
      congr 1
      · cases capturedFields bridge c.2 <;> rfl
      · cases logAttrCalls h t <;> rfl

theorem keys_capturedAttributes (h : List Call) (t : ℕ) :
    ((capturedAttributes bridge h t).map Prod.fst).Perm
      ((capturedFields bridge (createdFields h t)).map Prod.fst) := by
  rw [capturedAttributes, List.map_map]
  exact (bridge.platform.iter_perm _).map _

theorem mem_capturedKeys {h : List Call} {t : ℕ} {key : String} :
    key ∈ (capturedFields bridge (createdFields h t)).map Prod.fst ↔
      key ∈ capturedKeys bridge h t := by
  rw [capturedFields_eq, mem_keys_upserts, List.map_map, capturedKeys, List.filter_map]
  rfl

/-! ## Repeated keys -/

/-- Lists are disjoint as their sets of members are. -/
theorem pairwise_disjoint_iff {α : Type*} (L : List (List α)) :
    L.Pairwise List.Disjoint ↔
      (L.map fun l => {x | x ∈ l}).Pairwise fun s t => ∀ x ∈ s, x ∉ t := by
  rw [List.pairwise_map]
  constructor
  · intro h
    exact h.imp fun hl x hx hy => hl hx hy
  · intro h
    exact h.imp fun hl x hx hy => hl x hx hy

/-- The keys of the attributes repeat exactly when the event repeats one or two sources
share one. -/
theorem nodup_keys_iff (h : List Call) (span : Option ℕ) (fields : List Field) :
    ((eventAttributes fields ++ (scopeOf h span).flatMap fun t =>
        capturedAttributes bridge h t ++ upserts (logAttrCalls h t)).map Prod.fst).Nodup ↔
      Unambiguous bridge h span fields := by
  have hflat : (eventAttributes fields ++ (scopeOf h span).flatMap fun t =>
      capturedAttributes bridge h t ++ upserts (logAttrCalls h t)).map Prod.fst =
      ((eventAttributes fields).map Prod.fst :: (scopeOf h span).flatMap fun t =>
        [(capturedAttributes bridge h t).map Prod.fst,
          (upserts (logAttrCalls h t)).map Prod.fst]).flatten := by
    rw [List.map_append, List.flatten_cons]
    congr 1
    induction scopeOf h span with
    | nil => rfl
    | cons t spans ih =>
        rw [List.flatMap_cons, List.map_append, ih, List.flatMap_cons, List.flatten_append]
        simp
  have hsets : ((eventAttributes fields).map Prod.fst :: (scopeOf h span).flatMap fun t =>
      [(capturedAttributes bridge h t).map Prod.fst,
        (upserts (logAttrCalls h t)).map Prod.fst]).map (fun l => {x | x ∈ l}) =
      (sourceKeys bridge h span fields).map fun l => {x | x ∈ l} := by
    rw [sourceKeys, List.map_cons, List.map_cons, List.map_flatMap, List.map_flatMap]
    congr 2
    funext t
    have hcaptured : {x | x ∈ (capturedAttributes bridge h t).map Prod.fst} =
        {x | x ∈ capturedKeys bridge h t} := by
      ext key
      exact (keys_capturedAttributes bridge h t).mem_iff.trans (mem_capturedKeys bridge)
    have hrecorded : {x | x ∈ (upserts (logAttrCalls h t)).map Prod.fst} =
        {x | x ∈ recordedKeys h t} := by
      ext key
      exact mem_keys_upserts
    rw [List.map_cons, List.map_singleton, hcaptured, hrecorded]
    rfl
  rw [hflat, List.nodup_flatten, pairwise_disjoint_iff, hsets, ← pairwise_disjoint_iff,
    Unambiguous]
  apply and_congr_left
  intro _
  constructor
  · intro hall
    exact hall _ (List.mem_cons_self ..)
  · intro hown l hl
    rcases List.mem_cons.mp hl with rfl | hl
    · exact hown
    · obtain ⟨t, -, ht⟩ := List.mem_flatMap.mp hl
      rcases List.mem_cons.mp ht with rfl | ht
      · exact (keys_capturedAttributes bridge h t).nodup_iff.mpr (nodup_capturedFields bridge _)
      · rw [List.mem_singleton.mp ht]
        exact nodup_upserts _

/-! ## The nearest value -/

theorem spanValue_eq_none {h : List Call} {t : ℕ} {key : String}
    (hcaptured : key ∉ capturedKeys bridge h t) (hrecorded : key ∉ recordedKeys h t) :
    spanValue bridge h t key = none := by
  rw [← mem_capturedKeys] at hcaptured
  rw [spanValue, latest_eq_none.mpr hrecorded, latest_eq_none.mpr hcaptured]
  rfl

/-- Where the two stores of a span share no key, what the span adds is its value. -/
theorem spanValue_of_mem {h : List Call} {t : ℕ} {key : String} {value : AnyValue}
    (hdisjoint : List.Disjoint (capturedKeys bridge h t) (recordedKeys h t))
    (hmem : (key, value) ∈ capturedAttributes bridge h t ++ upserts (logAttrCalls h t)) :
    spanValue bridge h t key = some value := by
  rcases List.mem_append.mp hmem with hmem | hmem
  · obtain ⟨⟨name, text⟩, htext, heq⟩ := List.mem_map.mp hmem
    obtain ⟨rfl, rfl⟩ := Prod.mk.inj heq
    have hin := (bridge.platform.iter_perm _).mem_iff.mp htext
    have hkey : name ∈ capturedKeys bridge h t :=
      (mem_capturedKeys bridge).mp (List.mem_map.mpr ⟨_, hin, rfl⟩)
    have hnone : latest name (logAttrCalls h t) = none :=
      latest_eq_none.mpr fun hrecorded => hdisjoint hkey hrecorded
    rw [spanValue, hnone, latest_of_mem (nodup_capturedFields bridge _) hin]
    rfl
  · rw [spanValue, mem_upserts.mp hmem]
    rfl

theorem mem_keys_of_mem {h : List Call} {t : ℕ} {key : String} {value : AnyValue}
    (hmem : (key, value) ∈ capturedAttributes bridge h t ++ upserts (logAttrCalls h t)) :
    key ∈ capturedKeys bridge h t ∨ key ∈ recordedKeys h t := by
  rcases List.mem_append.mp hmem with hmem | hmem
  · refine Or.inl ((mem_capturedKeys bridge).mp ?_)
    exact (keys_capturedAttributes bridge h t).mem_iff.mp (List.mem_map.mpr ⟨_, hmem, rfl⟩)
  · exact Or.inr (mem_keys_upserts.mp (List.mem_map.mpr ⟨_, hmem, rfl⟩))

theorem findSome?_of_mem {h : List Call} {spans : List ℕ} {key : String} {value : AnyValue}
    (hdisjoint : (spans.flatMap fun t => [capturedKeys bridge h t, recordedKeys h t]).Pairwise
      List.Disjoint)
    (hmem : (key, value) ∈ spans.flatMap fun t =>
      capturedAttributes bridge h t ++ upserts (logAttrCalls h t)) :
    (spans.findSome? fun t => spanValue bridge h t key) = some value := by
  induction spans with
  | nil => cases hmem
  | cons t spans ih =>
      rw [List.flatMap_cons, List.pairwise_append] at hdisjoint
      obtain ⟨hown, hrest, hcross⟩ := hdisjoint
      rw [List.flatMap_cons, List.mem_append] at hmem
      rw [List.findSome?_cons]
      rcases hmem with hmem | hmem
      · have hpair : List.Disjoint (capturedKeys bridge h t) (recordedKeys h t) := by
          simpa using hown
        rw [spanValue_of_mem bridge hpair hmem]
      · obtain ⟨u, hu, hin⟩ := List.mem_flatMap.mp hmem
        have hfar : ∀ l ∈ [capturedKeys bridge h t, recordedKeys h t], key ∉ l := by
          intro l hl hkey
          have hl' : ∀ l' ∈ [capturedKeys bridge h u, recordedKeys h u], List.Disjoint l l' :=
            fun l' hl' => hcross l hl l' (List.mem_flatMap.mpr ⟨u, hu, hl'⟩)
          rcases mem_keys_of_mem bridge hin with hc | hr
          · exact hl' _ (by simp) hkey hc
          · exact hl' _ (by simp) hkey hr
        have hnone : spanValue bridge h t key = none :=
          spanValue_eq_none bridge (hfar _ (by simp)) (hfar _ (by simp))
        rw [hnone]
        exact ih hrest hmem

/-- The record of an event holds every key once, with the value of its nearest source,
exactly when the event repeats no name and no key comes from two sources. -/
theorem nearest_wins_iff {h : List Call} {metadata : Metadata} {span : Option ℕ}
    {fields : List Field} {state : State}
    (hrun : run? bridge {} (h ++ [.event metadata span fields]) = some state) :
    ∃ record, state.emitted.getLast? = some record ∧
      (NearestWins bridge h span fields record ↔ Unambiguous bridge h span fields) := by
  obtain ⟨hd, hspan, hlast⟩ := run?_event bridge hrun
  refine ⟨_, hlast, ?_⟩
  have hattributes : (bridge.onEvent state.registry metadata span fields).attributes =
      eventAttributes fields ++ (scopeOf h span).flatMap fun t =>
        capturedAttributes bridge h t ++ upserts (logAttrCalls h t) := by
    rw [onEvent_attributes bridge _ _ _ hspan, scopeAttributes_eq bridge hd]
    cases span with
    | none => rfl
    | some s =>
        rw [Option.map_some, Option.getD_some, Forest.ancestors, hd.parent_eq]
        rfl
  constructor
  · intro hwins
    rw [← nodup_keys_iff, ← hattributes]
    exact hwins.keys
  · intro hclear
    refine ⟨?_, ?_⟩
    · rw [hattributes, nodup_keys_iff]
      exact hclear
    · intro key value hmem
      rw [hattributes, List.mem_append] at hmem
      obtain ⟨hown, hdisjoint⟩ := hclear
      rw [sourceKeys, List.pairwise_cons] at hdisjoint
      rw [nearest]
      rcases hmem with hmem | hmem
      · rw [latest_of_mem hown hmem]
        rfl
      · have hnone : latest key (eventAttributes fields) = none := by
          rw [latest_eq_none]
          intro hkey
          obtain ⟨t, ht, hin⟩ := List.mem_flatMap.mp hmem
          rcases mem_keys_of_mem bridge hin with hc | hr
          · exact hdisjoint.1 _ (List.mem_flatMap.mpr ⟨t, ht, by simp⟩) hkey hc
          · exact hdisjoint.1 (recordedKeys h t) (List.mem_flatMap.mpr ⟨t, ht, by simp⟩) hkey hr
        rw [hnone, Option.none_or]
        exact findSome?_of_mem bridge hdisjoint.2 hmem

/-- The identifier is captured at creation and written to once more on the same span. -/
def rewrittenHistory : List Call :=
  [.newSpan none [⟨"request.id", .str "r-1"⟩],
    .recordLogAttr 0 "request.id" (.string "r-2")]

def helloEvent (span : Option ℕ) : Call :=
  .event ⟨.info, "app", "event"⟩ span [⟨"message", .str "hello"⟩]

theorem request_id_repeated :
    ∃ state, run? requestBridge {} (rewrittenHistory ++ [helloEvent (some 0)]) = some state ∧
      ∃ record, state.emitted.getLast? = some record ∧
        record.attributes.map Prod.fst = ["request.id", "request.id"] ∧
        ¬ NearestWins requestBridge rewrittenHistory (some 0) [⟨"message", .str "hello"⟩]
          record := by
  refine ⟨_, rfl, _, rfl, rfl, ?_⟩
  intro hwins
  have hkeys : ["request.id", "request.id"].Nodup := hwins.keys
  simp at hkeys

theorem request_nearest_wins_iff :
    ∃ state, run? requestBridge {} (requestHistory ++ [helloEvent (some 1)]) = some state ∧
      ∃ record, state.emitted.getLast? = some record ∧
        (NearestWins requestBridge requestHistory (some 1) [⟨"message", .str "hello"⟩] record ↔
          Unambiguous requestBridge requestHistory (some 1)
            [⟨"message", .str "hello"⟩]) := by
  have hrun : run? requestBridge {} (requestHistory ++ [helloEvent (some 1)]) = some _ := rfl
  exact ⟨_, hrun, nearest_wins_iff requestBridge hrun⟩

end OtelBootstrap.LogBridge
