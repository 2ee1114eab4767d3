import OtelBootstrap.Export.Failure
import OtelBootstrap.LogBridge.Scope

/-! # The text captured for a string

The `Debug` text of a string is trimmed of quotes, which undoes the quotes around it but not
the escapes inside. -/

namespace OtelBootstrap.Export

open Boot (isControl)
open LogBridge

/-! ## `Debug` of a string -/

/-- How one character of a string is written; `printable` is what the Unicode tables decide
about the characters without an escape of their own. -/
def escapeDebug (printable : Char → Bool) (c : Char) : List Char :=
  if c = '\x00' then ['\\', '0']
  else if c = '\t' then ['\\', 't']
  else if c = '\r' then ['\\', 'r']
  else if c = '\n' then ['\\', 'n']
  else if c = '\\' then ['\\', '\\']
  else if c = '\"' then ['\\', '\"']
  else if !isControl c && printable c then [c]
  else ['\\', 'u', '\x7b'] ++ Nat.toDigits 16 c.toNat ++ ['\x7d']

def debugStr (printable : Char → Bool) (s : String) : String :=
  String.ofList ('\"' :: s.toList.flatMap (escapeDebug printable) ++ ['\"'])

/-- The ways in which a call site records a string. -/
inductive Recording where
  | str
  | display
  | debug
  deriving DecidableEq, Repr

/-- `tracing` hands the values of `%` and `?` to `record_debug`. -/
def Recording.value (printable : Char → Bool) (s : String) : Recording → FieldValue
  | .str => .str s
  | .display => .debug s
  | .debug => .debug (debugStr printable s)

/-- The text that both visitors keep. -/
def Recording.text (printable : Char → Bool) (s : String) : Recording → String
  | .str => s
  | .display => trimMatches '\"' s
  | .debug => trimMatches '\"' (debugStr printable s)

/-- Recorded under a listed name, and as the `name` of an event, the string is captured as it
is. -/
structure Captured (printable : Char → Bool) (s : String) (recording : Recording) : Prop where
  spanField : ∀ (bridge : SpanAwareLogBridge) (name : String) (before after : List Field),
    name ∈ bridge.spanFields → name ∉ after.map Field.name → ∀ text,
      (name, text) ∈
          capturedFields bridge (before ++ ⟨name, recording.value printable s⟩ :: after) ↔
        text = s
  eventName : ∀ (platform : Platform) (before after : List Field),
    "name" ∉ before.map Field.name → "name" ∉ after.map Field.name →
      EventName.record platform none
        (before ++ ⟨"name", recording.value printable s⟩ :: after) = some s

/-- The strings that come through a way of recording. -/
def Recording.Keeps (printable : Char → Bool) (s : String) : Recording → Prop
  | .str => True
  | .display => s.toList.head? ≠ some '\"' ∧ s.toList.getLast? ≠ some '\"'
  | .debug => ∀ c ∈ s.toList, c ≠ '\"' ∧ c ≠ '\\' ∧ isControl c = false ∧ printable c = true

/-! ## Trimming -/

def strip (c : Char) (l : List Char) : List Char :=
  ((l.dropWhile (· == c)).reverse.dropWhile (· == c)).reverse

theorem trimMatches_eq (c : Char) (s : String) :
    trimMatches c s = String.ofList (strip c s.toList) :=
  rfl

theorem dropWhile_of_head {c : Char} {l : List Char} (h : l.head? ≠ some c) :
    l.dropWhile (· == c) = l := by
  cases l with
  | nil => rfl
  | cons x l =>
      have hx : (x == c) = false := by
        simpa using h
      rw [List.dropWhile_cons, hx]
      rfl

theorem strip_of_ends {c : Char} {l : List Char} (hhead : l.head? ≠ some c)
    (hlast : l.getLast? ≠ some c) : strip c l = l := by
  rw [strip, dropWhile_of_head hhead, dropWhile_of_head, List.reverse_reverse]
  rwa [List.head?_reverse]

theorem length_dropWhile_le (c : Char) (l : List Char) :
    (l.dropWhile (· == c)).length ≤ l.length :=
  (List.dropWhile_sublist _).length_le

theorem strip_eq_self_iff {c : Char} {l : List Char} :
    strip c l = l ↔ l.head? ≠ some c ∧ l.getLast? ≠ some c := by
  refine ⟨?_, fun h => strip_of_ends h.1 h.2⟩
  intro h
  have hlength := congrArg List.length h
  rw [strip, List.length_reverse] at hlength
  have hdrop := length_dropWhile_le c l
  have hdrop' := length_dropWhile_le c (l.dropWhile (· == c)).reverse
  rw [List.length_reverse] at hdrop'
  have hhead : l.head? ≠ some c := by
    intro hc
    cases l with
    | nil => cases hc
    | cons x l =>
        obtain rfl := Option.some.inj hc
        have hshort := length_dropWhile_le x l
        rw [List.dropWhile_cons, beq_self_eq_true, if_pos rfl] at hdrop' hlength
        rw [List.length_cons] at hlength
        omega
  refine ⟨hhead, ?_⟩
  intro hc
  rw [dropWhile_of_head hhead] at hlength hdrop'
  rw [← List.head?_reverse] at hc
  cases hr : l.reverse with
  | nil =>
      rw [hr] at hc
      cases hc
  | cons x r =>
      rw [hr] at hc hlength
      obtain rfl := Option.some.inj hc
      have hshort := length_dropWhile_le x r
      have hcons := congrArg List.length hr
      rw [List.length_reverse, List.length_cons] at hcons
      rw [List.dropWhile_cons, beq_self_eq_true, if_pos rfl] at hlength
      omega

/-! ## Escapes -/

/-- A function that never shrinks a character rebuilds a list only from single characters. -/
theorem flatMap_eq_self_iff {f : Char → List Char} (hf : ∀ c, f c ≠ []) (l : List Char) :
    l.flatMap f = l ↔ ∀ c ∈ l, f c = [c] := by
  have hlength : ∀ l : List Char, l.length ≤ (l.flatMap f).length := by
    intro l
    induction l with
    | nil => exact Nat.le_refl 0
    | cons c l ih =>
        have hc := List.length_pos_iff.mpr (hf c)
        rw [List.flatMap_cons, List.length_append, List.length_cons]
        omega
  induction l with
  | nil => simp
  | cons c l ih =>
      rw [List.forall_mem_cons, List.flatMap_cons]
      constructor
      · intro h
        have htotal := congrArg List.length h
        have hle := hlength l
        have hc := List.length_pos_iff.mpr (hf c)
        rw [List.length_append, List.length_cons] at htotal
        obtain ⟨x, hx⟩ := List.length_eq_one_iff.mp (show (f c).length = 1 by omega)
        rw [hx, List.singleton_append] at h
        obtain ⟨rfl, htail⟩ := List.cons.inj h
        exact ⟨hx, ih.mp htail⟩
      · intro ⟨hc, htail⟩
        rw [hc, ih.mpr htail, List.singleton_append]

variable (printable : Char → Bool)

theorem escapeDebug_quote : escapeDebug printable '\"' = ['\\', '\"'] :=
  rfl

/-- A character stands for itself or is written with a backslash, and only the escape of a
quote ends with one. -/
theorem escapeDebug_cases {c : Char} (hc : c ≠ '\"') :
    escapeDebug printable c = [c] ∨
      ∃ rest d, escapeDebug printable c = '\\' :: rest ++ [d] ∧ d ≠ '\"' := by
  unfold escapeDebug
  split
  · exact Or.inr ⟨[], '0', rfl, by decide⟩
  split
  · exact Or.inr ⟨[], 't', rfl, by decide⟩
  split
  · exact Or.inr ⟨[], 'r', rfl, by decide⟩
  split
  · exact Or.inr ⟨[], 'n', rfl, by decide⟩
  split
  · exact Or.inr ⟨[], '\\', rfl, by decide⟩
  split
  · exact Or.inl rfl
  · exact Or.inr ⟨'u' :: '\x7b' :: Nat.toDigits 16 c.toNat, '\x7d', by simp, by decide⟩

theorem escapeDebug_ne_nil (c : Char) : escapeDebug printable c ≠ [] := by
  by_cases hc : c = '\"'
  · subst hc
    rw [escapeDebug_quote]
    exact List.cons_ne_nil _ _
  · rcases escapeDebug_cases printable hc with h | ⟨rest, d, h, -⟩
    · rw [h]
      exact List.cons_ne_nil _ _
    · rw [h]
      exact List.cons_ne_nil _ _

theorem head_escapeDebug (c : Char) : (escapeDebug printable c).head? ≠ some '\"' := by
  by_cases hc : c = '\"'
  · subst hc
    rw [escapeDebug_quote]
    decide
  · rcases escapeDebug_cases printable hc with h | ⟨rest, d, h, -⟩
    · rw [h]
      exact fun he => hc (Option.some.inj he)
    · rw [h]
      exact fun he => absurd (Option.some.inj he) (by decide)

theorem last_escapeDebug {c : Char} (hc : c ≠ '\"') :
    (escapeDebug printable c).getLast? ≠ some '\"' := by
  rcases escapeDebug_cases printable hc with h | ⟨rest, d, h, hd⟩
  · rw [h]
    exact fun he => hc (Option.some.inj he)
  · rw [h, List.getLast?_concat]
    exact fun he => hd (Option.some.inj he)

/-- The characters that stand for themselves. -/
theorem escapeDebug_eq_self_iff (c : Char) :
    escapeDebug printable c = [c] ↔
      c ≠ '\"' ∧ c ≠ '\\' ∧ isControl c = false ∧ printable c = true := by
  unfold escapeDebug
  split
  · rename_i h
    subst h
    simp [isControl]
  split
  · rename_i h
    subst h
    simp [isControl]
  split
  · rename_i h
    subst h
    simp [isControl]
  split
  · rename_i h
    subst h
    simp [isControl]
  split
  · rename_i h
    simp [h]
  split
  · rename_i h
    simp [h]
  split
  · rename_i hslash hquote hplain
    simpa [hslash, hquote] using hplain
  · rename_i hslash hquote hplain
    simpa [hslash, hquote] using hplain

/-- Only the quotes that `Debug` put around the string are trimmed, and those of an escaped
quote at its end. -/
theorem strip_debug (l : List Char) :
    strip '\"' ('\"' :: l.flatMap (escapeDebug printable) ++ ['\"']) = l ↔
      ∀ c ∈ l, escapeDebug printable c = [c] := by
  rcases List.eq_nil_or_concat l with rfl | ⟨front, d, rfl⟩
  · simp [strip]
  rw [List.concat_eq_append]
  have hne : (front ++ [d]).flatMap (escapeDebug printable) ≠ [] := by
    rw [List.flatMap_append, List.flatMap_singleton]
    exact List.append_ne_nil_of_right_ne_nil _ (escapeDebug_ne_nil printable d)
  have hhead : ((front ++ [d]).flatMap (escapeDebug printable)).head? ≠ some '\"' := by
    cases front with
    | nil => simpa using head_escapeDebug printable d
    | cons c front =>
        rw [List.cons_append, List.flatMap_cons,
          List.head?_append_of_ne_nil _ (escapeDebug_ne_nil printable c)]
        exact head_escapeDebug printable c
  generalize he : (front ++ [d]).flatMap (escapeDebug printable) = e at hne hhead
  have hstrip : strip '\"' ('\"' :: e ++ ['\"']) =
      (e.reverse.dropWhile (· == '\"')).reverse := by
    have hinner : (e ++ ['\"']).head? ≠ some '\"' := by
      rwa [List.head?_append_of_ne_nil _ hne]
    rw [strip, List.cons_append, List.dropWhile_cons, beq_self_eq_true, if_pos rfl,
      dropWhile_of_head hinner, List.reverse_append, List.reverse_singleton,
      List.singleton_append, List.dropWhile_cons, beq_self_eq_true, if_pos rfl]
  rw [hstrip]
  by_cases hd : d = '\"'
  · -- the escape of a quote at the end loses its quote
    subst hd
    refine iff_of_false ?_ ?_
    · rw [← he, List.flatMap_append, List.flatMap_singleton, escapeDebug_quote]
      intro h
      have hlast := congrArg List.getLast? h
      simp at hlast
    · intro h
      have hquote := h '\"' (by simp)
      rw [escapeDebug_quote] at hquote
      simp at hquote
  · have hlast : e.reverse.head? ≠ some '\"' := by
      rw [← he, List.head?_reverse, List.flatMap_append, List.flatMap_singleton,
        List.getLast?_append_of_ne_nil _ (escapeDebug_ne_nil printable d)]
      exact last_escapeDebug printable hd
    rw [dropWhile_of_head hlast, List.reverse_reverse, ← he]
    exact flatMap_eq_self_iff (escapeDebug_ne_nil printable) _

/-! ## What the visitors keep -/

variable {printable}

theorem entryOf_recording (platform : Platform) (name s : String) (recording : Recording) :
    FieldCollector.entryOf platform ⟨name, recording.value printable s⟩ =
      (name, recording.text printable s) := by
  cases recording <;> rfl

theorem mem_captured (bridge : SpanAwareLogBridge) {name s : String} {before after : List Field}
    (hname : name ∈ bridge.spanFields) (hafter : name ∉ after.map Field.name)
    (recording : Recording) (text : String) :
    (name, text) ∈
        capturedFields bridge (before ++ ⟨name, recording.value printable s⟩ :: after) ↔
      text = recording.text printable s := by
  have hkeys : name ∉ (after.map (FieldCollector.entryOf bridge.platform)).map Prod.fst := by
    rw [List.map_map]
    exact hafter
  have hlatest : Upsert.latest name (before.map (FieldCollector.entryOf bridge.platform) ++
      (name, recording.text printable s) ::
        after.map (FieldCollector.entryOf bridge.platform)) =
      some (recording.text printable s) := Upsert.latest_of_last _ _ _ hkeys
  rw [mem_capturedFields, List.map_append, List.map_cons, entryOf_recording, hlatest,
    Option.some_inj]
  simp [hname, eq_comm]

theorem EventName.visit_other (platform : Platform) (visitor : EventName) {field : Field}
    (h : field.name ≠ "name") : EventName.visit platform visitor field = visitor := by
  rcases field with ⟨name, value⟩
  cases value <;> simp [EventName.visit, EventName.recordStr, EventName.recordDebug, h]

theorem EventName.record_others (platform : Platform) (visitor : EventName)
    {fields : List Field} (h : "name" ∉ fields.map Field.name) :
    EventName.record platform visitor fields = visitor := by
  induction fields generalizing visitor with
  | nil => rfl
  | cons field fields ih =>
      rw [List.map_cons, List.mem_cons, not_or] at h
      rw [EventName.record, List.foldl_cons, EventName.visit_other platform visitor fun he =>
        h.1 he.symm]
      exact ih visitor h.2

theorem record_recording (platform : Platform) (s : String) {before after : List Field}
    (hbefore : "name" ∉ before.map Field.name) (hafter : "name" ∉ after.map Field.name)
    (recording : Recording) :
    EventName.record platform none
        (before ++ ⟨"name", recording.value printable s⟩ :: after) =
      some (recording.text printable s) := by
  have hfirst := EventName.record_others platform none hbefore
  have hlast := EventName.record_others platform (some (recording.text printable s)) hafter
  rw [EventName.record] at hfirst hlast
  rw [EventName.record, List.foldl_append, List.foldl_cons, hfirst]
  cases recording <;> exact hlast

theorem captured_iff_text (s : String) (recording : Recording) :
    Captured printable s recording ↔ recording.text printable s = s := by
  constructor
  · intro h
    have hrecord := h.eventName ⟨fun _ => "", id, fun _ => .refl _⟩ [] []
      List.not_mem_nil List.not_mem_nil
    rw [record_recording _ s List.not_mem_nil List.not_mem_nil] at hrecord
    exact Option.some.inj hrecord
  · intro h
    refine ⟨?_, ?_⟩
    · intro bridge name before after hname hafter text
      rw [mem_captured bridge hname hafter, h]
    · intro platform before after hbefore hafter
      rw [record_recording platform s hbefore hafter, h]

/-- A string recorded as a str is captured as it is; one recorded with `%` exactly when it
neither begins nor ends with a quote; and one recorded with `?` exactly when `Debug` escapes
nothing in it. -/
theorem captured_iff (printable : Char → Bool) (s : String) (recording : Recording) :
    Captured printable s recording ↔ recording.Keeps printable s := by
  rw [captured_iff_text]
  cases recording with
  | str => exact iff_of_true rfl trivial
  | display =>
      have hiff := @strip_eq_self_iff '\"' s.toList
      rw [Recording.Keeps, ← hiff, Recording.text, trimMatches_eq, ← String.toList_inj,
        String.toList_ofList]
  | debug =>
      have hiff := strip_debug printable s.toList
      simp only [escapeDebug_eq_self_iff] at hiff
      rw [Recording.Keeps, ← hiff, Recording.text, trimMatches_eq, debugStr,
        String.toList_ofList, ← String.toList_inj, String.toList_ofList]

/-- A quoted name recorded with `%` loses its quotes, and a backslash recorded with `?` is
doubled. -/
theorem text_differs :
    (Recording.display.text (fun _ => true) "\"k\"" = "k" ∧
      ¬Captured (fun _ => true) "\"k\"" .display) ∧
    (Recording.debug.text (fun _ => true) "a\\b" = "a\\\\b" ∧
      ¬Captured (fun _ => true) "a\\b" .debug) := by
  refine ⟨⟨by decide +kernel, ?_⟩, by decide +kernel, ?_⟩
  · rw [captured_iff_text]
    decide +kernel
  · rw [captured_iff_text]
    decide +kernel

end OtelBootstrap.Export
