import OtelBootstrap.Boot.Line
import OtelBootstrap.Library.Logfmt

/-! # Boot log lines read back

What a `logfmt` reader finds in a boot line is what was logged, whatever the phase and the
service are called. -/

namespace OtelBootstrap.Boot

open Logfmt

/-! ## One value -/

/-- The characters that `pushValue` appends. -/
def valueText (value : String) : List Char :=
  if bare value then value.toList else '\"' :: value.toList.flatMap escape ++ ['\"']

theorem toList_pushValue (out value : String) :
    (pushValue out value).toList = out.toList ++ valueText value := by
  rw [pushValue, valueText]
  split <;> simp

theorem plain_of_bare {value : String} (h : bare value = true) {c : Char}
    (hc : c ∈ value.toList) :
    isWhitespace c = false ∧ isControl c = false ∧ c ≠ '\"' := by
  have hall := (Bool.and_eq_true _ _).mp h |>.2
  have hplain := List.all_eq_true.mp hall c hc
  simp only [Bool.and_eq_true, Bool.not_eq_true', bne_iff_ne] at hplain
  exact ⟨hplain.1.1.1.1, hplain.1.1.1.2, hplain.1.1.2⟩

theorem digit_of_mem_toDigits {b n : ℕ} (hb : 1 < b) {c : Char} (hc : c ∈ Nat.toDigits b n) :
    ∃ d < b, c = d.digitChar := by
  induction n using Nat.strongRecOn with
  | _ n ih =>
      rw [Nat.toDigits_eq_if hb] at hc
      split at hc
      · exact ⟨n, ‹n < b›, List.mem_singleton.mp hc⟩
      · rcases List.mem_append.mp hc with hc | hc
        · exact ih (n / b) (Nat.div_lt_self (by omega) hb) hc
        · exact ⟨n % b, Nat.mod_lt n (by omega), List.mem_singleton.mp hc⟩

/-- A digit is neither a control character nor one the reader acts on. -/
theorem plain_of_mem_toDigits {b n : ℕ} (hb : 1 < b) (hb' : b ≤ 16) {c : Char}
    (hc : c ∈ Nat.toDigits b n) :
    isControl c = false ∧ c ≠ '\"' ∧ c ≠ '\\' ∧ c ≠ '=' ∧ isWhitespace c = false := by
  have hdigit : ∀ d < 16, isControl d.digitChar = false ∧ d.digitChar ≠ '\"' ∧
      d.digitChar ≠ '\\' ∧ d.digitChar ≠ '=' ∧ isWhitespace d.digitChar = false := by decide
  obtain ⟨d, hd, rfl⟩ := digit_of_mem_toDigits hb hc
  exact hdigit d (by omega)

theorem not_isControl_of_all {text : List Char} (h : (text.all fun c => !isControl c) = true) :
    ∀ c ∈ text, isControl c = false := by
  intro c hc
  simpa using List.all_eq_true.mp h c hc

/-- One escaped character: it reads back, it is written without control characters, and the
quotes around it stay open. -/
theorem escape_spec (c : Char) :
    Encodes (escape c) c ∧ (∀ d ∈ escape c, isControl d = false) ∧
      scan .quoted (escape c) = some .quoted := by
  by_cases hquote : c = '\"'
  · subst hquote
    exact ⟨encodes_quote, not_isControl_of_all (by decide), by decide⟩
  by_cases hslash : c = '\\'
  · subst hslash
    exact ⟨encodes_backslash, not_isControl_of_all (by decide), by decide⟩
  by_cases hnewline : c = '\n'
  · subst hnewline
    exact ⟨encodes_newline, not_isControl_of_all (by decide), by decide⟩
  by_cases hcontrol : isControl c = true
  · have hcode : escape c = ['\\', 'u', '\x7b'] ++ Nat.toDigits 16 c.toNat ++ ['\x7d'] := by
      rw [escape, if_neg hquote, if_neg hslash, if_neg hnewline, if_pos hcontrol]
    rw [hcode]
    refine ⟨encodes_scalar c, ?_, ?_⟩
    · intro d hd
      rcases List.mem_append.mp hd with hd | hd
      · rcases List.mem_append.mp hd with hd | hd
        · exact not_isControl_of_all (by decide) d hd
        · exact (plain_of_mem_toDigits (by omega) (by omega) hd).1
      · rw [List.mem_singleton.mp hd]
        decide
    · have hopen : scan .quoted ['\\', 'u', '\x7b'] = some .quoted := by decide
      rw [List.append_assoc, scan_append hopen]
      apply scan_quoted
      intro d hd
      rcases List.mem_append.mp hd with hd | hd
      · have hplain := plain_of_mem_toDigits (by omega) (by omega) hd
        exact ⟨hplain.2.1, hplain.2.2.1⟩
      · rw [List.mem_singleton.mp hd]
        decide
  · have hcode : escape c = [c] := by
      rw [escape, if_neg hquote, if_neg hslash, if_neg hnewline, if_neg hcontrol]
    rw [hcode]
    refine ⟨encodes_plain hquote hslash, ?_, scan_quoted ?_⟩
    · intro d hd
      rw [List.mem_singleton.mp hd]
      exact Bool.eq_false_iff.mpr hcontrol
    · intro d hd
      rw [List.mem_singleton.mp hd]
      exact ⟨hquote, hslash⟩

theorem scan_flatMap_escape (text : List Char) :
    scan .quoted (text.flatMap escape) = some .quoted := by
  induction text with
  | nil => rfl
  | cons c text ih =>
      rw [List.flatMap_cons, scan_append (escape_spec c).2.2]
      exact ih

theorem value_valueText (value : String) : Logfmt.value (valueText value) = some value.toList := by
  rw [valueText]
  split
  · rename_i hbare
    exact value_bare fun c hc => (plain_of_bare hbare hc).2.2
  · exact unquote_flatMap (fun c => (escape_spec c).1) value.toList

/-- Quoted or not, a value is one word. -/
theorem scan_valueText (value : String) : scan .bare (valueText value) = some .bare := by
  rw [valueText]
  split
  · rename_i hbare
    apply scan_bare
    intro c hc
    have hplain := plain_of_bare hbare hc
    refine ⟨?_, hplain.2.2⟩
    rintro rfl
    exact Bool.noConfusion hplain.1
  · have hopen : scan .bare ['\"'] = some .quoted := by decide
    rw [← List.singleton_append, List.append_assoc, scan_append hopen,
      scan_append (scan_flatMap_escape value.toList)]
    decide

theorem isControl_valueText {value : String} {c : Char} (hc : c ∈ valueText value) :
    isControl c = false := by
  rw [valueText] at hc
  split at hc
  · rename_i hbare
    exact (plain_of_bare hbare hc).2.1
  · rcases List.mem_append.mp hc with hc | hc
    · rcases List.mem_cons.mp hc with rfl | hc
      · decide
      · obtain ⟨c', -, hc'⟩ := List.mem_flatMap.mp hc
        exact (escape_spec c').2.1 c hc'
    · rw [List.mem_singleton.mp hc]
      decide

theorem valueText_of_bare {value : String} (h : bare value = true) :
    valueText value = value.toList :=
  if_pos h

theorem bare_toString (n : ℕ) : bare (toString n) = true := by
  have hdigits : (toString n).toList = Nat.toDigits 10 n := Nat.toList_repr
  have hne : (toString n).isEmpty = false := by
    rw [Bool.eq_false_iff]
    intro hempty
    have hnil : (toString n).toList = [] := by
      rw [String.isEmpty_iff.mp hempty]
      rfl
    exact Nat.toDigits_ne_nil (hdigits.symm.trans hnil)
  have hplain : ∀ c ∈ (toString n).toList,
      (!isWhitespace c && !isControl c && c != '\"' && c != '=' && c != '\\') = true := by
    intro c hc
    rw [hdigits] at hc
    have hplain := plain_of_mem_toDigits (by omega) (by omega) hc
    simp [hplain]
  rw [bare, hne, List.all_eq_true.mpr hplain]
  rfl

theorem bare_asStr (outcome : Outcome) : bare outcome.asStr = true := by
  cases outcome <;> decide +kernel

theorem bare_origin (origin : Origin) : bare origin.asStr = true := by
  cases origin <;> decide +kernel

/-! ## One line -/

/-- A field as it stands on a line. -/
def fieldText (field : String × String) : List Char :=
  field.1.toList ++ '=' :: valueText field.2

/-- `boot`, and then the fields. -/
def lineText (fields : List (String × String)) : List Char :=
  [' '].intercalate ("boot".toList :: fields.map fieldText)

/-- A key that neither a space, nor a quote, nor a `=` can end early. -/
def PlainKey (key : String) : Prop :=
  ∀ c ∈ key.toList, c ≠ ' ' ∧ c ≠ '\"' ∧ c ≠ '=' ∧ isControl c = false

instance (key : String) : Decidable (PlainKey key) :=
  List.decidableBAll _ key.toList

theorem scan_fieldText {field : String × String} (hkey : PlainKey field.1) :
    scan .bare (fieldText field) = some .bare := by
  have hfront : scan .bare field.1.toList = some .bare :=
    scan_bare fun c hc => ⟨(hkey c hc).1, (hkey c hc).2.1⟩
  have hsep : scan .bare ['='] = some .bare := by decide
  rw [fieldText, scan_append hfront, ← List.singleton_append, scan_append hsep]
  exact scan_valueText field.2

theorem entry_fieldText {field : String × String} (hkey : PlainKey field.1) :
    entry (fieldText field) = some (field.1, some field.2) := by
  have hsep : '=' ∉ field.1.toList := fun hc => (hkey '=' hc).2.2.1 rfl
  rw [fieldText, entry_pair hsep (value_valueText field.2), String.ofList_toList,
    String.ofList_toList]

theorem mapM_entry {fields : List (String × String)}
    (hkeys : ∀ field ∈ fields, PlainKey field.1) :
    (fields.map fieldText).mapM entry =
      some (fields.map fun field => (field.1, some field.2)) := by
  induction fields with
  | nil => rfl
  | cons field fields ih =>
      have hhead := entry_fieldText (hkeys field List.mem_cons_self)
      have htail := ih fun f hf => hkeys f (List.mem_cons_of_mem field hf)
      rw [List.map_cons, List.mapM_cons, hhead, htail]
      rfl

/-- A line reads back as its fields, in their order. -/
theorem read_lineText {fields : List (String × String)}
    (hkeys : ∀ field ∈ fields, PlainKey field.1) :
    Logfmt.read (String.ofList (lineText fields)) =
      some (("boot", none) :: fields.map fun field => (field.1, some field.2)) := by
  have hwords : words .bare (lineText fields) = "boot".toList :: fields.map fieldText := by
    apply words_intercalate (List.cons_ne_nil _ _)
    intro w hw
    rcases List.mem_cons.mp hw with rfl | hw
    · decide
    · obtain ⟨field, hfield, rfl⟩ := List.mem_map.mp hw
      exact scan_fieldText (hkeys field hfield)
  have hboot : entry "boot".toList = some ("boot", none) := by decide +kernel
  rw [Logfmt.read, String.toList_ofList, hwords, List.mapM_cons, hboot, mapM_entry hkeys]
  rfl

theorem isControl_fieldText {field : String × String} (hkey : PlainKey field.1) {c : Char}
    (hc : c ∈ fieldText field) : isControl c = false := by
  rcases List.mem_append.mp hc with hc | hc
  · exact (hkey c hc).2.2.2
  · rcases List.mem_cons.mp hc with rfl | hc
    · decide
    · exact isControl_valueText hc

theorem isControl_lineText {fields : List (String × String)}
    (hkeys : ∀ field ∈ fields, PlainKey field.1) {c : Char} (hc : c ∈ lineText fields) :
    isControl c = false := by
  rcases mem_intercalate hc with rfl | ⟨w, hw, hc⟩
  · decide
  · rcases List.mem_cons.mp hw with rfl | hw
    · exact not_isControl_of_all (by decide) c hc
    · obtain ⟨field, hfield, rfl⟩ := List.mem_map.mp hw
      exact isControl_fieldText (hkeys field hfield) hc

/-! ## The two lines -/

def lineFields (name : String) (outcome : Outcome) (took at_ : Duration) (service : String) :
    List (String × String) :=
  [("phase", name), ("outcome", outcome.asStr), ("took_ms", toString (millis took)),
    ("at_ms", toString (millis at_)), ("service", service)]

def readyFields (at_ : Duration) (origin : Origin) (service : String) : List (String × String) :=
  [("phase", "ready"), ("outcome", "ok"), ("took_ms", toString (millis at_)),
    ("at_ms", toString (millis at_)), ("origin", origin.asStr), ("service", service)]

theorem line_eq (name : String) (outcome : Outcome) (took at_ : Duration) (service : String) :
    line name outcome took at_ service =
      String.ofList (lineText (lineFields name outcome took at_ service)) := by
  apply String.toList_injective
  rw [line, toList_pushValue, String.toList_ofList]
  simp only [String.toList_append, toList_pushValue, lineText, lineFields, List.map_cons,
    List.map_nil, fieldText, valueText_of_bare (bare_asStr outcome),
    valueText_of_bare (bare_toString _), List.intercalate_cons_cons, List.intercalate_singleton,
    List.append_assoc]
  rfl

theorem readyLine_eq (at_ : Duration) (origin : Origin) (service : String) :
    readyLine at_ origin service = String.ofList (lineText (readyFields at_ origin service)) := by
  have hready : valueText "ready" = "ready".toList := by decide +kernel
  have hok : valueText "ok" = "ok".toList := by decide +kernel
  apply String.toList_injective
  rw [readyLine, toList_pushValue, String.toList_ofList]
  simp only [String.toList_append, lineText, readyFields, List.map_cons, List.map_nil, fieldText,
    hready, hok, valueText_of_bare (bare_origin origin), valueText_of_bare (bare_toString _),
    List.intercalate_cons_cons, List.intercalate_singleton, List.append_assoc]
  rfl

theorem plainKey_lineFields (name : String) (outcome : Outcome) (took at_ : Duration)
    (service : String) : ∀ field ∈ lineFields name outcome took at_ service, PlainKey field.1 := by
  have hkeys : ∀ key ∈ ["phase", "outcome", "took_ms", "at_ms", "service"], PlainKey key := by
    decide
  intro field hfield
  exact hkeys field.1 (List.mem_map_of_mem hfield)

theorem plainKey_readyFields (at_ : Duration) (origin : Origin) (service : String) :
    ∀ field ∈ readyFields at_ origin service, PlainKey field.1 := by
  have hkeys : ∀ key ∈ ["phase", "outcome", "took_ms", "at_ms", "origin", "service"],
      PlainKey key := by decide
  intro field hfield
  exact hkeys field.1 (List.mem_map_of_mem hfield)

theorem millis_eq_min (duration : Duration) :
    millis duration = min (duration / 1000000) (2 ^ 64 - 1) := by
  rw [millis]
  split
  · exact (Nat.min_eq_left (Nat.le_pred_of_lt ‹_›)).symm
  · exact (Nat.min_eq_right (le_trans (Nat.sub_le _ _) (Nat.le_of_not_lt ‹_›))).symm

theorem read_line (name : String) (outcome : Outcome) (took at_ : Duration) (service : String) :
    Logfmt.read (line name outcome took at_ service) =
      some (("boot", none) ::
        (lineFields name outcome took at_ service).map fun field => (field.1, some field.2)) := by
  rw [line_eq]
  exact read_lineText (plainKey_lineFields name outcome took at_ service)

theorem read_readyLine (at_ : Duration) (origin : Origin) (service : String) :
    Logfmt.read (readyLine at_ origin service) =
      some (("boot", none) ::
        (readyFields at_ origin service).map fun field => (field.1, some field.2)) := by
  rw [readyLine_eq]
  exact read_lineText (plainKey_readyFields at_ origin service)

theorem asStr_injective {outcome outcome' : Outcome} (h : outcome.asStr = outcome'.asStr) :
    outcome = outcome' := by
  cases outcome <;> cases outcome' <;> first | rfl | exact absurd h (by decide +kernel)

theorem origin_injective {origin origin' : Origin} (h : origin.asStr = origin'.asStr) :
    origin = origin' := by
  cases origin <;> cases origin' <;> first | rfl | exact absurd h (by decide +kernel)

theorem decimal_injective {m n : ℕ} (h : toString m = toString n) : m = n := by
  have hm : (toString m).toList = Nat.toDigits 10 m := Nat.toList_repr
  have hn : (toString n).toList = Nat.toDigits 10 n := Nat.toList_repr
  calc
    m = Nat.ofDigitChars 10 (toString m).toList 0 := by
      rw [hm, Nat.ofDigitChars_toDigits (by omega) (by omega)]
    _ = Nat.ofDigitChars 10 (toString n).toList 0 := by rw [h]
    _ = n := by rw [hn, Nat.ofDigitChars_toDigits (by omega) (by omega)]

/-- What a line says is all that two equal lines agree on. -/
theorem line_inj {name name' : String} {outcome outcome' : Outcome}
    {took took' at_ at_' : Duration} {service service' : String} :
    line name outcome took at_ service = line name' outcome' took' at_' service' ↔
      name = name' ∧ outcome = outcome' ∧ millis took = millis took' ∧
        millis at_ = millis at_' ∧ service = service' := by
  constructor
  · intro h
    have hread := congrArg Logfmt.read h
    rw [read_line, read_line] at hread
    simp only [lineFields, List.map_cons, List.map_nil, Option.some.injEq, List.cons.injEq,
      Prod.mk.injEq, true_and, and_true] at hread
    obtain ⟨hname, houtcome, htook, hat, hservice⟩ := hread
    exact ⟨hname, asStr_injective houtcome, decimal_injective htook, decimal_injective hat,
      hservice⟩
  · rintro ⟨rfl, rfl, htook, hat, rfl⟩
    rw [line, line, htook, hat]

theorem readyLine_inj {at_ at_' : Duration} {origin origin' : Origin}
    {service service' : String} :
    readyLine at_ origin service = readyLine at_' origin' service' ↔
      millis at_ = millis at_' ∧ origin = origin' ∧ service = service' := by
  constructor
  · intro h
    have hread := congrArg Logfmt.read h
    rw [read_readyLine, read_readyLine] at hread
    simp only [readyFields, List.map_cons, List.map_nil, Option.some.injEq, List.cons.injEq,
      Prod.mk.injEq, true_and, and_true] at hread
    obtain ⟨htook, -, horigin, hservice⟩ := hread
    exact ⟨decimal_injective htook, origin_injective horigin, hservice⟩
  · rintro ⟨hat, rfl, rfl⟩
    rw [readyLine, readyLine, hat]

/-- A phase line has one field less than the milestone, even when the phase is called
`ready`. -/
theorem line_ne_readyLine (name : String) (outcome : Outcome) (took at_ : Duration)
    (service : String) (at_' : Duration) (origin : Origin) (service' : String) :
    line name outcome took at_ service ≠ readyLine at_' origin service' := by
  intro h
  have hread := congrArg Logfmt.read h
  rw [read_line, read_readyLine] at hread
  have hlength := congrArg List.length (Option.some.inj hread)
  simp [lineFields, readyFields] at hlength

/-- Boot log lines decode to what was logged, durations in whole milliseconds, and neither
a phase nor a service can forge one. -/
theorem lines_decode (name : String) (outcome : Outcome) (took at_ : Duration)
    (origin : Origin) (service : String) :
    (∀ c ∈ (line name outcome took at_ service).toList, isControl c = false) ∧
      (∀ c ∈ (readyLine at_ origin service).toList, isControl c = false) ∧
      Logfmt.read (line name outcome took at_ service) =
        some [("boot", none), ("phase", some name), ("outcome", some outcome.asStr),
          ("took_ms", some (toString (min (took / 1000000) (2 ^ 64 - 1)))),
          ("at_ms", some (toString (min (at_ / 1000000) (2 ^ 64 - 1)))),
          ("service", some service)] ∧
      Logfmt.read (readyLine at_ origin service) =
        some [("boot", none), ("phase", some "ready"), ("outcome", some "ok"),
          ("took_ms", some (toString (min (at_ / 1000000) (2 ^ 64 - 1)))),
          ("at_ms", some (toString (min (at_ / 1000000) (2 ^ 64 - 1)))),
          ("origin", some origin.asStr), ("service", some service)] ∧
      (∀ name' outcome' took' at_' service',
        line name outcome took at_ service = line name' outcome' took' at_' service' ↔
          name = name' ∧ outcome = outcome' ∧ millis took = millis took' ∧
            millis at_ = millis at_' ∧ service = service') ∧
      (∀ at_' origin' service',
        readyLine at_ origin service = readyLine at_' origin' service' ↔
          millis at_ = millis at_' ∧ origin = origin' ∧ service = service') ∧
      ∀ at_' origin' service',
        line name outcome took at_ service ≠ readyLine at_' origin' service' := by
  refine ⟨?_, ?_, ?_, ?_, ?_, ?_, ?_⟩
  · intro c hc
    rw [line_eq, String.toList_ofList] at hc
    exact isControl_lineText (plainKey_lineFields name outcome took at_ service) hc
  · intro c hc
    rw [readyLine_eq, String.toList_ofList] at hc
    exact isControl_lineText (plainKey_readyFields at_ origin service) hc
  · rw [read_line, ← millis_eq_min, ← millis_eq_min]
    rfl
  · rw [read_readyLine, ← millis_eq_min]
    rfl
  · exact fun _ _ _ _ _ => line_inj
  · exact fun _ _ _ => readyLine_inj
  · exact line_ne_readyLine name outcome took at_ service

end OtelBootstrap.Boot
