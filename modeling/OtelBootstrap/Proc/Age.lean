import OtelBootstrap.Builder.Settings
import OtelBootstrap.Library.Attempt
import OtelBootstrap.Library.Text
import OtelBootstrap.Library.Unsigned

/-! # The age of the process -/

namespace OtelBootstrap.Proc

open Boot (Duration isWhitespace)
open Builder (parseU64)

/-! ## Reading -/

/-- `str::rsplit_once`. -/
def rsplitOnce (s : String) (c : Char) : Option (String × String) :=
  (Text.rsplitOnce c s.toList).map fun parts => (String.ofList parts.1, String.ofList parts.2)

/-- `str::split_whitespace`. -/
def splitWhitespace (s : String) : List String :=
  (Text.words isWhitespace s.toList).map String.ofList

/-- `Duration::checked_sub`. -/
def checkedSub (a b : Duration) : Option Duration :=
  if b ≤ a then some (a - b) else none

/-- What the standard library makes of floating-point numbers: `str::parse::<f64>` and
`Duration::try_from_secs_f64`. -/
structure FloatLibrary (F : Type) where
  parse : String → Option F
  tryFromSecs : F → Option Duration

def millisPerTick : ℕ := 1000 / 100

/-- A millisecond is `1000000` nanoseconds. -/
def processAgeFrom {F : Type} (floats : FloatLibrary F) (stat uptime : String) :
    Option Duration := do
  let fields := (← rsplitOnce stat ')').2
  let startTicks ← parseU64 (← (splitWhitespace fields)[19]?)
  let uptimeSecs ← floats.parse (← (splitWhitespace uptime).head?)
  let uptime ← floats.tryFromSecs uptimeSecs
  let millis ← Unsigned.checkedMul startTicks millisPerTick
  checkedSub uptime (1000000 * millis)

theorem checkedSub_eq_some_iff {a b d : Duration} :
    checkedSub a b = some d ↔ b ≤ a ∧ d = a - b := by
  simp [checkedSub, eq_comm]

/-! ## What the two texts say -/

section Age

variable {F : Type} (floats : FloatLibrary F)

/-- The start of the process, in clock ticks: the 20th field behind the command name. -/
def startTicks (fields : String) : Option ℕ :=
  (splitWhitespace fields)[19]?.bind parseU64

/-- How long the machine is up. -/
def upFor (uptime : String) : Option Duration :=
  ((splitWhitespace uptime).head?.bind floats.parse).bind floats.tryFromSecs

/-- A process that started `ticks` of 10 ms after a machine that is up for `total`. -/
def Aged (ticks : ℕ) (total age : Duration) : Prop :=
  ticks * 10 < 2 ^ 64 ∧ 10000000 * ticks ≤ total ∧ age = total - 10000000 * ticks

theorem checkedAge_eq_some_iff {ticks : ℕ} {total age : Duration} :
    ((Unsigned.checkedMul ticks millisPerTick).bind fun millis =>
        checkedSub total (1000000 * millis)) = some age ↔ Aged ticks total age := by
  have hscale : 1000000 * (ticks * millisPerTick) = 10000000 * ticks := by
    rw [millisPerTick]
    omega
  rw [Option.bind_eq_some_iff, Aged, ← hscale]
  constructor
  · rintro ⟨millis, hmillis, hage⟩
    obtain ⟨hfits, rfl⟩ := Unsigned.checkedMul_eq_some_iff.mp hmillis
    exact ⟨hfits, checkedSub_eq_some_iff.mp hage⟩
  · rintro ⟨hfits, hage⟩
    exact ⟨ticks * millisPerTick, Unsigned.checkedMul_eq_some_iff.mpr ⟨hfits, rfl⟩,
      checkedSub_eq_some_iff.mpr hage⟩

variable {stat name fields : String}

theorem processAgeFrom_of_no_name (h : rsplitOnce stat ')' = none) (uptime : String) :
    processAgeFrom floats stat uptime = none := by
  rw [processAgeFrom, h]
  rfl

/-- Behind the command name only the two readings count. -/
theorem processAgeFrom_of_split (h : rsplitOnce stat ')' = some (name, fields))
    (uptime : String) :
    processAgeFrom floats stat uptime =
      (startTicks fields).bind fun ticks => (upFor floats uptime).bind fun total =>
        (Unsigned.checkedMul ticks millisPerTick).bind fun millis =>
          checkedSub total (1000000 * millis) := by
  simp [processAgeFrom, h, startTicks, upFor, Option.bind_assoc]

theorem processAgeFrom_eq_some_iff (h : rsplitOnce stat ')' = some (name, fields))
    (uptime : String) (age : Duration) :
    processAgeFrom floats stat uptime = some age ↔
      ∃ ticks total, startTicks fields = some ticks ∧ upFor floats uptime = some total ∧
        Aged ticks total age := by
  rw [processAgeFrom_of_split floats h, Option.bind_eq_some_iff]
  constructor
  · rintro ⟨ticks, hticks, hrest⟩
    obtain ⟨total, htotal, hage⟩ := Option.bind_eq_some_iff.mp hrest
    exact ⟨ticks, total, hticks, htotal, checkedAge_eq_some_iff.mp hage⟩
  · rintro ⟨ticks, total, hticks, htotal, hage⟩
    exact ⟨ticks, hticks, Option.bind_eq_some_iff.mpr
      ⟨total, htotal, checkedAge_eq_some_iff.mpr hage⟩⟩

end Age

/-! ## Whatever the process is called -/

/-- The contents of `/proc/self/stat`. -/
def statText (pid comm fields : String) : String :=
  pid ++ " (" ++ comm ++ ") " ++ fields

/-- A command name may imitate the end of itself: the last parenthesis is still its own. -/
theorem rsplitOnce_statText {fields : String} (h : ')' ∉ fields.toList) (pid comm : String) :
    rsplitOnce (statText pid comm fields) ')' =
      some (pid ++ " (" ++ comm, String.ofList (' ' :: fields.toList)) := by
  have hback : ')' ∉ ' ' :: fields.toList := by
    rw [List.mem_cons, not_or]
    exact ⟨by decide, h⟩
  have htext : (statText pid comm fields).toList =
      (pid ++ " (" ++ comm).toList ++ ')' :: ' ' :: fields.toList := by
    simp [statText]
  rw [rsplitOnce, htext, Text.rsplitOnce_append hback, Option.map_some, String.ofList_toList]

theorem startTicks_cons_space (fields : String) :
    startTicks (String.ofList (' ' :: fields.toList)) = startTicks fields := by
  have hspace : isWhitespace ' ' = true := by decide
  rw [startTicks, splitWhitespace, String.toList_ofList, Text.words_cons hspace]
  rfl

/-- The age depends on the fields behind the command name and on the uptime alone, and is there
exactly when the start and the uptime can be read and the start is not later. -/
theorem process_age_law {F : Type} (floats : FloatLibrary F) {fields : String}
    (hfields : ')' ∉ fields.toList) (uptime : String) :
    ∃ age, (∀ pid comm, processAgeFrom floats (statText pid comm fields) uptime = age) ∧
      ∀ d, age = some d ↔ ∃ ticks total, startTicks fields = some ticks ∧
        upFor floats uptime = some total ∧ Aged ticks total d := by
  have hage : ∀ pid comm d, processAgeFrom floats (statText pid comm fields) uptime = some d ↔
      ∃ ticks total, startTicks fields = some ticks ∧ upFor floats uptime = some total ∧
        Aged ticks total d := by
    intro pid comm d
    rw [processAgeFrom_eq_some_iff floats (rsplitOnce_statText hfields pid comm),
      startTicks_cons_space]
  refine ⟨processAgeFrom floats (statText "" "" fields) uptime, ?_, hage "" ""⟩
  intro pid comm
  apply Option.ext
  intro d
  rw [hage pid comm d, hage "" "" d]

/-- Seconds in nanoseconds, for one text. -/
def sampleFloats : FloatLibrary ℕ where
  parse s := if s = "15.50" then some 15500000000 else none
  tryFromSecs secs := some secs

def sampleFields : String :=
  "S 1 42 42 0 -1 4194560 100 0 0 0 1 2 0 0 20 0 1 0 1000 1000 10 0"

theorem process_age_odd_name :
    processAgeFrom sampleFloats (statText "42" "my) S 1 (odd) cmd" sampleFields)
      "15.50 30.00\n" = some 5500000000 := by
  have hfields : ')' ∉ sampleFields.toList := by decide +kernel
  obtain ⟨age, hsame, hiff⟩ := process_age_law sampleFloats hfields "15.50 30.00\n"
  have hticks : startTicks sampleFields = some 1000 := by decide +kernel
  have hup : upFor sampleFloats "15.50 30.00\n" = some 15500000000 := by decide +kernel
  rw [hsame, hiff]
  exact ⟨1000, 15500000000, hticks, hup, by decide, by decide, by decide⟩

end OtelBootstrap.Proc
