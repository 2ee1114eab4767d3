import OtelBootstrap.Proc.Age

/-! # The resident set -/

namespace OtelBootstrap.Proc

open Boot (Duration)
open Builder (parseU64)

/-- An error is a panic, which a build that checks overflow may end in. -/
def parseStatmResident (overflowChecks : Bool) (statm : String) : Except String (Option ℕ) :=
  match (splitWhitespace statm)[1]?.bind parseU64 with
  | none => .ok none
  | some residentPages => (Unsigned.mul overflowChecks residentPages 4096).map some

/-! ## Natural numbers in a text -/

def digitsOf (s : String) : List Char :=
  if s.toList.head? = some '+' then s.toList.tail else s.toList

/-- Decimal digits after an optional plus sign, however many. -/
def naturalOf (s : String) : Option ℕ :=
  if (digitsOf s).isEmpty || !(digitsOf s).all Char.isDigit then none
  else some ((digitsOf s).foldl (fun n c => 10 * n + (c.toNat - '0'.toNat)) 0)

theorem parseU64_eq (s : String) : parseU64 s = (naturalOf s).filter (· < 2 ^ 64) := by
  have hdigits : ∀ digits : List Char, digitsOf s = digits →
      (if digits.isEmpty || !digits.all Char.isDigit then none
        else
          let n := digits.foldl (fun n c => 10 * n + (c.toNat - '0'.toNat)) 0
          if n < 2 ^ 64 then some n else none) = (naturalOf s).filter (· < 2 ^ 64) := by
    rintro digits rfl
    unfold naturalOf
    split
    · rfl
    · simp only [Option.filter_some, decide_eq_true_eq]
  unfold parseU64
  apply hdigits
  rw [digitsOf]
  by_cases hplus : s.toList.head? = some '+'
  · obtain ⟨rest, hrest⟩ := List.head?_eq_some_iff.mp hplus
    rw [if_pos hplus, hrest]
    rfl
  · rw [if_neg hplus]
    split
    · rename_i rest hrest
      rw [hrest] at hplus
      exact absurd rfl hplus
    · rfl

theorem parseU64_eq_some_iff {s : String} {n : ℕ} :
    parseU64 s = some n ↔ naturalOf s = some n ∧ n < 2 ^ 64 := by
  rw [parseU64_eq, Option.filter_eq_some_iff, decide_eq_true_eq]

/-! ## Exact readers -/

/-- The second field of `statm`. -/
def residentField (statm : String) : Option String :=
  (splitWhitespace statm)[1]?

/-- What both readers say is exact, and they say something. -/
structure ReadsExactly {F : Type} (overflowChecks : Bool) (floats : FloatLibrary F)
    (statm stat uptime : String) : Prop where
  resident : ∃ bytes, parseStatmResident overflowChecks statm = .ok bytes ∧
    ∀ b, bytes = some b → ∃ field n, residentField statm = some field ∧
      naturalOf field = some n ∧ b = 4096 * n
  residentFits : ∀ field n, residentField statm = some field → naturalOf field = some n →
    2 ^ 64 ≤ 4096 * n → parseStatmResident overflowChecks statm = .ok none
  age : ∀ d, processAgeFrom floats stat uptime = some d →
    ∃ name fields ticks total, rsplitOnce stat ')' = some (name, fields) ∧
      startTicks fields = some ticks ∧ upFor floats uptime = some total ∧
      10000000 * ticks ≤ total ∧ d = total - 10000000 * ticks

section Resident

variable {overflowChecks : Bool} {statm field : String} {n : ℕ}

theorem parseStatmResident_of_none (h : (residentField statm).bind parseU64 = none) :
    parseStatmResident overflowChecks statm = .ok none := by
  rw [parseStatmResident, ← residentField, h]

theorem parseStatmResident_of_some (h : (residentField statm).bind parseU64 = some n) :
    parseStatmResident overflowChecks statm =
      (Unsigned.mul overflowChecks n 4096).map some := by
  rw [parseStatmResident, ← residentField, h]

/-- A field that is a `u64` is never reported as none. -/
theorem parseStatmResident_ne_none (hfield : residentField statm = some field)
    (hn : parseU64 field = some n) : parseStatmResident overflowChecks statm ≠ .ok none := by
  have hbind : (residentField statm).bind parseU64 = some n := by rw [hfield, Option.bind_some, hn]
  rw [parseStatmResident_of_some hbind]
  cases Unsigned.mul overflowChecks n 4096 with
  | error e => exact nofun
  | ok _ => exact nofun

theorem resident_exact (h : ∀ field n, residentField statm = some field →
    parseU64 field = some n → n < 2 ^ 52) :
    ∃ bytes, parseStatmResident overflowChecks statm = .ok bytes ∧
      ∀ b, bytes = some b → ∃ field n, residentField statm = some field ∧
        naturalOf field = some n ∧ b = 4096 * n := by
  cases hbind : (residentField statm).bind parseU64 with
  | none => exact ⟨none, parseStatmResident_of_none hbind, nofun⟩
  | some n =>
      obtain ⟨field, hfield, hn⟩ := Option.bind_eq_some_iff.mp hbind
      have hsmall := h field n hfield hn
      have hfits : n * 4096 < 2 ^ 64 := by omega
      refine ⟨some (n * 4096), ?_, ?_⟩
      · rw [parseStatmResident_of_some hbind, Unsigned.mul_of_fits _ hfits]
        rfl
      · intro b hb
        obtain rfl := Option.some.inj hb
        exact ⟨field, n, hfield, (parseU64_eq_some_iff.mp hn).1, Nat.mul_comm ..⟩

end Resident

theorem age_exact {F : Type} {floats : FloatLibrary F} {stat uptime : String} {d : Duration}
    (h : processAgeFrom floats stat uptime = some d) :
    ∃ name fields ticks total, rsplitOnce stat ')' = some (name, fields) ∧
      startTicks fields = some ticks ∧ upFor floats uptime = some total ∧
      10000000 * ticks ≤ total ∧ d = total - 10000000 * ticks := by
  cases hsplit : rsplitOnce stat ')' with
  | none =>
      rw [processAgeFrom_of_no_name floats hsplit] at h
      cases h
  | some parts =>
      obtain ⟨name, fields⟩ := parts
      obtain ⟨ticks, total, hticks, htotal, -, hle, hd⟩ :=
        (processAgeFrom_eq_some_iff floats hsplit uptime d).mp h
      exact ⟨name, fields, ticks, total, rfl, hticks, htotal, hle, hd⟩

/-- The readers are exact, in every build, as long as the resident pages are fewer than
`2 ^ 52`. -/
theorem reads_exactly_iff {F : Type} (overflowChecks : Bool) (floats : FloatLibrary F)
    (statm stat uptime : String) :
    ReadsExactly overflowChecks floats statm stat uptime ↔
      ∀ field n, residentField statm = some field → parseU64 field = some n → n < 2 ^ 52 := by
  constructor
  · intro h field n hfield hn
    rcases Nat.lt_or_ge n (2 ^ 52) with hlt | hge
    · exact hlt
    · have hnatural := (parseU64_eq_some_iff.mp hn).1
      have hnone := h.residentFits field n hfield hnatural (by omega)
      exact absurd hnone (parseStatmResident_ne_none hfield hn)
  · intro h
    refine ⟨resident_exact h, ?_, fun d hd => age_exact hd⟩
    intro field n hfield hn hoverflows
    apply parseStatmResident_of_none
    rw [hfield, Option.bind_some]
    cases hparse : parseU64 field with
    | none => rfl
    | some n' =>
        obtain ⟨hn', -⟩ := parseU64_eq_some_iff.mp hparse
        obtain rfl : n = n' := Option.some.inj (hn.symm.trans hn')
        have hsmall := h field n hfield hparse
        omega

/-- `2 ^ 52` resident pages read as none at all, or as a panic. -/
theorem resident_overflows :
    parseStatmResident false "1 4503599627370496" = .ok (some 0) ∧
      parseStatmResident true "1 4503599627370496" =
        .error "attempt to multiply with overflow" ∧
      ∀ overflowChecks, ¬ ReadsExactly overflowChecks sampleFloats "1 4503599627370496" "" "" := by
  refine ⟨by decide +kernel, by decide +kernel, ?_⟩
  intro overflowChecks h
  have hfield : residentField "1 4503599627370496" = some "4503599627370496" := by
    decide +kernel
  have hn : parseU64 "4503599627370496" = some 4503599627370496 := by decide +kernel
  have hnone := h.residentFits _ _ hfield (parseU64_eq_some_iff.mp hn).1 (by decide)
  exact parseStatmResident_ne_none hfield hn hnone

end OtelBootstrap.Proc
