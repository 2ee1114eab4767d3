import Mathlib.Algebra.Group.Nat.Defs
import Mathlib.Data.Nat.Basic

/-! # Boot log lines

Instants, wall-clock times and durations are counted in nanoseconds. -/

namespace OtelBootstrap.Boot

abbrev Instant := ℕ

abbrev SystemTime := ℕ

abbrev Duration := ℕ

/-- How a phase ended. -/
inductive Outcome where
  | ok
  | failed
  deriving DecidableEq, Repr

def Outcome.asStr : Outcome → String
  | .ok => "ok"
  | .failed => "failed"

/-- What a timeline's `at_ms` and root span count from. -/
inductive Origin where
  | processStart
  | firstUse
  deriving DecidableEq, Repr

def Origin.asStr : Origin → String
  | .processStart => "process_start"
  | .firstUse => "first_use"

/-- `char::is_whitespace`: the Unicode `White_Space` property. -/
def isWhitespace (c : Char) : Bool :=
  let n := c.toNat
  (9 ≤ n && n ≤ 13) || n == 0x20 || n == 0x85 || n == 0xa0 || n == 0x1680 ||
    (0x2000 ≤ n && n ≤ 0x200a) || n == 0x2028 || n == 0x2029 || n == 0x202f ||
    n == 0x205f || n == 0x3000

/-- `char::is_control`: the Unicode general category `Cc`. -/
def isControl (c : Char) : Bool :=
  let n := c.toNat
  n ≤ 0x1f || (0x7f ≤ n && n ≤ 0x9f)

/-- `u64::try_from(duration.as_millis()).unwrap_or(u64::MAX)`. -/
def millis (duration : Duration) : ℕ :=
  let ms := duration / 1000000
  if ms < 2 ^ 64 then ms else 2 ^ 64 - 1

/-- `i64::try_from(n).unwrap_or(i64::MAX)`. -/
def i64OrMax (n : ℕ) : ℕ :=
  if n < 2 ^ 63 then n else 2 ^ 63 - 1

def millisI64 (duration : Duration) : ℕ :=
  i64OrMax (duration / 1000000)

/-- How one character is written inside a quoted value. -/
def escape (c : Char) : List Char :=
  if c = '\"' then ['\\', '\"']
  else if c = '\\' then ['\\', '\\']
  else if c = '\n' then ['\\', 'n']
  else if isControl c then
    ['\\', 'u', '\x7b'] ++ Nat.toDigits 16 c.toNat ++ ['\x7d']
  else [c]

/-- Whether a value parses back without quotes. -/
def bare (value : String) : Bool :=
  !value.isEmpty && value.toList.all fun c =>
    !isWhitespace c && !isControl c && c != '\"' && c != '=' && c != '\\'

/-- A `logfmt` value, quoted when it would otherwise not parse back. -/
def pushValue (out value : String) : String :=
  if bare value then out ++ value
  else ((out.push '\"') ++ String.ofList (value.toList.flatMap escape)).push '\"'

/-- The line written when a phase completes. -/
def line (name : String) (outcome : Outcome) (took at_ : Duration) (service : String) :
    String :=
  let out := pushValue "boot phase=" name
  let out := out ++ " outcome=" ++ outcome.asStr ++ " took_ms=" ++ toString (millis took) ++
    " at_ms=" ++ toString (millis at_) ++ " service="
  pushValue out service

/-- The milestone line: the whole boot, and what it was counted from. -/
def readyLine (at_ : Duration) (origin : Origin) (service : String) : String :=
  let ms := toString (millis at_)
  let out := "boot phase=ready outcome=ok took_ms=" ++ ms ++ " at_ms=" ++ ms ++
    " origin=" ++ origin.asStr ++ " service="
  pushValue out service

example : line "load \"cache\"" .failed 5000000 9000000 "svc" =
    "boot phase=\"load \\\"cache\\\"\" outcome=failed took_ms=5 at_ms=9 service=svc" := by
  decide +kernel

end OtelBootstrap.Boot
