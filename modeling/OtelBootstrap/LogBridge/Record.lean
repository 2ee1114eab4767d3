import Mathlib.Data.BitVec
import OtelBootstrap.Library.Upsert

/-! # Field visitors of the log bridge -/

namespace OtelBootstrap.LogBridge

open Upsert

/-! ## Values -/

/-- `opentelemetry::logs::AnyValue`; floats are their bits. -/
inductive AnyValue where
  | int (n : Int64)
  | double (bits : UInt64)
  | string (s : String)
  | bytes (b : List UInt8)
  | boolean (b : Bool)
  | listAny (l : List AnyValue)
  | map (m : List (String × AnyValue))

/-- The value of a `tracing` field, by the `Visit` method it is handed to. `debug` is any
other value, given as the text that `{:?}` writes for it. -/
inductive FieldValue where
  | str (s : String)
  | bool (b : Bool)
  | i64 (n : Int64)
  | u64 (n : UInt64)
  | i128 (n : BitVec 128)
  | u128 (n : BitVec 128)
  | f64 (bits : UInt64)
  | debug (text : String)
  deriving DecidableEq, Repr

structure Field where
  name : String
  value : FieldValue
  deriving DecidableEq, Repr

/-- What the standard library decides: the text of a float, and the order in which a hash
map is walked. -/
structure Platform where
  formatF64 : UInt64 → String
  iter : List (String × String) → List (String × String)
  iter_perm : ∀ entries, (iter entries).Perm entries

/-! ## Captured span fields -/

/-- `str::trim_matches`. -/
def trimMatches (c : Char) (s : String) : String :=
  String.ofList (((s.toList.dropWhile (· == c)).reverse.dropWhile (· == c)).reverse)

/-- The fields captured so far, and the names to capture. -/
structure FieldCollector where
  fields : List (String × String)
  keys : List String

namespace FieldCollector

def recordStr (visitor : FieldCollector) (name value : String) : FieldCollector :=
  if visitor.keys.contains name then
    { visitor with fields := upsert name value visitor.fields }
  else visitor

def recordDebug (visitor : FieldCollector) (name text : String) : FieldCollector :=
  if visitor.keys.contains name then
    { visitor with fields := upsert name (trimMatches '\"' text) visitor.fields }
  else visitor

/-- Every method that the visitor does not define falls back to `record_debug`. -/
def visit (platform : Platform) (visitor : FieldCollector) (field : Field) : FieldCollector :=
  match field.value with
  | .str s => visitor.recordStr field.name s
  | .bool b => visitor.recordDebug field.name (toString b)
  | .i64 n => visitor.recordDebug field.name (toString n.toInt)
  | .u64 n => visitor.recordDebug field.name (toString n.toNat)
  | .i128 n => visitor.recordDebug field.name (toString n.toInt)
  | .u128 n => visitor.recordDebug field.name (toString n.toNat)
  | .f64 bits => visitor.recordDebug field.name (platform.formatF64 bits)
  | .debug text => visitor.recordDebug field.name text

def record (platform : Platform) (visitor : FieldCollector) (fields : List Field) :
    FieldCollector :=
  fields.foldl (visit platform) visitor

end FieldCollector

/-! ## Log records -/

inductive Severity where
  | trace
  | debug
  | info
  | warn
  | error
  deriving DecidableEq, Repr

inductive Level where
  | trace
  | debug
  | info
  | warn
  | error
  deriving DecidableEq, Repr

def Level.asStr : Level → String
  | .trace => "TRACE"
  | .debug => "DEBUG"
  | .info => "INFO"
  | .warn => "WARN"
  | .error => "ERROR"

def severityOfLevel : Level → Severity
  | .trace => .trace
  | .debug => .debug
  | .info => .info
  | .warn => .warn
  | .error => .error

structure LogRecord where
  severityNumber : Option Severity := none
  severityText : Option String := none
  target : Option String := none
  eventName : Option String := none
  body : Option AnyValue := none
  attributes : List (String × AnyValue) := []

namespace LogRecord

/-- Attributes are appended; the record never looks for an earlier one. -/
def addAttribute (record : LogRecord) (key : String) (value : AnyValue) : LogRecord :=
  { record with attributes := record.attributes ++ [(key, value)] }

def setBody (record : LogRecord) (value : AnyValue) : LogRecord :=
  { record with body := some value }

end LogRecord

/-! ## Event fields -/

namespace LogRecordVisitor

def recordStr (record : LogRecord) (name value : String) : LogRecord :=
  if name = "message" then record.setBody (.string value)
  else record.addAttribute name (.string value)

def recordDebug (record : LogRecord) (name text : String) : LogRecord :=
  if name = "message" then record.setBody (.string text)
  else record.addAttribute name (.string text)

/-- The integers that do not fit `i64` have no method of their own. -/
def visit (record : LogRecord) (field : Field) : LogRecord :=
  match field.value with
  | .str s => recordStr record field.name s
  | .bool b => record.addAttribute field.name (.boolean b)
  | .i64 n => record.addAttribute field.name (.int n)
  | .u64 n => recordDebug record field.name (toString n.toNat)
  | .i128 n => recordDebug record field.name (toString n.toInt)
  | .u128 n => recordDebug record field.name (toString n.toNat)
  | .f64 bits => record.addAttribute field.name (.double bits)
  | .debug text => recordDebug record field.name text

def record (log : LogRecord) (fields : List Field) : LogRecord :=
  fields.foldl visit log

end LogRecordVisitor

end OtelBootstrap.LogBridge
