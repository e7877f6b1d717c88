import Mathlib.Data.String.Basic
import Ecapplog.Foundations.KeyedMap

/-! The visitor of the `tracing` adapter: fields into a JSON object, the message apart. -/

namespace Ecapplog.AdapterTracing

structure F64 where
  bits : UInt64
  deriving DecidableEq

def F64.isFinite (x : F64) : Bool := x.bits.toNat / 2 ^ 52 % 2 ^ 11 != 2047

inductive Number where
  | int (n : Int)
  | float (x : { x : F64 // x.isFinite = true })
  deriving DecidableEq

def Number.fromF64 (x : F64) : Option Number :=
  if finite : x.isFinite = true then some (.float ⟨x, finite⟩) else none

/-- `serde_json::Value`, as far as the layer builds it. The entries of an object are in
the order of their keys. -/
inductive Value where
  | bool (b : Bool)
  | number (n : Number)
  | string (text : String)
  | array (items : List Value)
  | object (entries : List (String × Value))

abbrev Map := KeyedMap String Value

/-- The texts that the standard library and `serde_json` make: `f64::to_string`, and
`serde_json::to_string` unless it fails. -/
structure ToText where
  f64 : F64 → String
  json : Value → Option String

/-- A recorded value, by the visitor method it comes through. -/
inductive FieldValue where
  | str (value : String)
  | debug (rendered : String)
  | i64 (value : Int64)
  | u64 (value : UInt64)
  | i128 (value : BitVec 128)
  | u128 (value : BitVec 128)
  | bool (value : Bool)
  | f64 (value : F64)
  | error (rendered : String)
  deriving DecidableEq

structure Field where
  name : String
  value : FieldValue
  deriving DecidableEq

structure JsonVisitor where
  fields : Map
  message : Option String
  skipLogFields : Bool

def startsWith (text start : String) : Bool := start.toList.isPrefixOf text.toList

namespace JsonVisitor

def insert (v : JsonVisitor) (field : String) (value : Value) : JsonVisitor :=
  if v.skipLogFields && startsWith field "log." then v
  else { v with fields := v.fields.insert field value }

def recordStr (v : JsonVisitor) (field value : String) : JsonVisitor :=
  if field = "message" then { v with message := some value }
  else v.insert field (.string value)

def recordDebug (v : JsonVisitor) (field rendered : String) : JsonVisitor :=
  if field = "message" then { v with message := some rendered }
  else v.insert field (.string rendered)

def recordI64 (v : JsonVisitor) (field : String) (value : Int64) : JsonVisitor :=
  v.insert field (.number (.int value.toInt))

def recordU64 (v : JsonVisitor) (field : String) (value : UInt64) : JsonVisitor :=
  v.insert field (.number (.int value.toNat))

def recordI128 (v : JsonVisitor) (field : String) (value : BitVec 128) : JsonVisitor :=
  v.insert field (.string (toString value.toInt))

def recordU128 (v : JsonVisitor) (field : String) (value : BitVec 128) : JsonVisitor :=
  v.insert field (.string (toString value.toNat))

def recordBool (v : JsonVisitor) (field : String) (value : Bool) : JsonVisitor :=
  v.insert field (.bool value)

def recordF64 (text : ToText) (v : JsonVisitor) (field : String) (value : F64) : JsonVisitor :=
  match Number.fromF64 value with
  | some number => v.insert field (.number number)
  | none => v.insert field (.string (text.f64 value))

def recordError (v : JsonVisitor) (field rendered : String) : JsonVisitor :=
  v.insert field (.string rendered)

variable (text : ToText)

def record (v : JsonVisitor) (field : Field) : JsonVisitor :=
  match field.value with
  | .str value => v.recordStr field.name value
  | .debug rendered => v.recordDebug field.name rendered
  | .i64 value => v.recordI64 field.name value
  | .u64 value => v.recordU64 field.name value
  | .i128 value => v.recordI128 field.name value
  | .u128 value => v.recordU128 field.name value
  | .bool value => v.recordBool field.name value
  | .f64 value => v.recordF64 text field.name value
  | .error rendered => v.recordError field.name rendered

def recordAll (v : JsonVisitor) (fields : List Field) : JsonVisitor :=
  fields.foldl (record text) v

end JsonVisitor

def FieldValue.text : FieldValue → Option String
  | .str value => some value
  | .debug rendered => some rendered
  | _ => none

def FieldValue.json (text : ToText) : FieldValue → Value
  | .str value => .string value
  | .debug rendered => .string rendered
  | .i64 value => .number (.int value.toInt)
  | .u64 value => .number (.int value.toNat)
  | .i128 value => .string (toString value.toInt)
  | .u128 value => .string (toString value.toNat)
  | .bool value => .bool value
  | .f64 value =>
      match Number.fromF64 value with
      | some number => .number number
      | none => .string (text.f64 value)
  | .error rendered => .string rendered

def Field.entry (text : ToText) (field : Field) : String × Value :=
  (field.name, field.value.json text)

def Field.isMessage (field : Field) : Bool :=
  field.name == "message" && field.value.text.isSome

def Field.isLog (field : Field) : Bool := startsWith field.name "log."

def Field.inObject (skipLogFields : Bool) (field : Field) : Bool :=
  !field.isMessage && !(skipLogFields && field.isLog)

def objectFields (skipLogFields : Bool) (fields : List Field) : List Field :=
  fields.filter (Field.inObject skipLogFields)

def valuesOf (name : String) (fields : List Field) : List FieldValue :=
  (fields.filter fun field => field.name == name).map Field.value

def messages (fields : List Field) : List String :=
  (valuesOf "message" fields).filterMap FieldValue.text

variable {text : ToText}

theorem messages_cons (field : Field) (rest : List Field) :
    messages (field :: rest) =
      (if field.isMessage then field.value.text.toList else []) ++ messages rest := by
  by_cases here : field.name = "message"
  · cases isText : field.value.text <;> simp [messages, valuesOf, Field.isMessage, here, isText]
  · simp [messages, valuesOf, Field.isMessage, here]

namespace JsonVisitor

theorem record_eq (v : JsonVisitor) (field : Field) :
    v.record text field =
      if field.isMessage then { v with message := field.value.text }
      else v.insert field.name (field.value.json text) := by
  rcases field with ⟨name, value⟩
  cases value with
  | str value => by_cases here : name = "message" <;> simp [record, recordStr, here,
      Field.isMessage, FieldValue.text, FieldValue.json]
  | debug rendered => by_cases here : name = "message" <;> simp [record, recordDebug, here,
      Field.isMessage, FieldValue.text, FieldValue.json]
  | f64 value =>
      cases number : Number.fromF64 value <;> simp [record, recordF64, number, Field.isMessage,
        FieldValue.text, FieldValue.json]
  | _ => simp [record, recordI64, recordU64, recordI128, recordU128, recordBool, recordError,
      Field.isMessage, FieldValue.text, FieldValue.json]

theorem recordAll_eq (v : JsonVisitor) (fields : List Field) :
    v.recordAll text fields =
      { v with
        fields := v.fields.insertAll ((objectFields v.skipLogFields fields).map (Field.entry text))
        message := (messages fields).getLast?.or v.message } := by
  induction fields generalizing v with
  | nil => rfl
  | cons field rest ih =>
      change (v.record text field).recordAll text rest = _
      rw [ih, record_eq]
      cases message : field.isMessage with
      | true =>
          have isText : field.value.text.isSome = true := by
            simp only [Field.isMessage, Bool.and_eq_true] at message
            exact message.2
          rcases Option.isSome_iff_exists.mp isText with ⟨value, isText⟩
          have apart : objectFields v.skipLogFields (field :: rest) =
              objectFields v.skipLogFields rest :=
            List.filter_cons_of_neg (by simp [Field.inObject, message])
          have found : messages (field :: rest) = value :: messages rest := by
            simp [messages_cons, message, isText]
          rw [apart, found, List.getLast?_cons, isText]
          cases (messages rest).getLast? <;> rfl
      | false =>
          have other : messages (field :: rest) = messages rest := by
            simp [messages_cons, message]
          rw [other]
          cases drop : v.skipLogFields && field.isLog with
          | true =>
              have apart : objectFields v.skipLogFields (field :: rest) =
                  objectFields v.skipLogFields rest :=
                List.filter_cons_of_neg (by rw [Field.inObject, message, drop]; decide)
              have same : v.insert field.name (field.value.json text) = v := if_pos drop
              simp only [apart, same, Bool.false_eq_true, if_false]
          | false =>
              have inside : objectFields v.skipLogFields (field :: rest) =
                  field :: objectFields v.skipLogFields rest :=
                List.filter_cons_of_pos (by rw [Field.inObject, message, drop]; rfl)
              have put : v.insert field.name (field.value.json text) =
                  { v with fields := v.fields.insert field.name (field.value.json text) } :=
                if_neg (Bool.eq_false_iff.mp drop)
              simp only [inside, put, Bool.false_eq_true, if_false]
              rfl

end JsonVisitor

end Ecapplog.AdapterTracing
