import Ecapplog.Decoder
import Ecapplog.Payload
import Ecapplog.TimestampText

/-! What the mock server prints of the frames it handles. Its JSON reader is a
parameter, with what the documentation promises as assumptions. -/

namespace Ecapplog.MockServer

open JsonText (Value Spells)

/-- `serde_json::Value` as far as the server asks it. -/
structure SerdeValue (V : Type) where
  fromSlice : Bytes → Except SerdeError V
  get : V → String → Option V
  asStr : V → Option String
  display : V → String

/-- What `handle` prints of one frame, before the text is put together. -/
inductive Line where
  | banner (appName : Bytes)
  | entry (time priority category message : String) (badTimestamp : Bool)
      (details : List (String × String)) (extraCategories : Option String)
  | invalidJson (error : SerdeError) (payload : Bytes)
  | unknownCommand (command : UInt8)
  deriving DecidableEq

def isPlausible (time : String) : Bool :=
  let bytes := utf8 time
  bytes.length == 23 && bytes[10]? == some 84 && bytes[19]? == some 46

section Lines

variable {V : Type} (reader : SerdeValue V)

def get (entry : V) (key : String) : String :=
  ((reader.get entry key).bind reader.asStr).getD ""

def entryLine (entry : V) : Line :=
  let time := get reader entry "time"
  let details := ["source", "original_category", "color", "bgcolor"].map fun key =>
    (key, get reader entry key)
  .entry time (get reader entry "priority") (get reader entry "category")
    (get reader entry "message") (!isPlausible time) (details.filter fun (_, value) => value ≠ "")
    ((reader.get entry "extra_categories").map reader.display)

def line (frame : Frame) : Line :=
  if frame.command = cmdBanner then .banner (frame.payload.drop bannerPrefix.length)
  else if frame.command = cmdLog then
    match reader.fromSlice frame.payload with
    | .ok entry => entryLine reader entry
    | .error error => .invalidJson error frame.payload
  else .unknownCommand frame.command

def output (chunks : List Bytes) : List Line :=
  (chunks.foldl handleChunk Server.connected).1.map (line reader)

end Lines

def Line.complains : Line → Bool
  | .banner _ => false
  | .entry _ _ _ _ badTimestamp _ _ => badTimestamp
  | .invalidJson _ _ => true
  | .unknownCommand _ => true

def Line.isEntry : Line → Bool
  | .entry _ _ _ _ _ _ _ => true
  | _ => false

def recordLine (record : Record) : Line :=
  let details := [("source", record.source), ("original_category", record.originalCategory),
    ("color", record.color), ("bgcolor", record.bgColor)]
  .entry (formatUtc record.time) record.priority.asStr record.category record.message
    (!isPlausible (formatUtc record.time)) (details.filter fun (_, value) => value ≠ "")
    (if record.extraCategories = [] then none
      else some (String.ofList
        (JsonText.write escapeChar (.arr (record.extraCategories.map .str)))))

inductive Plain : Value → Prop where
  | str (text : String) : Plain (.str text)
  | arr (items : List String) : Plain (.arr (items.map .str))

inductive SerdeValue.Denotes {V : Type} (reader : SerdeValue V) (read : V) : Value → Prop where
  | str (text : String) (isText : reader.asStr read = some text) :
      reader.Denotes read (.str text)
  | arr (items : List Value) (noText : reader.asStr read = none)
      (compact : reader.display read = String.ofList (JsonText.write escapeChar (.arr items))) :
      reader.Denotes read (.arr items)

/-- An object of strings and of arrays of strings, under distinct keys, is read back by
key, in whatever legal way its characters are spelt. -/
structure SerdeValue.Documented {V : Type} (reader : SerdeValue V) : Prop where
  reads : ∀ escape : Char → List Char, (∀ c, Spells c (escape c)) →
    ∀ fields : List (String × Value), (fields.map Prod.fst).Nodup →
      (∀ field ∈ fields, Plain field.2) → ∃ entry,
        reader.fromSlice (utf8 (String.ofList (JsonText.write escape (.obj fields)))) = .ok entry ∧
          ∀ key, Option.Rel reader.Denotes (reader.get entry key) (fields.lookup key)

theorem unlessEmpty_plain (key value : String) :
    ∀ field ∈ unlessEmpty key value, Plain field.2 := by
  intro field member
  unfold unlessEmpty at member
  split at member
  · cases member
  · rw [List.mem_singleton.mp member]
    exact .str value

theorem unlessEmptySlice_plain (key : String) (values : List String) :
    ∀ field ∈ unlessEmptySlice key values, Plain field.2 := by
  intro field member
  unfold unlessEmptySlice at member
  split at member
  · cases member
  · rw [List.mem_singleton.mp member]
    exact .arr values

theorem fields_plain (payload : LogPayload) : ∀ field ∈ payload.fields, Plain field.2 := by
  intro field member
  simp only [LogPayload.fields, List.mem_append] at member
  rcases member with ((((mandatory | source) | original) | extra) | color) | bgColor
  · simp only [List.mem_cons, List.not_mem_nil, or_false] at mandatory
    rcases mandatory with rfl | rfl | rfl | rfl <;> exact .str _
  · exact unlessEmpty_plain _ _ field source
  · exact unlessEmpty_plain _ _ field original
  · exact unlessEmptySlice_plain _ _ field extra
  · exact unlessEmpty_plain _ _ field color
  · exact unlessEmpty_plain _ _ field bgColor

theorem lookup_extraCategories (record : Record) :
    (LogPayload.fromRecord record).fields.lookup "extra_categories" =
      if record.extraCategories = [] then none
      else some (.arr (record.extraCategories.map .str)) := by
  simp [LogPayload.fields, List.lookup_append, List.lookup_cons, LogPayload.fromRecord]

section Reading

variable {V : Type} {reader : SerdeValue V} {entry : V} {fields : List (String × Value)}

theorem get_eq_stringAt {key : String}
    (denotes : Option.Rel reader.Denotes (reader.get entry key) (fields.lookup key)) :
    get reader entry key = stringAt fields key := by
  unfold get stringAt
  generalize reader.get entry key = found, fields.lookup key = written at denotes
  cases denotes with
  | none => rfl
  | some value =>
      cases value with
      | str text isText =>
          rw [Option.bind_some, isText]
          rfl
      | arr items noText compact =>
          rw [Option.bind_some, noText]
          rfl

theorem entryLine_record {record : Record}
    (denotes : ∀ key, Option.Rel reader.Denotes (reader.get entry key)
      ((LogPayload.fromRecord record).fields.lookup key)) :
    entryLine reader entry = recordLine record := by
  have back := fields_readBack record
  have text (key : String) := get_eq_stringAt (denotes key)
  have extra : (reader.get entry "extra_categories").map reader.display =
      if record.extraCategories = [] then none
      else some (String.ofList
        (JsonText.write escapeChar (.arr (record.extraCategories.map .str)))) := by
    have there := denotes "extra_categories"
    rw [lookup_extraCategories] at there
    generalize reader.get entry "extra_categories" = found at there
    by_cases absent : record.extraCategories = []
    · rw [if_pos absent] at there ⊢
      cases there
      rfl
    · rw [if_neg absent] at there ⊢
      cases there with
      | some value =>
          cases value with
          | arr items noText compact => rw [Option.map_some, compact]
  simp only [entryLine, recordLine, text, back.time, back.priority, back.category, back.message,
    List.map_cons, List.map_nil, back.source, back.original, back.color, back.bgcolor, extra]

theorem line_log {serde : SerdeJson} {escape : Char → List Char}
    (documented : serde.Documented escape) (read : reader.Documented) (record : Record) :
    line reader ⟨cmdLog, (serde.toWriter (.fromRecord record)).1⟩ = recordLine record := by
  obtain ⟨entry, found, denotes⟩ := read.reads escape documented.legal _
    (fields_distinct (.fromRecord record)) (fields_plain (.fromRecord record))
  rw [line, if_neg (by decide : cmdLog ≠ cmdBanner), if_pos rfl, documented.compact]
  simp only [found]
  exact entryLine_record denotes

theorem line_banner (appName : String) :
    line reader ⟨cmdBanner, bannerPayload appName⟩ = .banner (utf8 appName) := by
  rw [line, if_pos rfl, bannerPayload, List.drop_left]

end Reading

theorem utf8_ascii {text : List Char} (ascii : ∀ c ∈ text, c.utf8Size = 1) :
    utf8 (String.ofList text) = text.map fun c => c.val.toUInt8 := by
  have encoded : utf8 (String.ofList text) = text.flatMap String.utf8EncodeChar := by
    simp [utf8, List.utf8Encode]
  rw [encoded]
  clear encoded
  induction text with
  | nil => rfl
  | cons c text ih =>
      have first := String.utf8EncodeChar_eq_singleton (ascii c List.mem_cons_self)
      rw [List.flatMap_cons, first, ih fun d later => ascii d (List.mem_cons_of_mem c later)]
      rfl

theorem text_ascii (m : Moment) : ∀ c ∈ m.text, c.utf8Size = 1 := by
  intro c member
  simp only [Moment.text, List.mem_append, List.mem_cons] at member
  rcases member with year | rfl | month | rfl | day | rfl | hour | rfl | minute | rfl | second |
    rfl | milli
  case inr.inl | inr.inr.inr.inl => rfl
  all_goals first | rfl | exact Decimal.fixed_ascii (by assumption)

theorem isPlausible_formatUtc {time : SystemTime} (range : FourDigitYear time) :
    isPlausible (formatUtc time) = true := by
  obtain ⟨m, _, written⟩ := formatUtc_moment range
  have long := m.utf8_text_length
  have marks : m.text[10]? = some 'T' ∧ m.text[19]? = some '.' := by
    simp [Moment.text, Decimal.fixed_length]
  rw [written, isPlausible, long, utf8_ascii (text_ascii m), List.getElem?_map, List.getElem?_map,
    marks.1, marks.2]
  rfl

theorem recordLine_complains {record : Record} (range : FourDigitYear record.time) :
    (recordLine record).complains = false := by
  rw [recordLine, Line.complains, isPlausible_formatUtc range]
  rfl

def textReader : SerdeValue Value where
  fromSlice bytes :=
    match (fromUtf8 bytes).bind fun text => JsonText.read text.toList with
    | some value => .ok value
    | none => .error ⟨"expected value"⟩
  get entry key :=
    match entry with
    | .obj fields => fields.lookup key
    | _ => none
  asStr
    | .str text => some text
    | _ => none
  display value := String.ofList (JsonText.write escapeChar value)

theorem textReader_denotes {value : Value} (plain : Plain value) :
    textReader.Denotes value value := by
  cases plain with
  | str text => exact .str text rfl
  | arr items => exact .arr _ rfl rfl

theorem textReader_documented : textReader.Documented where
  reads := by
    intro escape legal fields _ plain
    refine ⟨.obj fields, ?_, ?_⟩
    · simp only [textReader, fromUtf8_utf8, Option.bind_some, String.toList_ofList,
        JsonText.read_write legal]
    · intro key
      change Option.Rel textReader.Denotes (fields.lookup key) (fields.lookup key)
      cases found : fields.lookup key with
      | none => exact .none
      | some value =>
          obtain ⟨before, after, rfl, _⟩ := List.lookup_eq_some_iff.mp found
          exact .some (textReader_denotes (plain (key, value) (by simp)))

end Ecapplog.MockServer
