import Mathlib.Tactic.SplitIfs
import Ecapplog.Proto

/-! The LOG payload as a reader by key sees it. `serde_json` is a parameter, with
what its documentation promises as assumptions. -/

namespace Ecapplog

open JsonText (Value Spells)

/-- A derived struct becomes one compact object in declaration order; quote and
backslash are escaped, control characters are escaped in some legal way, and
everything else is copied. -/
structure SerdeJson.Documented (serde : SerdeJson) (escape : Char → List Char) : Prop where
  compact : ∀ payload, serde.toWriter payload =
    (utf8 (String.ofList (JsonText.write escape (.obj payload.fields))), none)
  quote : escape '"' = ['\\', '"']
  backslash : escape '\\' = ['\\', '\\']
  control : ∀ c : Char, c.toNat < 0x20 → Spells c (escape c)
  verbatim : ∀ c : Char, c ≠ '"' → c ≠ '\\' → 0x20 ≤ c.toNat → escape c = [c]

theorem SerdeJson.Documented.legal {serde : SerdeJson} {escape : Char → List Char}
    (documented : serde.Documented escape) (c : Char) : Spells c (escape c) := by
  by_cases isQuote : c = '"'
  · rw [isQuote, documented.quote]
    exact .short '"' rfl
  by_cases isBackslash : c = '\\'
  · rw [isBackslash, documented.backslash]
    exact .short '\\' rfl
  rcases Nat.lt_or_ge c.toNat 0x20 with control | printable
  · exact documented.control c control
  · rw [documented.verbatim c isQuote isBackslash printable]
    exact .verbatim isQuote isBackslash printable

def fromUtf8 (bytes : Bytes) : Option String :=
  String.fromUTF8? ⟨bytes.toArray⟩

theorem fromUtf8_utf8 (text : String) : fromUtf8 (utf8 text) = some text := by
  have same : (⟨(utf8 text).toArray⟩ : ByteArray) = text.toByteArray := by
    simp [utf8]
  rw [fromUtf8, same, String.fromUTF8?, dif_pos text.isValidUTF8]
  rfl

def readObject (bytes : Bytes) : Option (List (String × Value)) :=
  match (fromUtf8 bytes).bind (fun text => JsonText.read text.toList) with
  | some (.obj fields) => some fields
  | _ => none

def textOf : Value → String
  | .str text => text
  | _ => ""

def stringAt (fields : List (String × Value)) (key : String) : String :=
  match fields.lookup key with
  | some value => textOf value
  | none => ""

def listAt (fields : List (String × Value)) (key : String) : List String :=
  match fields.lookup key with
  | some (.arr items) => items.map textOf
  | _ => []

theorem readObject_write {escape : Char → List Char} (legal : ∀ c, Spells c (escape c))
    (fields : List (String × Value)) :
    readObject (utf8 (String.ofList (JsonText.write escape (.obj fields)))) = some fields := by
  rw [readObject, fromUtf8_utf8, Option.bind_some, String.toList_ofList,
    JsonText.read_write legal]

@[simp] theorem lookup_unlessEmpty (key wanted value : String) :
    (unlessEmpty key value).lookup wanted =
      if wanted = key then (if value = "" then none else some (.str value)) else none := by
  unfold unlessEmpty
  split
  · rename_i empty
    simp
  · by_cases same : wanted = key
    · simp [same]
    · have differs : (wanted == key) = false := by simpa using same
      simp [List.lookup_cons, same, differs]

@[simp] theorem lookup_unlessEmptySlice (key wanted : String) (values : List String) :
    (unlessEmptySlice key values).lookup wanted =
      if wanted = key then (if values = [] then none else some (.arr (values.map .str)))
      else none := by
  unfold unlessEmptySlice
  split
  · rename_i empty
    simp
  · by_cases same : wanted = key
    · simp [same]
    · have differs : (wanted == key) = false := by simpa using same
      simp [List.lookup_cons, same, differs]

theorem unlessEmpty_keys (key value : String) :
    ((unlessEmpty key value).map Prod.fst).Sublist [key] := by
  unfold unlessEmpty
  split <;> simp

theorem unlessEmptySlice_keys (key : String) (values : List String) :
    ((unlessEmptySlice key values).map Prod.fst).Sublist [key] := by
  unfold unlessEmptySlice
  split <;> simp

theorem fields_keys (payload : LogPayload) :
    (payload.fields.map Prod.fst).Sublist
      (["time", "priority", "category", "message"] ++ ["source"] ++ ["original_category"] ++
        ["extra_categories"] ++ ["color"] ++ ["bgcolor"]) := by
  simp only [LogPayload.fields, List.map_append]
  refine List.Sublist.append (List.Sublist.append (List.Sublist.append (List.Sublist.append
    (List.Sublist.append ?_ ?_) ?_) ?_) ?_) ?_
  · exact List.Sublist.refl _
  · exact unlessEmpty_keys _ _
  · exact unlessEmpty_keys _ _
  · exact unlessEmptySlice_keys _ _
  · exact unlessEmpty_keys _ _
  · exact unlessEmpty_keys _ _

theorem fields_distinct (payload : LogPayload) : (payload.fields.map Prod.fst).Nodup :=
  List.Nodup.sublist (fields_keys payload) (by decide)

theorem mem_keys_unlessEmpty (key wanted value : String) :
    wanted ∈ (unlessEmpty key value).map Prod.fst ↔ wanted = key ∧ value ≠ "" := by
  unfold unlessEmpty
  split
  · rename_i empty
    simp [empty]
  · rename_i nonempty
    simp [nonempty]

theorem mem_keys_unlessEmptySlice (key wanted : String) (values : List String) :
    wanted ∈ (unlessEmptySlice key values).map Prod.fst ↔ wanted = key ∧ values ≠ [] := by
  unfold unlessEmptySlice
  split
  · rename_i empty
    simp [empty]
  · rename_i nonempty
    simp [nonempty]

theorem mem_keys_fields (payload : LogPayload) (key : String) :
    key ∈ payload.fields.map Prod.fst ↔
      key ∈ ["time", "priority", "category", "message"] ∨
      (key = "source" ∧ payload.source ≠ "") ∨
      (key = "original_category" ∧ payload.originalCategory ≠ "") ∨
      (key = "extra_categories" ∧ payload.extraCategories ≠ []) ∨
      (key = "color" ∧ payload.color ≠ "") ∨
      (key = "bgcolor" ∧ payload.bgColor ≠ "") := by
  simp only [LogPayload.fields, List.map_append, List.mem_append, mem_keys_unlessEmpty,
    mem_keys_unlessEmptySlice, or_assoc]
  rfl

structure ReadsBack (fields : List (String × Value)) (record : Record) : Prop where
  distinct : (fields.map Prod.fst).Nodup
  mandatory : ∀ key ∈ ["time", "priority", "category", "message"], key ∈ fields.map Prod.fst
  source_present : "source" ∈ fields.map Prod.fst ↔ record.source ≠ ""
  original_present : "original_category" ∈ fields.map Prod.fst ↔ record.originalCategory ≠ ""
  extra_present : "extra_categories" ∈ fields.map Prod.fst ↔ record.extraCategories ≠ []
  color_present : "color" ∈ fields.map Prod.fst ↔ record.color ≠ ""
  bgcolor_present : "bgcolor" ∈ fields.map Prod.fst ↔ record.bgColor ≠ ""
  time : stringAt fields "time" = formatUtc record.time
  priority : stringAt fields "priority" = record.priority.asStr
  category : stringAt fields "category" = record.category
  message : stringAt fields "message" = record.message
  source : stringAt fields "source" = record.source
  original : stringAt fields "original_category" = record.originalCategory
  extra : listAt fields "extra_categories" = record.extraCategories
  color : stringAt fields "color" = record.color
  bgcolor : stringAt fields "bgcolor" = record.bgColor

theorem stringAt_optional (fields : List (String × Value)) (key value : String)
    (found : fields.lookup key = if value = "" then none else some (.str value)) :
    stringAt fields key = value := by
  rw [stringAt, found]
  by_cases empty : value = ""
  · rw [if_pos empty, empty]
  · rw [if_neg empty]
    rfl

theorem listAt_optional (fields : List (String × Value)) (key : String) (values : List String)
    (found : fields.lookup key = if values = [] then none else some (.arr (values.map .str))) :
    listAt fields key = values := by
  rw [listAt, found]
  by_cases empty : values = []
  · rw [if_pos empty, empty]
  · rw [if_neg empty]
    change (values.map Value.str).map textOf = values
    rw [List.map_map]
    exact List.map_id values

theorem fields_readBack (record : Record) :
    ReadsBack (LogPayload.fromRecord record).fields record where
  distinct := fields_distinct _
  mandatory := by
    intro key member
    exact (mem_keys_fields _ key).mpr (Or.inl member)
  source_present := by
    simp [mem_keys_fields, -List.mem_map, LogPayload.fromRecord]
  original_present := by
    simp [mem_keys_fields, -List.mem_map, LogPayload.fromRecord]
  extra_present := by
    simp [mem_keys_fields, -List.mem_map, LogPayload.fromRecord]
  color_present := by
    simp [mem_keys_fields, -List.mem_map, LogPayload.fromRecord]
  bgcolor_present := by
    simp [mem_keys_fields, -List.mem_map, LogPayload.fromRecord]
  time := rfl
  priority := rfl
  category := rfl
  message := rfl
  source := by
    apply stringAt_optional
    simp [LogPayload.fields, List.lookup_append, List.lookup_cons, LogPayload.fromRecord]
  original := by
    apply stringAt_optional
    simp [LogPayload.fields, List.lookup_append, List.lookup_cons, LogPayload.fromRecord]
  extra := by
    apply listAt_optional
    simp [LogPayload.fields, List.lookup_append, List.lookup_cons, LogPayload.fromRecord]
  color := by
    apply stringAt_optional
    simp [LogPayload.fields, List.lookup_append, List.lookup_cons, LogPayload.fromRecord]
  bgcolor := by
    apply stringAt_optional
    simp [LogPayload.fields, List.lookup_append, List.lookup_cons, LogPayload.fromRecord]

structure SameOnWire (r r' : Record) : Prop where
  time : formatUtc r.time = formatUtc r'.time
  priority : r.priority.asStr = r'.priority.asStr
  category : r.category = r'.category
  message : r.message = r'.message
  source : r.source = r'.source
  original : r.originalCategory = r'.originalCategory
  extra : r.extraCategories = r'.extraCategories
  color : r.color = r'.color
  bgcolor : r.bgColor = r'.bgColor

theorem ReadsBack.sameOnWire {fields : List (String × Value)} {r r' : Record}
    (first : ReadsBack fields r) (second : ReadsBack fields r') : SameOnWire r r' where
  time := first.time.symm.trans second.time
  priority := first.priority.symm.trans second.priority
  category := first.category.symm.trans second.category
  message := first.message.symm.trans second.message
  source := first.source.symm.trans second.source
  original := first.original.symm.trans second.original
  extra := first.extra.symm.trans second.extra
  color := first.color.symm.trans second.color
  bgcolor := first.bgcolor.symm.trans second.bgcolor

theorem toWriter_readBack {serde : SerdeJson} {escape : Char → List Char}
    (documented : serde.Documented escape) (record : Record) :
    (serde.toWriter (.fromRecord record)).2 = none ∧
      readObject (serde.toWriter (.fromRecord record)).1 =
        some (LogPayload.fromRecord record).fields := by
  rw [documented.compact]
  exact ⟨rfl, readObject_write documented.legal _⟩

/-- The payload of every record reads back by key, and equal payloads come from
records that agree in everything the payload carries. -/
theorem payload_round_trip (serde : SerdeJson) (escape : Char → List Char)
    (documented : serde.Documented escape) :
    (∀ record, ∃ bytes fields, serde.toWriter (.fromRecord record) = (bytes, none) ∧
      readObject bytes = some fields ∧ ReadsBack fields record) ∧
    (∀ r r', serde.toWriter (.fromRecord r) = serde.toWriter (.fromRecord r') →
      SameOnWire r r') := by
  constructor
  · intro record
    obtain ⟨accepted, back⟩ := toWriter_readBack documented record
    exact ⟨_, _, Prod.ext rfl accepted, back, fields_readBack record⟩
  · intro r r' same
    have first := (toWriter_readBack documented r).2
    have second := (toWriter_readBack documented r').2
    rw [same, second] at first
    have again := fields_readBack r
    rw [← Option.some.inj first] at again
    exact again.sameOnWire (fields_readBack r')

def shortMark (c : Char) : Option Char :=
  if c = '"' then some '"'
  else if c = '\\' then some '\\'
  else if c.toNat = 8 then some 'b'
  else if c.toNat = 9 then some 't'
  else if c.toNat = 10 then some 'n'
  else if c.toNat = 12 then some 'f'
  else if c.toNat = 13 then some 'r'
  else none

def hexNibble (n : Nat) : Char :=
  Char.ofNat (if n < 10 then 48 + n else 87 + n)

def escapeChar (c : Char) : List Char :=
  match shortMark c with
  | some mark => ['\\', mark]
  | none =>
      if c.toNat < 0x20 then
        ['\\', 'u', '0', '0', hexNibble (c.toNat / 16), hexNibble (c.toNat % 16)]
      else [c]

def compactSerde : SerdeJson where
  toWriter payload :=
    (utf8 (String.ofList (JsonText.write escapeChar (.obj payload.fields))), none)

theorem shortMark_meaning (c mark : Char) (marked : shortMark c = some mark) :
    JsonText.shortEscape mark = some c := by
  have named (n : Nat) (code : c.toNat = n) : c = Char.ofNat n := by
    rw [← code, Char.ofNat_toNat]
  unfold shortMark at marked
  split_ifs at marked with quote backslash b t n f r <;> cases marked
  · rw [quote]; rfl
  · rw [backslash]; rfl
  · rw [named 8 b]; rfl
  · rw [named 9 t]; rfl
  · rw [named 10 n]; rfl
  · rw [named 12 f]; rfl
  · rw [named 13 r]; rfl

theorem hexEscape_control : ∀ n < 0x20,
    JsonText.hexEscape '0' '0' (hexNibble (n / 16)) (hexNibble (n % 16)) = some (Char.ofNat n) := by
  decide

theorem compactSerde_documented : compactSerde.Documented escapeChar where
  compact := fun _ => rfl
  quote := rfl
  backslash := rfl
  control := by
    intro c control
    unfold escapeChar
    split
    · rename_i mark marked
      exact .short mark (shortMark_meaning c mark marked)
    · rw [if_pos control]
      apply Spells.hex
      rw [hexEscape_control c.toNat control, Char.ofNat_toNat]
  verbatim := by
    intro c notQuote notBackslash printable
    have unmarked : shortMark c = none := by
      unfold shortMark
      split_ifs <;> first | rfl | contradiction | omega
    rw [escapeChar, unmarked]
    exact if_neg (by omega)

theorem payload_round_trip_compact :
    (∀ record, ∃ bytes fields, compactSerde.toWriter (.fromRecord record) = (bytes, none) ∧
      readObject bytes = some fields ∧ ReadsBack fields record) ∧
    (∀ r r', compactSerde.toWriter (.fromRecord r) = compactSerde.toWriter (.fromRecord r') →
      SameOnWire r r') :=
  payload_round_trip compactSerde escapeChar compactSerde_documented

end Ecapplog
