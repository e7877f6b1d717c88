import Ecapplog.Incidents
import Ecapplog.Payload

/-! How long the payload of a record can get, and which records are therefore never refused. -/

namespace Ecapplog

open JsonText (Value size bulk bulkItems bulkFields marks marksItems marksFields)

variable {bufferSize : Nat} {config : Config} {serde : SerdeJson} {escape : Char → List Char}

theorem utf8_length (text : String) : (utf8 text).length = size text.toList := by
  rw [← String.ofList_toList (s := text), utf8_ofList_length, String.toList_ofList, size]

def Record.bytes (record : Record) : Nat :=
  (utf8 (formatUtc record.time)).length + (utf8 record.priority.asStr).length +
    (utf8 record.category).length + (utf8 record.message).length + (utf8 record.source).length +
    (utf8 record.originalCategory).length +
    (record.extraCategories.map fun category => (utf8 category).length).sum +
    (utf8 record.color).length + (utf8 record.bgColor).length

theorem unlessEmpty_bulk (key value : String) :
    (utf8 value).length ≤ bulkFields (unlessEmpty key value) ∧
      bulkFields (unlessEmpty key value) ≤ size key.toList + (utf8 value).length := by
  unfold unlessEmpty
  split
  · rename_i empty
    subst empty
    exact ⟨Nat.le_refl _, Nat.zero_le _⟩
  · rw [bulkFields, bulkFields, bulk, utf8_length]
    omega

theorem unlessEmptySlice_bulk (key : String) (values : List String) :
    (values.map fun value => (utf8 value).length).sum ≤ bulkFields (unlessEmptySlice key values) ∧
      bulkFields (unlessEmptySlice key values) ≤
        size key.toList + (values.map fun value => (utf8 value).length).sum := by
  have strings : (values.map Value.str).map bulk = values.map fun value => (utf8 value).length := by
    rw [List.map_map]
    apply List.map_congr_left
    intro value _
    rw [Function.comp_apply, bulk, utf8_length]
  unfold unlessEmptySlice
  split
  · rename_i empty
    subst empty
    exact ⟨Nat.le_refl _, Nat.zero_le _⟩
  · rw [bulkFields, bulkFields, bulk, JsonText.bulkItems_eq, strings]
    omega

theorem fields_bulk (record : Record) :
    record.bytes ≤ bulkFields (LogPayload.fromRecord record).fields ∧
      bulkFields (LogPayload.fromRecord record).fields ≤ 78 + record.bytes := by
  have keys : size "time".toList = 4 ∧ size "priority".toList = 8 ∧ size "category".toList = 8 ∧
      size "message".toList = 7 ∧ size "source".toList = 6 ∧
      size "original_category".toList = 17 ∧ size "extra_categories".toList = 16 ∧
      size "color".toList = 5 ∧ size "bgcolor".toList = 7 := by decide
  have source := unlessEmpty_bulk "source" record.source
  have original := unlessEmpty_bulk "original_category" record.originalCategory
  have extra := unlessEmptySlice_bulk "extra_categories" record.extraCategories
  have color := unlessEmpty_bulk "color" record.color
  have bgColor := unlessEmpty_bulk "bgcolor" record.bgColor
  simp only [LogPayload.fields, LogPayload.fromRecord, JsonText.bulkFields_append, bulkFields,
    bulk, ← utf8_length] at *
  simp only [Record.bytes]
  omega

theorem unlessEmpty_marks (key value : String) :
    ((unlessEmpty key value).map fun field => marks field.2 + 4).sum ≤ 6 := by
  unfold unlessEmpty
  split
  · exact Nat.zero_le _
  · simp [marks]

theorem unlessEmptySlice_marks (key : String) (values : List String) :
    ((unlessEmptySlice key values).map fun field => marks field.2 + 4).sum ≤
      6 + 3 * values.length := by
  have each : (values.map Value.str).map (fun item => marks item + 1) = values.map fun _ => 3 := by
    rw [List.map_map]
    apply List.map_congr_left
    intro value _
    rw [Function.comp_apply, marks]
  have items := JsonText.marksItems_le (values.map Value.str)
  rw [each, List.map_const', List.sum_replicate_nat] at items
  unfold unlessEmptySlice
  split
  · exact Nat.zero_le _
  · simp only [List.map_cons, List.map_nil, List.sum_cons, List.sum_nil, marks]
    omega

theorem fields_marks (record : Record) :
    marks (.obj (LogPayload.fromRecord record).fields) ≤
      56 + 3 * record.extraCategories.length := by
  have source := unlessEmpty_marks "source" record.source
  have original := unlessEmpty_marks "original_category" record.originalCategory
  have extra := unlessEmptySlice_marks "extra_categories" record.extraCategories
  have color := unlessEmpty_marks "color" record.color
  have bgColor := unlessEmpty_marks "bgcolor" record.bgColor
  have all := JsonText.marksFields_le (LogPayload.fromRecord record).fields
  simp only [LogPayload.fields, LogPayload.fromRecord, List.map_append, List.sum_append,
    List.map_cons, List.map_nil, List.sum_cons, List.sum_nil, marks] at *
  omega

def Record.payloadBound (record : Record) : Nat :=
  6 * record.bytes + 3 * record.extraCategories.length + 524

theorem jsonOf_length (documented : serde.Documented escape) (record : Record) :
    record.bytes ≤ (jsonOf serde record).length ∧
      (jsonOf serde record).length ≤ record.payloadBound := by
  have content := fields_bulk record
  have punctuation := fields_marks record
  have ⟨least, most⟩ := JsonText.write_spread documented.legal
    (.obj (LogPayload.fromRecord record).fields)
  have whole : bulk (.obj (LogPayload.fromRecord record).fields) =
      bulkFields (LogPayload.fromRecord record).fields := by rw [bulk]
  rw [jsonOf, documented.compact, utf8_ofList_length, ← size, Record.payloadBound]
  omega

theorem Record.sendable_of_bound (documented : serde.Documented escape) {record : Record}
    (small : record.payloadBound ≤ maxPayloadSize) : Sendable serde record := by
  refine ⟨?_, (jsonOf_length documented record).2.trans small⟩
  rw [documented.compact]

/-- In every run: no record within the bound is ever condemned, none whose texts alone exceed
the limit is ever written, and without a record above the bound no report condemns one. -/
theorem small_records_pass {s : Sys} (documented : serde.Documented escape)
    (reached : Reachable config serde bufferSize s) :
    (∀ entry, entry.record.payloadBound ≤ maxPayloadSize → entry ∉ s.contents .discarded) ∧
    (∀ entry, maxPayloadSize < entry.record.bytes → entry ∉ s.contents .written) ∧
    ((∀ entry ∈ s.history.pushed, entry.record.payloadBound ≤ maxPayloadSize) →
      s.history.reports.filter Error.isUnsendable = []) := by
  have spared (entry : Entry) (small : entry.record.payloadBound ≤ maxPayloadSize) :
      entry ∉ s.contents .discarded := by
    intro member
    obtain ⟨⟨condemned, error⟩, among, rfl⟩ := List.mem_map.mp member
    have why := (reachable_noted reached).judged _ among
    rw [sendable_iff.mp (Record.sendable_of_bound documented small)] at why
    cases why
  refine ⟨spared, ?_, fun small => ?_⟩
  · intro entry large written
    have sendable := written_sendable reached entry written
    exact absurd ((jsonOf_length documented entry.record).1.trans sendable.2) (Nat.not_le.mpr large)
  · have reported : s.history.reports.filter Error.isUnsendable =
        s.history.discarded.map Prod.snd := (reachable_accounted reached).condemned
    rw [reported, List.map_eq_nil_iff, List.eq_nil_iff_forall_not_mem]
    intro pair among
    have member : pair.1 ∈ s.contents .discarded := List.mem_map_of_mem among
    exact spared pair.1 (small pair.1 ((contents_sound reached .discarded).2 _ member)) member

theorem small_records_pass_reconnect :
    ∃ s, runDefault 2 reconnectRun = some s ∧
      (∀ entry ∈ s.history.pushed, entry.record.payloadBound ≤ maxPayloadSize) ∧
      (∀ entry, entry.record.payloadBound ≤ maxPayloadSize → entry ∉ s.contents .discarded) ∧
      (∀ entry, maxPayloadSize < entry.record.bytes → entry ∉ s.contents .written) ∧
      ((∀ entry ∈ s.history.pushed, entry.record.payloadBound ≤ maxPayloadSize) →
        s.history.reports.filter Error.isUnsendable = []) := by
  obtain ⟨s, ran, small⟩ : ∃ s, runDefault 2 reconnectRun = some s ∧
      ∀ entry ∈ s.history.pushed, entry.record.payloadBound ≤ maxPayloadSize :=
    ⟨_, rfl, by decide⟩
  exact ⟨s, ran, small, small_records_pass compactSerde_documented (runDefault_reaches ran)⟩

end Ecapplog
