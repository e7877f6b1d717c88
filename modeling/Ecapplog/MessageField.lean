import Ecapplog.Source

/-! The message of an event apart from its other fields. -/

namespace Ecapplog.AdapterTracing

def FieldValue.rendering (text : ToText) : FieldValue → String
  | .str value => value
  | .debug rendered => rendered
  | .i64 value => toString value.toInt
  | .u64 value => toString value.toNat
  | .i128 value => toString value.toInt
  | .u128 value => toString value.toNat
  | .bool value => toString value
  | .f64 value => text.f64 value
  | .error rendered => rendered

/-- The field named `message` becomes the entry's message and nothing else; every other
field, but those of the `log` bridge, is found under its own name. -/
structure Separates (text : ToText) (layer : TracingLayer) (registry : Registry)
    (now : SystemTime) (event : Event) : Prop where
  message : ∀ value, ⟨"message", value⟩ ∈ event.fields →
    (layer.onEvent text registry now event).message = value.rendering text
  silent : (∀ field ∈ event.fields, field.name ≠ "message") →
    (layer.onEvent text registry now event).message = ""
  apart : (fieldsIn (layer.source text registry event).entries).lookup "message" = none
  others : ∀ field ∈ event.fields, field.name ≠ "message" →
    (event.fromLogFacade && field.isLog) = false →
    (fieldsIn (layer.source text registry event).entries).lookup field.name =
      some (field.value.json text)

variable {text : ToText}

theorem valuesOf_of_absent {name : String} {fields : List Field}
    (absent : ∀ field ∈ fields, field.name ≠ name) : valuesOf name fields = [] := by
  rw [valuesOf, List.filter_eq_nil_iff.mpr, List.map_nil]
  intro field member
  simpa using absent field member

theorem valuesOf_of_mem {name : String} {value : FieldValue} {fields : List Field}
    (distinct : (fields.map Field.name).Nodup) (member : ⟨name, value⟩ ∈ fields) :
    valuesOf name fields = [value] := by
  induction fields with
  | nil => cases member
  | cons field rest ih =>
      rcases List.nodup_cons.mp distinct with ⟨fresh, others⟩
      rcases List.mem_cons.mp member with same | later
      · have absent : valuesOf name rest = [] := by
          apply valuesOf_of_absent
          rintro other later rfl
          exact fresh (List.mem_map.mpr ⟨other, later, by rw [← same]⟩)
        subst same
        simp only [valuesOf] at absent
        simp [valuesOf, absent]
      · have elsewhere : field.name ≠ name := by
          rintro rfl
          exact fresh (List.mem_map.mpr ⟨_, later, rfl⟩)
        have tail := ih others later
        simp only [valuesOf] at tail
        simp [valuesOf, elsewhere, tail]

theorem onEvent_message (layer : TracingLayer) (registry : Registry) (now : SystemTime)
    (event : Event) :
    (layer.onEvent text registry now event).message =
      (messages event.fields).getLast?.getD "" := by
  rw [TracingLayer.onEvent_eq, TracingLayer.visitEvent, JsonVisitor.recordAll_eq]
  exact congrArg (Option.getD · "") Option.or_none

theorem lookup_fieldsIn (layer : TracingLayer) (registry : Registry) (event : Event)
    (name : String) :
    (fieldsIn (layer.source text registry event).entries).lookup name =
      KeyedMap.last name
        ((objectFields event.fromLogFacade event.fields).map (Field.entry text)) := by
  rw [(showsEvent text layer registry event).fields]
  change (TracingLayer.visitEvent text event).fields.find name = _
  rw [TracingLayer.visitEvent, JsonVisitor.recordAll_eq]
  rw [KeyedMap.find_insertAll, KeyedMap.find_empty, Option.or_none]

theorem lookup_of_mem (text : ToText) (layer : TracingLayer) (registry : Registry) {event : Event}
    (distinct : (event.fields.map Field.name).Nodup) {field : Field}
    (member : field ∈ event.fields) (inside : field.inObject event.fromLogFacade = true) :
    (fieldsIn (layer.source text registry event).entries).lookup field.name =
      some (field.value.json text) := by
  have names : ((objectFields event.fromLogFacade event.fields).map (Field.entry text)).map
      Prod.fst = (objectFields event.fromLogFacade event.fields).map Field.name := by
    rw [List.map_map]
    rfl
  have few : ((objectFields event.fromLogFacade event.fields).map Field.name).Nodup :=
    distinct.sublist (List.filter_sublist.map _)
  rw [lookup_fieldsIn, KeyedMap.last_eq_some (names ▸ few)]
  exact List.mem_map.mpr ⟨field, List.mem_filter.mpr ⟨member, inside⟩, rfl⟩

/-- The message is apart exactly where no field named `message` comes through a visitor
method that does not look for it. -/
theorem message_separated_iff (text : ToText) (layer : TracingLayer) (registry : Registry)
    (now : SystemTime) (event : Event) (distinct : (event.fields.map Field.name).Nodup) :
    Separates text layer registry now event ↔
      ∀ value, ⟨"message", value⟩ ∈ event.fields → value.text.isSome = true := by
  constructor
  · intro separated value member
    by_contra other
    have textless : value.text = none := by simpa using other
    have notLog : startsWith "message" "log." = false := by decide
    have inside : (⟨"message", value⟩ : Field).inObject event.fromLogFacade = true := by
      simp [Field.inObject, Field.isMessage, Field.isLog, textless, notLog]
    have found := lookup_of_mem text layer registry distinct member inside
    rw [separated.apart] at found
    cases found
  · intro texts
    refine ⟨?_, ?_, ?_, ?_⟩
    · intro value member
      rw [onEvent_message, messages, valuesOf_of_mem distinct member]
      cases value with
      | str value => rfl
      | debug rendered => rfl
      | _ => cases texts _ member
    · intro absent
      rw [onEvent_message, messages, valuesOf_of_absent absent]
      rfl
    · rw [lookup_fieldsIn]
      apply KeyedMap.last_eq_none.mpr
      intro pair member
      rcases List.mem_map.mp member with ⟨field, inside, rfl⟩
      rcases List.mem_filter.mp inside with ⟨given, kept⟩
      intro named
      have isText := texts field.value (named ▸ given)
      simp only [Field.inObject, Field.isMessage, isText, Bool.and_true, Bool.and_eq_true,
        Bool.not_eq_true', beq_eq_false_iff_ne] at kept
      exact kept.1 named
    · intro field member other notLog
      apply lookup_of_mem text layer registry distinct member
      simp [Field.inObject, Field.isMessage, other, notLog]

theorem message_separated_iff_count :
    Separates plainText .default [] 0
      (ownEvent none [⟨"message", .debug "hello"⟩, ⟨"count", .u64 7⟩]) := by
  refine (message_separated_iff plainText .default [] 0 _ (by decide)).mpr ?_
  intro value member
  rcases List.mem_cons.mp member with same | later
  · cases same
    rfl
  · simp at later

theorem number_message_misplaced :
    ¬ Separates plainText .default [] 0 (ownEvent none [⟨"message", .i64 7⟩]) := by
  intro separated
  have message := separated.message (.i64 7) (.head _)
  rw [onEvent_message] at message
  exact absurd message (by decide)

end Ecapplog.AdapterTracing
