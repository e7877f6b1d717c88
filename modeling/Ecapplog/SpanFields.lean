import Ecapplog.Source

/-! The fields of a span over its life: what a span is opened with and what is recorded
on it later, and what the source of an event shows of it. -/

namespace Ecapplog.AdapterTracing

def recordedOn (id : Nat) (callbacks : List Callback) : List Field :=
  callbacks.flatMap fun
    | .record other values => if other = id then values else []
    | _ => []

def lastWriterWins (text : ToText) (fields : List Field) : Map :=
  KeyedMap.empty.insertAll (fields.map (Field.entry text))

/-- Wherever the span shows in the source of an event, it shows these fields. -/
def Attaches (text : ToText) (layer : TracingLayer) (registry : Registry) (id : Nat)
    (fields : Map) : Prop :=
  ∀ (event : Event) (ids : List Nat) (innermost k : Nat), event.span = some innermost →
    registry.Nested ids innermost → ids[k]? = some id →
      ((spansIn (layer.source text registry event).entries)[k]?).map fieldsIn =
        some fields.entries

def textMessages (fields : List Field) : List FieldValue :=
  (valuesOf "message" fields).filter fun value => value.text.isSome

def otherMessages (fields : List Field) : List FieldValue :=
  (valuesOf "message" fields).filter fun value => value.text.isNone

/-- What a span keeps under the name `message`: the last value recorded later that is not a
text, else the text it was opened with, else what it was opened with. -/
def keptMessage (attrs later : List Field) : Option FieldValue :=
  (otherMessages later).getLast?.or
    ((textMessages attrs).getLast?.or (otherMessages attrs).getLast?)

/-- The last value recorded under the name `message` is the one kept, or looks the same. -/
def MessageKept (text : ToText) (attrs later : List Field) : Prop :=
  ∀ value ∈ (valuesOf "message" (attrs ++ later)).getLast?,
    (keptMessage attrs later).map (FieldValue.json text) = some (value.json text)

variable {text : ToText}

theorem valuesOf_cons (name : String) (field : Field) (rest : List Field) :
    valuesOf name (field :: rest) =
      if field.name = name then field.value :: valuesOf name rest else valuesOf name rest := by
  by_cases here : field.name = name <;> simp [valuesOf, here]

theorem valuesOf_append (name : String) (fields more : List Field) :
    valuesOf name (fields ++ more) = valuesOf name fields ++ valuesOf name more := by
  simp [valuesOf]

theorem last_entries (name : String) (fields : List Field) :
    KeyedMap.last name (fields.map (Field.entry text)) =
      (valuesOf name fields).getLast?.map (FieldValue.json text) := by
  induction fields with
  | nil => rfl
  | cons field rest ih =>
      rw [List.map_cons, KeyedMap.last_cons, ih, valuesOf_cons, Field.entry]
      by_cases here : field.name = name
      · rw [if_pos here.symm, if_pos here, List.getLast?_cons]
        cases (valuesOf name rest).getLast? <;> rfl
      · rw [if_neg (Ne.symm here), if_neg here, Option.or_none]

theorem find_lastWriterWins (fields : List Field) (name : String) :
    (lastWriterWins text fields).find name =
      (valuesOf name fields).getLast?.map (FieldValue.json text) := by
  rw [lastWriterWins, KeyedMap.find_insertAll, last_entries]
  exact Option.or_none

theorem valuesOf_objectFields (name : String) (fields : List Field) :
    valuesOf name (objectFields false fields) =
      if name = "message" then otherMessages fields else valuesOf name fields := by
  induction fields with
  | nil => simp [otherMessages, valuesOf, objectFields]
  | cons field rest ih =>
      rw [otherMessages] at ih
      rw [otherMessages, valuesOf_cons, valuesOf_cons]
      cases message : field.isMessage with
      | true =>
          have apart : objectFields false (field :: rest) = objectFields false rest :=
            List.filter_cons_of_neg (by simp [Field.inObject, message])
          rcases Bool.and_eq_true_iff.mp message with ⟨named, isText⟩
          have named : field.name = "message" := beq_iff_eq.mp named
          rw [apart, ih, named]
          by_cases same : name = "message"
          · rw [if_pos same, if_pos same, if_pos rfl, List.filter_cons,
              if_neg (by simpa [Option.isSome_iff_ne_none] using isText)]
          · rw [if_neg same, if_neg same, if_neg (Ne.symm same)]
      | false =>
          have inside : objectFields false (field :: rest) = field :: objectFields false rest :=
            List.filter_cons_of_pos (by simp [Field.inObject, message])
          rw [inside, valuesOf_cons, ih]
          by_cases same : name = "message"
          · rw [if_pos same, if_pos same, same]
            by_cases named : field.name = "message"
            · have textless : field.value.text.isNone = true := by
                simpa [Field.isMessage, named] using message
              rw [if_pos named, if_pos named, List.filter_cons, if_pos textless]
            · rw [if_neg named, if_neg named]
          · rw [if_neg same, if_neg same]

theorem last_messages (values : List FieldValue) :
    (values.filterMap FieldValue.text).getLast?.map Value.string =
      (values.filter fun value => value.text.isSome).getLast?.map (FieldValue.json text) := by
  induction values with
  | nil => rfl
  | cons value rest ih =>
      cases isText : value.text with
      | none => rw [List.filterMap_cons_none isText, List.filter_cons_of_neg (by simp [isText]), ih]
      | some message =>
          have same : value.json text = .string message := by
            cases value <;> simp_all [FieldValue.text, FieldValue.json]
          rw [List.filterMap_cons_some isText, List.filter_cons_of_pos (by simp [isText]),
            List.getLast?_cons, List.getLast?_cons]
          cases last : (rest.filterMap FieldValue.text).getLast? <;>
            cases last' : (rest.filter fun value => value.text.isSome).getLast? <;>
              simp_all

theorem find_spanFields (attrs : List Field) (name : String) :
    (TracingLayer.spanFields text attrs).find name =
      if name = "message" then
        ((textMessages attrs).getLast?.or (otherMessages attrs).getLast?).map (FieldValue.json text)
      else (valuesOf name attrs).getLast?.map (FieldValue.json text) := by
  have object : (KeyedMap.empty.insertAll ((objectFields false attrs).map (Field.entry text))).find
      name = (if name = "message" then otherMessages attrs else valuesOf name attrs).getLast?.map
        (FieldValue.json text) := by
    rw [KeyedMap.find_insertAll, last_entries, KeyedMap.find_empty, Option.or_none,
      valuesOf_objectFields]
  have message : (messages attrs).getLast?.map Value.string =
      (textMessages attrs).getLast?.map (FieldValue.json text) := last_messages _
  rw [TracingLayer.spanFields, JsonVisitor.recordAll_eq, Option.map_or, ← message]
  simp only [Option.or_none]
  cases (messages attrs).getLast? with
  | none =>
      rw [object, Option.map_none, Option.none_or]
      split <;> rfl
  | some value =>
      rw [KeyedMap.find_insert, object]
      split <;> rfl

theorem find_recorded (fields : Map) (values : List Field) (name : String) :
    (TracingLayer.recorded text fields values).find name =
      (if name = "message" then (otherMessages values).getLast?.map (FieldValue.json text)
        else (valuesOf name values).getLast?.map (FieldValue.json text)).or (fields.find name) := by
  rw [TracingLayer.recorded, KeyedMap.find_insertAll, last_entries, valuesOf_objectFields]
  split <;> rfl

theorem recorded_eq_iff (attrs later : List Field) :
    TracingLayer.recorded text (TracingLayer.spanFields text attrs) later =
        lastWriterWins text (attrs ++ later) ↔ MessageKept text attrs later := by
  have message : (TracingLayer.recorded text (TracingLayer.spanFields text attrs) later).find
      "message" = (keptMessage attrs later).map (FieldValue.json text) := by
    rw [find_recorded, find_spanFields, if_pos rfl, if_pos rfl, keptMessage, Option.map_or,
      Option.map_or, Option.map_or]
  constructor
  · intro same value last
    rw [← message, same, find_lastWriterWins, last]
    rfl
  · intro kept
    apply KeyedMap.ext_find
    intro name
    by_cases named : name = "message"
    · rw [named, message, find_lastWriterWins]
      cases last : (valuesOf "message" (attrs ++ later)).getLast? with
      | some value => exact kept value last
      | none =>
          have absent : valuesOf "message" later = [] ∧ valuesOf "message" attrs = [] := by
            simpa [valuesOf_append] using last
          simp [keptMessage, textMessages, otherMessages, absent]
    · rw [find_recorded, find_spanFields, if_neg named, if_neg named, find_lastWriterWins,
        valuesOf_append, List.getLast?_append, Option.map_or]

theorem recorded_append (fields : Map) (values more : List Field) :
    TracingLayer.recorded text fields (values ++ more) =
      TracingLayer.recorded text (TracingLayer.recorded text fields values) more := by
  rw [TracingLayer.recorded, TracingLayer.recorded, TracingLayer.recorded, objectFields,
    List.filter_append, List.map_append, KeyedMap.insertAll_append]
  rfl

theorem dispatch_slot {layer : TracingLayer} {s t : Stack} {callback : Callback} {id : Nat}
    {name : String} {parent : Option Nat} {fields : Map}
    (found : s.registry.span id = some ⟨name, parent, some fields⟩)
    (taken : s.dispatch text [layer] callback = some t) :
    t.registry.span id =
      some ⟨name, parent, some (TracingLayer.recorded text fields (recordedOn id [callback]))⟩ := by
  cases callback with
  | newSpan newName newParent attrs =>
      have older (fresh : SpanData) : Registry.span (fresh :: s.registry) id =
          s.registry.span id := if_neg (Nat.ne_of_lt (Registry.span_lt found))
      rw [Stack.dispatch_newSpan] at taken
      split at taken
      · cases taken
        exact (older _).trans found
      · split at taken
        · cases taken
          exact (older _).trans found
        · cases taken
  | record other values =>
      rw [Stack.dispatch_record] at taken
      cases taken
      by_cases same : other = id
      · have here : recordedOn id [.record other values] = values := by
          simp [recordedOn, same]
        rw [here, same]
        simp only [TracingLayer.onRecord_some layer found rfl, Registry.span_setFields, if_true,
          found]
        rfl
      · have elsewhere : recordedOn id [.record other values] = [] := by
          simp [recordedOn, same]
        rw [elsewhere]
        cases slot : (s.registry.span other).bind SpanData.fields with
        | none =>
            simp only [TracingLayer.onRecord_none layer slot]
            exact found
        | some held =>
            rcases Option.bind_eq_some_iff.mp slot with ⟨span, there, holds⟩
            simp only [TracingLayer.onRecord_some layer there holds, Registry.span_setFields,
              if_neg (Ne.symm same)]
            exact found
  | event now event =>
      cases taken
      exact found

theorem run_slot {layer : TracingLayer} {callbacks : List Callback} {start finish : Stack}
    {id : Nat} {name : String} {parent : Option Nat} {fields : Map}
    (found : start.registry.span id = some ⟨name, parent, some fields⟩)
    (ran : PartialRun.run (Stack.dispatch text [layer]) start callbacks = some finish) :
    finish.registry.span id =
      some ⟨name, parent, some (TracingLayer.recorded text fields (recordedOn id callbacks))⟩ := by
  induction callbacks generalizing start fields with
  | nil =>
      cases ran
      exact found
  | cons callback rest ih =>
      rcases PartialRun.run_cons_some.mp ran with ⟨next, first, later⟩
      have split : recordedOn id (callback :: rest) =
          recordedOn id [callback] ++ recordedOn id rest := by
        rw [recordedOn, List.flatMap_cons, recordedOn, List.flatMap_singleton, recordedOn]
      rw [split, recorded_append]
      exact ih (dispatch_slot found first) later

theorem attaches_slot {layer : TracingLayer} (included : layer.includeSpans = true)
    {registry : Registry} {id : Nat} {span : SpanData} {fields : Map}
    (found : registry.span id = some span) (slot : span.fields = some fields) :
    Attaches text layer registry id fields := by
  intro event ids innermost k here nested position
  have shows := (showsEvent text layer registry event).spans ids innermost included here nested
  rcases List.getElem?_eq_some_iff.mp position with ⟨within, isId⟩
  have within' : k < (spansIn (layer.source text registry event).entries).length :=
    shows.length_eq ▸ within
  rcases shows.get within within' with ⟨shown, there, showsIt⟩
  rw [List.get_eq_getElem, isId, found] at there
  cases there
  rw [List.getElem?_eq_getElem within', Option.map_some]
  simpa [slot] using showsIt.fields

theorem attaches_iff {layer : TracingLayer} (included : layer.includeSpans = true)
    {registry : Registry} {id : Nat} {span : SpanData} {fields shown : Map}
    (found : registry.span id = some span) (slot : span.fields = some fields) :
    Attaches text layer registry id shown ↔ fields = shown := by
  constructor
  · intro attaches
    rcases Registry.exists_nested found with ⟨ids, nested⟩
    let event : Event := ⟨⟨"", "", .info, none, none, none⟩, none, [], some id⟩
    have given := attaches event ids id _ rfl nested nested.innermost
    rw [attaches_slot included found slot event ids id _ rfl nested nested.innermost] at given
    exact KeyedMap.ext_entries (Option.some.inj given)
  · rintro rfl
    exact attaches_slot included found slot

theorem span_attaches (text : ToText) (layer : TracingLayer)
    (included : layer.includeSpans = true) (before later : List Callback) (name : String)
    (parent : Option Nat) (attrs : List Field) :
    ∃ s, PartialRun.run (Stack.dispatch text [layer]) .start
        (before ++ .newSpan name parent attrs :: later) = some s ∧
      ∀ shown, Attaches text layer s.registry (openings before).length shown ↔
        TracingLayer.recorded text (TracingLayer.spanFields text attrs)
          (recordedOn (openings before).length later) = shown := by
  obtain ⟨s, ran⟩ := run_alone_total text layer .start
    (before ++ .newSpan name parent attrs :: later)
  refine ⟨s, ran, ?_⟩
  rw [PartialRun.run_append] at ran
  rcases Option.bind_eq_some_iff.mp ran with ⟨opening, ranBefore, ranLater⟩
  rcases PartialRun.run_cons_some.mp ranLater with ⟨opened, first, rest⟩
  have count : (openings before).length = opening.registry.length := by
    have skeleton := congrArg List.length (run_skeleton ranBefore)
    simpa [Registry.skeleton, Stack.start] using skeleton.symm
  have found : opened.registry.span (openings before).length =
      some ⟨name, parent, some (TracingLayer.spanFields text attrs)⟩ := by
    have one : [layer].countP TracingLayer.includeSpans = 1 := by simp [included]
    rw [Stack.dispatch_newSpan, one, if_neg Nat.one_ne_zero, if_pos rfl] at first
    cases first
    rw [count]
    exact Registry.span_newest _ _
  intro shown
  exact attaches_iff included (run_slot found rest) rfl

/-- The fields attached to a span are the last ones recorded on it exactly where it keeps
the last message. -/
theorem span_fields_accumulate_iff (text : ToText) (layer : TracingLayer)
    (included : layer.includeSpans = true) (before later : List Callback) (name : String)
    (parent : Option Nat) (attrs : List Field) :
    ∃ s, PartialRun.run (Stack.dispatch text [layer]) .start
        (before ++ .newSpan name parent attrs :: later) = some s ∧
      (Attaches text layer s.registry (openings before).length
          (lastWriterWins text (attrs ++ recordedOn (openings before).length later)) ↔
        MessageKept text attrs (recordedOn (openings before).length later)) := by
  obtain ⟨s, ran, attaches⟩ := span_attaches text layer included before later name parent attrs
  refine ⟨s, ran, ?_⟩
  rw [attaches]
  exact recorded_eq_iff attrs _

theorem span_fields_accumulate_iff_port :
    ∃ s, PartialRun.run (Stack.dispatch plainText [.default]) .start
        ([] ++ .newSpan "request" none [⟨"port", .u64 80⟩] ::
          [.record 0 [⟨"port", .u64 8080⟩]]) = some s ∧
      Attaches plainText .default s.registry 0
        (lastWriterWins plainText [⟨"port", .u64 80⟩, ⟨"port", .u64 8080⟩]) := by
  obtain ⟨s, ran, exactly⟩ := span_fields_accumulate_iff plainText .default rfl []
    [.record 0 [⟨"port", .u64 8080⟩]] "request" none [⟨"port", .u64 80⟩]
  refine ⟨s, ran, exactly.mpr ?_⟩
  intro value last
  have none : valuesOf "message" [⟨"port", .u64 80⟩, ⟨"port", .u64 8080⟩] = [] := by decide
  change value ∈ (valuesOf "message" [⟨"port", .u64 80⟩, ⟨"port", .u64 8080⟩]).getLast? at last
  rw [none] at last
  cases last

theorem late_message_dropped :
    ∃ s, PartialRun.run (Stack.dispatch plainText [.default]) .start
        ([] ++ .newSpan "request" none [] :: [.record 0 [⟨"message", .debug "done"⟩]]) = some s ∧
      ¬ Attaches plainText .default s.registry 0
        (lastWriterWins plainText [⟨"message", .debug "done"⟩]) := by
  obtain ⟨s, ran, attaches⟩ := span_attaches plainText .default rfl []
    [.record 0 [⟨"message", .debug "done"⟩]] "request" none []
  refine ⟨s, ran, ?_⟩
  intro shown
  have kept := (recorded_eq_iff [] [⟨"message", .debug "done"⟩]).mp ((attaches _).mp shown)
  have dropped : keptMessage [] [⟨"message", .debug "done"⟩] = none := by decide
  have same := kept (.debug "done") (by decide)
  rw [dropped] at same
  cases same

end Ecapplog.AdapterTracing
