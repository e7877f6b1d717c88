import Ecapplog.Foundations.PartialRun
import Ecapplog.Record
import Ecapplog.Visitor

/-! The `tracing` layer over the registry of `tracing-subscriber`, alone or in a stack of
layers. A span's extensions hold at most one value of each type, so the layers of a stack
share the one slot of `SpanFields`. -/

namespace Ecapplog.AdapterTracing

inductive Level where
  | error
  | warn
  | info
  | debug
  | trace
  deriving DecidableEq, Repr

def Level.verbosity : Level → Nat
  | .error => 1
  | .warn => 2
  | .info => 3
  | .debug => 4
  | .trace => 5

/-- `LevelFilter`; none is `OFF`. -/
abbrev LevelFilter := Option Level

def Level.passes (level : Level) : LevelFilter → Bool
  | some most => level.verbosity ≤ most.verbosity
  | none => false

def priorityFor : Level → Priority
  | .trace => .trace
  | .debug => .debug
  | .info => .information
  | .warn => .warning
  | .error => .error

structure Metadata where
  name : String
  target : String
  level : Level
  modulePath : Option String
  file : Option String
  line : Option UInt32
  deriving DecidableEq, Repr

inductive CategorySource where
  | target
  | fixed (category : String)
  | custom (f : Metadata → String)

structure TracingLayer where
  level : LevelFilter
  category : CategorySource
  includeSpans : Bool
  includeCallSite : Bool

def TracingLayer.default : TracingLayer := ⟨some .trace, .target, true, true⟩

/-- A span in the registry, with the `SpanFields` in its extensions. -/
structure SpanData where
  name : String
  parent : Option Nat
  fields : Option Map

/-- The spans, the newest first; the id of a span counts the spans before it. -/
abbrev Registry := List SpanData

namespace Registry

def span : Registry → Nat → Option SpanData
  | [], _ => none
  | span :: older, id => if id = older.length then some span else Registry.span older id

def setFields : Registry → Nat → Map → Registry
  | [], _, _ => []
  | span :: older, id, fields =>
      if id = older.length then { span with fields := some fields } :: older
      else span :: Registry.setFields older id fields

def scope : Registry → Nat → List SpanData
  | [], _ => []
  | span :: older, id =>
      if id = older.length then
        match span.parent with
        | some parent => span :: Registry.scope older parent
        | none => [span]
      else Registry.scope older id

end Registry

structure Event where
  metadata : Metadata
  /-- `normalized_metadata`: the record's own, on an event from the `log` bridge. -/
  normalized : Option Metadata
  fields : List Field
  span : Option Nat

def Registry.enclosing (registry : Registry) (event : Event) : List SpanData :=
  match event.span with
  | some id => (registry.scope id).reverse
  | none => []

def Event.fromLogFacade (event : Event) : Bool := event.normalized.isSome

def Event.recovered (event : Event) : Metadata := event.normalized.getD event.metadata

namespace TracingLayer

def enabled (layer : TracingLayer) (metadata : Metadata) : Bool :=
  metadata.level.passes layer.level

def categoryFor (layer : TracingLayer) (metadata : Metadata) : String :=
  match layer.category with
  | .target => metadata.target
  | .fixed category => category
  | .custom f => f metadata

variable (text : ToText)

def spanFields (attrs : List Field) : Map :=
  let visitor := JsonVisitor.recordAll text ⟨.empty, none, false⟩ attrs
  match visitor.message with
  | some message => visitor.fields.insert "message" (.string message)
  | none => visitor.fields

/-- None where the insertion into the extensions panics. -/
def onNewSpan (layer : TracingLayer) (registry : Registry) (id : Nat) (attrs : List Field) :
    Option Registry :=
  if layer.includeSpans then
    match registry.span id with
    | none => some registry
    | some span =>
        if span.fields.isSome then none
        else some (registry.setFields id (spanFields text attrs))
  else some registry

def onRecord (_layer : TracingLayer) (registry : Registry) (id : Nat) (values : List Field) :
    Registry :=
  match registry.span id with
  | none => registry
  | some span =>
      match span.fields with
      | none => registry
      | some fields =>
          registry.setFields id (JsonVisitor.recordAll text ⟨fields, none, false⟩ values).fields

def callSite (layer : TracingLayer) (metadata : Metadata) : Option String :=
  if layer.includeCallSite then
    match metadata.file with
    | some file =>
        match metadata.line with
        | some line => some (file ++ ":" ++ toString line.toNat)
        | none => some file
    | none => none
  else none

def spanObject (span : SpanData) : Map :=
  let object := KeyedMap.empty.insert "name" (.string span.name)
  match span.fields with
  | some fields =>
      if fields.isEmpty then object else object.insert "fields" (.object fields.entries)
  | none => object

def visitEvent (event : Event) : JsonVisitor :=
  JsonVisitor.recordAll text ⟨.empty, none, event.fromLogFacade⟩ event.fields

def source (layer : TracingLayer) (registry : Registry) (event : Event) : Map :=
  let fields := (visitEvent text event).fields
  let source : Map := .empty
  let source :=
    match layer.callSite event.recovered with
    | some site => source.insert "at" (.string site)
    | none => source
  let source := if fields.isEmpty then source else source.insert "fields" (.object fields.entries)
  if layer.includeSpans then
    let spans := (registry.enclosing event).map fun span => .object (spanObject span).entries
    if spans.isEmpty then source else source.insert "spans" (.array spans)
  else source

def onEvent (layer : TracingLayer) (registry : Registry) (now : SystemTime) (event : Event) :
    Record :=
  let metadata := event.recovered
  let category := layer.categoryFor metadata
  let entry := Record.new now (priorityFor metadata.level) category
    ((visitEvent text event).message.getD "")
  let entry :=
    match metadata.modulePath with
    | some modulePath =>
        if modulePath ≠ category then { entry with originalCategory := modulePath } else entry
    | none => entry
  let source := layer.source text registry event
  if source.isEmpty then entry
  else
    match text.json (.object source.entries) with
    | some json => { entry with source := json }
    | none => entry

end TracingLayer

/-- A callback of the subscriber. The time of an event is the same for all layers. -/
inductive Callback where
  | newSpan (name : String) (parent : Option Nat) (attrs : List Field)
  | record (id : Nat) (values : List Field)
  | event (now : SystemTime) (event : Event)

def Callback.isNewSpan : Callback → Bool
  | .newSpan _ _ _ => true
  | _ => false

/-- The registry, and for each event so far the entry of each layer in turn. -/
structure Stack where
  registry : Registry
  sent : List (List Record)

def Stack.start : Stack := ⟨[], []⟩

namespace Stack

variable (text : ToText)

def newSpan (layers : List TracingLayer) (registry : Registry) (id : Nat) (attrs : List Field) :
    Option Registry :=
  match layers with
  | [] => some registry
  | layer :: above =>
      match layer.onNewSpan text registry id attrs with
      | some registry => newSpan above registry id attrs
      | none => none

/-- One callback, dispatched to every layer in turn; none if a layer panics. -/
def dispatch (layers : List TracingLayer) (s : Stack) : Callback → Option Stack
  | .newSpan name parent attrs =>
      match newSpan text layers (⟨name, parent, none⟩ :: s.registry) s.registry.length attrs with
      | some registry => some { s with registry := registry }
      | none => none
  | .record id values =>
      some { s with
        registry := layers.foldl (fun registry layer => layer.onRecord text registry id values)
          s.registry }
  | .event now event =>
      some { s with
        sent := s.sent ++ [layers.map fun layer => layer.onEvent text s.registry now event] }

end Stack

namespace Registry

theorem length_setFields (registry : Registry) (id : Nat) (fields : Map) :
    (registry.setFields id fields).length = registry.length := by
  induction registry with
  | nil => rfl
  | cons span older ih =>
      simp only [setFields]
      split
      · rfl
      · rw [List.length_cons, ih, List.length_cons]

theorem span_setFields (registry : Registry) (id : Nat) (fields : Map) (other : Nat) :
    (registry.setFields id fields).span other =
      if other = id then (registry.span id).map ({ · with fields := some fields })
      else registry.span other := by
  induction registry with
  | nil => simp [setFields, Registry.span]
  | cons span older ih =>
      simp only [setFields]
      split
      case isTrue here =>
          simp only [Registry.span, here]
          split <;> rfl
      case isFalse elsewhere =>
          simp only [Registry.span, length_setFields, ih, if_neg elsewhere]
          split
          case isTrue last => rw [if_neg (fun same => elsewhere (same.symm.trans last))]
          case isFalse => rfl

theorem setFields_setFields (registry : Registry) (id : Nat) (fields last : Map) :
    (registry.setFields id fields).setFields id last = registry.setFields id last := by
  induction registry with
  | nil => rfl
  | cons span older ih =>
      by_cases here : id = older.length
      · simp only [setFields, if_pos here]
      · simp only [setFields, if_neg here, length_setFields, ih]

theorem span_newest (span : SpanData) (older : Registry) :
    Registry.span (span :: older) older.length = some span := if_pos rfl

end Registry

namespace TracingLayer

variable {text : ToText}

def originalCategory (modulePath : Option String) (category : String) : String :=
  match modulePath with
  | some modulePath => if modulePath ≠ category then modulePath else ""
  | none => ""

def sourceText (text : ToText) (source : Map) : String :=
  if source.isEmpty then "" else (text.json (.object source.entries)).getD ""

theorem onEvent_eq (layer : TracingLayer) (registry : Registry) (now : SystemTime)
    (event : Event) :
    layer.onEvent text registry now event =
      { Record.new now (priorityFor event.recovered.level) (layer.categoryFor event.recovered)
          ((visitEvent text event).message.getD "") with
        originalCategory := originalCategory event.recovered.modulePath
          (layer.categoryFor event.recovered)
        source := sourceText text (layer.source text registry event) } := by
  simp only [onEvent, originalCategory, sourceText]
  generalize layer.source text registry event = source
  generalize layer.categoryFor event.recovered = category
  cases event.recovered.modulePath with
  | none =>
      cases source.isEmpty with
      | true => rfl
      | false => cases text.json (.object source.entries) <;> rfl
  | some modulePath =>
      by_cases same : modulePath = category
      · cases source.isEmpty with
        | true => simp [same, Record.new]
        | false => cases text.json (.object source.entries) <;> simp [same, Record.new]
      · cases source.isEmpty with
        | true => simp [same, Record.new]
        | false => cases text.json (.object source.entries) <;> simp [same, Record.new]

def recorded (text : ToText) (fields : Map) (values : List Field) : Map :=
  fields.insertAll ((objectFields false values).map (Field.entry text))

theorem recorded_again (fields : Map) (values : List Field) :
    recorded text (recorded text fields values) values = recorded text fields values :=
  KeyedMap.insertAll_again _ _

theorem onRecord_some (layer : TracingLayer) {registry : Registry} {id : Nat} {span : SpanData}
    {fields : Map} (found : registry.span id = some span) (slot : span.fields = some fields)
    (values : List Field) :
    layer.onRecord text registry id values =
      registry.setFields id (recorded text fields values) := by
  simp only [onRecord, found, slot, JsonVisitor.recordAll_eq, recorded]

theorem onRecord_none (layer : TracingLayer) {registry : Registry} {id : Nat}
    (noSlot : (registry.span id).bind SpanData.fields = none) (values : List Field) :
    layer.onRecord text registry id values = registry := by
  cases found : registry.span id with
  | none => simp only [onRecord, found]
  | some span =>
      have slot : span.fields = none := by simpa [found] using noSlot
      simp only [onRecord, found, slot]

theorem onRecord_again (layer other : TracingLayer) (registry : Registry) (id : Nat)
    (values : List Field) :
    other.onRecord text (layer.onRecord text registry id values) id values =
      layer.onRecord text registry id values := by
  cases slot : (registry.span id).bind SpanData.fields with
  | none => rw [onRecord_none layer slot, onRecord_none other slot]
  | some fields =>
      rcases Option.bind_eq_some_iff.mp slot with ⟨span, found, held⟩
      have again : (registry.setFields id (recorded text fields values)).span id =
          some { span with fields := some (recorded text fields values) } := by
        rw [Registry.span_setFields, if_pos rfl, found]
        rfl
      rw [onRecord_some layer found held, onRecord_some other again rfl,
        Registry.setFields_setFields, recorded_again]

end TracingLayer

end Ecapplog.AdapterTracing
