import Mathlib.Data.List.Forall2
import Ecapplog.Layers

/-! The source object of an event: what the layer says of the call site and the spans,
and where the fields that the user chose end up. -/

namespace Ecapplog.AdapterTracing

namespace Registry

/-- `ids` are the spans around and including the span `id`, the outermost first: each is
the parent of the next, and the first has no parent that was opened before it. -/
inductive Nested (registry : Registry) : List Nat → Nat → Prop where
  | root {id : Nat} {span : SpanData} (found : registry.span id = some span)
      (outermost : ∀ parent, span.parent = some parent → id ≤ parent) : Nested registry [id] id
  | inner {id parent : Nat} {span : SpanData} {outer : List Nat}
      (found : registry.span id = some span) (within : span.parent = some parent)
      (older : parent < id) (around : Nested registry outer parent) :
      Nested registry (outer ++ [id]) id

theorem span_lt {registry : Registry} {id : Nat} {span : SpanData}
    (found : registry.span id = some span) : id < registry.length := by
  induction registry with
  | nil => cases found
  | cons newest older ih =>
      simp only [Registry.span] at found
      split at found
      case isTrue last =>
          rw [last]
          exact Nat.lt_succ_self _
      case isFalse => exact Nat.lt_succ_of_lt (ih found)

theorem span_of_lt {registry : Registry} {id : Nat} (opened : id < registry.length) :
    ∃ span, registry.span id = some span := by
  induction registry with
  | nil => cases opened
  | cons newest older ih =>
      simp only [Registry.span]
      split
      case isTrue => exact ⟨newest, rfl⟩
      case isFalse other => exact ih (by rw [List.length_cons] at opened; omega)

theorem scope_of_le {registry : Registry} {id : Nat} (unopened : registry.length ≤ id) :
    registry.scope id = [] := by
  induction registry with
  | nil => rfl
  | cons newest older ih =>
      rw [List.length_cons] at unopened
      rw [scope, if_neg (by omega)]
      exact ih (by omega)

theorem scope_older {newest : SpanData} {older : Registry} {id : Nat}
    (earlier : id < older.length) :
    Registry.scope (newest :: older) id = older.scope id := if_neg (by omega)

theorem scope_root {registry : Registry} {id : Nat} {span : SpanData}
    (found : registry.span id = some span)
    (outermost : ∀ parent, span.parent = some parent → id ≤ parent) :
    registry.scope id = [span] := by
  induction registry with
  | nil => cases found
  | cons newest older ih =>
      simp only [Registry.span] at found
      split at found
      case isTrue last =>
          cases found
          rw [scope, if_pos last]
          cases within : span.parent with
          | none => rfl
          | some parent => simp only [scope_of_le (last ▸ outermost parent within)]
      case isFalse => rw [scope_older (span_lt found), ih found]

theorem scope_inner {registry : Registry} {id parent : Nat} {span : SpanData}
    (found : registry.span id = some span) (within : span.parent = some parent)
    (earlier : parent < id) : registry.scope id = span :: registry.scope parent := by
  induction registry with
  | nil => cases found
  | cons newest older ih =>
      simp only [Registry.span] at found
      split at found
      case isTrue last =>
          cases found
          rw [scope_older (Nat.lt_of_lt_of_eq earlier last), scope, if_pos last]
          simp only [within]
      case isFalse =>
          have opened := span_lt found
          rw [scope_older opened, ih found, scope_older (Nat.lt_trans earlier opened)]

theorem Nested.scope {registry : Registry} {ids : List Nat} {id : Nat}
    (nested : registry.Nested ids id) :
    List.Forall₂ (fun id span => registry.span id = some span) ids
      (registry.scope id).reverse := by
  induction nested with
  | root found outermost =>
      rw [scope_root found outermost]
      exact .cons found .nil
  | inner found within earlier _ outer =>
      rw [scope_inner found within earlier, List.reverse_cons]
      exact List.rel_append outer (.cons found .nil)

theorem Nested.innermost {registry : Registry} {ids : List Nat} {id : Nat}
    (nested : registry.Nested ids id) : ids[ids.length - 1]? = some id := by
  rw [← List.getLast?_eq_getElem?]
  cases nested with
  | root => rfl
  | inner => exact List.getLast?_concat

theorem exists_nested {registry : Registry} {id : Nat} {span : SpanData}
    (found : registry.span id = some span) : ∃ ids, registry.Nested ids id := by
  induction id using Nat.strongRecOn generalizing span with
  | ind id ih =>
      cases within : span.parent with
      | none => exact ⟨[id], .root found (by simp [within])⟩
      | some parent =>
          rcases Nat.lt_or_ge parent id with earlier | later
          · obtain ⟨outside, holds⟩ := span_of_lt (Nat.lt_trans earlier (span_lt found))
            obtain ⟨outer, around⟩ := ih parent earlier holds
            exact ⟨outer ++ [id], .inner found within earlier around⟩
          · exact ⟨[id], .root found (fun other same => by
              rw [within] at same
              cases same
              exact later)⟩

theorem scope_of_none {registry : Registry} {id : Nat} (closed : registry.span id = none) :
    registry.scope id = [] := by
  rcases Nat.lt_or_ge id registry.length with opened | unopened
  · rcases span_of_lt opened with ⟨span, found⟩
    rw [found] at closed
    cases closed
  · exact scope_of_le unopened

theorem enclosing_of_none {registry : Registry} {event : Event}
    (outside : event.span.bind registry.span = none) : registry.enclosing event = [] := by
  rw [enclosing]
  cases here : event.span with
  | none => rfl
  | some id =>
      rw [here] at outside
      simp only [scope_of_none outside, List.reverse_nil]

end Registry

def fieldsIn (entries : List (String × Value)) : List (String × Value) :=
  match entries.lookup "fields" with
  | some (.object fields) => fields
  | _ => []

def spansIn (entries : List (String × Value)) : List (List (String × Value)) :=
  match entries.lookup "spans" with
  | some (.array spans) =>
      spans.map fun
        | .object entries => entries
        | _ => []
  | _ => []

def fieldsValue (fields : Map) : Option Value :=
  if fields.isEmpty then none else some (.object fields.entries)

theorem fieldsIn_of_find {object fields : Map} (held : object.find "fields" = fieldsValue fields) :
    fieldsIn object.entries = fields.entries := by
  rw [KeyedMap.find] at held
  rw [fieldsIn, held, fieldsValue]
  cases empty : fields.isEmpty with
  | true =>
      rw [KeyedMap.isEmpty_iff.mp empty]
      rfl
  | false => rfl

namespace TracingLayer

variable {text : ToText}

def siteValue (layer : TracingLayer) (metadata : Metadata) : Option Value :=
  (layer.callSite metadata).map .string

def spanValues (registry : Registry) (event : Event) : List Value :=
  (registry.enclosing event).map fun span => .object (spanObject span).entries

def spansValue (layer : TracingLayer) (registry : Registry) (event : Event) : Option Value :=
  if layer.includeSpans = true ∧ spanValues registry event ≠ [] then
    some (.array (spanValues registry event))
  else none

theorem spansValue_of_none (layer : TracingLayer) {registry : Registry} {event : Event}
    (outside : event.span.bind registry.span = none) :
    layer.spansValue registry event = none := by
  refine if_neg ?_
  rintro ⟨_, some⟩
  refine some ?_
  rw [spanValues, Registry.enclosing_of_none outside]
  rfl

theorem source_eq (layer : TracingLayer) (registry : Registry) (event : Event) :
    layer.source text registry event =
      (((KeyedMap.empty.insertSome "at" (layer.siteValue event.recovered)).insertSome "fields"
        (fieldsValue (visitEvent text event).fields)).insertSome "spans"
          (layer.spansValue registry event)) := by
  rw [source, siteValue, fieldsValue, spansValue, spanValues]
  cases layer.callSite event.recovered <;> cases (visitEvent text event).fields.isEmpty <;>
    cases layer.includeSpans <;> cases registry.enclosing event <;> rfl

theorem find_source (layer : TracingLayer) (registry : Registry) (event : Event) (key : String) :
    (layer.source text registry event).find key =
      if key = "spans" then layer.spansValue registry event
      else if key = "fields" then fieldsValue (visitEvent text event).fields
      else if key = "at" then layer.siteValue event.recovered
      else none := by
  rw [source_eq, KeyedMap.find_insertSome, KeyedMap.find_insertSome, KeyedMap.find_insertSome]
  by_cases spans : key = "spans"
  · simp [spans]
  · rw [if_neg spans, if_neg spans]
    by_cases fields : key = "fields"
    · simp [fields]
    · simp [fields]

theorem spanObject_eq (span : SpanData) :
    spanObject span = (KeyedMap.empty.insert "name" (.string span.name)).insertSome "fields"
      (fieldsValue (span.fields.getD .empty)) := by
  rw [spanObject]
  cases span.fields with
  | none => rfl
  | some fields =>
      rw [Option.getD_some, fieldsValue]
      simp only
      split <;> rfl

theorem find_spanObject (span : SpanData) (key : String) :
    (spanObject span).find key =
      if key = "fields" then fieldsValue (span.fields.getD .empty)
      else if key = "name" then some (.string span.name)
      else none := by
  rw [spanObject_eq, KeyedMap.find_insertSome, KeyedMap.find_insert]
  by_cases fields : key = "fields"
  · simp [fields]
  · simp [fields]

theorem spansIn_source (layer : TracingLayer) (registry : Registry) (event : Event) :
    spansIn (layer.source text registry event).entries =
      if layer.includeSpans then
        (registry.enclosing event).map fun span => (spanObject span).entries
      else [] := by
  have held : (layer.source text registry event).find "spans" = _ :=
    layer.find_source registry event "spans"
  rw [if_pos rfl, spansValue, KeyedMap.find] at held
  rw [spansIn, held, spanValues]
  cases layer.includeSpans with
  | true => cases registry.enclosing event <;> simp
  | false => rfl

end TracingLayer

structure ShowsSpan (span : SpanData) (entries : List (String × Value)) : Prop where
  keys : ∀ entry ∈ entries, entry.1 = "name" ∨ entry.1 = "fields"
  name : entries.lookup "name" = some (.string span.name)
  fields : fieldsIn entries = (span.fields.getD .empty).entries

/-- The source object: no other keys than the layer's own, the fields of the event, and
one object for each enclosing span, the outermost first. -/
structure ShowsEvent (text : ToText) (layer : TracingLayer) (registry : Registry)
    (event : Event) : Prop where
  keys : ∀ entry ∈ (layer.source text registry event).entries,
    entry.1 = "at" ∨ entry.1 = "fields" ∨ entry.1 = "spans"
  fields : fieldsIn (layer.source text registry event).entries =
    (TracingLayer.visitEvent text event).fields.entries
  spans : ∀ ids id, layer.includeSpans = true → event.span = some id → registry.Nested ids id →
    List.Forall₂ (fun id entries => ∃ span, registry.span id = some span ∧ ShowsSpan span entries)
      ids (spansIn (layer.source text registry event).entries)
  bare : (layer.includeSpans = false ∨ event.span.bind registry.span = none) →
    (layer.source text registry event).find "spans" = none

theorem showsSpan (span : SpanData) : ShowsSpan span (TracingLayer.spanObject span).entries where
  keys := by
    intro entry member
    have held := KeyedMap.mem_entries.mp member
    rw [TracingLayer.find_spanObject] at held
    split at held
    case isTrue fields => exact .inr fields
    case isFalse =>
        split at held
        case isTrue name => exact .inl name
        case isFalse => cases held
  name := TracingLayer.find_spanObject span "name"
  fields := fieldsIn_of_find (TracingLayer.find_spanObject span "fields")

theorem showsEvent (text : ToText) (layer : TracingLayer) (registry : Registry) (event : Event) :
    ShowsEvent text layer registry event where
  keys := by
    intro entry member
    have held := KeyedMap.mem_entries.mp member
    rw [TracingLayer.find_source] at held
    split at held
    case isTrue spans => exact .inr (.inr spans)
    case isFalse =>
        split at held
        case isTrue fields => exact .inr (.inl fields)
        case isFalse =>
            split at held
            case isTrue site => exact .inl site
            case isFalse => cases held
  fields := fieldsIn_of_find (layer.find_source registry event "fields")
  spans := by
    intro ids id included here nested
    rw [TracingLayer.spansIn_source, if_pos included]
    simp only [Registry.enclosing, here]
    exact List.forall₂_map_right_iff.mpr
      (nested.scope.imp fun _ span found => ⟨span, found, showsSpan span⟩)
  bare := by
    intro none
    rw [TracingLayer.find_source, if_pos rfl]
    rcases none with excluded | outside
    · rw [TracingLayer.spansValue, excluded]
      exact if_neg (by simp)
    · exact layer.spansValue_of_none outside

def spanNames (entries : List (String × Value)) : List (Option Value) :=
  (spansIn entries).map fun span => span.lookup "name"

def openings (callbacks : List Callback) : List (String × Option Nat) :=
  callbacks.filterMap fun
    | .newSpan name parent _ => some (name, parent)
    | _ => none

namespace Registry

def skeleton (registry : Registry) : List (String × Option Nat) :=
  registry.map fun span => (span.name, span.parent)

theorem skeleton_setFields (registry : Registry) (id : Nat) (fields : Map) :
    (registry.setFields id fields).skeleton = registry.skeleton := by
  induction registry with
  | nil => rfl
  | cons span older ih =>
      simp only [setFields]
      split
      · rfl
      · exact congrArg ((span.name, span.parent) :: ·) ih

theorem skeleton_onRecord (layer : TracingLayer) (text : ToText) (registry : Registry) (id : Nat)
    (values : List Field) :
    Registry.skeleton (layer.onRecord text registry id values) = registry.skeleton := by
  rw [TracingLayer.onRecord]
  split
  · rfl
  · split
    · rfl
    · exact skeleton_setFields _ _ _

theorem scope_skeleton {registry other : Registry} (same : registry.skeleton = other.skeleton)
    (id : Nat) : (registry.scope id).map SpanData.name = (other.scope id).map SpanData.name := by
  induction registry generalizing other id with
  | nil =>
      cases other with
      | nil => rfl
      | cons => cases same
  | cons span older ih =>
      cases other with
      | nil => cases same
      | cons span' older' =>
          rcases List.cons.inj same with ⟨head, tail⟩
          rcases Prod.mk.inj head with ⟨name, parent⟩
          have length : older.length = older'.length := by simpa using congrArg List.length tail
          simp only [scope, length, parent]
          split
          · cases span'.parent with
            | none => simp only [List.map_cons, name, List.map_nil]
            | some outer => simp only [List.map_cons, name, ih tail outer]
          · exact ih tail id

theorem enclosing_skeleton {registry other : Registry}
    (same : registry.skeleton = other.skeleton) {event event' : Event}
    (here : event.span = event'.span) :
    (registry.enclosing event).map SpanData.name = (other.enclosing event').map SpanData.name := by
  rw [enclosing, enclosing, here]
  cases event'.span with
  | none => rfl
  | some id =>
      simp only
      rw [List.map_reverse, List.map_reverse, scope_skeleton same]

end Registry

theorem run_skeleton {text : ToText} {layer : TracingLayer} {callbacks : List Callback}
    {start finish : Stack}
    (ran : PartialRun.run (Stack.dispatch text [layer]) start callbacks = some finish) :
    finish.registry.skeleton = (openings callbacks).reverse ++ start.registry.skeleton := by
  induction callbacks generalizing start with
  | nil =>
      cases ran
      rfl
  | cons callback rest ih =>
      rcases PartialRun.run_cons_some.mp ran with ⟨next, first, later⟩
      rw [ih later]
      cases callback with
      | newSpan name parent attrs =>
          have opened : next.registry.skeleton = (name, parent) :: start.registry.skeleton := by
            rw [Stack.dispatch_newSpan] at first
            split at first
            · cases first
              rfl
            · split at first
              · cases first
                rfl
              · cases first
          rw [opened]
          simp [openings]
      | record id values =>
          cases first
          change _ ++ Registry.skeleton (layer.onRecord text start.registry id values) = _
          rw [Registry.skeleton_onRecord]
          rfl
      | event now event =>
          cases first
          rfl

theorem spanNames_source (text : ToText) (layer : TracingLayer) (registry : Registry)
    (event : Event) :
    spanNames (layer.source text registry event).entries =
      if layer.includeSpans then
        ((registry.enclosing event).map SpanData.name).map fun name => some (.string name)
      else [] := by
  rw [spanNames, TracingLayer.spansIn_source]
  split
  · rw [List.map_map, List.map_map]
    exact List.map_congr_left fun span _ => (showsSpan span).name
  · rfl

def SameMetadata (text : ToText) (layer : TracingLayer) (registry registry' : Registry)
    (event event' : Event) : Prop :=
  (layer.source text registry event).find "at" = (layer.source text registry' event').find "at" ∧
    spanNames (layer.source text registry event).entries =
      spanNames (layer.source text registry' event').entries

structure SameSite (event event' : Event) : Prop where
  file : event.recovered.file = event'.recovered.file
  line : event.recovered.line = event'.recovered.line

theorem sameMetadata {text : ToText} {layer : TracingLayer} {registry registry' : Registry}
    {event event' : Event} (site : SameSite event event')
    (stack : (registry.enclosing event).map SpanData.name =
      (registry'.enclosing event').map SpanData.name) :
    SameMetadata text layer registry registry' event event' := by
  constructor
  · rw [TracingLayer.find_source, TracingLayer.find_source, TracingLayer.siteValue,
      TracingLayer.siteValue, TracingLayer.callSite, TracingLayer.callSite, site.file, site.line]
    rfl
  · rw [spanNames_source, spanNames_source, stack]

/-- Whatever the user's fields: the source object holds the layer's own keys, the fields under
theirs, and `at` and the names of the spans as the program fixed them. -/
theorem metadata_unforgeable (text : ToText) (layer : TracingLayer) :
    (∀ registry event, ShowsEvent text layer registry event) ∧
      (∃ site : Bool → Option String → Option UInt32 → Option Value,
        ∀ (any : TracingLayer) registry event, (any.source text registry event).find "at" =
          site any.includeCallSite event.recovered.file event.recovered.line) ∧
      (∀ (registry registry' : Registry) (event event' : Event), SameSite event event' →
        (registry.enclosing event).map SpanData.name =
          (registry'.enclosing event').map SpanData.name →
        SameMetadata text layer registry registry' event event') ∧
      ∀ (callbacks callbacks' : List Callback) (s s' : Stack),
        PartialRun.run (Stack.dispatch text [layer]) .start callbacks = some s →
        PartialRun.run (Stack.dispatch text [layer]) .start callbacks' = some s' →
        openings callbacks = openings callbacks' →
        ∀ event event' : Event, SameSite event event' → event.span = event'.span →
          SameMetadata text layer s.registry s'.registry event event' := by
  refine ⟨showsEvent text layer, ?_, ?_, ?_⟩
  · refine ⟨fun included file line => TracingLayer.siteValue ⟨none, .target, true, included⟩
      ⟨"", "", .info, none, file, line⟩, ?_⟩
    intro any registry event
    rw [TracingLayer.find_source]
    rfl
  · intro registry registry' event event' site stack
    exact sameMetadata site stack
  · intro callbacks callbacks' s s' ran ran' opened event event' site here
    have same : s.registry.skeleton = s'.registry.skeleton := by
      rw [run_skeleton ran, run_skeleton ran', opened]
    exact sameMetadata site (Registry.enclosing_skeleton same here)

def ownEvent (span : Option Nat) (fields : List Field) : Event where
  metadata := ⟨"event src/main.rs:1", "app", .info, some "app", some "src/main.rs", some 1⟩
  normalized := none
  fields := fields
  span := span

def nestedSpans (name : String) : List Callback :=
  [.newSpan "outer" none [⟨name, .str "forged"⟩], .newSpan "inner" (some 0) [⟨name, .str "forged"⟩]]

theorem metadata_unforgeable_names :
    ∃ s s', PartialRun.run (Stack.dispatch plainText [.default]) .start (nestedSpans "name") =
        some s ∧
      PartialRun.run (Stack.dispatch plainText [.default]) .start (nestedSpans "fields") = some s' ∧
      ∀ name value, SameMetadata plainText .default s.registry s'.registry
        (ownEvent (some 1) [⟨name, value⟩]) (ownEvent (some 1) []) := by
  obtain ⟨s, ran⟩ := run_alone_total plainText .default .start (nestedSpans "name")
  obtain ⟨s', ran'⟩ := run_alone_total plainText .default .start (nestedSpans "fields")
  refine ⟨s, s', ran, ran', ?_⟩
  intro name value
  exact (metadata_unforgeable plainText .default).2.2.2 _ _ s s' ran ran' rfl
    (ownEvent (some 1) [⟨name, value⟩]) (ownEvent (some 1) []) ⟨rfl, rfl⟩ rfl

end Ecapplog.AdapterTracing
