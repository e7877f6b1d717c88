import Ecapplog.Payload
import Ecapplog.TracingLayer

/-! Several layers on one registry, each against itself alone on a registry. -/

namespace Ecapplog.AdapterTracing

variable {text : ToText}

/-- No callback panics, and each layer sends what it sends when it is the only layer. -/
def Compose (text : ToText) (layers : List TracingLayer) (callbacks : List Callback) : Prop :=
  ∃ stack, PartialRun.run (Stack.dispatch text layers) .start callbacks = some stack ∧
    ∀ (i : Nat) (layer : TracingLayer), layers[i]? = some layer →
      ∃ alone, PartialRun.run (Stack.dispatch text [layer]) .start callbacks = some alone ∧
        stack.sent.map (·[i]?) = alone.sent.map (·[0]?)

/-- At most one layer has to do with spans, or there are none. -/
def SlotUnshared (layers : List TracingLayer) (callbacks : List Callback) : Prop :=
  layers.countP TracingLayer.includeSpans ≤ 1 ∨
    ∀ callback ∈ callbacks, callback.isNewSpan = false

namespace Stack

theorem newSpan_taken (text : ToText) (layers : List TracingLayer) {registry : Registry} {id : Nat}
    {span : SpanData} (found : registry.span id = some span) (taken : span.fields.isSome = true)
    (attrs : List Field) :
    newSpan text layers registry id attrs =
      if layers.countP TracingLayer.includeSpans = 0 then some registry else none := by
  induction layers with
  | nil => rfl
  | cons layer above ih =>
      rcases Bool.eq_false_or_eq_true layer.includeSpans with included | excluded
      · rw [List.countP_cons_of_pos included, if_neg (Nat.succ_ne_zero _)]
        simp [newSpan, TracingLayer.onNewSpan, included, found, taken]
      · rw [List.countP_cons_of_neg (by simp [excluded])]
        simp [newSpan, TracingLayer.onNewSpan, excluded, ih]

theorem newSpan_fresh (text : ToText) (layers : List TracingLayer) {registry : Registry} {id : Nat}
    {span : SpanData} (found : registry.span id = some span) (free : span.fields = none)
    (attrs : List Field) :
    newSpan text layers registry id attrs =
      if layers.countP TracingLayer.includeSpans = 0 then some registry
      else if layers.countP TracingLayer.includeSpans = 1 then
        some (registry.setFields id (TracingLayer.spanFields text attrs))
      else none := by
  induction layers with
  | nil => rfl
  | cons layer above ih =>
      rcases Bool.eq_false_or_eq_true layer.includeSpans with included | excluded
      · have set : (registry.setFields id (TracingLayer.spanFields text attrs)).span id =
            some { span with fields := some (TracingLayer.spanFields text attrs) } := by
          rw [Registry.span_setFields, if_pos rfl, found]
          rfl
        have rest := newSpan_taken text above set rfl attrs
        rw [List.countP_cons_of_pos included, if_neg (Nat.succ_ne_zero _)]
        simpa [newSpan, TracingLayer.onNewSpan, included, found, free] using rest
      · rw [List.countP_cons_of_neg (by simp [excluded])]
        simp [newSpan, TracingLayer.onNewSpan, excluded, ih]

theorem dispatch_newSpan (layers : List TracingLayer) (s : Stack) (name : String)
    (parent : Option Nat) (attrs : List Field) :
    s.dispatch text layers (.newSpan name parent attrs) =
      if layers.countP TracingLayer.includeSpans = 0 then
        some { s with registry := ⟨name, parent, none⟩ :: s.registry }
      else if layers.countP TracingLayer.includeSpans = 1 then
        some { s with registry :=
          ⟨name, parent, some (TracingLayer.spanFields text attrs)⟩ :: s.registry }
      else none := by
  have set : Registry.setFields (⟨name, parent, none⟩ :: s.registry) s.registry.length
      (TracingLayer.spanFields text attrs) =
        ⟨name, parent, some (TracingLayer.spanFields text attrs)⟩ :: s.registry := if_pos rfl
  have fresh := newSpan_fresh text layers
    (Registry.span_newest ⟨name, parent, none⟩ s.registry) rfl attrs
  simp only [dispatch, fresh, set]
  by_cases none : layers.countP TracingLayer.includeSpans = 0
  · rw [if_pos none, if_pos none]
  · rw [if_neg none, if_neg none]
    by_cases one : layers.countP TracingLayer.includeSpans = 1
    · rw [if_pos one, if_pos one]
    · rw [if_neg one, if_neg one]

theorem dispatch_record (layer : TracingLayer) (above : List TracingLayer) (s : Stack) (id : Nat)
    (values : List Field) :
    s.dispatch text (layer :: above) (.record id values) =
      some { s with registry := layer.onRecord text s.registry id values } := by
  have settled : above.foldl (fun registry other => other.onRecord text registry id values)
      (layer.onRecord text s.registry id values) = layer.onRecord text s.registry id values := by
    induction above with
    | nil => rfl
    | cons other rest ih => rw [List.foldl_cons, TracingLayer.onRecord_again, ih]
  simp only [dispatch, List.foldl_cons, settled]

theorem dispatch_total {layers : List TracingLayer} {callback : Callback}
    (unshared : layers.countP TracingLayer.includeSpans ≤ 1 ∨ callback.isNewSpan = false)
    (s : Stack) : ∃ t, s.dispatch text layers callback = some t := by
  cases callback with
  | newSpan name parent attrs =>
      rw [dispatch_newSpan]
      rcases unshared with few | never
      · split
        · exact ⟨_, rfl⟩
        · rw [if_pos (by omega)]
          exact ⟨_, rfl⟩
      · cases never
  | record id values => exact ⟨_, rfl⟩
  | event now event => exact ⟨_, rfl⟩

structure Alike (layer : TracingLayer) (i : Nat) (s alone : Stack) : Prop where
  sent : s.sent.map (·[i]?) = alone.sent.map (·[0]?)
  registry : layer.includeSpans = true → s.registry = alone.registry

theorem onEvent_alike (text : ToText) {layer : TracingLayer} {registry other : Registry}
    (same : layer.includeSpans = true → registry = other) (now : SystemTime) (event : Event) :
    layer.onEvent text registry now event = layer.onEvent text other now event := by
  rcases Bool.eq_false_or_eq_true layer.includeSpans with included | excluded
  · rw [same included]
  · have unread : layer.source text registry event = layer.source text other event := by
      simp [TracingLayer.source, excluded]
    simp only [TracingLayer.onEvent, unread]

theorem dispatch_alike {layers : List TracingLayer} {i : Nat} {layer : TracingLayer}
    (here : layers[i]? = some layer) {s alone : Stack} (alike : Alike layer i s alone)
    {callback : Callback} {t next : Stack} (taken : s.dispatch text layers callback = some t)
    (takenAlone : alone.dispatch text [layer] callback = some next) : Alike layer i t next := by
  have member : layer ∈ layers := List.mem_of_getElem? here
  cases callback with
  | newSpan name parent attrs =>
      rw [dispatch_newSpan] at taken takenAlone
      rcases Bool.eq_false_or_eq_true layer.includeSpans with included | excluded
      · have some : layers.countP TracingLayer.includeSpans ≠ 0 := by
          intro zero
          exact List.countP_eq_zero.mp zero layer member included
        have one : [layer].countP TracingLayer.includeSpans = 1 := by simp [included]
        rw [if_neg some] at taken
        rw [one, if_neg Nat.one_ne_zero, if_pos rfl] at takenAlone
        split at taken
        case isTrue =>
            cases taken
            cases takenAlone
            exact ⟨alike.sent, fun _ => by rw [alike.registry included]⟩
        case isFalse => cases taken
      · have sent : t.sent = s.sent := by
          split at taken
          · cases taken
            rfl
          · split at taken
            · cases taken
              rfl
            · cases taken
        have none : [layer].countP TracingLayer.includeSpans = 0 := by simp [excluded]
        rw [none, if_pos rfl] at takenAlone
        cases takenAlone
        exact ⟨sent ▸ alike.sent, fun included => by simp [excluded] at included⟩
  | record id values =>
      rcases layers with _ | ⟨first, above⟩
      · cases member
      · rw [dispatch_record] at taken takenAlone
        cases taken
        cases takenAlone
        exact ⟨alike.sent, fun included => congrArg (layer.onRecord text · id values)
          (alike.registry included)⟩
  | event now event =>
      cases taken
      cases takenAlone
      have entry := onEvent_alike text alike.registry now event
      refine ⟨?_, alike.registry⟩
      simp only [List.map_append, List.map_cons, List.map_nil, alike.sent, List.getElem?_map, here,
        Option.map_some, entry]
      rfl

end Stack

theorem run_alone_total (text : ToText) (layer : TracingLayer) (start : Stack)
    (callbacks : List Callback) :
    ∃ s, PartialRun.run (Stack.dispatch text [layer]) start callbacks = some s :=
  PartialRun.run_total fun _ _ => Stack.dispatch_total (.inl List.countP_le_length)

theorem start_alike (layer : TracingLayer) (i : Nat) : Stack.Alike layer i .start .start :=
  ⟨rfl, fun _ => rfl⟩

/-- Layers compose exactly where at most one of them includes spans, or no span is opened. -/
theorem layers_compose_iff (text : ToText) (layers : List TracingLayer)
    (callbacks : List Callback) :
    Compose text layers callbacks ↔ SlotUnshared layers callbacks := by
  constructor
  · rintro ⟨stack, ran, _⟩
    by_contra shared
    rcases not_or.mp shared with ⟨several, opened⟩
    rcases not_forall.mp opened with ⟨callback, opens⟩
    rcases Classical.not_imp.mp opens with ⟨member, opens⟩
    have blocked : ∀ s : Stack, s.dispatch text layers callback = none := by
      intro s
      cases callback with
      | newSpan name parent attrs =>
          rw [Stack.dispatch_newSpan, if_neg (by omega), if_neg (by omega)]
      | _ => exact absurd rfl opens
    rw [PartialRun.run_blocked member blocked] at ran
    cases ran
  · intro unshared
    have enabled : ∀ callback ∈ callbacks, ∀ s : Stack,
        ∃ t, s.dispatch text layers callback = some t := by
      intro callback member
      apply Stack.dispatch_total
      exact unshared.imp id (fun none => none callback member)
    obtain ⟨stack, ran⟩ := PartialRun.run_total enabled
    refine ⟨stack, ran, ?_⟩
    intro i layer here
    obtain ⟨alone, ranAlone⟩ := run_alone_total text layer .start callbacks
    refine ⟨alone, ranAlone, ?_⟩
    have kept (s alone : Stack) (callback : Callback) (t next : Stack)
        (alike : Stack.Alike layer i s alone) (taken : s.dispatch text layers callback = some t)
        (takenAlone : alone.dispatch text [layer] callback = some next) :
        Stack.Alike layer i t next := Stack.dispatch_alike here alike taken takenAlone
    exact (PartialRun.run_lockstep _ kept (start_alike layer i) ran ranAlone).sent

mutual

def Value.compact : Value → Option String
  | .bool b => some (toString b)
  | .number (.int n) => some (toString n)
  | .number (.float _) => none
  | .string text => some (String.ofList (JsonText.quoted escapeChar text))
  | .array items => (Value.compactItems items).map fun items =>
      "[" ++ String.intercalate "," items ++ "]"
  | .object entries => (Value.compactEntries entries).map fun entries =>
      "\x7b" ++ String.intercalate "," entries ++ "\x7d"

def Value.compactItems : List Value → Option (List String)
  | [] => some []
  | item :: rest =>
      match item.compact, Value.compactItems rest with
      | some item, some rest => some (item :: rest)
      | _, _ => none

def Value.compactEntries : List (String × Value) → Option (List String)
  | [] => some []
  | (key, value) :: rest =>
      match value.compact, Value.compactEntries rest with
      | some value, some rest =>
          some ((String.ofList (JsonText.quoted escapeChar key) ++ ":" ++ value) :: rest)
      | _, _ => none

end

def plainText : ToText := ⟨fun _ => "NaN", Value.compact⟩

def twoLayers : List TracingLayer := [.default, .default]

def oneSpan : List Callback := [.newSpan "request" none []]

theorem two_layers_panic :
    PartialRun.run (Stack.dispatch plainText twoLayers) .start oneSpan = none ∧
      ¬ Compose plainText twoLayers oneSpan := by
  have panics : PartialRun.run (Stack.dispatch plainText twoLayers) .start oneSpan = none := rfl
  refine ⟨panics, ?_⟩
  rintro ⟨stack, ran, _⟩
  rw [panics] at ran
  cases ran

end Ecapplog.AdapterTracing
