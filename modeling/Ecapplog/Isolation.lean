import Ecapplog.SpanFields

/-! Spans of other tasks: what an event shows depends on its own spans alone. -/

namespace Ecapplog.AdapterTracing

variable {text : ToText}

namespace SpanData

def later (text : ToText) (span : SpanData) (values : List Field) : SpanData :=
  { span with fields := span.fields.map fun fields => TracingLayer.recorded text fields values }

theorem later_nil (span : SpanData) : span.later text [] = span := by
  obtain ⟨name, parent, fields⟩ := span
  cases fields <;> rfl

theorem later_append (span : SpanData) (values more : List Field) :
    (span.later text values).later text more = span.later text (values ++ more) := by
  cases fields : span.fields with
  | none => simp [later, fields]
  | some held => simp [later, fields, recorded_append]

end SpanData

theorem recordedOn_self (id : Nat) (values : List Field) :
    recordedOn id [.record id values] = values := by
  simp [recordedOn]

theorem recordedOn_other {id other : Nat} (elsewhere : other ≠ id) (values : List Field) :
    recordedOn id [.record other values] = [] := by
  simp [recordedOn, elsewhere]

theorem recordedOn_cons (id : Nat) (callback : Callback) (rest : List Callback) :
    recordedOn id (callback :: rest) = recordedOn id [callback] ++ recordedOn id rest := by
  rw [recordedOn, List.flatMap_cons, recordedOn, List.flatMap_singleton, recordedOn]

theorem TracingLayer.onRecord_span (layer : TracingLayer) {registry : Registry} {other id : Nat}
    {span : SpanData} (found : registry.span id = some span) (values : List Field) :
    Registry.span (layer.onRecord text registry other values) id =
      some (span.later text (recordedOn id [.record other values])) := by
  by_cases same : other = id
  · subst same
    rw [recordedOn_self]
    obtain ⟨name, parent, _ | held⟩ := span
    · rw [layer.onRecord_none (by simp [found]), found]
      rfl
    · rw [layer.onRecord_some found rfl, Registry.span_setFields, if_pos rfl, found]
      rfl
  · rw [recordedOn_other same, SpanData.later_nil]
    cases slot : (registry.span other).bind SpanData.fields with
    | none => rw [layer.onRecord_none slot, found]
    | some held =>
        obtain ⟨there, holds, fields⟩ := Option.bind_eq_some_iff.mp slot
        rw [layer.onRecord_some holds fields, Registry.span_setFields, if_neg (Ne.symm same), found]

theorem dispatch_span {layer : TracingLayer} {above : List TracingLayer} {s t : Stack}
    {callback : Callback} {id : Nat} {span : SpanData} (found : s.registry.span id = some span)
    (taken : s.dispatch text (layer :: above) callback = some t) :
    t.registry.span id = some (span.later text (recordedOn id [callback])) := by
  cases callback with
  | newSpan name parent attrs =>
      have older (fresh : SpanData) : Registry.span (fresh :: s.registry) id = some span :=
        (if_neg (Nat.ne_of_lt (Registry.span_lt found))).trans found
      rw [show recordedOn id [.newSpan name parent attrs] = [] from rfl, SpanData.later_nil]
      rw [Stack.dispatch_newSpan] at taken
      split at taken
      · cases taken
        exact older _
      · split at taken
        · cases taken
          exact older _
        · cases taken
  | record other values =>
      rw [Stack.dispatch_record] at taken
      cases taken
      exact layer.onRecord_span found values
  | event now event =>
      cases taken
      rw [show recordedOn id [.event now event] = [] from rfl, SpanData.later_nil]
      exact found

theorem run_span {layer : TracingLayer} {above : List TracingLayer} {callbacks : List Callback}
    {s t : Stack} {id : Nat} {span : SpanData} (found : s.registry.span id = some span)
    (ran : PartialRun.run (Stack.dispatch text (layer :: above)) s callbacks = some t) :
    t.registry.span id = some (span.later text (recordedOn id callbacks)) := by
  induction callbacks generalizing s span with
  | nil =>
      cases ran
      rw [show recordedOn id [] = [] from rfl, SpanData.later_nil]
      exact found
  | cons callback rest ih =>
      obtain ⟨next, first, later⟩ := PartialRun.run_cons_some.mp ran
      rw [recordedOn_cons, ← SpanData.later_append]
      exact ih (dispatch_span found first) later

theorem Registry.Nested.scope_agree {registry one other : Registry} {ids : List Nat} {id : Nat}
    (nested : registry.Nested ids id)
    (agree : ∀ i ∈ ids, ∀ span, registry.span i = some span →
      ∃ now : SpanData, now.parent = span.parent ∧ one.span i = some now ∧
        other.span i = some now) :
    one.scope id = other.scope id := by
  induction nested with
  | root found outermost =>
      obtain ⟨now, parent, here, there⟩ := agree _ (.head _) _ found
      have alone (up : Nat) (above : now.parent = some up) := outermost up (parent ▸ above)
      rw [Registry.scope_root here alone, Registry.scope_root there alone]
  | inner found within older around ih =>
      obtain ⟨now, parent, here, there⟩ :=
        agree _ (List.mem_append_right _ (.head _)) _ found
      have up := parent.trans within
      rw [Registry.scope_inner here up older, Registry.scope_inner there up older,
        ih fun i member => agree i (List.mem_append_left _ member)]

theorem onEvent_enclosing (layer : TracingLayer) {registry other : Registry} {event : Event}
    (same : registry.enclosing event = other.enclosing event) (now : SystemTime) :
    layer.onEvent text registry now event = layer.onEvent text other now event := by
  simp only [TracingLayer.onEvent, TracingLayer.source, same]

/-- After two runs of callbacks that record the same on the spans around an event, if it is in
any, whatever else they open, record and log in whatever order, each layer files it alike. -/
theorem entries_isolated {layer : TracingLayer} {above : List TracingLayer} {s t u : Stack}
    {callbacks others : List Callback} {event : Event} {ids : List Nat}
    (ran : PartialRun.run (Stack.dispatch text (layer :: above)) s callbacks = some t)
    (ranOther : PartialRun.run (Stack.dispatch text (layer :: above)) s others = some u)
    (nested : ∀ id, event.span = some id → s.registry.Nested ids id)
    (same : ∀ i ∈ ids, recordedOn i callbacks = recordedOn i others) :
    ∀ filing ∈ layer :: above, ∀ now,
      filing.onEvent text t.registry now event = filing.onEvent text u.registry now event := by
  intro filing _ now
  apply onEvent_enclosing
  unfold Registry.enclosing
  cases around : event.span with
  | none => rfl
  | some id =>
      have scopes : t.registry.scope id = u.registry.scope id := by
        apply (nested id around).scope_agree
        intro i member span found
        refine ⟨span.later text (recordedOn i callbacks), rfl, run_span found ran, ?_⟩
        rw [same i member]
        exact run_span found ranOther
      simp only [scopes]

def requestSpan : Stack := ⟨[⟨"request", none, some .empty⟩], []⟩

def portRecorded : List Callback := [.record 0 [⟨"port", .u64 80⟩]]

def besidesOther : List Callback :=
  [.newSpan "job" none [⟨"user", .str "eve"⟩], .record 0 [⟨"port", .u64 80⟩],
    .record 1 [⟨"port", .u64 443⟩]]

theorem entries_isolated_request :
    ∃ t u, PartialRun.run (Stack.dispatch plainText [.default]) requestSpan portRecorded = some t ∧
      PartialRun.run (Stack.dispatch plainText [.default]) requestSpan besidesOther = some u ∧
      ∀ filing ∈ [TracingLayer.default], ∀ now,
        filing.onEvent plainText t.registry now (ownEvent (some 0) []) =
          filing.onEvent plainText u.registry now (ownEvent (some 0) []) := by
  obtain ⟨t, u, ran, ranOther⟩ : ∃ t u,
      PartialRun.run (Stack.dispatch plainText [.default]) requestSpan portRecorded = some t ∧
        PartialRun.run (Stack.dispatch plainText [.default]) requestSpan besidesOther = some u :=
    ⟨_, _, rfl, rfl⟩
  have nested (id : Nat) (inside : (ownEvent (some 0) []).span = some id) :
      requestSpan.registry.Nested [0] id := by
    cases inside
    exact .root rfl nofun
  refine ⟨t, u, ran, ranOther, entries_isolated ran ranOther nested ?_⟩
  intro i member
  rw [List.mem_singleton.mp member]
  rfl

end Ecapplog.AdapterTracing
