import Ecapplog.Pipeline

/-! A program of many threads that traces through layers on one client. While a thread is in
an event, the others go on, with the spans as with the client. -/

namespace Ecapplog

open AdapterTracing (ToText TracingLayer Registry Event Callback Stack)
open MockServer (Line SerdeValue output recordLine)

variable {bufferSize : Nat} {config : Config} {serde : SerdeJson} {text : ToText}
  {layers : List TracingLayer}

structure Origin where
  layer : TracingLayer
  registry : Registry
  now : SystemTime
  event : Event

namespace Origin

def record (text : ToText) (origin : Origin) : Record :=
  origin.layer.onEvent text origin.registry origin.now origin.event

def cause (origin : Origin) : TracingLayer × Event :=
  (origin.layer, origin.event)

end Origin

/-- How far a thread has got in an event: the layers whose turn is still to come, and what the
last one has built and not yet logged. -/
structure Turn where
  event : Event
  layers : List TracingLayer
  built : Option Origin

structure Tracer where
  turn : Option Turn
  events : List Event
  emitted : List Origin

namespace Tracer

def start : Tracer := ⟨none, [], []⟩

def event (layers : List TracingLayer) (event : Event) (thread : Tracer) : Option Tracer :=
  match thread.turn with
  | none => some { thread with
      turn := some ⟨event, layers, none⟩
      events := thread.events ++ [event] }
  | some _ => none

def build (registry : Registry) (now : SystemTime) (thread : Tracer) : Option Tracer :=
  match thread.turn with
  | some ⟨event, layer :: above, none⟩ => some { thread with
      turn := some ⟨event, above, some ⟨layer, registry, now, event⟩⟩
      emitted := thread.emitted ++ [⟨layer, registry, now, event⟩] }
  | some ⟨_, [], none⟩ => some { thread with turn := none }
  | _ => none

def log (thread : Tracer) : Option (Origin × Tracer) :=
  match thread.turn with
  | some ⟨event, above, some origin⟩ =>
      some (origin, { thread with turn := some ⟨event, above, none⟩ })
  | _ => none

def built (thread : Tracer) : List Origin :=
  match thread.turn with
  | some turn => turn.built.toList
  | none => []

def pending (thread : Tracer) : List (TracingLayer × Event) :=
  match thread.turn with
  | some turn => turn.layers.map (·, turn.event)
  | none => []

def causes (layers : List TracingLayer) (thread : Tracer) : List (TracingLayer × Event) :=
  thread.events.flatMap fun event => layers.map (·, event)

/-- Each event begun calls for one entry of each layer: those built, then those to come. -/
def Balanced (layers : List TracingLayer) (thread : Tracer) : Prop :=
  thread.causes layers = thread.emitted.map Origin.cause ++ thread.pending

variable {thread next : Tracer}

theorem event_balanced {event : Event} (balanced : thread.Balanced layers)
    (begun : thread.event layers event = some next) :
    next.Balanced layers ∧ next.emitted = thread.emitted ∧ next.built = thread.built := by
  unfold Tracer.event at begun
  split at begun
  case h_2 => cases begun
  case h_1 idle =>
      cases begun
      have settled : thread.causes layers = thread.emitted.map Origin.cause := by
        rw [balanced, pending, idle, List.append_nil]
      refine ⟨?_, rfl, by rw [built, built, idle]; rfl⟩
      change (thread.events ++ [event]).flatMap _ = _
      rw [List.flatMap_append, List.flatMap_singleton]
      exact congrArg (· ++ _) settled

theorem build_balanced {registry : Registry} {now : SystemTime} (balanced : thread.Balanced layers)
    (built : thread.build registry now = some next) :
    next.Balanced layers ∧ ∃ more, next.emitted = thread.emitted ++ more ∧
      next.built = thread.built ++ more := by
  unfold Tracer.build at built
  split at built
  case h_1 event layer above turn =>
      cases built
      refine ⟨?_, [⟨layer, registry, now, event⟩], rfl, ?_⟩
      · change thread.causes layers = _
        rw [balanced, pending, turn, List.map_append, List.append_assoc]
        rfl
      · rw [Tracer.built, Tracer.built, turn]
        rfl
  case h_2 event turn =>
      cases built
      refine ⟨?_, [], (List.append_nil _).symm, ?_⟩
      · change thread.causes layers = _
        rw [balanced, pending, turn]
        rfl
      · rw [Tracer.built, Tracer.built, turn]
        rfl
  case h_3 => cases built

theorem log_balanced {origin : Origin} (balanced : thread.Balanced layers)
    (logged : thread.log = some (origin, next)) :
    next.Balanced layers ∧ next.emitted = thread.emitted ∧ thread.built = [origin] ∧
      next.built = [] := by
  unfold Tracer.log at logged
  split at logged
  case h_2 => cases logged
  case h_1 event above origin turn =>
      cases logged
      refine ⟨?_, rfl, ?_, rfl⟩
      · change thread.causes layers = _
        rw [balanced, pending, turn]
        rfl
      · rw [built, turn]
        rfl

end Tracer

structure Traced where
  sys : Sys
  registry : Registry
  threads : Nat → Tracer
  owners : List Nat

inductive TracedAction where
  | span (callback : Callback)
  | event (id : Nat) (event : Event)
  | build (id : Nat) (now : SystemTime)
  | log (id : Nat)
  | sys (action : Action)

namespace Traced

def start (bufferSize : Nat) (spawned : Bool) (now : Instant) : Traced where
  sys := Sys.build bufferSize spawned now
  registry := []
  threads := fun _ => .start
  owners := []

def setThread (s : Traced) (id : Nat) (thread : Tracer) : Traced :=
  { s with threads := Function.update s.threads id thread }

def step (config : Config) (serde : SerdeJson) (text : ToText) (layers : List TracingLayer)
    (s : Traced) : TracedAction → Option Traced
  | .span callback =>
      match callback with
      | .event _ _ => none
      | _ =>
          match Stack.dispatch text layers ⟨s.registry, []⟩ callback with
          | some after => some { s with registry := after.registry }
          | none => none
  | .event id event => ((s.threads id).event layers event).map (s.setThread id)
  | .build id now => ((s.threads id).build s.registry now).map (s.setThread id)
  | .log id =>
      match (s.threads id).log with
      | some (origin, thread) =>
          some { s.setThread id thread with
            sys := s.sys.log (origin.record text)
            owners := s.owners ++ [id] }
      | none => none
  | .sys action =>
      if action.isLog then none
      else
        match s.sys.step config serde action with
        | some sys => some { s with sys := sys }
        | none => none

def owns (s : Traced) (id : Nat) (entry : Entry) : Bool :=
  s.owners[entry.seq]? == some id

structure Accounts (text : ToText) (layers : List TracingLayer) (config : Config)
    (serde : SerdeJson) (bufferSize : Nat) (s : Traced) : Prop where
  reached : Reachable config serde bufferSize s.sys
  owned : s.owners.length = s.sys.history.pushed.length
  balanced : ∀ id, (s.threads id).Balanced layers
  emitted : ∀ id, (s.threads id).emitted.map (Origin.record text) =
    (s.sys.history.pushed.filter (s.owns id)).map Entry.record ++
      (s.threads id).built.map (Origin.record text)

variable {s t : Traced}

theorem start_accounts (spawned : Bool) (now : Instant) :
    (start bufferSize spawned now).Accounts text layers config serde bufferSize where
  reached := ⟨spawned, now, .refl⟩
  owned := rfl
  balanced := fun _ => rfl
  emitted := fun _ => rfl

theorem setThread_self (s : Traced) (id : Nat) (thread : Tracer) :
    (s.setThread id thread).threads id = thread :=
  Function.update_self _ _ _

theorem setThread_other (s : Traced) {id other : Nat} (apart : other ≠ id) (thread : Tracer) :
    (s.setThread id thread).threads other = s.threads other :=
  Function.update_of_ne apart _ _

theorem Accounts.thread (inv : s.Accounts text layers config serde bufferSize) {id : Nat}
    {next : Tracer} (balanced : next.Balanced layers)
    (moved : ∃ more, next.emitted = (s.threads id).emitted ++ more ∧
      next.built = (s.threads id).built ++ more) :
    (s.setThread id next).Accounts text layers config serde bufferSize := by
  refine ⟨inv.reached, inv.owned, fun other => ?_, fun other => ?_⟩
  · by_cases mine : other = id
    · rw [mine, setThread_self]
      exact balanced
    · rw [setThread_other s mine]
      exact inv.balanced other
  · by_cases mine : other = id
    · obtain ⟨more, emitted, built⟩ := moved
      rw [mine, setThread_self, emitted, built, List.map_append, List.map_append,
        inv.emitted id, List.append_assoc]
      rfl
    · rw [setThread_other s mine]
      exact inv.emitted other

theorem Accounts.early (inv : s.Accounts text layers config serde bufferSize) {entry : Entry}
    (pushed : entry ∈ s.sys.history.pushed) : entry.seq < s.owners.length := by
  have numbered : s.sys.history.pushed.map Entry.seq = List.range s.sys.history.pushed.length :=
    (reachable_accounted inv.reached).numbered
  rw [inv.owned]
  apply List.mem_range.mp
  rw [← numbered]
  exact List.mem_map_of_mem pushed

theorem Accounts.log (inv : s.Accounts text layers config serde bufferSize) {id : Nat}
    {origin : Origin} {next : Tracer} (logged : (s.threads id).log = some (origin, next)) :
    Accounts text layers config serde bufferSize
      { s.setThread id next with
        sys := s.sys.log (origin.record text)
        owners := s.owners ++ [id] } := by
  obtain ⟨balanced, emitted, before, after⟩ := Tracer.log_balanced (inv.balanced id) logged
  have taken : s.sys.step config serde (.log (origin.record text)) =
      some (s.sys.log (origin.record text)) := rfl
  let entry : Entry := ⟨s.sys.history.pushed.length, origin.record text⟩
  let owns (other : Nat) (entry : Entry) : Bool :=
    (s.owners ++ [id])[entry.seq]? == some other
  have old (other : Nat) : s.sys.history.pushed.filter (owns other) =
      s.sys.history.pushed.filter (s.owns other) :=
    List.filter_congr fun entry pushed =>
      congrArg (· == some other) (List.getElem?_append_left (inv.early pushed))
  have new (other : Nat) : owns other entry = (some id == some other) := by
    change ((s.owners ++ [id])[s.sys.history.pushed.length]? == some other) = _
    rw [← inv.owned, List.getElem?_concat_length]
  refine ⟨inv.reached.step taken, ?_, fun other => ?_, fun other => ?_⟩
  · change (s.owners ++ [id]).length = (s.sys.history.pushed ++ [entry]).length
    rw [List.length_append, List.length_append, inv.owned]
    rfl
  · change ((s.setThread id next).threads other).Balanced layers
    by_cases mine : other = id
    · rw [mine, setThread_self]
      exact balanced
    · rw [setThread_other s mine]
      exact inv.balanced other
  · change ((s.setThread id next).threads other).emitted.map (Origin.record text) =
      ((s.sys.history.pushed ++ [entry]).filter (owns other)).map Entry.record ++
        ((s.setThread id next).threads other).built.map (Origin.record text)
    rw [List.filter_append, old, List.filter_singleton, new]
    by_cases mine : other = id
    · rw [mine, setThread_self, emitted, inv.emitted id, before, after, beq_self_eq_true,
        cond_true, List.map_append, List.map_nil, List.append_nil]
      rfl
    · have theirs : (some id == some other) = false :=
        beq_eq_false_iff_ne.mpr fun same => mine (Option.some.inj same).symm
      rw [setThread_other s mine, theirs, cond_false, List.append_nil]
      exact inv.emitted other

theorem Accounts.step {action : TracedAction}
    (inv : s.Accounts text layers config serde bufferSize)
    (taken : s.step config serde text layers action = some t) :
    t.Accounts text layers config serde bufferSize := by
  cases action with
  | span callback =>
      have same : ∃ registry, t = { s with registry := registry } := by
        cases callback with
        | event now event => cases taken
        | _ =>
            simp only [Traced.step] at taken
            split at taken
            · rename_i after _
              exact ⟨after.registry, (Option.some.inj taken).symm⟩
            · cases taken
      obtain ⟨registry, rfl⟩ := same
      exact ⟨inv.reached, inv.owned, inv.balanced, inv.emitted⟩
  | event id event =>
      obtain ⟨next, begun, rfl⟩ := Option.map_eq_some_iff.mp taken
      obtain ⟨balanced, emitted, built⟩ := Tracer.event_balanced (inv.balanced id) begun
      exact inv.thread balanced
        ⟨[], emitted.trans (List.append_nil _).symm, built.trans (List.append_nil _).symm⟩
  | build id now =>
      obtain ⟨next, built, rfl⟩ := Option.map_eq_some_iff.mp taken
      obtain ⟨balanced, moved⟩ := Tracer.build_balanced (inv.balanced id) built
      exact inv.thread balanced moved
  | log id =>
      simp only [Traced.step] at taken
      split at taken
      case h_1 origin next logged =>
          cases taken
          exact inv.log logged
      case h_2 => cases taken
  | sys action =>
      simp only [Traced.step] at taken
      split at taken
      case isTrue => cases taken
      case isFalse silent =>
          split at taken
          case h_2 => cases taken
          case h_1 sys stepped =>
              cases taken
              have pushed := (Sys.step_silent (Bool.eq_false_iff.mpr silent) stepped).1
              refine ⟨inv.reached.step stepped, ?_, inv.balanced, fun id => ?_⟩
              · exact inv.owned.trans (congrArg List.length pushed).symm
              · change _ = (sys.history.pushed.filter (s.owns id)).map Entry.record ++ _
                rw [pushed]
                exact inv.emitted id

/-- What the server shows of a traced program, if the app name fits the frame limit. Each
thread's events, as they are dispatched, come to one entry of each layer, in the order of the
events, and what is shown is of some thread, in that thread's order; it is all of it, once the
threads are through with their events, everything has arrived, and nothing was lost. -/
theorem events_shown {V : Type} {reader : SerdeValue V} {escape : Char → List Char}
    {spawned : Bool} {now : Instant}
    (ran : PartialRun.Reaches (Traced.step config serde text layers)
      (start bufferSize spawned now) s)
    (documented : serde.Documented escape) (read : reader.Documented)
    (named : 9 + (utf8 config.appName).length ≤ maxPayloadSize) {arrivals : List (List Bytes)}
    (arrived : List.Forall₂ (fun chunks c => chunks.flatten <+: c.bytes) arrivals
      s.sys.connections) :
    (∀ id, (s.threads id).emitted.map Origin.cause <+: (s.threads id).causes layers) ∧
    ∃ received : List Entry,
      (arrivals.flatMap (output reader)).filter Line.isEntry =
        received.map (fun entry => recordLine entry.record) ∧
      (∀ entry ∈ received, ∃ id, s.owns id entry = true) ∧
      (∀ id, ((received.filter (s.owns id)).map Entry.record).Sublist
        ((s.threads id).emitted.map (Origin.record text))) ∧
      (List.Forall₂ (fun chunks c => chunks.flatten = c.bytes) arrivals s.sys.connections →
        s.sys.Quiet → s.sys.contents .dropped = [] → s.sys.contents .discarded = [] →
          ∀ id, (s.threads id).turn = none →
            (s.threads id).emitted.map Origin.cause = (s.threads id).causes layers ∧
            (received.filter (s.owns id)).map Entry.record =
              (s.threads id).emitted.map (Origin.record text)) := by
  have inv : s.Accounts text layers config serde bufferSize :=
    PartialRun.invariant (Accounts text layers config serde bufferSize)
      (fun _ _ _ inv _ taken => inv.step taken) (start_accounts spawned now) ran
  obtain ⟨received, entries, _, ordered, complete⟩ :=
    shown_together (reachable_shown inv.reached documented read named arrived)
  have among : received.Sublist s.sys.history.pushed :=
    (ordered.trans (written_accepted inv.reached)).trans (reachable_accepted_pushed inv.reached)
  refine ⟨fun id => ⟨_, (inv.balanced id).symm⟩, received, entries, ?_, ?_, ?_⟩
  · intro entry member
    have early := inv.early (among.subset member)
    exact ⟨s.owners[entry.seq], by rw [owns, List.getElem?_eq_getElem early, beq_self_eq_true]⟩
  · intro id
    rw [inv.emitted id]
    exact ((among.filter _).map _).trans (List.sublist_append_left _ _)
  · intro everything quiet undropped undiscarded id idle
    have all : received = s.sys.history.pushed :=
      (complete everything).trans (quiet.all_written inv.reached undropped undiscarded)
    have through : (s.threads id).pending = [] := by rw [Tracer.pending, idle]
    have unbuilt : (s.threads id).built = [] := by rw [Tracer.built, idle]
    constructor
    · rw [inv.balanced id, through, List.append_nil]
    · rw [inv.emitted id, all, unbuilt, List.map_nil, List.append_nil]

def requestLogged : List TracedAction :=
  [.span (.newSpan "request" none []), .event 0 (AdapterTracing.ownEvent (some 0) []), .build 0 0,
    .event 1 (AdapterTracing.ownEvent none []), .build 1 0, .log 1, .log 0, .build 0 0,
    .build 1 0] ++ List.replicate 10 (.sys (.worker .up))

set_option maxRecDepth 2000 in
theorem events_shown_request :
    ∃ s, PartialRun.run (Traced.step ClientBuilder.default.toConfig compactSerde
        AdapterTracing.plainText [.default]) (start 1000 true 0) requestLogged = some s ∧
      ∃ received : List Entry,
        ((s.sys.connections.map fun c => [c.bytes]).flatMap
          (output MockServer.textReader)).filter Line.isEntry =
            received.map (fun entry => recordLine entry.record) ∧
        ∀ id, (s.threads id).turn = none →
          (received.filter (s.owns id)).map Entry.record =
            (s.threads id).emitted.map (Origin.record AdapterTracing.plainText) := by
  obtain ⟨s, ran, quiet, undropped, undiscarded⟩ : ∃ s,
      PartialRun.run (Traced.step ClientBuilder.default.toConfig compactSerde
        AdapterTracing.plainText [.default]) (start 1000 true 0) requestLogged = some s ∧
      s.sys.Quiet ∧ s.sys.contents .dropped = [] ∧ s.sys.contents .discarded = [] :=
    ⟨_, rfl, ⟨rfl, rfl⟩, rfl, rfl⟩
  have everything := arrives_whole s.sys.connections
  obtain ⟨_, received, entries, _, _, complete⟩ := events_shown (PartialRun.reaches_of_run ran)
    compactSerde_documented MockServer.textReader_documented (by decide) (arrives_part everything)
  refine ⟨s, ran, received, entries, fun id idle => ?_⟩
  exact (complete everything quiet undropped undiscarded id idle).2

end Traced

end Ecapplog
