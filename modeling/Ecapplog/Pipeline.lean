import Ecapplog.EndToEnd
import Ecapplog.LogLogger
import Ecapplog.Progress

/-! From the `log` facade to the server: the lines shown of a program's facade calls. -/

namespace Ecapplog

open AdapterTracing (TracingLayer)
open MockServer (Line SerdeValue output recordLine isPlausible)

variable {bufferSize : Nat} {config : Config} {serde : SerdeJson}

def Action.logged : Action → Option Record
  | .log record => some record
  | _ => none

theorem Sys.step_logged {s t : Sys} {action : Action}
    (taken : s.step config serde action = some t) :
    t.history.pushed.map Entry.record =
      s.history.pushed.map Entry.record ++ action.logged.toList := by
  cases action with
  | log record =>
      cases taken
      exact List.map_append
  | _ =>
      rw [(step_silent rfl taken).1]
      exact (List.append_nil _).symm

theorem run_logged {s t : Sys} {actions : List Action}
    (ran : PartialRun.run (Sys.step config serde) s actions = some t) :
    t.history.pushed.map Entry.record =
      s.history.pushed.map Entry.record ++ actions.filterMap Action.logged := by
  induction actions generalizing s with
  | nil =>
      cases ran
      exact (List.append_nil _).symm
  | cons action rest ih =>
      obtain ⟨next, first, later⟩ := PartialRun.run_cons_some.mp ran
      rw [ih later, Sys.step_logged first, List.append_assoc]
      cases action <;> rfl

theorem Effect.accepted_pushed {c d : Core} (effect : Effect c d)
    (before : c.accepted.Sublist c.pushed) : d.accepted.Sublist d.pushed := by
  cases effect with
  | refuse entry next closed => exact before.trans (List.sublist_append_left _ _)
  | enter entry next running room => exact before.append (.refl _)
  | evict entry oldest rest next running full front => exact before.append (.refl _)
  | _ => exact before

theorem reachable_accepted_pushed {s : Sys} (reached : Reachable config serde bufferSize s) :
    s.history.accepted.Sublist s.history.pushed := by
  obtain ⟨spawned, now, ran⟩ := reached
  refine PartialRun.invariant (fun s => s.core.accepted.Sublist s.core.pushed) ?_ (.refl _) ran
  intro s action t before _ taken
  exact (Sys.step_effect config serde taken).accepted_pushed before

theorem Sys.Quiet.all_written {s : Sys} (quiet : s.Quiet)
    (reached : Reachable config serde bufferSize s) (undropped : s.contents .dropped = [])
    (undiscarded : s.contents .discarded = []) : s.written = s.history.pushed := by
  have part := (written_accepted reached).trans (reachable_accepted_pushed reached)
  have all := (pushed_perm reached).length_eq
  rw [quiet.queue, quiet.hand, undropped, undiscarded] at all
  rw [List.nil_append, List.nil_append, List.append_nil, List.append_nil] at all
  exact part.eq_of_length all

namespace AdapterLog.LogLogger

def line (logger : LogLogger) (now : SystemTime) (record : Log.Record) : Line :=
  let category := logger.categoryFor record
  let details := [("source", callSite record),
    ("original_category", TracingLayer.originalCategory record.modulePath category)]
  .entry (formatUtc now) (priorityFor record.metadata.level).asStr category record.args
    (!isPlausible (formatUtc now)) (details.filter fun (_, value) => value ≠ "") none

theorem recordLine_log {logger : LogLogger} {now : SystemTime} {record : Log.Record}
    {entry : Record} (logged : logger.log now record = some entry) :
    recordLine entry = logger.line now record := by
  have passes : logger.enabled record.metadata = true := by
    by_contra off
    rw [log, if_neg off] at logged
    cases logged
  rw [log_eq passes] at logged
  cases logged
  simp [recordLine, line, Record.new, List.filter_cons]

theorem map_recordLine (logger : LogLogger) (calls : List (SystemTime × Log.Record)) :
    (calls.filterMap fun call => logger.log call.1 call.2).map recordLine =
      (calls.filter fun call => logger.enabled call.2.metadata).map fun call =>
        logger.line call.1 call.2 := by
  induction calls with
  | nil => rfl
  | cons call rest ih =>
      by_cases passes : logger.enabled call.2.metadata = true
      · obtain ⟨entry, logged⟩ : ∃ entry, logger.log call.1 call.2 = some entry :=
          ⟨_, log_eq passes call.1⟩
        simp only [List.filterMap_cons, logged, List.filter_cons, passes, if_true, List.map_cons,
          recordLine_log logged, ih]
      · have off : logger.log call.1 call.2 = none := if_neg passes
        simp only [List.filterMap_cons, off, List.filter_cons, passes, if_false, ih,
          Bool.false_eq_true]

end AdapterLog.LogLogger

/-- A program logs through the facade alone, under an app name that fits the frame limit. On
whatever part of the bytes arrives, the server shows the lines of some of its enabled calls, in
their order; and of all of them once everything has arrived, the queue is drained and nothing
was lost. -/
theorem facade_shown {V : Type} {reader : SerdeValue V} {escape : Char → List Char} {s : Sys}
    {spawned : Bool} {now : Instant} {actions : List Action} {logger : AdapterLog.LogLogger}
    {calls : List (SystemTime × Log.Record)}
    (ran : PartialRun.run (Sys.step config serde) (Sys.build bufferSize spawned now) actions =
      some s)
    (issued : actions.filterMap Action.logged =
      calls.filterMap fun call => logger.log call.1 call.2)
    (documented : serde.Documented escape) (read : reader.Documented)
    (named : 9 + (utf8 config.appName).length ≤ maxPayloadSize) {arrivals : List (List Bytes)}
    (arrived : List.Forall₂ (fun chunks c => chunks.flatten <+: c.bytes) arrivals s.connections) :
    (∃ kept : List (SystemTime × Log.Record), kept.Sublist calls ∧
      (∀ call ∈ kept, logger.enabled call.2.metadata = true) ∧
      (arrivals.flatMap (output reader)).filter Line.isEntry =
        kept.map fun call => logger.line call.1 call.2) ∧
    (List.Forall₂ (fun chunks c => chunks.flatten = c.bytes) arrivals s.connections → s.Quiet →
      s.contents .dropped = [] → s.contents .discarded = [] →
        (arrivals.flatMap (output reader)).filter Line.isEntry =
          (calls.filter fun call => logger.enabled call.2.metadata).map fun call =>
            logger.line call.1 call.2) := by
  have reached : Reachable config serde bufferSize s :=
    ⟨spawned, now, PartialRun.reaches_of_run ran⟩
  have pushed : s.history.pushed.map Entry.record =
      calls.filterMap fun call => logger.log call.1 call.2 := by
    rw [run_logged ran, ← issued]
    rfl
  obtain ⟨received, entries, _, ordered, complete⟩ :=
    shown_together (reachable_shown reached documented read named arrived)
  have lines : (arrivals.flatMap (output reader)).filter Line.isEntry =
      (received.map Entry.record).map recordLine := by
    rw [entries, List.map_map]
    rfl
  constructor
  · have among : received.Sublist s.history.pushed :=
      (ordered.trans (written_accepted reached)).trans (reachable_accepted_pushed reached)
    have records := among.map Entry.record
    rw [pushed] at records
    obtain ⟨some_, part, same⟩ := List.sublist_filterMap_iff.mp records
    refine ⟨some_.filter fun call => logger.enabled call.2.metadata,
      List.filter_sublist.trans part, fun call member => (List.mem_filter.mp member).2, ?_⟩
    rw [lines, same, logger.map_recordLine]
  · intro everything quiet undropped undiscarded
    have all : received = s.history.pushed :=
      (complete everything).trans (quiet.all_written reached undropped undiscarded)
    rw [lines, all, pushed, logger.map_recordLine]

theorem arrives_whole (connections : List Stream) :
    List.Forall₂ (fun chunks c => chunks.flatten = c.bytes)
      (connections.map fun c => [c.bytes]) connections := by
  apply List.forall₂_map_left_iff.mpr
  apply List.forall₂_same.mpr
  intro c _
  exact List.flatten_singleton

theorem arrives_part {arrivals : List (List Bytes)} {connections : List Stream}
    (everything : List.Forall₂ (fun chunks c => chunks.flatten = c.bytes) arrivals connections) :
    List.Forall₂ (fun chunks c => chunks.flatten <+: c.bytes) arrivals connections := by
  refine everything.imp ?_
  intro chunks c same
  exact ⟨[], (List.append_nil _).trans same⟩

def facadeCalls : List (SystemTime × Log.Record) :=
  [(0, ⟨⟨.warn, "db"⟩, "slow", some "app", some "db.rs", some 7⟩),
    (0, ⟨⟨.trace, "db"⟩, "row", some "app", some "db.rs", some 8⟩)]

def infoLogger : AdapterLog.LogLogger := ⟨some .info, .target⟩

def facadeRun : List Action :=
  (facadeCalls.filterMap fun call => infoLogger.log call.1 call.2).map .log ++
    List.replicate 8 (.worker .up)

set_option maxRecDepth 2000 in
theorem facade_shown_warning :
    ∃ s, runDefault 1000 facadeRun = some s ∧
      ((s.connections.map fun c => [c.bytes]).flatMap (output MockServer.textReader)).filter
        Line.isEntry = (facadeCalls.take 1).map fun call => infoLogger.line call.1 call.2 := by
  obtain ⟨s, ran, quiet, undropped, undiscarded⟩ : ∃ s, runDefault 1000 facadeRun = some s ∧
      s.Quiet ∧ s.contents .dropped = [] ∧ s.contents .discarded = [] :=
    ⟨_, rfl, ⟨rfl, rfl⟩, rfl, rfl⟩
  have issued : facadeRun.filterMap Action.logged =
      facadeCalls.filterMap fun call => infoLogger.log call.1 call.2 := rfl
  have everything := arrives_whole s.connections
  have shown := facade_shown ran issued compactSerde_documented MockServer.textReader_documented
    (by decide) (arrives_part everything)
  exact ⟨s, ran, shown.2 everything quiet undropped undiscarded⟩

end Ecapplog
