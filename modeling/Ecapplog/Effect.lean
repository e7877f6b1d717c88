import Ecapplog.Client

/-! What one step of the client can do to the queue, to the worker's hand and to
the accounts kept of them. Every invariant of entries is derived from this. -/

namespace Ecapplog

/-- A record serialises, and to no more than the server accepts. -/
def Sendable (serde : SerdeJson) (record : Record) : Prop :=
  (serde.toWriter (.fromRecord record)).2 = none ∧
    (serde.toWriter (.fromRecord record)).1.length ≤ maxPayloadSize

instance (serde : SerdeJson) (record : Record) : Decidable (Sendable serde record) := by
  unfold Sendable
  infer_instance

def jsonOf (serde : SerdeJson) (record : Record) : Bytes :=
  (serde.toWriter (.fromRecord record)).1

/-- The three ways a record write ends. In none of them does the outcome depend
on what the reused buffers held. -/
theorem writeRecord_cases (serde : SerdeJson) (record : Record) (json frame : Bytes)
    (failure : Option (Nat × IoError)) :
    (¬ Sendable serde record ∧
        (writeRecord serde record json frame failure).sent = [] ∧
        ∃ error, error.isUnsendable = true ∧
          (writeRecord serde record json frame failure).result = .error (.discard error)) ∨
      (Sendable serde record ∧
        (writeRecord serde record json frame failure).sent =
          frameOf cmdLog (jsonOf serde record) ∧
        (writeRecord serde record json frame failure).result = .ok ()) ∨
      (Sendable serde record ∧
        (writeRecord serde record json frame failure).sent <+:
          frameOf cmdLog (jsonOf serde record) ∧
        (writeRecord serde record json frame failure).sent.length <
          (frameOf cmdLog (jsonOf serde record)).length ∧
        ∃ source, (writeRecord serde record json frame failure).result =
          .error (.connection (.write source))) := by
  cases serialised : serde.toWriter (.fromRecord record) with
  | mk text refused =>
      cases refused with
      | some source =>
          left
          refine ⟨?_, ?_, .serialize source, rfl, ?_⟩
          · simp [Sendable, serialised]
          · simp [writeRecord, serialised]
          · simp [writeRecord, serialised]
      | none =>
          rcases Nat.lt_or_ge maxPayloadSize text.length with large | fits
          · left
            refine ⟨?_, ?_, .payloadTooLarge text.length maxPayloadSize, rfl, ?_⟩
            · simp [Sendable, serialised, large]
            · simp [writeRecord, serialised, clear, large]
            · simp [writeRecord, serialised, clear, large]
          · right
            have sendable : Sendable serde record := by simp [Sendable, serialised, fits]
            have same : encodeFrame cmdLog (clear json ++ text) frame =
                frameOf cmdLog (jsonOf serde record) := by
              simp [encodeFrame_eq_frameOf, jsonOf, serialised, clear]
            have small : ¬ maxPayloadSize < (clear json ++ text).length := by
              simpa [clear] using fits
            rcases writeAll_cases (frameOf cmdLog (jsonOf serde record)) failure with
              all | ⟨sent, source, partly, isPrefix, short⟩
            · left
              simp only [writeRecord, serialised, if_neg small, same, all]
              exact ⟨sendable, trivial, trivial⟩
            · right
              simp only [writeRecord, serialised, if_neg small, same, partly]
              exact ⟨sendable, isPrefix, short, source, rfl⟩

theorem writeRecord_offline {serde : SerdeJson} {record : Record}
    (unsendable : ¬ Sendable serde record) (json frame : Bytes)
    (failure other : Option (Nat × IoError)) :
    writeRecord serde record json frame failure = writeRecord serde record json frame other := by
  rcases serialised : serde.toWriter (.fromRecord record) with ⟨text, refused⟩
  cases refused with
  | some source => simp only [writeRecord, serialised]
  | none =>
      have large : maxPayloadSize < (clear json ++ text).length := by
        simpa [Sendable, serialised, clear] using unsendable
      simp only [writeRecord, serialised, if_pos large]

/-- The part of the state that accounts for entries. -/
structure Core where
  capacity : Nat
  items : List Entry
  shutdown : Bool
  busy : Bool
  count : UInt64
  hand : Option Entry
  pushed : List Entry
  accepted : List Entry
  written : List Entry
  discarded : List (Entry × Error)
  dropped : List Entry
  totals : List UInt64
  condemned : List Error

def Sys.core (s : Sys) : Core where
  capacity := s.queue.capacity
  items := s.queue.state.items
  shutdown := s.queue.state.shutdown
  busy := s.queue.state.busy
  count := s.queue.dropped
  hand := s.hand
  pushed := s.history.pushed
  accepted := s.history.accepted
  written := s.written
  discarded := s.history.discarded
  dropped := s.history.dropped
  totals := s.history.totals
  condemned := s.history.reports.filter Error.isUnsendable

inductive Effect (c : Core) : Core → Prop where
  | silent : Effect c c
  | refuse (entry : Entry) (next : entry.seq = c.pushed.length) (closed : c.shutdown = true) :
      Effect c { c with
        count := c.count + 1
        pushed := c.pushed ++ [entry]
        dropped := c.dropped ++ [entry]
        totals := c.totals ++ [c.count + 1] }
  | enter (entry : Entry) (next : entry.seq = c.pushed.length) (running : c.shutdown = false)
      (room : c.items.length < c.capacity) :
      Effect c { c with
        items := c.items ++ [entry]
        pushed := c.pushed ++ [entry]
        accepted := c.accepted ++ [entry] }
  | evict (entry oldest : Entry) (rest : List Entry) (next : entry.seq = c.pushed.length)
      (running : c.shutdown = false) (full : c.capacity ≤ c.items.length)
      (front : c.items = oldest :: rest) :
      Effect c { c with
        items := rest ++ [entry]
        count := c.count + 1
        pushed := c.pushed ++ [entry]
        accepted := c.accepted ++ [entry]
        dropped := c.dropped ++ [oldest]
        totals := c.totals ++ [c.count + 1] }
  | pop (entry : Entry) (rest : List Entry) (free : c.hand = none)
      (front : c.items = entry :: rest) :
      Effect c { c with items := rest, busy := true, hand := some entry }
  | deliver (entry : Entry) (out : c.hand = some entry) :
      Effect c { c with hand := none, written := c.written ++ [entry] }
  | discard (entry : Entry) (error : Error) (out : c.hand = some entry)
      (condemns : error.isUnsendable = true) :
      Effect c { c with
        hand := none
        discarded := c.discarded ++ [(entry, error)]
        condemned := c.condemned ++ [error] }
  | putBack (entry : Entry) (out : c.hand = some entry) (room : c.items.length < c.capacity) :
      Effect c { c with items := entry :: c.items, hand := none }
  | giveUp (entry : Entry) (out : c.hand = some entry) (full : c.capacity ≤ c.items.length) :
      Effect c { c with
        count := c.count + 1
        hand := none
        dropped := c.dropped ++ [entry]
        totals := c.totals ++ [c.count + 1] }
  | finish (free : c.hand = none) : Effect c { c with busy := false }
  | shutdown : Effect c { c with shutdown := true }

theorem Effect.of_eq {c d : Core} (same : d = c) : Effect c d := by
  rw [same]
  exact .silent

namespace Sys

variable (config : Config) (serde : SerdeJson) (net : Network)

theorem log_effect (s : Sys) (record : Record) : Effect s.core (s.log record).core := by
  let entry : Entry := ⟨s.history.pushed.length, record⟩
  cases closed : s.queue.state.shutdown with
  | true =>
      obtain ⟨pushed, loss⟩ := s.queue.push_shutdown entry closed
      have now : (s.log record).core = { s.core with
          count := s.core.count + 1
          pushed := s.core.pushed ++ [entry]
          dropped := s.core.dropped ++ [entry]
          totals := s.core.totals ++ [s.core.count + 1] } := by
        simp [log, core, entry, pushed, loss, Queue.countDrop, Queue.isShutdown, closed, hand,
          written, connections]
      rw [now]
      exact .refuse entry rfl closed
  | false =>
      rcases Nat.lt_or_ge s.queue.state.items.length s.queue.capacity with room | full
      · obtain ⟨pushed, loss⟩ := s.queue.push_room entry closed room
        have now : (s.log record).core = { s.core with
            items := s.core.items ++ [entry]
            pushed := s.core.pushed ++ [entry]
            accepted := s.core.accepted ++ [entry] } := by
          simp [log, core, entry, pushed, loss, Queue.isShutdown, closed, hand, written,
            connections]
        rw [now]
        exact .enter entry rfl closed room
      · obtain ⟨pushed, loss⟩ := s.queue.push_full entry closed full
        cases front : s.queue.state.items with
        | nil =>
            have positive := s.queue.capacity_pos
            rw [front, List.length_nil] at full
            omega
        | cons oldest rest =>
            have now : (s.log record).core = { s.core with
                items := rest ++ [entry]
                count := s.core.count + 1
                pushed := s.core.pushed ++ [entry]
                accepted := s.core.accepted ++ [entry]
                dropped := s.core.dropped ++ [oldest]
                totals := s.core.totals ++ [s.core.count + 1] } := by
              simp [log, core, entry, pushed, loss, Queue.isShutdown, closed, front, hand, written,
                connections]
            rw [now]
            exact .evict entry oldest rest rfl closed full front

theorem report_core (s : Sys) (error : Error) (spares : error.isUnsendable = false) :
    (s.report error).core = s.core := by
  simp [report, core, spares, hand, written, connections]

theorem leave_core (s : Sys) {old pc : Pc} {stream : Option Stream} (here : s.pc = old)
    (scope : old.stream = stream) (hand : pc.hand = old.hand) (closed : pc.stream = none) :
    (s.leave stream pc).core = s.core := by
  subst here scope
  simp [leave, core, Sys.hand, written, connections, closed, hand, -Pc.hand, -Pc.stream]

theorem move_core (s : Sys) {old pc : Pc} (here : s.pc = old) (scope : pc.stream = old.stream)
    (hand : pc.hand = old.hand) : { s with pc := pc }.core = s.core := by
  subst here
  simp [core, Sys.hand, written, connections, scope, hand, -Pc.hand, -Pc.stream]

theorem atHead_core (s : Sys) (here : s.pc = .head) : (s.atHead config).core = s.core := by
  unfold atHead
  split
  · split
    · exact s.move_core here rfl rfl
    · exact s.move_core here rfl rfl
  · exact s.move_core here rfl rfl

theorem atEmptyCheck_core (s : Sys) (here : s.pc = .emptyCheck) :
    s.atEmptyCheck.core = s.core := by
  unfold atEmptyCheck
  split
  · exact s.move_core here rfl rfl
  · exact s.move_core here rfl rfl

theorem atDeadline_core (s : Sys) (stream : Option Stream) (here : s.pc = .deadline stream) :
    (s.atDeadline config stream).core = s.core := by
  unfold atDeadline
  split
  · exact s.move_core here rfl rfl
  · split
    · exact s.move_core here rfl rfl
    · exact s.leave_core here rfl rfl rfl

theorem atExpiry_core (s : Sys) (deadline : Instant) (stream : Option Stream)
    (here : s.pc = .expiry deadline stream) : (s.atExpiry deadline stream).core = s.core := by
  unfold atExpiry
  split
  · exact s.leave_core here rfl rfl rfl
  · cases stream with
    | none => exact s.move_core here rfl rfl
    | some stream => exact s.move_core here rfl rfl

theorem atConnecting_core (s : Sys) (here : s.pc = .connecting) :
    (s.atConnecting config net).core = s.core := by
  unfold atConnecting
  split
  · simp [core, network, hand, written, connections, here, Stream.fresh]
  · rename_i error failed
    have spares : error.isUnsendable = false := by
      obtain ⟨address, source, rfl | rfl⟩ := connect_error _ _ _ _ error failed
      · rfl
      · rfl
    simp [core, network, report, hand, written, connections, here, spares]

theorem atBanner_core (s : Sys) (stream : Stream) (here : s.pc = .banner stream) :
    (s.atBanner config net stream).core = s.core := by
  rcases outcome : writeAll (encodeFrame cmdBanner (bannerPayload config.appName) s.frame)
    net.failure with ⟨sent, result⟩
  cases result with
  | ok => simp [atBanner, outcome, core, network, hand, written, connections, here]
  | error source =>
      simp [atBanner, outcome, core, network, report, leave, hand, written, connections, here,
        Error.isUnsendable]

theorem atDelay_core (s : Sys) (here : s.pc = .delay) : s.atDelay.core = s.core := by
  unfold atDelay
  split
  · exact s.move_core here rfl rfl
  · exact s.move_core here rfl rfl

theorem atInner_core (s : Sys) (stream : Stream) (here : s.pc = .inner stream) :
    (s.atInner config stream).core = s.core := by
  unfold atInner
  split
  · split
    · exact s.move_core here rfl rfl
    · exact s.leave_core here rfl rfl rfl
  · exact s.move_core here rfl rfl

theorem atPopping_effect (s : Sys) (stream : Stream) (here : s.pc = .popping stream) :
    Effect s.core (s.atPopping stream).core := by
  cases items : s.queue.state.items with
  | nil =>
      cases closed : s.queue.state.shutdown with
      | true =>
          apply Effect.of_eq
          simp [atPopping, Queue.pop, items, closed, leave, core, hand, written, connections, here]
      | false =>
          apply Effect.of_eq
          simp [atPopping, Queue.pop, items, closed, core, hand, written, connections, here]
  | cons entry rest =>
      have popped : (s.atPopping stream).core =
          { s.core with items := rest, busy := true, hand := some entry } := by
        simp [atPopping, Queue.pop, items, core, hand, written, connections, here]
      rw [popped]
      exact .pop entry rest (by simp [core, hand, here]) items

theorem atWriting_effect (s : Sys) (stream : Stream) (entry : Entry)
    (here : s.pc = .writing stream entry) :
    Effect s.core (s.atWriting serde net stream entry).core := by
  have out : s.core.hand = some entry := by simp [core, hand, here]
  rcases writeRecord_cases serde entry.record s.json s.frame net.failure with
    ⟨_, _, error, condemns, result⟩ | ⟨_, _, result⟩ | ⟨_, _, _, source, result⟩
  · have discarded : (s.atWriting serde net stream entry).core = { s.core with
        hand := none
        discarded := s.core.discarded ++ [(entry, error)]
        condemned := s.core.condemned ++ [error] } := by
      simp [atWriting, result, report, core, hand, written, connections, here,
        condemns]
    rw [discarded]
    exact .discard entry error out condemns
  · have delivered : (s.atWriting serde net stream entry).core =
        { s.core with hand := none, written := s.core.written ++ [entry] } := by
      simp [atWriting, result, network, core, hand, written, connections, here]
    rw [delivered]
    exact .deliver entry out
  · apply Effect.of_eq
    simp [atWriting, result, report, network, leave, core, hand, written, connections, here,
      Error.isUnsendable]

theorem atFinishing_effect (s : Sys) (stream : Stream) (here : s.pc = .finishing stream) :
    Effect s.core (s.atFinishing stream).core := by
  have finished : (s.atFinishing stream).core = { s.core with busy := false } := by
    simp [atFinishing, Queue.finish, core, hand, written, connections, here]
  rw [finished]
  exact .finish (by simp [core, hand, here])

theorem atRequeue_effect (s : Sys) (entry : Entry) (here : s.pc = .requeue entry) :
    Effect s.core (s.atRequeue entry).core := by
  have out : s.core.hand = some entry := by simp [core, hand, here]
  rcases Nat.lt_or_ge s.queue.state.items.length s.queue.capacity with room | full
  · have back : (s.atRequeue entry).core =
        { s.core with items := entry :: s.core.items, hand := none } := by
      simp [atRequeue, s.queue.pushFront_room entry room, core, hand, written, connections, here]
    rw [back]
    exact .putBack entry out room
  · have lost : (s.atRequeue entry).core = { s.core with
        count := s.core.count + 1
        hand := none
        dropped := s.core.dropped ++ [entry]
        totals := s.core.totals ++ [s.core.count + 1] } := by
      simp [atRequeue, s.queue.pushFront_full entry full, Queue.countDrop, core, hand, written,
        connections, here]
    rw [lost]
    exact .giveUp entry out full

theorem atFinishingFailed_effect (s : Sys) (requeued : Option UInt64)
    (here : s.pc = .finishingFailed requeued) :
    Effect s.core (s.atFinishingFailed requeued).core := by
  have finished : (s.atFinishingFailed requeued).core = { s.core with busy := false } := by
    cases requeued with
    | none =>
        simp [atFinishingFailed, Queue.finish, core, hand, written, connections, here]
    | some total =>
        simp [atFinishingFailed, Queue.finish, report, core, hand, written, connections, here,
          Error.isUnsendable]
  rw [finished]
  exact .finish (by simp [core, hand, here])

theorem workerStep_effect {s t : Sys} (taken : s.workerStep config serde net = some t) :
    Effect s.core t.core := by
  unfold workerStep at taken
  split at taken
  case h_1 here => cases taken; exact .of_eq (s.atHead_core config here)
  case h_2 here => cases taken; exact .of_eq (s.atEmptyCheck_core here)
  case h_3 here => cases taken; exact .of_eq (s.atDeadline_core config _ here)
  case h_4 here => cases taken; exact .of_eq (s.atExpiry_core _ _ here)
  case h_5 here => cases taken; exact .of_eq (s.atConnecting_core config net here)
  case h_6 here => cases taken; exact .of_eq (s.atBanner_core config net _ here)
  case h_7 here => cases taken; exact .of_eq (s.atDelay_core here)
  case h_8 here => cases taken; exact .of_eq (s.atInner_core config _ here)
  case h_9 here => cases taken; exact s.atPopping_effect _ here
  case h_10 here => cases taken; exact s.atWriting_effect serde net _ _ here
  case h_11 here => cases taken; exact s.atFinishing_effect _ here
  case h_12 here => cases taken; exact s.atRequeue_effect _ here
  case h_13 here => cases taken; exact s.atFinishingFailed_effect _ here
  all_goals cases taken

theorem step_caller {s t : Sys} {action : Action} (taken : s.step config serde action = some t)
    (caller : (∃ call, action = .closeTake call ∨ action = .closeJoin call) ∨
      (∃ call, action = .flushEnter call ∨ action = .flushWake call)) :
    t = { s with handle := t.handle, closes := t.closes, flushes := t.flushes } := by
  rcases caller with ⟨call, rfl | rfl⟩ | ⟨call, rfl | rfl⟩
  · rcases step_closeTake taken with ⟨_, ⟨_, rfl⟩ | ⟨_, rfl⟩⟩
    · rfl
    · rfl
  · rcases step_closeJoin taken with ⟨_, _, rfl⟩
    rfl
  · rcases step_flushEnter taken with ⟨_, ⟨_, rfl⟩ | ⟨_, rfl⟩⟩
    · rfl
    · rfl
  · rcases step_flushWake taken with ⟨_, rfl⟩
    rfl

theorem step_effect {s t : Sys} {action : Action} (taken : s.step config serde action = some t) :
    Effect s.core t.core := by
  cases action with
  | log record =>
      cases taken
      exact s.log_effect record
  | report index =>
      rcases step_report taken with ⟨total, _, rfl⟩
      exact .of_eq (s.report_core _ rfl)
  | closeShutdown call =>
      rcases step_closeShutdown taken with ⟨_, rfl⟩
      exact .shutdown
  | closeTake call =>
      rw [step_caller config serde taken (.inl ⟨call, .inl rfl⟩)]
      exact .silent
  | closeJoin call =>
      rw [step_caller config serde taken (.inl ⟨call, .inr rfl⟩)]
      exact .silent
  | flushEnter call =>
      rw [step_caller config serde taken (.inr ⟨call, .inl rfl⟩)]
      exact .silent
  | flushWake call =>
      rw [step_caller config serde taken (.inr ⟨call, .inr rfl⟩)]
      exact .silent
  | tick elapsed =>
      cases taken
      exact .silent
  | worker net => exact workerStep_effect config serde net taken

end Sys

end Ecapplog
