import Ecapplog.Effect

/-! The control flow of the worker: every move it can make from each place of its
loops, and what the other threads can do to it in between. -/

namespace Ecapplog

/-- The part of the state that the worker's control flow depends on, and the calls of
other threads, which it leaves alone. -/
structure Control where
  pc : Pc
  past : List Stream
  network : Option Bool
  flushDeadline : Option Instant
  now : Instant
  items : List Entry
  shutdown : Bool
  handle : Bool
  closes : Nat → CloseCall
  flushes : Nat → FlushCall

def Sys.control (s : Sys) : Control where
  pc := s.pc
  past := s.history.past
  network := s.history.network
  flushDeadline := s.flushDeadline
  now := s.now
  items := s.queue.state.items
  shutdown := s.queue.state.shutdown
  handle := s.handle
  closes := s.closes
  flushes := s.flushes

def bannerFrame (config : Config) : Bytes := frameOf cmdBanner (bannerPayload config.appName)

def logFrame (serde : SerdeJson) (entry : Entry) : Bytes :=
  frameOf cmdLog (jsonOf serde entry.record)

inductive Move (config : Config) (serde : SerdeJson) (c : Control) : Control → Prop where
  -- the loop head
  | proceed (here : c.pc = .head) (running : c.shutdown = false) :
      Move config serde c { c with pc := .connecting }
  | wantsDrain (here : c.pc = .head) (closing : c.shutdown = true)
      (drains : config.flushOnClose = true) : Move config serde c { c with pc := .emptyCheck }
  | leaveHead (here : c.pc = .head) (closing : c.shutdown = true)
      (drops : config.flushOnClose = false) : Move config serde c { c with pc := .exited }
  | nothingQueued (here : c.pc = .emptyCheck) (empty : c.items = []) :
      Move config serde c { c with pc := .exited }
  | backlog (here : c.pc = .emptyCheck) (queued : c.items ≠ []) :
      Move config serde c { c with pc := .deadline none }
  -- the flush deadline, at the head of either loop
  | remember (stream : Option Stream) (deadline : Instant) (here : c.pc = .deadline stream)
      (known : c.flushDeadline = some deadline) :
      Move config serde c { c with pc := .expiry deadline stream }
  | initiate (stream : Option Stream) (deadline : Instant) (here : c.pc = .deadline stream)
      (unknown : c.flushDeadline = none)
      (sum : instantAdd c.now config.flushTimeout = some deadline) :
      Move config serde c
        { c with pc := .expiry deadline stream, flushDeadline := some deadline }
  | overflow (stream : Option Stream) (here : c.pc = .deadline stream)
      (unknown : c.flushDeadline = none) (sum : instantAdd c.now config.flushTimeout = none) :
      Move config serde c { c with pc := .panicked, past := c.past ++ stream.toList }
  | expired (deadline : Instant) (stream : Option Stream) (here : c.pc = .expiry deadline stream)
      (late : deadline ≤ c.now) :
      Move config serde c { c with pc := .exited, past := c.past ++ stream.toList }
  | reconnect (deadline : Instant) (here : c.pc = .expiry deadline none)
      (early : c.now < deadline) : Move config serde c { c with pc := .connecting }
  | resume (deadline : Instant) (stream : Stream) (here : c.pc = .expiry deadline (some stream))
      (early : c.now < deadline) : Move config serde c { c with pc := .popping stream }
  -- a fresh connection
  | connected (here : c.pc = .connecting) :
      Move config serde c { c with pc := .banner Stream.fresh, network := some true }
  | unreachable (here : c.pc = .connecting) :
      Move config serde c { c with pc := .delay, network := some false }
  | announced (stream : Stream) (here : c.pc = .banner stream) :
      Move config serde c { c with
        pc := .inner { stream with bytes := stream.bytes ++ bannerFrame config }
        network := some true }
  | unannounced (stream : Stream) (part : Bytes) (here : c.pc = .banner stream)
      (partly : part <+: bannerFrame config) (short : part.length < (bannerFrame config).length) :
      Move config serde c { c with
        pc := .delay
        past := c.past ++ [{ stream with bytes := stream.bytes ++ part }]
        network := some false }
  | leaveDelay (here : c.pc = .delay) (closing : c.shutdown = true) :
      Move config serde c { c with pc := .exited }
  | retry (here : c.pc = .delay) (running : c.shutdown = false) :
      Move config serde c { c with pc := .head }
  -- the inner loop
  | serve (stream : Stream) (here : c.pc = .inner stream) (running : c.shutdown = false) :
      Move config serde c { c with pc := .popping stream }
  | keepDraining (stream : Stream) (here : c.pc = .inner stream) (closing : c.shutdown = true)
      (drains : config.flushOnClose = true) :
      Move config serde c { c with pc := .deadline (some stream) }
  | leaveInner (stream : Stream) (here : c.pc = .inner stream) (closing : c.shutdown = true)
      (drops : config.flushOnClose = false) :
      Move config serde c { c with pc := .exited, past := c.past ++ [stream] }
  | take (stream : Stream) (entry : Entry) (rest : List Entry) (here : c.pc = .popping stream)
      (front : c.items = entry :: rest) :
      Move config serde c { c with
        pc := .writing { stream with popped := stream.popped ++ [entry] } entry
        items := rest }
  | drained (stream : Stream) (here : c.pc = .popping stream) (empty : c.items = [])
      (closing : c.shutdown = true) :
      Move config serde c { c with pc := .exited, past := c.past ++ [stream] }
  | idle (stream : Stream) (here : c.pc = .popping stream) (empty : c.items = [])
      (running : c.shutdown = false) : Move config serde c { c with pc := .inner stream }
  | condemn (stream : Stream) (entry : Entry) (here : c.pc = .writing stream entry)
      (unsendable : ¬ Sendable serde entry.record) :
      Move config serde c { c with pc := .finishing stream }
  | send (stream : Stream) (entry : Entry) (here : c.pc = .writing stream entry)
      (sendable : Sendable serde entry.record) :
      Move config serde c { c with
        pc := .finishing { stream with
          bytes := stream.bytes ++ logFrame serde entry
          written := stream.written ++ [entry] }
        network := some true }
  | breakOff (stream : Stream) (entry : Entry) (part : Bytes)
      (here : c.pc = .writing stream entry) (sendable : Sendable serde entry.record)
      (partly : part <+: logFrame serde entry)
      (short : part.length < (logFrame serde entry).length) :
      Move config serde c { c with
        pc := .requeue entry
        past := c.past ++ [{ stream with bytes := stream.bytes ++ part }]
        network := some false }
  | finish (stream : Stream) (here : c.pc = .finishing stream) :
      Move config serde c { c with pc := .inner stream }
  -- after a connection failure
  | putBack (entry : Entry) (here : c.pc = .requeue entry) :
      Move config serde c { c with pc := .finishingFailed none, items := entry :: c.items }
  | giveUp (entry : Entry) (total : UInt64) (here : c.pc = .requeue entry) (full : c.items ≠ []) :
      Move config serde c { c with pc := .finishingFailed (some total) }
  | settle (requeued : Option UInt64) (here : c.pc = .finishingFailed requeued) :
      Move config serde c { c with pc := .delay }

theorem Move.running {config : Config} {serde : SerdeJson} {c d : Control}
    (move : Move config serde c d) : c.pc.running = true := by
  cases move <;> simp only [Pc.running, *]

theorem Move.shutdown {config : Config} {serde : SerdeJson} {c d : Control}
    (move : Move config serde c d) : d.shutdown = c.shutdown := by
  cases move <;> rfl

theorem Move.now {config : Config} {serde : SerdeJson} {c d : Control}
    (move : Move config serde c d) : d.now = c.now := by
  cases move <;> rfl

theorem Move.callers {config : Config} {serde : SerdeJson} {c d : Control}
    (move : Move config serde c d) :
    d.handle = c.handle ∧ d.closes = c.closes ∧ d.flushes = c.flushes := by
  cases move <;> exact ⟨rfl, rfl, rfl⟩

namespace Sys

variable (config : Config) (serde : SerdeJson) (net : Network)

theorem atHead_move (s : Sys) (here : s.pc = .head) :
    Move config serde s.control (s.atHead config).control := by
  unfold atHead
  split
  case isTrue closing =>
      split
      case isTrue drains => exact .wantsDrain here closing drains
      case isFalse drops => exact .leaveHead here closing (Bool.eq_false_iff.mpr drops)
  case isFalse running => exact .proceed here (Bool.eq_false_iff.mpr running)

theorem atEmptyCheck_move (s : Sys) (here : s.pc = .emptyCheck) :
    Move config serde s.control s.atEmptyCheck.control := by
  unfold atEmptyCheck
  split
  case isTrue empty => exact .nothingQueued here (List.isEmpty_iff.mp empty)
  case isFalse queued => exact .backlog here fun empty => queued (List.isEmpty_iff.mpr empty)

theorem atDeadline_move (s : Sys) (stream : Option Stream) (here : s.pc = .deadline stream) :
    Move config serde s.control (s.atDeadline config stream).control := by
  unfold atDeadline
  split
  case h_1 deadline known => exact .remember stream deadline here known
  case h_2 unknown =>
      split
      case h_1 deadline sum => exact .initiate stream deadline here unknown sum
      case h_2 sum => exact .overflow stream here unknown sum

theorem atExpiry_move (s : Sys) (deadline : Instant) (stream : Option Stream)
    (here : s.pc = .expiry deadline stream) :
    Move config serde s.control (s.atExpiry deadline stream).control := by
  unfold atExpiry
  split
  case isTrue late => exact .expired deadline stream here late
  case isFalse early =>
      cases stream with
      | none => exact .reconnect deadline here (Nat.lt_of_not_le early)
      | some stream => exact .resume deadline stream here (Nat.lt_of_not_le early)

theorem atConnecting_move (s : Sys) (here : s.pc = .connecting) :
    Move config serde s.control (s.atConnecting config net).control := by
  unfold atConnecting
  split
  · exact .connected here
  · exact .unreachable here

theorem atBanner_move (s : Sys) (stream : Stream) (here : s.pc = .banner stream) :
    Move config serde s.control (s.atBanner config net stream).control := by
  rcases writeAll_cases (bannerFrame config) net.failure with
    all | ⟨part, source, failed, partly, short⟩
  · have sent : writeAll (encodeFrame cmdBanner (bannerPayload config.appName) s.frame)
        net.failure = _ := all
    simp only [atBanner, sent]
    exact .announced stream here
  · have sent : writeAll (encodeFrame cmdBanner (bannerPayload config.appName) s.frame)
        net.failure = _ := failed
    simp only [atBanner, sent]
    exact .unannounced stream part here partly short

theorem atDelay_move (s : Sys) (here : s.pc = .delay) :
    Move config serde s.control s.atDelay.control := by
  unfold atDelay
  split
  case isTrue closing => exact .leaveDelay here closing
  case isFalse running => exact .retry here (Bool.eq_false_iff.mpr running)

theorem atInner_move (s : Sys) (stream : Stream) (here : s.pc = .inner stream) :
    Move config serde s.control (s.atInner config stream).control := by
  unfold atInner
  split
  case isTrue closing =>
      split
      case isTrue drains => exact .keepDraining stream here closing drains
      case isFalse drops => exact .leaveInner stream here closing (Bool.eq_false_iff.mpr drops)
  case isFalse running => exact .serve stream here (Bool.eq_false_iff.mpr running)

theorem atPopping_move (s : Sys) (stream : Stream) (here : s.pc = .popping stream) :
    Move config serde s.control (s.atPopping stream).control := by
  cases items : s.queue.state.items with
  | nil =>
      cases closing : s.queue.state.shutdown with
      | true =>
          simp only [atPopping, Queue.pop, items, closing, if_true]
          exact .drained stream here items closing
      | false =>
          simp only [atPopping, Queue.pop, items, closing, Bool.false_eq_true, if_false]
          exact .idle stream here items closing
  | cons entry rest =>
      simp only [atPopping, Queue.pop, items]
      exact .take stream entry rest here items

theorem atWriting_move (s : Sys) (stream : Stream) (entry : Entry)
    (here : s.pc = .writing stream entry) :
    Move config serde s.control (s.atWriting serde net stream entry).control := by
  rcases writeRecord_cases serde entry.record s.json s.frame net.failure with
    ⟨unsendable, nothing, error, _, result⟩ | ⟨sendable, all, result⟩ |
      ⟨sendable, partly, short, source, result⟩
  · simp only [atWriting, result, nothing, List.append_nil]
    exact .condemn stream entry here unsendable
  · simp only [atWriting, result, all]
    exact .send stream entry here sendable
  · simp only [atWriting, result]
    exact .breakOff stream entry _ here sendable partly short

theorem atRequeue_move (s : Sys) (entry : Entry) (here : s.pc = .requeue entry) :
    Move config serde s.control (s.atRequeue entry).control := by
  rcases Nat.lt_or_ge s.queue.state.items.length s.queue.capacity with room | full
  · simp only [atRequeue, s.queue.pushFront_room entry room]
    exact .putBack entry here
  · simp only [atRequeue, s.queue.pushFront_full entry full, Queue.countDrop]
    apply Move.giveUp entry _ here
    intro empty
    have positive := s.queue.capacity_pos
    rw [show s.queue.state.items = [] from empty, List.length_nil] at full
    omega

theorem atFinishingFailed_move (s : Sys) (requeued : Option UInt64)
    (here : s.pc = .finishingFailed requeued) :
    Move config serde s.control (s.atFinishingFailed requeued).control := by
  cases requeued with
  | none => exact .settle none here
  | some total => exact .settle (some total) here

theorem workerStep_move {s t : Sys} (taken : s.workerStep config serde net = some t) :
    Move config serde s.control t.control := by
  unfold workerStep at taken
  split at taken
  case h_1 here => cases taken; exact s.atHead_move config serde here
  case h_2 here => cases taken; exact s.atEmptyCheck_move config serde here
  case h_3 here => cases taken; exact s.atDeadline_move config serde _ here
  case h_4 here => cases taken; exact s.atExpiry_move config serde _ _ here
  case h_5 here => cases taken; exact s.atConnecting_move config serde net here
  case h_6 here => cases taken; exact s.atBanner_move config serde net _ here
  case h_7 here => cases taken; exact s.atDelay_move config serde here
  case h_8 here => cases taken; exact s.atInner_move config serde _ here
  case h_9 here => cases taken; exact s.atPopping_move config serde _ here
  case h_10 here => cases taken; exact s.atWriting_move config serde net _ _ here
  case h_11 here => cases taken; exact .finish _ here
  case h_12 here => cases taken; exact s.atRequeue_move config serde _ here
  case h_13 here => cases taken; exact s.atFinishingFailed_move config serde _ here
  all_goals cases taken

theorem workerStep_runs (s : Sys) (running : s.pc.running = true) :
    ∃ t, s.workerStep config serde net = some t := by
  unfold workerStep
  split
  case h_14 here => rw [here] at running; cases running
  case h_15 here => rw [here] at running; cases running
  case h_16 here => rw [here] at running; cases running
  all_goals exact ⟨_, rfl⟩

end Sys

/-- What the other threads and the clock can do while the worker is between two
moves: time goes on, shutdown stays, and after it nothing enters the queue. -/
structure Bystander (c d : Control) : Prop where
  pc : d.pc = c.pc
  past : d.past = c.past
  network : d.network = c.network
  flushDeadline : d.flushDeadline = c.flushDeadline
  now : c.now ≤ d.now
  shutdown : c.shutdown = true → d.shutdown = true
  items : c.shutdown = true → d.items = c.items

namespace Sys

theorem log_bystander (s : Sys) (record : Record) : Bystander s.control (s.log record).control where
  pc := rfl
  past := rfl
  network := rfl
  flushDeadline := rfl
  now := Nat.le_refl _
  shutdown := fun closing => (s.queue.push_frame _).2.1.trans closing
  items := fun closing => by
    have refused := (s.queue.push_shutdown ⟨s.history.pushed.length, record⟩ closing).1
    change (s.queue.push _).1.state.items = _
    rw [refused]
    rfl

theorem caller_bystander {s t : Sys}
    (same : t = { s with handle := t.handle, closes := t.closes, flushes := t.flushes }) :
    Bystander s.control t.control := by
  rw [same]
  exact ⟨rfl, rfl, rfl, rfl, Nat.le_refl _, id, fun _ => rfl⟩

theorem step_control {config : Config} {serde : SerdeJson} {s t : Sys} {action : Action}
    (taken : s.step config serde action = some t) :
    (action.isWorker = true ∧ Move config serde s.control t.control) ∨
      (action.isWorker = false ∧ Bystander s.control t.control) := by
  cases action with
  | worker net => exact Or.inl ⟨rfl, workerStep_move config serde net taken⟩
  | log record =>
      cases taken
      exact Or.inr ⟨rfl, s.log_bystander record⟩
  | tick elapsed =>
      cases taken
      exact Or.inr ⟨rfl, rfl, rfl, rfl, rfl, Nat.le_add_right _ _, id, fun _ => rfl⟩
  | closeShutdown call =>
      rcases step_closeShutdown taken with ⟨_, rfl⟩
      exact Or.inr ⟨rfl, rfl, rfl, rfl, rfl, Nat.le_refl _, fun _ => rfl, fun _ => rfl⟩
  | report index =>
      rcases step_report taken with ⟨total, _, rfl⟩
      exact Or.inr ⟨rfl, rfl, rfl, rfl, rfl, Nat.le_refl _, id, fun _ => rfl⟩
  | closeTake call =>
      exact Or.inr ⟨rfl, caller_bystander (step_caller config serde taken (.inl ⟨call, .inl rfl⟩))⟩
  | closeJoin call =>
      exact Or.inr ⟨rfl, caller_bystander (step_caller config serde taken (.inl ⟨call, .inr rfl⟩))⟩
  | flushEnter call =>
      exact Or.inr ⟨rfl, caller_bystander (step_caller config serde taken (.inr ⟨call, .inl rfl⟩))⟩
  | flushWake call =>
      exact Or.inr ⟨rfl, caller_bystander (step_caller config serde taken (.inr ⟨call, .inr rfl⟩))⟩

end Sys

end Ecapplog
