import Mathlib.Logic.Function.Basic
import Ecapplog.Foundations.PartialRun
import Ecapplog.Connect
import Ecapplog.Proto
import Ecapplog.Queue

/-! The client: any number of logging, flushing and closing threads, and the one
worker thread. A step is one critical section of the queue, one network call of
the worker, or one branch it takes on its own. `History` and the entry numbers
are bookkeeping that no step reads. -/

namespace Ecapplog

/-- A record with the place its push took in the order of lock acquisitions. -/
structure Entry where
  seq : Nat
  record : Record
  deriving DecidableEq, Repr

inductive WriteFailure where
  | discard (error : Error)
  | connection (error : Error)

structure WriteRecord where
  sent : Bytes
  json : Bytes
  frame : Bytes
  result : Except WriteFailure Unit

def writeRecord (serde : SerdeJson) (record : Record) (json frame : Bytes)
    (failure : Option (Nat × IoError)) : WriteRecord :=
  let json := clear json
  let (text, refused) := serde.toWriter (.fromRecord record)
  let json := json ++ text
  match refused with
  | some source => ⟨[], json, frame, .error (.discard (.serialize source))⟩
  | none =>
      if maxPayloadSize < json.length then
        ⟨[], json, frame, .error (.discard (.payloadTooLarge json.length maxPayloadSize))⟩
      else
        let frame := encodeFrame cmdLog json frame
        match writeAll frame failure with
        | (sent, .ok ()) => ⟨sent, json, frame, .ok ()⟩
        | (sent, .error source) => ⟨sent, json, frame, .error (.connection (.write source))⟩

/-- One connection: the bytes put on it so far, and for the history the entries
popped and those written in full while it was in use. -/
structure Stream where
  bytes : Bytes
  popped : List Entry
  written : List Entry

def Stream.fresh : Stream := ⟨[], [], []⟩

/-- Where the worker is, with the local variables in scope there. -/
inductive Pc where
  | head
  | emptyCheck
  /-- About to read or set the flush deadline; the stream is there in the inner loop. -/
  | deadline (stream : Option Stream)
  | expiry (deadline : Instant) (stream : Option Stream)
  | connecting
  | banner (stream : Stream)
  | delay
  | inner (stream : Stream)
  | popping (stream : Stream)
  | writing (stream : Stream) (entry : Entry)
  | finishing (stream : Stream)
  | requeue (entry : Entry)
  | finishingFailed (requeued : Option UInt64)
  | exited
  | panicked
  | absent

@[simp] def Pc.hand : Pc → Option Entry
  | .writing _ entry => some entry
  | .requeue entry => some entry
  | _ => none

@[simp] def Pc.stream : Pc → Option Stream
  | .deadline stream => stream
  | .expiry _ stream => stream
  | .banner stream => some stream
  | .inner stream => some stream
  | .popping stream => some stream
  | .writing stream _ => some stream
  | .finishing stream => some stream
  | _ => none

/-- The worker thread has terminated, so that a join returns. -/
def Pc.ended : Pc → Bool
  | .exited => true
  | .panicked => true
  | _ => false

def Pc.running : Pc → Bool
  | .exited => false
  | .panicked => false
  | .absent => false
  | _ => true

inductive CloseCall where
  | idle
  | requested
  | joining
  | returned
  deriving DecidableEq

inductive FlushCall where
  | idle
  | waiting
  | returned (drained : Bool)
  deriving DecidableEq

structure History where
  /-- Every push, in the order of lock acquisitions; those before shutdown. -/
  pushed : List Entry
  accepted : List Entry
  discarded : List (Entry × Error)
  dropped : List Entry
  /-- The totals returned by `push` and `push_front`. -/
  totals : List UInt64
  reports : List Error
  past : List Stream
  network : Option Bool

structure Sys where
  queue : Queue Entry
  pc : Pc
  flushDeadline : Option Instant
  json : Bytes
  frame : Bytes
  now : Instant
  handle : Bool
  closes : Nat → CloseCall
  flushes : Nat → FlushCall
  /-- The totals of the `QueueFull` reports that logging threads are about to make,
  outside the lock. -/
  owed : List UInt64
  history : History

structure Network where
  dial : Dial
  failure : Option (Nat × IoError)

def Network.up : Network := ⟨.ok [(⟨"127.0.0.1", 13991⟩, .ok ())], none⟩

def Network.down (sent : Nat) : Network :=
  ⟨.ok [(⟨"127.0.0.1", 13991⟩, .error ⟨.os 111, "Connection refused"⟩)],
    some (sent, ⟨.os 32, "Broken pipe"⟩)⟩

inductive Action where
  | log (record : Record)
  | report (index : Nat)
  | closeShutdown (call : Nat)
  | closeTake (call : Nat)
  | closeJoin (call : Nat)
  | flushEnter (call : Nat)
  /-- The wait of a flush ends, because it is over or because it timed out. -/
  | flushWake (call : Nat)
  | tick (elapsed : Duration)
  | worker (network : Network)

def Action.isWorker : Action → Bool
  | .worker _ => true
  | _ => false

namespace Sys

def hand (s : Sys) : Option Entry := s.pc.hand

def connections (s : Sys) : List Stream := s.history.past ++ s.pc.stream.toList

def written (s : Sys) : List Entry := s.connections.flatMap Stream.written

/-- `ClientBuilder::build`; `spawned` tells whether the thread could be started. -/
def build (bufferSize : Nat) (spawned : Bool) (now : Instant) : Sys where
  queue := Queue.new Entry bufferSize
  pc := if spawned then .head else .absent
  flushDeadline := none
  json := []
  frame := []
  now := now
  handle := spawned
  closes := fun _ => .idle
  flushes := fun _ => .idle
  owed := []
  history := ⟨[], [], [], [], [], [], [], none⟩

def report (s : Sys) (error : Error) : Sys :=
  { s with history := { s.history with reports := s.history.reports ++ [error] } }

def leave (s : Sys) (stream : Option Stream) (pc : Pc) : Sys :=
  { s with pc := pc, history := { s.history with past := s.history.past ++ stream.toList } }

def network (s : Sys) (succeeded : Bool) : Sys :=
  { s with history := { s.history with network := some succeeded } }

/-- `Client::log` up to the release of the lock. -/
def log (s : Sys) (record : Record) : Sys :=
  let entry : Entry := ⟨s.history.pushed.length, record⟩
  let lost := s.queue.pushLoss entry
  let (queue, total) := s.queue.push entry
  { s with
    queue := queue
    owed := s.owed ++ total.toList
    history := { s.history with
      pushed := s.history.pushed ++ [entry]
      accepted := s.history.accepted ++ if s.queue.isShutdown then [] else [entry]
      dropped := s.history.dropped ++ lost
      totals := s.history.totals ++ total.toList } }

section Worker

variable (config : Config) (serde : SerdeJson) (net : Network)

def atHead (s : Sys) : Sys :=
  if s.queue.isShutdown then
    if config.flushOnClose then { s with pc := .emptyCheck } else { s with pc := .exited }
  else { s with pc := .connecting }

def atEmptyCheck (s : Sys) : Sys :=
  if s.queue.isEmpty then { s with pc := .exited } else { s with pc := .deadline none }

/-- `flush_deadline.get_or_insert_with(|| Instant::now() + config.flush_timeout)`. -/
def atDeadline (s : Sys) (stream : Option Stream) : Sys :=
  match s.flushDeadline with
  | some deadline => { s with pc := .expiry deadline stream }
  | none =>
      match instantAdd s.now config.flushTimeout with
      | some deadline => { s with pc := .expiry deadline stream, flushDeadline := some deadline }
      | none => s.leave stream .panicked

def atExpiry (s : Sys) (deadline : Instant) (stream : Option Stream) : Sys :=
  if deadline ≤ s.now then s.leave stream .exited
  else
    match stream with
    | none => { s with pc := .connecting }
    | some stream => { s with pc := .popping stream }

def atConnecting (s : Sys) : Sys :=
  match (connect config s.flushDeadline s.now net.dial).2 with
  | .ok () => { s.network true with pc := .banner Stream.fresh }
  | .error error => { (s.report error).network false with pc := .delay }

def atBanner (s : Sys) (stream : Stream) : Sys :=
  let frame := encodeFrame cmdBanner (bannerPayload config.appName) s.frame
  let (sent, result) := writeAll frame net.failure
  let s := { s with frame := frame }
  let stream := { stream with bytes := stream.bytes ++ sent }
  match result with
  | .ok () => { s.network true with pc := .inner stream }
  | .error source => ((s.report (.write source)).network false).leave (some stream) .delay

def atDelay (s : Sys) : Sys :=
  if s.queue.sleepOrShutdown then { s with pc := .exited } else { s with pc := .head }

def atInner (s : Sys) (stream : Stream) : Sys :=
  if s.queue.isShutdown then
    if config.flushOnClose then { s with pc := .deadline (some stream) }
    else s.leave (some stream) .exited
  else { s with pc := .popping stream }

def atPopping (s : Sys) (stream : Stream) : Sys :=
  match s.queue.pop with
  | (queue, .item entry) =>
      { s with
        queue := queue
        pc := .writing { stream with popped := stream.popped ++ [entry] } entry }
  | (queue, .shutdown) => { s with queue := queue }.leave (some stream) .exited
  | (queue, .idle) => { s with queue := queue, pc := .inner stream }

def atWriting (s : Sys) (stream : Stream) (entry : Entry) : Sys :=
  let write := writeRecord serde entry.record s.json s.frame net.failure
  let s := { s with json := write.json, frame := write.frame }
  let stream := { stream with bytes := stream.bytes ++ write.sent }
  match write.result with
  | .ok () =>
      { s.network true with
        pc := .finishing { stream with written := stream.written ++ [entry] } }
  | .error (.discard error) =>
      { s.report error with
        pc := .finishing stream
        history := { (s.report error).history with
          discarded := s.history.discarded ++ [(entry, error)] } }
  | .error (.connection error) =>
      ((s.report error).network false).leave (some stream) (.requeue entry)

def atFinishing (s : Sys) (stream : Stream) : Sys :=
  { s with queue := s.queue.finish, pc := .inner stream }

def atRequeue (s : Sys) (entry : Entry) : Sys :=
  let (queue, total) := s.queue.pushFront entry
  { s with
    queue := queue
    pc := .finishingFailed total
    history := { s.history with
      dropped := s.history.dropped ++ if total.isSome then [entry] else []
      totals := s.history.totals ++ total.toList } }

def atFinishingFailed (s : Sys) (requeued : Option UInt64) : Sys :=
  let s := { s with queue := s.queue.finish, pc := .delay }
  match requeued with
  | some total => s.report (.queueFull s.queue.capacity total)
  | none => s

def workerStep (s : Sys) : Option Sys :=
  match s.pc with
  | .head => some (s.atHead config)
  | .emptyCheck => some s.atEmptyCheck
  | .deadline stream => some (s.atDeadline config stream)
  | .expiry deadline stream => some (s.atExpiry deadline stream)
  | .connecting => some (s.atConnecting config net)
  | .banner stream => some (s.atBanner config net stream)
  | .delay => some s.atDelay
  | .inner stream => some (s.atInner config stream)
  | .popping stream => some (s.atPopping stream)
  | .writing stream entry => some (s.atWriting serde net stream entry)
  | .finishing stream => some (s.atFinishing stream)
  | .requeue entry => some (s.atRequeue entry)
  | .finishingFailed requeued => some (s.atFinishingFailed requeued)
  | .exited => none
  | .panicked => none
  | .absent => none

end Worker

def setClose (s : Sys) (call : Nat) (stage : CloseCall) : Sys :=
  { s with closes := Function.update s.closes call stage }

def setFlush (s : Sys) (call : Nat) (stage : FlushCall) : Sys :=
  { s with flushes := Function.update s.flushes call stage }

def step (config : Config) (serde : SerdeJson) (s : Sys) : Action → Option Sys
  | .log record => some (s.log record)
  | .report index =>
      match s.owed[index]? with
      | some total =>
          some { s.report (.queueFull s.queue.capacity total) with owed := s.owed.eraseIdx index }
      | none => none
  | .closeShutdown call =>
      match s.closes call with
      | .idle => some ({ s with queue := s.queue.shutdown }.setClose call .requested)
      | _ => none
  | .closeTake call =>
      match s.closes call with
      | .requested =>
          if s.handle then some ({ s with handle := false }.setClose call .joining)
          else some (s.setClose call .returned)
      | _ => none
  | .closeJoin call =>
      match s.closes call with
      | .joining => if s.pc.ended then some (s.setClose call .returned) else none
      | _ => none
  | .flushEnter call =>
      match s.flushes call with
      | .idle =>
          if s.queue.flushWaits then some (s.setFlush call .waiting)
          else some (s.setFlush call (.returned s.queue.flush))
      | _ => none
  | .flushWake call =>
      match s.flushes call with
      | .waiting => some (s.setFlush call (.returned s.queue.flush))
      | _ => none
  | .tick elapsed => some { s with now := s.now + elapsed }
  | .worker net => s.workerStep config serde net

section Callers

variable {config : Config} {serde : SerdeJson} {s t : Sys} {index call : Nat}

theorem step_report (taken : s.step config serde (.report index) = some t) :
    ∃ total, s.owed[index]? = some total ∧
      t = { s.report (.queueFull s.queue.capacity total) with owed := s.owed.eraseIdx index } := by
  simp only [step] at taken
  split at taken
  · rename_i total owed
    exact ⟨total, owed, (Option.some.inj taken).symm⟩
  · cases taken

theorem step_closeShutdown (taken : s.step config serde (.closeShutdown call) = some t) :
    s.closes call = .idle ∧
      t = { s with queue := s.queue.shutdown }.setClose call .requested := by
  simp only [step] at taken
  split at taken
  · rename_i here
    exact ⟨here, (Option.some.inj taken).symm⟩
  · cases taken

theorem step_closeTake (taken : s.step config serde (.closeTake call) = some t) :
    s.closes call = .requested ∧
      ((s.handle = true ∧ t = { s with handle := false }.setClose call .joining) ∨
        (s.handle = false ∧ t = s.setClose call .returned)) := by
  simp only [step] at taken
  split at taken
  · rename_i here
    refine ⟨here, ?_⟩
    split at taken
    · rename_i there
      exact .inl ⟨there, (Option.some.inj taken).symm⟩
    · rename_i gone
      exact .inr ⟨Bool.eq_false_iff.mpr gone, (Option.some.inj taken).symm⟩
  · cases taken

theorem step_closeJoin (taken : s.step config serde (.closeJoin call) = some t) :
    s.closes call = .joining ∧ s.pc.ended = true ∧ t = s.setClose call .returned := by
  simp only [step] at taken
  split at taken
  · rename_i here
    split at taken
    · rename_i ended
      exact ⟨here, ended, (Option.some.inj taken).symm⟩
    · cases taken
  · cases taken

theorem step_flushEnter (taken : s.step config serde (.flushEnter call) = some t) :
    s.flushes call = .idle ∧
      ((s.queue.flushWaits = true ∧ t = s.setFlush call .waiting) ∨
        (s.queue.flushWaits = false ∧ t = s.setFlush call (.returned s.queue.flush))) := by
  simp only [step] at taken
  split at taken
  · rename_i here
    refine ⟨here, ?_⟩
    split at taken
    · rename_i waits
      exact .inl ⟨waits, (Option.some.inj taken).symm⟩
    · rename_i drained
      exact .inr ⟨Bool.eq_false_iff.mpr drained, (Option.some.inj taken).symm⟩
  · cases taken

theorem step_flushWake (taken : s.step config serde (.flushWake call) = some t) :
    s.flushes call = .waiting ∧ t = s.setFlush call (.returned s.queue.flush) := by
  simp only [step] at taken
  split at taken
  · rename_i here
    exact ⟨here, (Option.some.inj taken).symm⟩
  · cases taken

end Callers

end Sys

/-- The states of a client built with `bufferSize`, under every interleaving, every
network behaviour and every advance of the clock. -/
def Reachable (config : Config) (serde : SerdeJson) (bufferSize : Nat) (s : Sys) : Prop :=
  ∃ spawned now, PartialRun.Reaches (Sys.step config serde) (Sys.build bufferSize spawned now) s

theorem Reachable.reaches {config : Config} {serde : SerdeJson} {bufferSize : Nat} {s t : Sys}
    (reached : Reachable config serde bufferSize s)
    (ran : PartialRun.Reaches (Sys.step config serde) s t) :
    Reachable config serde bufferSize t := by
  obtain ⟨spawned, now, before⟩ := reached
  exact ⟨spawned, now, before.trans ran⟩

theorem Reachable.step {config : Config} {serde : SerdeJson} {bufferSize : Nat} {s t : Sys}
    {action : Action} (reached : Reachable config serde bufferSize s)
    (taken : s.step config serde action = some t) : Reachable config serde bufferSize t :=
  reached.reaches (PartialRun.reaches_next .refl taken)

end Ecapplog
