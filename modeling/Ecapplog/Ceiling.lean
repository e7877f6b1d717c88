import Ecapplog.Deadline
import Ecapplog.Graceful

/-! How long closing does take: the flush timeout does not bound it, but together with one
call of `connect` and two writes it does. -/

namespace Ecapplog

variable {bufferSize : Nat} {config : Config} {serde : SerdeJson} {tries : Nat}

def connectLimit (config : Config) (tries : Nat) : Nat :=
  tries * max config.connectTimeout millisecond

def closingLimit (config : Config) (tries : Nat) : Nat :=
  config.flushTimeout + connectLimit config tries + 2 * config.connectTimeout

namespace Pc

def limit (config : Config) (tries : Nat) : Pc → Nat
  | .connecting => connectLimit config tries
  | .banner _ | .writing _ _ => config.connectTimeout
  | _ => 0

/-- How long after the request the worker may still come to a place, once the flush deadline
is known and before. -/
def latest (config : Config) (tries : Nat) (known : Bool) : Pc → Nat
  | .head | .emptyCheck | .deadline none | .expiry _ none => 0
  | .connecting => if known then config.flushTimeout else 0
  | .banner _ => (if known then config.flushTimeout else 0) + connectLimit config tries
  | .popping _ | .writing _ _ =>
      if known then config.flushTimeout + connectLimit config tries + config.connectTimeout else 0
  | .finishing _ => if known then closingLimit config tries else config.connectTimeout
  | .inner _ | .deadline (some _) | .expiry _ (some _) =>
      if known then closingLimit config tries
      else connectLimit config tries + config.connectTimeout
  | _ => closingLimit config tries

def ahead : Pc → Bool
  | .head | .emptyCheck | .deadline none | .expiry _ none | .connecting | .banner _ => true
  | _ => false

def horizon (config : Config) (tries : Nat) (pc : Pc) : Nat :=
  if pc.ahead then config.flushTimeout
  else config.flushTimeout + connectLimit config tries + config.connectTimeout

theorem latest_le (config : Config) (tries : Nat) (known : Bool) (pc : Pc) :
    pc.latest config tries known + pc.limit config tries ≤ closingLimit config tries := by
  cases pc with
  | deadline stream =>
      cases stream <;> cases known <;> (simp [latest, limit, closingLimit]; try omega)
  | expiry deadline stream =>
      cases stream <;> cases known <;> (simp [latest, limit, closingLimit]; try omega)
  | _ => cases known <;> simp [latest, limit, closingLimit] <;> omega

end Pc

def Control.clock (c : Control) : Nat := c.now

structure Control.OnTime (config : Config) (tries start : Nat) (c : Control) : Prop where
  clock : c.clock ≤ start + c.pc.latest config tries c.flushDeadline.isSome
  deadline : ∀ deadline : Nat, c.flushDeadline = some deadline →
    deadline ≤ start + c.pc.horizon config tries

theorem Move.onTime {c d : Control} {start : Nat} (move : Move config serde c d)
    (informed : Informed config c) (closing : c.shutdown = true) (running : d.pc.running = true)
    (clock : c.clock ≤ start + c.pc.latest config tries c.flushDeadline.isSome +
      c.pc.limit config tries)
    (deadline : ∀ deadline : Nat, c.flushDeadline = some deadline →
      deadline ≤ start + c.pc.horizon config tries) : d.OnTime config tries start := by
  cases move with
  | proceed here open_ => rw [closing] at open_; cases open_
  | retry here open_ => rw [closing] at open_; cases open_
  | serve stream here open_ => rw [closing] at open_; cases open_
  | idle stream here empty open_ => rw [closing] at open_; cases open_
  | leaveHead | nothingQueued | overflow | expired | leaveDelay | leaveInner | drained =>
      cases running
  | initiate stream fresh here unknown sum =>
      obtain rfl : fresh = c.clock + config.flushTimeout := instantAdd_eq sum
      rw [here, unknown] at clock
      constructor
      · change c.clock ≤ _
        cases stream <;> simp [Pc.latest, Pc.limit, closingLimit] at clock ⊢ <;> omega
      · intro due same
        cases same
        cases stream <;> simp [Pc.latest, Pc.limit, Pc.horizon, Pc.ahead] at clock ⊢ <;> omega
  | remember stream known here same =>
      rw [here] at clock deadline
      refine ⟨?_, by cases stream <;> exact deadline⟩
      change c.clock ≤ _
      cases stream <;> simpa [Pc.latest, Pc.limit, same] using clock
  | reconnect known here early =>
      have same := informed.deadline known none here
      have early : c.clock < known := early
      rw [here] at deadline
      refine ⟨?_, deadline⟩
      calc
        c.clock ≤ known := Nat.le_of_lt early
        _ ≤ start + config.flushTimeout := deadline known same
        _ = _ := by simp [Pc.latest, same]
  | resume known stream here early =>
      have same := informed.deadline known (some stream) here
      have early : c.clock < known := early
      rw [here] at deadline
      refine ⟨?_, deadline⟩
      calc
        c.clock ≤ known := Nat.le_of_lt early
        _ ≤ _ := deadline known same
        _ = _ := by simp [Pc.latest, Pc.horizon, Pc.ahead, same]
  | _ =>
      rw [‹c.pc = _›] at clock deadline
      constructor
      · change c.clock ≤ _
        cases known : c.flushDeadline <;>
          simp [Pc.latest, Pc.limit, closingLimit, known] at clock ⊢ <;> omega
      · intro due same
        have before := deadline due same
        simp [Pc.horizon, Pc.ahead] at before ⊢
        omega

theorem Move.unset {c d : Control} (move : Move config serde c d) (informed : Informed config c)
    (open_ : c.shutdown = false) : d.flushDeadline = c.flushDeadline := by
  cases move with
  | initiate stream fresh here unknown sum =>
      have closing : c.shutdown = true := informed.closing (by rw [here]; rfl)
      rw [open_] at closing
      cases closing
  | _ => rfl

namespace Timed

/-- Whenever it is asked for, the address resolves to so many at most. -/
def FewTries (tries : Nat) : TimedAction → Prop
  | .call net => net.dial.tries ≤ tries
  | _ => True

instance (action : TimedAction) : Decidable (FewTries tries action) :=
  match action with
  | .call net => inferInstanceAs (Decidable (net.dial.tries ≤ tries))
  | .caller _ | .worker | .answer | .pass _ => .isTrue trivial

def left (s : Timed) : Nat :=
  match s.call with
  | some (_, some left) => left
  | _ => 0

def spare (config : Config) (tries : Nat) (s : Timed) : Nat :=
  if s.call.isSome then s.sys.pc.limit config tries else 0

structure Ceiled (config : Config) (serde : SerdeJson) (bufferSize tries : Nat) (s : Timed) :
    Prop where
  reached : Reachable config serde bufferSize s.sys
  calling : s.call.isSome = true → s.sys.atCall serde = true
  limited : ∀ call ∈ s.call, call.2.isSome = true
  short : s.left ≤ s.spare config tries
  closing : s.requested.isSome = true → s.sys.queue.state.shutdown = true
  unasked : s.requested = none →
    s.sys.queue.state.shutdown = false ∧ s.sys.flushDeadline = none
  clock : ∀ start : Nat, start ∈ s.requested → s.sys.pc.running = true →
    s.sys.control.clock + s.left ≤
      start + s.sys.pc.latest config tries s.sys.flushDeadline.isSome + s.spare config tries
  deadline : ∀ start : Nat, start ∈ s.requested → s.sys.pc.running = true →
    ∀ deadline : Nat, s.sys.flushDeadline = some deadline →
      deadline ≤ start + s.sys.pc.horizon config tries

variable {s t : Timed}

theorem spare_le (s : Timed) : s.spare config tries ≤ s.sys.pc.limit config tries := by
  unfold spare
  split
  · exact Nat.le_refl _
  · exact Nat.zero_le _

theorem attemptTimeout_le (config : Config) (flushDeadline : Option Instant) (now : Instant) :
    attemptTimeout config flushDeadline now ≤ max config.connectTimeout millisecond := by
  have capped (left timeout least : Nat) : max (min left timeout) least ≤ max timeout least := by
    omega
  cases flushDeadline with
  | some deadline => exact capped _ _ _
  | none => exact Nat.le_max_left _ _

theorem callLimit_le (positive : 0 < config.connectTimeout) {net : Network}
    (few : net.dial.tries ≤ tries) {s : Sys} (here : s.atCall serde = true) :
    ∃ limit : Nat, s.callLimit config net = some limit ∧ limit ≤ s.pc.limit config tries := by
  have write : writeTimeout config = some config.connectTimeout :=
    if_neg (Nat.ne_of_gt positive)
  cases place : s.pc with
  | connecting =>
      refine ⟨_, Sys.callLimit_connecting place net, ?_⟩
      rw [connect_tries]
      exact Nat.mul_le_mul few (attemptTimeout_le config s.flushDeadline s.now)
  | banner stream =>
      refine ⟨config.connectTimeout, ?_, Nat.le_refl _⟩
      simp only [Sys.callLimit, place, write]
  | writing stream entry =>
      refine ⟨config.connectTimeout, ?_, Nat.le_refl _⟩
      simp only [Sys.callLimit, place, write]
  | _ => simp [Sys.atCall, place] at here

theorem build_ceiled (spawned : Bool) (now : Instant) :
    (build bufferSize spawned now).Ceiled config serde bufferSize tries where
  reached := ⟨spawned, now, .refl⟩
  calling := nofun
  limited := nofun
  short := Nat.le_refl _
  closing := nofun
  unasked := fun _ => ⟨rfl, rfl⟩
  clock := nofun
  deadline := nofun

theorem Ceiled.moved (inv : s.Ceiled config serde bufferSize tries) {net : Network}
    (stepped : s.sys.workerStep config serde net = some t.sys)
    (requested : t.requested = s.requested) (out : t.call = none) :
    t.Ceiled config serde bufferSize tries := by
  have taken : s.sys.step config serde (.worker net) = some t.sys := stepped
  have move := Sys.workerStep_move config serde net stepped
  have informed := reachable_informed inv.reached
  have onTime (start : Nat) (asked : start ∈ t.requested) (running : t.sys.pc.running = true) :
      t.sys.control.OnTime config tries start := by
    rw [requested] at asked
    refine move.onTime informed (inv.closing (Option.isSome_of_mem asked)) running ?_
      (inv.deadline start asked move.running)
    have before := inv.clock start asked move.running
    exact (Nat.le_add_right _ _).trans (before.trans (Nat.add_le_add_left s.spare_le _))
  have noCall : t.left = 0 ∧ t.spare config tries = 0 := by
    simp [left, spare, out]
  constructor
  · exact inv.reached.step taken
  · simp [out]
  · simp [out]
  · rw [noCall.1]
    exact Nat.zero_le _
  · rw [requested]
    exact fun asked => move.shutdown.trans (inv.closing asked)
  · rw [requested]
    intro unasked
    obtain ⟨open_, unset⟩ := inv.unasked unasked
    exact ⟨move.shutdown.trans open_, (move.unset informed open_).trans unset⟩
  · intro start asked running
    rw [noCall.1, noCall.2]
    exact (onTime start asked running).clock
  · exact fun start asked running => (onTime start asked running).deadline

theorem Ceiled.caller (inv : s.Ceiled config serde bufferSize tries) {action : Action}
    (taken : s.step config serde (.caller action) = some t) :
    t.Ceiled config serde bufferSize tries := by
  obtain ⟨caller, stepped, requests, sameCall⟩ := step_caller taken
  obtain ⟨now, pc, closed⟩ := Sys.step_clock stepped caller
  have clock : t.sys.control.clock = s.sys.control.clock := now
  have unmoved : t.sys.flushDeadline = s.sys.flushDeadline := by
    rcases Sys.step_control stepped with ⟨itself, _⟩ | ⟨_, bystander⟩
    · cases action with
      | worker net => cases caller
      | _ => cases itself
    · exact bystander.flushDeadline
  have left : t.left = s.left := by rw [left, left, sameCall]
  have spare : t.spare config tries = s.spare config tries := by rw [spare, spare, sameCall, pc]
  have reached := inv.reached.step stepped
  have calling : t.call.isSome = true → t.sys.atCall serde = true := by
    rw [sameCall]
    intro inCall
    have here := inv.calling inCall
    simpa only [Sys.atCall, pc] using here
  have limited : ∀ call ∈ t.call, call.2.isSome = true := by
    rw [sameCall]
    exact inv.limited
  have short : t.left ≤ t.spare config tries := by
    rw [left, spare]
    exact inv.short
  rcases s.afterRequest_cases action with same | ⟨call, rfl, first, request⟩
  · rw [same] at requests
    constructor
    · exact reached
    · exact calling
    · exact limited
    · exact short
    · rw [requests]
      exact fun asked => closed (inv.closing asked)
    · rw [requests, unmoved]
      intro unasked
      obtain ⟨open_, unset⟩ := inv.unasked unasked
      refine ⟨Sys.step_calm ?_ open_ stepped, unset⟩
      cases action with
      | closeShutdown call => simp [afterRequest, unasked] at same
      | worker net => cases caller
      | _ => trivial
    · rw [requests, pc, unmoved, clock, left, spare]
      exact inv.clock
    · rw [requests, pc, unmoved]
      exact inv.deadline
  · have unset := (inv.unasked first).2
    constructor
    · exact reached
    · exact calling
    · exact limited
    · exact short
    · intro _
      rw [(Sys.step_closeShutdown stepped).2]
      rfl
    · intro unasked
      rw [requests, request] at unasked
      cases unasked
    · intro start asked _
      rw [requests, request] at asked
      cases asked
      have here := Nat.add_le_add_left short s.sys.control.clock
      rw [clock]
      exact here.trans (Nat.add_le_add_right (Nat.le_add_right _ _) _)
    · intro start _ _ deadline known
      rw [unmoved, unset] at known
      cases known

theorem Ceiled.call (inv : s.Ceiled config serde bufferSize tries)
    (positive : 0 < config.connectTimeout) {net : Network} (few : FewTries tries (.call net))
    (taken : s.step config serde (.call net) = some t) :
    t.Ceiled config serde bufferSize tries := by
  obtain ⟨here, same, requests, inCall⟩ := step_call taken
  obtain ⟨limit, known, small⟩ := callLimit_le positive few here
  have idle : s.call = none := by
    simp only [step] at taken
    split at taken
    · rename_i start
      exact Option.isNone_iff_eq_none.mp start.1
    · cases taken
  have before : s.left = 0 ∧ s.spare config tries = 0 := by simp [left, spare, idle]
  have lasts : t.left = limit := by simp [left, inCall, known]
  have spared : t.spare config tries = s.sys.pc.limit config tries := by
    simp [spare, inCall, same]
  constructor
  · rw [same]
    exact inv.reached
  · rw [same]
    exact fun _ => here
  · rw [inCall, known]
    rintro call ⟨⟩
    rfl
  · rw [lasts, spared]
    exact small
  · rw [same, requests]
    exact inv.closing
  · rw [same, requests]
    exact inv.unasked
  · rw [same, requests, lasts, spared]
    intro start asked running
    have clock := inv.clock start asked running
    rw [before.1, before.2] at clock
    exact Nat.add_le_add clock small
  · rw [same, requests]
    exact inv.deadline

theorem Ceiled.pass (inv : s.Ceiled config serde bufferSize tries) {elapsed : Duration}
    (taken : s.step config serde (.pass elapsed) = some t) :
    t.Ceiled config serde bufferSize tries := by
  obtain ⟨allowed, sys, requests, laterCall⟩ := step_pass taken
  have pc : t.sys.pc = s.sys.pc := by rw [sys]
  have reached : Reachable config serde bufferSize t.sys := by
    have ticked : s.sys.step config serde (.tick elapsed) = some t.sys := by rw [sys]; rfl
    exact inv.reached.step ticked
  have inCall : t.call.isSome = s.call.isSome := by
    rw [laterCall]
    exact Option.isSome_map ..
  have spare : t.spare config tries = s.spare config tries := by
    rw [Timed.spare, Timed.spare, inCall, pc]
  have left : t.left = s.left - elapsed := by
    rw [Timed.left, Timed.left, laterCall]
    rcases s.call with _ | ⟨net, _ | left⟩
    · exact (Nat.zero_sub _).symm
    · exact (Nat.zero_sub _).symm
    · rfl
  -- once shutdown is requested, time passes for the worker only in network calls
  have paid (asked : s.requested.isSome = true) (running : s.sys.pc.running = true) :
      elapsed ≤ s.left := by
    rcases call : s.call with _ | ⟨net, _ | left⟩
    · have finished := Sys.waiting_closing (inv.closing asked)
      simp [allows, call, finished, running] at allowed
    · have limited := inv.limited (net, none) call
      cases limited
    · simpa [allows, Timed.left, call] using allowed
  constructor
  · exact reached
  · rw [inCall, sys]
    exact inv.calling
  · rw [laterCall]
    intro call member
    obtain ⟨before, there, rfl⟩ := Option.map_eq_some_iff.mp member
    exact (Option.isSome_map ..).trans (inv.limited before there)
  · rw [left, spare]
    exact (Nat.sub_le _ _).trans inv.short
  · rw [requests, sys]
    exact inv.closing
  · rw [requests, sys]
    exact inv.unasked
  · rw [requests, spare, left, pc]
    intro start asked running
    have clock : t.sys.control.clock = s.sys.control.clock + elapsed := by
      rw [sys]
      rfl
    have before := inv.clock start asked running
    have lasts := paid (Option.isSome_of_mem asked) running
    rw [clock, Nat.add_assoc, Nat.add_sub_cancel' lasts, sys]
    exact before
  · rw [requests, sys]
    exact inv.deadline

theorem Ceiled.step (inv : s.Ceiled config serde bufferSize tries)
    (positive : 0 < config.connectTimeout) {action : TimedAction} (few : FewTries tries action)
    (taken : s.step config serde action = some t) : t.Ceiled config serde bufferSize tries := by
  cases action with
  | caller action => exact inv.caller taken
  | worker =>
      obtain ⟨stepped, requests, out⟩ := step_worker taken
      exact inv.moved stepped requests out
  | call net => exact inv.call positive few taken
  | answer =>
      obtain ⟨net, stepped, requests, out⟩ := step_answer taken
      exact inv.moved stepped requests out
  | pass elapsed => exact inv.pass taken

/-- With a connect timeout that the sockets take, and an address that resolves to so many at
most: as long as the worker runs, the clock is no further from the request than the flush
timeout, all attempts of one connect, and two writes. -/
theorem closing_ceiling {spawned : Bool} {now : Instant} (positive : 0 < config.connectTimeout)
    (ran : PartialRun.ReachesWhen (Timed.step config serde) (fun _ => FewTries tries)
      (build bufferSize spawned now) s) :
    ∀ start : Nat, start ∈ s.requested → s.sys.pc.running = true →
      (s.sys.now : Nat) ≤ start + closingLimit config tries := by
  have inv : s.Ceiled config serde bufferSize tries :=
    PartialRun.invariant (Ceiled config serde bufferSize tries)
      (fun _ _ _ inv few taken => inv.step positive few taken) (build_ceiled spawned now) ran
  intro start asked running
  have most := s.sys.pc.latest_le config tries s.sys.flushDeadline.isSome
  have spared : s.spare config tries ≤ s.sys.pc.limit config tries := s.spare_le
  have clock := inv.clock start asked running
  change s.sys.control.clock ≤ _
  omega

def slowRun : List TimedAction :=
  let log (message : String) := TimedAction.caller (.log (.new 0 .information "app" message))
  let slow (elapsed : Duration) := [.call .up, .pass elapsed, .answer]
  [log "first", log "second", .worker, .call .up, .caller (.closeShutdown 0), .pass (10 * second),
    .answer] ++ slow (10 * second) ++ List.replicate 4 .worker ++ slow (5 * second - 1) ++
    List.replicate 5 .worker ++ [.call .up, .pass (10 * second)]

theorem closing_ceiling_slow :
    ∃ s, PartialRun.ReachesWhen (Timed.step ClientBuilder.default.toConfig compactSerde)
        (fun _ => FewTries 1) (build 1000 true 0) s ∧
      s.requested = some 0 ∧ s.sys.pc.running = true ∧ s.sys.now = 35 * second - 1 ∧
      s.sys.now ≤ 0 + closingLimit ClientBuilder.default.toConfig 1 := by
  obtain ⟨s, ran, asked, running, now⟩ :
      ∃ s, PartialRun.run (PartialRun.guarded
            (Timed.step ClientBuilder.default.toConfig compactSerde) fun _ => FewTries 1)
          (build 1000 true 0) slowRun = some s ∧
        s.requested = some 0 ∧ s.sys.pc.running = true ∧ s.sys.now = 35 * second - 1 :=
    ⟨_, rfl, rfl, rfl, by decide⟩
  have reached := PartialRun.reachesWhen_of_run ran
  exact ⟨s, reached, asked, running, now, closing_ceiling (by decide) reached 0 asked running⟩

end Timed

end Ecapplog
