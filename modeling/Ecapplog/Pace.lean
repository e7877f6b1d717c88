import Ecapplog.Progress

/-! The pace of the worker: the two waits of its loops take their time, so that it neither
dials more often than configured nor spins. -/

namespace Ecapplog

variable {bufferSize : Nat} {config : Config} {serde : SerdeJson}

def pollInterval : Duration := 200 * millisecond

def Control.idling (c : Control) : Bool :=
  match c.pc with
  | .popping _ => c.items.isEmpty && !c.shutdown
  | _ => false

def Control.retrying (c : Control) : Bool :=
  match c.pc with
  | .delay => !c.shutdown
  | _ => false

/-- The client, with the clock reading at which the worker got to where it is, and the
history of its pace. -/
structure Paced where
  sys : Sys
  since : Instant
  dials : List Instant
  moves : Nat
  idles : Nat
  retries : Nat

def Pc.dialing : Pc → Bool
  | .connecting => true
  | _ => false

namespace Paced

def build (bufferSize : Nat) (spawned : Bool) (now : Instant) : Paced :=
  ⟨Sys.build bufferSize spawned now, now, [], 0, 0, 0⟩

def held (config : Config) (s : Paced) : Bool :=
  (s.sys.control.idling && s.sys.now < s.since + pollInterval) ||
    (s.sys.control.retrying && s.sys.now < s.since + config.reconnectDelay)

def step (config : Config) (serde : SerdeJson) (s : Paced) : Action → Option Paced
  | .worker net =>
      if s.held config then none
      else
        (s.sys.workerStep config serde net).map fun sys =>
          { sys := sys
            since := s.sys.now
            dials := s.dials ++ if s.sys.pc.dialing then [s.sys.now] else []
            moves := s.moves + 1
            idles := s.idles + s.sys.control.idling.toNat
            retries := s.retries + s.sys.control.retrying.toNat }
  | action => (s.sys.step config serde action).map fun sys => { s with sys := sys }

theorem step_worker {s t : Paced} {net : Network}
    (taken : s.step config serde (.worker net) = some t) :
    s.held config = false ∧ s.sys.workerStep config serde net = some t.sys ∧
      t.since = s.sys.now ∧
      t.dials = s.dials ++ (if s.sys.pc.dialing then [s.sys.now] else []) ∧
      t.moves = s.moves + 1 ∧ t.idles = s.idles + s.sys.control.idling.toNat ∧
      t.retries = s.retries + s.sys.control.retrying.toNat := by
  simp only [step] at taken
  split at taken
  · cases taken
  · rename_i free
    obtain ⟨sys, stepped, rfl⟩ := Option.map_eq_some_iff.mp taken
    exact ⟨Bool.eq_false_iff.mpr free, stepped, rfl, rfl, rfl, rfl, rfl⟩

theorem step_caller {s t : Paced} {action : Action} (caller : action.isWorker = false)
    (taken : s.step config serde action = some t) :
    ∃ sys, s.sys.step config serde action = some sys ∧ t = { s with sys := sys } := by
  have mapped :
      (s.sys.step config serde action).map (fun sys => { s with sys := sys }) = some t := by
    cases action with
    | worker net => cases caller
    | _ => exact taken
  obtain ⟨sys, stepped, rfl⟩ := Option.map_eq_some_iff.mp mapped
  exact ⟨sys, stepped, rfl⟩

end Paced

/-- A bound on the worker's moves until it waits: a few for each queued entry, and a few
to get to a connection. -/
def Control.work (c : Control) : Nat :=
  6 * c.items.length +
    match c.pc with
    | .head => 14
    | .emptyCheck => 13
    | .deadline none => 12
    | .expiry _ none => 11
    | .connecting => 10
    | .banner _ => 9
    | .inner _ => 8
    | .deadline (some _) => 7
    | .expiry _ (some _) => 6
    | .popping _ => 5
    | .writing _ _ => 10
    | .finishing _ => 9
    | .requeue _ => 9
    | .finishingFailed _ => 2
    | .delay => 1
    | _ => 0

theorem Move.work {c d : Control} (move : Move config serde c d) :
    d.work + 1 ≤ c.work + 4 * c.idling.toNat + 14 * c.retrying.toNat := by
  cases move with
  | take stream entry rest here front =>
      simp only [Control.work, here, front, List.length_cons]
      omega
  | idle stream here empty running => simp [Control.work, Control.idling, here, empty, running]
  | retry here running => simp [Control.work, Control.retrying, here, running]
  | putBack entry here =>
      simp only [Control.work, here, List.length_cons]
      omega
  | remember stream deadline here known =>
      cases stream <;> simp only [Control.work, here] <;> omega
  | initiate stream deadline here unknown sum =>
      cases stream <;> simp only [Control.work, here] <;> omega
  | overflow stream here unknown sum => cases stream <;> simp only [Control.work, here] <;> omega
  | expired deadline stream here late =>
      cases stream <;> simp only [Control.work, here] <;> omega
  | _ =>
      simp only [Control.work, *]
      omega

theorem Effect.load {c d : Core} (effect : Effect c d) (hand : d.hand = c.hand) :
    d.items.length + c.accepted.length ≤ c.items.length + d.accepted.length := by
  cases effect with
  | enter entry next running room =>
      simp only [List.length_append, List.length_singleton]
      omega
  | evict entry oldest rest next running full front =>
      simp only [front, List.length_append, List.length_cons]
      omega
  | pop entry rest free front =>
      rw [free] at hand
      cases hand
  | putBack entry out room =>
      rw [out] at hand
      cases hand
  | _ => exact Nat.le_refl _

def Pc.outside : Pc → Bool
  | .head => true
  | .emptyCheck => true
  | .deadline none => true
  | .expiry _ none => true
  | .connecting => true
  | _ => false

theorem Move.outside {c d : Control} (move : Move config serde c d) (out : d.pc.outside = true) :
    (c.pc.outside = true ∧ c.pc.dialing = false) ∨ c.retrying = true := by
  cases move with
  | proceed here running => exact .inl (by rw [here]; exact ⟨rfl, rfl⟩)
  | wantsDrain here closing drains => exact .inl (by rw [here]; exact ⟨rfl, rfl⟩)
  | backlog here queued => exact .inl (by rw [here]; exact ⟨rfl, rfl⟩)
  | remember stream deadline here known =>
      rw [here]
      exact .inl ⟨by cases stream <;> [rfl; cases out], rfl⟩
  | initiate stream deadline here unknown sum =>
      rw [here]
      exact .inl ⟨by cases stream <;> [rfl; cases out], rfl⟩
  | reconnect deadline here early => exact .inl (by rw [here]; exact ⟨rfl, rfl⟩)
  | retry here running => exact .inr (by simp [Control.retrying, here, running])
  | _ => cases out

namespace Paced

structure Pacing (config : Config) (started : Instant) (s : Paced) : Prop where
  clock : s.since ≤ s.sys.now
  past : ∀ dial ∈ s.dials, dial ≤ s.since
  spaced : s.dials.Pairwise fun earlier later => earlier + config.reconnectDelay ≤ later
  ready : s.sys.pc.outside = true → ∀ dial ∈ s.dials, dial + config.reconnectDelay ≤ s.sys.now
  budget : started + s.idles * pollInterval + s.retries * config.reconnectDelay ≤ s.since
  moves : s.moves + s.sys.control.work ≤
    6 * s.sys.history.accepted.length + 4 * s.idles + 14 * s.retries + 14

theorem build_pacing (bufferSize : Nat) (spawned : Bool) (now : Instant) :
    Pacing config now (build bufferSize spawned now) where
  clock := Nat.le_refl now
  past := nofun
  spaced := .nil
  ready := fun _ => nofun
  budget := by simp [build]
  moves := by cases spawned <;> simp [build, Sys.build, Sys.control, Control.work, Queue.new]

theorem another_wait (start waits duration rest : Nat) :
    start + (waits + 1) * duration + rest = start + waits * duration + rest + duration := by
  rw [Nat.succ_mul]
  omega

variable {s t : Paced} {started : Instant}

theorem Pacing.caller (inv : s.Pacing config started) {action : Action}
    (caller : action.isWorker = false) (taken : s.step config serde action = some t) :
    t.Pacing config started := by
  obtain ⟨sys, stepped, rfl⟩ := step_caller caller taken
  have aside : Bystander s.sys.control sys.control := by
    rcases Sys.step_control stepped with ⟨mine, _⟩ | ⟨_, aside⟩
    · rw [caller] at mine
      cases mine
    · exact aside
  have pc : sys.pc = s.sys.pc := aside.pc
  have later : s.sys.now ≤ sys.now := aside.now
  have load := (Sys.step_effect config serde stepped).load (congrArg Pc.hand pc)
  have work : sys.control.work + 6 * s.sys.history.accepted.length ≤
      s.sys.control.work + 6 * sys.history.accepted.length := by
    have lengths : sys.control.items.length + s.sys.history.accepted.length ≤
        s.sys.control.items.length + sys.history.accepted.length := load
    rw [Control.work, Control.work, aside.pc]
    omega
  have moves := inv.moves
  exact
    { clock := inv.clock.trans later
      past := inv.past
      spaced := inv.spaced
      ready := by
        intro out dial made
        rw [pc] at out
        exact (inv.ready out dial made).trans later
      budget := inv.budget
      moves := by
        change s.moves + sys.control.work ≤
          6 * sys.history.accepted.length + 4 * s.idles + 14 * s.retries + 14
        omega }

theorem Pacing.worker (inv : s.Pacing config started) {net : Network}
    (taken : s.step config serde (.worker net) = some t) : t.Pacing config started := by
  obtain ⟨free, stepped, since, dials, moves, idles, retries⟩ := step_worker taken
  have move := Sys.workerStep_move config serde net stepped
  have now : t.sys.now = s.sys.now := move.now
  have waited : (s.sys.control.idling = true → s.since + pollInterval ≤ s.sys.now) ∧
      (s.sys.control.retrying = true → s.since + config.reconnectDelay ≤ s.sys.now) := by
    simp only [held, Bool.or_eq_false_iff, Bool.and_eq_false_iff, decide_eq_false_iff_not,
      Nat.not_lt] at free
    constructor
    · intro idling
      simpa [idling] using free.1
    · intro retrying
      simpa [retrying] using free.2
  have early : ∀ dial ∈ s.dials, dial ≤ s.sys.now := fun dial made =>
    (inv.past dial made).trans inv.clock
  have made (dial : Instant) (member : dial ∈ t.dials) :
      dial ∈ s.dials ∨ (s.sys.pc.dialing = true ∧ dial = s.sys.now) := by
    rw [dials, List.mem_append] at member
    refine member.imp id fun new => ?_
    split at new
    · rename_i here
      exact ⟨here, List.mem_singleton.mp new⟩
    · cases new
  constructor
  · rw [since, now]
  · rw [since]
    intro dial member
    rcases made dial member with before | ⟨_, rfl⟩
    · exact early dial before
    · exact Nat.le_refl _
  · rw [dials]
    refine List.pairwise_append.mpr ⟨inv.spaced, ?_, ?_⟩
    · split
      · exact List.pairwise_singleton _ _
      · exact .nil
    · intro dial before last new
      split at new
      · rename_i dialing
        have out : s.sys.pc.outside = true := by
          cases here : s.sys.pc <;> simp [here, Pc.dialing, Pc.outside] at dialing ⊢
        rw [List.mem_singleton.mp new]
        exact inv.ready out dial before
      · cases new
  · intro out dial member
    rw [now]
    rcases move.outside out with ⟨outside, notDialing⟩ | retrying
    · rcases made dial member with before | ⟨dialing, _⟩
      · exact inv.ready outside dial before
      · rw [show s.sys.pc.dialing = false from notDialing] at dialing
        cases dialing
    · rcases made dial member with before | ⟨dialing, _⟩
      · exact (Nat.add_le_add_right (inv.past dial before) _).trans (waited.2 retrying)
      · cases here : s.sys.pc <;> simp [Control.retrying, Sys.control, here, Pc.dialing]
          at dialing retrying
  · rw [since, idles, retries]
    cases idling : s.sys.control.idling with
    | true =>
        have apart : s.sys.control.retrying = false := by
          cases here : s.sys.pc <;> simp [Control.idling, Control.retrying, Sys.control, here]
            at idling ⊢
        calc
          started + (s.idles + 1) * pollInterval +
              (s.retries + s.sys.control.retrying.toNat) * config.reconnectDelay =
              started + s.idles * pollInterval + s.retries * config.reconnectDelay +
                pollInterval := by
            rw [apart]
            exact another_wait _ _ _ _
          _ ≤ s.since + pollInterval := Nat.add_le_add_right inv.budget _
          _ ≤ s.sys.now := waited.1 idling
    | false =>
        cases retrying : s.sys.control.retrying with
        | true =>
            calc
              started + (s.idles + 0) * pollInterval +
                  (s.retries + 1) * config.reconnectDelay =
                  started + s.idles * pollInterval + s.retries * config.reconnectDelay +
                    config.reconnectDelay := another_wait (_ + _) _ _ 0
              _ ≤ s.since + config.reconnectDelay := Nat.add_le_add_right inv.budget _
              _ ≤ s.sys.now := waited.2 retrying
        | false => exact inv.budget.trans inv.clock
  · have work := move.work
    have before := inv.moves
    have accepted : s.sys.history.accepted.length ≤ t.sys.history.accepted.length :=
      (Sys.workerStep_effect config serde net stepped).extends.accepted.length_le
    rw [moves, idles, retries]
    omega

theorem pacing_of_run {spawned : Bool} {now : Instant} {s : Paced}
    (ran : PartialRun.Reaches (step config serde) (build bufferSize spawned now) s) :
    s.Pacing config now := by
  refine PartialRun.invariant (Pacing config now) ?_ (build_pacing bufferSize spawned now) ran
  intro s action t inv _ taken
  cases action with
  | worker net => exact inv.worker taken
  | _ => exact inv.caller rfl taken

theorem reachable_sys {spawned : Bool} {now : Instant} {s : Paced}
    (ran : PartialRun.Reaches (step config serde) (build bufferSize spawned now) s) :
    Reachable config serde bufferSize s.sys := by
  refine PartialRun.invariant (fun s => Reachable config serde bufferSize s.sys) ?_
    ⟨spawned, now, .refl⟩ ran
  intro s action t before _ taken
  cases mine : action.isWorker with
  | true =>
      cases action with
      | worker net =>
          have stepped : s.sys.step config serde (.worker net) = some t.sys :=
            (step_worker taken).2.1
          exact before.step stepped
      | _ => cases mine
  | false =>
      obtain ⟨sys, stepped, rfl⟩ := step_caller mine taken
      exact before.step stepped

/-- Two calls of `connect` are at least the reconnect delay apart, whatever the network, the
other threads and a shutdown do. -/
theorem dials_spaced {spawned : Bool} {now : Instant} {s : Paced}
    (ran : PartialRun.Reaches (step config serde) (build bufferSize spawned now) s) :
    s.dials.Pairwise fun earlier later => earlier + config.reconnectDelay ≤ later :=
  (pacing_of_run ran).spaced

def refusedRun : List Action :=
  [.worker (.down 0), .worker (.down 0), .tick (5 * second), .worker (.down 0),
    .worker (.down 0), .worker (.down 0)]

theorem refusedRun_ends :
    ∃ s, PartialRun.run (step ClientBuilder.default.toConfig compactSerde) (build 1 true 0)
        refusedRun = some s ∧
      s.dials = [0, 5 * second] ∧ s.moves = 5 ∧ s.retries = 1 :=
  ⟨_, rfl, rfl, rfl, rfl⟩

theorem dials_spaced_refused :
    ∃ s, PartialRun.run (step ClientBuilder.default.toConfig compactSerde) (build 1 true 0)
        refusedRun = some s ∧
      s.dials.Pairwise fun earlier later => earlier + 5 * second ≤ later := by
  obtain ⟨s, ran, _⟩ := refusedRun_ends
  exact ⟨s, ran, dials_spaced (PartialRun.reaches_of_run ran)⟩

/-- The worker does not spin: its moves are bounded by the entries accepted and by the
waits it has sat out, which all fit one after the other into the time that has passed. -/
theorem worker_never_spins {spawned : Bool} {now : Instant} {s : Paced}
    (ran : PartialRun.Reaches (step config serde) (build bufferSize spawned now) s) :
    s.moves ≤ 6 * s.sys.history.accepted.length + 4 * s.idles + 14 * s.retries + 14 ∧
      now + s.idles * pollInterval + s.retries * config.reconnectDelay ≤ s.sys.now := by
  have pacing := pacing_of_run ran
  exact ⟨(Nat.le_add_right _ _).trans pacing.moves, pacing.budget.trans pacing.clock⟩

theorem worker_never_spins_refused :
    ∃ s, PartialRun.run (step ClientBuilder.default.toConfig compactSerde) (build 1 true 0)
        refusedRun = some s ∧
      s.moves ≤ 6 * s.sys.history.accepted.length + 4 * s.idles + 14 * s.retries + 14 ∧
      0 + s.idles * pollInterval + s.retries * (5 * second) ≤ s.sys.now := by
  obtain ⟨s, ran, _⟩ := refusedRun_ends
  exact ⟨s, ran, worker_never_spins (PartialRun.reaches_of_run ran)⟩

end Paced

end Ecapplog
