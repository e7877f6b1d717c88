import Ecapplog.Delivery
import Ecapplog.Dues

/-! What the reports of a full queue say of the entries that the queue has lost: each loss
to a full queue is reported once, and what it costs is the oldest entry, as long as no
record is logged after shutdown. -/

namespace Ecapplog

variable {bufferSize : Nat} {config : Config} {serde : SerdeJson}

namespace Loss

def overflow (capacity : Nat) (loss : Loss) : Bool := loss.found.length == capacity

def Oldest (loss : Loss) : Prop := ∀ entry ∈ loss.left, loss.entry.seq < entry.seq

structure Fair (capacity : Nat) (loss : Loss) : Prop where
  overflow : loss.overflow capacity = true
  oldest : loss.Oldest

end Loss

/-- `QueueFull` reports tell of the losses of a run what their documentation says. -/
structure Truthful (s : Sys) (losses : List Loss) : Prop where
  exactly : (s.dues.all.map some).Perm
    ((losses.filter (Loss.overflow s.queue.capacity)).map (Loss.due s.queue.capacity))
  oldest : ∀ loss ∈ losses, loss.overflow s.queue.capacity = true → loss.Oldest
  never : ∀ loss ∈ losses, loss.found.length < s.queue.capacity → loss.total = none

/-- A record is logged only before shutdown. -/
def Sys.LogsOpen (s : Sys) : Action → Prop
  | .log _ => s.queue.isShutdown = false
  | _ => True

instance (s : Sys) (action : Action) : Decidable (s.LogsOpen action) :=
  match action with
  | .log _ => inferInstanceAs (Decidable (s.queue.isShutdown = false))
  | .worker _ | .report _ | .closeShutdown _ | .closeTake _ | .closeJoin _ | .flushEnter _
  | .flushWake _ | .tick _ => .isTrue trivial

theorem Balanced.truthful_iff {s : Sys} {losses : List Loss} (books : Balanced s.dues losses)
    (fits : ∀ loss ∈ losses, loss.found.length ≤ s.queue.capacity) :
    Truthful s losses ↔ ∀ loss ∈ losses, loss.Fair s.queue.capacity := by
  constructor
  · intro truthful loss lost
    have full : loss.overflow s.queue.capacity = true := by
      apply beq_iff_eq.mpr
      apply Nat.le_antisymm (fits loss lost)
      apply Nat.le_of_not_lt
      intro below
      exact books.returned lost (truthful.never loss lost below)
    exact ⟨full, truthful.oldest loss lost full⟩
  · intro fair
    have all : losses.filter (Loss.overflow s.queue.capacity) = losses :=
      List.filter_eq_self.mpr fun loss lost => (fair loss lost).overflow
    constructor
    · rw [all]
      exact books.balance
    · intro loss lost _
      exact (fair loss lost).oldest
    · intro loss lost below
      have full := beq_iff_eq.mp (fair loss lost).overflow
      omega

structure Sys.Ordered (s : Sys) : Prop where
  bound : s.queue.state.items.length ≤ s.queue.capacity
  newer : ∀ entry ∈ s.queue.state.items, entry.seq < s.history.pushed.length
  sorted : s.queue.state.items.Pairwise fun older newer => older.seq < newer.seq
  held : ∀ entry, s.hand = some entry → ∀ queued ∈ s.queue.state.items, entry.seq < queued.seq

theorem reachable_ordered {s : Sys} (reached : Reachable config serde bufferSize s) :
    s.Ordered := by
  obtain ⟨w, _, rep⟩ := reachable_represented reached
  have items : s.queue.state.items = w.items := rep.items
  have accepted : s.history.accepted = w.gone ++ w.items := rep.accepted
  have increasing := accepted_increasing reached
  rw [accepted, List.map_append, List.pairwise_append] at increasing
  constructor
  · rw [items, show s.queue.capacity = _ from rep.capacity]
    exact w.bound
  · intro entry queued
    have pushed := (contents_sound reached .queue).2 entry queued
    have numbered : s.history.pushed.map Entry.seq = List.range s.history.pushed.length :=
      (reachable_accounted reached).numbered
    apply List.mem_range.mp
    rw [← numbered]
    exact List.mem_map_of_mem pushed
  · rw [items]
    exact List.pairwise_map.mp increasing.2.1
  · intro entry held queued there
    have out : w.held = some entry := by
      rw [← rep.hand]
      exact held
    have gone : entry ∈ w.gone := by
      rcases w.gap entry out with ⟨before, last⟩ | ⟨_, gone⟩
      · rw [last]
        exact List.mem_append_right _ (.head _)
      · exact gone
    rw [items] at there
    exact increasing.2.2 _ (List.mem_map_of_mem gone) _ (List.mem_map_of_mem there)

theorem loses_found {s : Sys} {action : Action} {loss : Loss} (lost : loss ∈ s.loses action) :
    loss.found = s.queue.state.items := by
  cases action with
  | log record =>
      obtain ⟨entry, _, rfl⟩ := List.mem_map.mp lost
      rfl
  | worker net =>
      rw [Sys.loses] at lost
      split at lost
      · obtain ⟨entry, _, rfl⟩ := List.mem_map.mp lost
        rfl
      · cases lost
  | _ => cases lost

theorem Sys.Ordered.evicts {s : Sys} (order : s.Ordered) (running : s.queue.state.shutdown = false)
    (record : Record) : ∀ loss ∈ s.loses (.log record), loss.Fair s.queue.capacity := by
  intro loss lost
  let entry : Entry := ⟨s.history.pushed.length, record⟩
  obtain ⟨oldest, evicted, rfl⟩ := List.mem_map.mp lost
  rcases Nat.lt_or_ge s.queue.state.items.length s.queue.capacity with room | full
  · rw [(s.queue.push_room entry running room).2] at evicted
    cases evicted
  · obtain ⟨pushed, loss⟩ := s.queue.push_full entry running full
    rw [loss] at evicted
    obtain ⟨rest, front⟩ := List.head?_eq_some_iff.mp (Option.mem_toList.mp evicted)
    refine ⟨beq_iff_eq.mpr (Nat.le_antisymm order.bound full), ?_⟩
    intro queued there
    have stays : queued ∈ rest ++ [entry] := by
      change queued ∈ (s.queue.push entry).1.state.items at there
      rw [pushed, front] at there
      exact there
    rcases List.mem_append.mp stays with old | new
    · have sorted := order.sorted
      rw [front] at sorted
      exact (List.pairwise_cons.mp sorted).1 queued old
    · rw [List.mem_singleton.mp new]
      exact order.newer oldest (front ▸ .head _)

theorem Sys.Ordered.refuses {s : Sys} (order : s.Ordered) (closed : s.queue.state.shutdown = true)
    (record : Record) : ¬ ∀ loss ∈ s.loses (.log record), loss.Fair s.queue.capacity := by
  intro fair
  let entry : Entry := ⟨s.history.pushed.length, record⟩
  obtain ⟨pushed, loss⟩ := s.queue.push_shutdown entry closed
  have refused := fair (Loss.of s.queue s.queue.countDrop entry) (by
    simp [loses, entry, pushed, loss])
  have full : s.queue.state.items.length = s.queue.capacity := beq_iff_eq.mp refused.overflow
  -- the refused entry is the newest, so one that stays queued is older
  have queued : s.queue.state.items ≠ [] := by
    apply List.ne_nil_of_length_pos
    rw [full]
    exact s.queue.capacity_pos
  obtain ⟨older, there⟩ := List.exists_mem_of_ne_nil _ queued
  have before : older.seq < entry.seq := order.newer older there
  have after : entry.seq < older.seq := refused.oldest older there
  omega

theorem Sys.Ordered.givesUp {s : Sys} (order : s.Ordered) (net : Network) :
    ∀ loss ∈ s.loses (.worker net), loss.Fair s.queue.capacity := by
  intro loss lost
  rw [loses] at lost
  split at lost
  · rename_i entry here
    obtain ⟨given, lost, rfl⟩ := List.mem_map.mp lost
    rw [Queue.pushFrontLoss] at lost
    split at lost
    · rename_i full
      rw [List.mem_singleton.mp lost]
      refine ⟨beq_iff_eq.mpr (Nat.le_antisymm order.bound full), ?_⟩
      intro queued there
      change queued ∈ (s.queue.pushFront entry).1.state.items at there
      rw [s.queue.pushFront_full entry full] at there
      exact order.held entry (by simp [hand, here]) queued there
    · cases lost
  · cases lost

theorem Sys.Ordered.fair_iff {s : Sys} (order : s.Ordered) (action : Action) :
    (∀ loss ∈ s.loses action, loss.Fair s.queue.capacity) ↔ s.LogsOpen action := by
  cases action with
  | log record =>
      cases closed : s.queue.state.shutdown with
      | true =>
          apply iff_of_false (order.refuses closed record)
          intro running
          have there : s.queue.state.shutdown = false := running
          rw [closed] at there
          cases there
      | false => exact iff_of_true (order.evicts closed record) closed
  | worker net => exact iff_of_true (order.givesUp net) trivial
  | _ => exact iff_of_true (fun loss lost => nomatch lost) trivial

structure Recorded (config : Config) (serde : SerdeJson) (bufferSize : Nat)
    (seen : Sys × List Loss) : Prop where
  reached : Reachable config serde bufferSize seen.1
  books : Balanced seen.1.dues seen.2
  fits : ∀ loss ∈ seen.2, loss.found.length ≤ seen.1.queue.capacity

theorem Recorded.step {seen next : Sys × List Loss} {action : Action}
    (inv : Recorded config serde bufferSize seen)
    (taken : PartialRun.observed (Sys.step config serde) Sys.loses seen action = some next) :
    Recorded config serde bufferSize next := by
  obtain ⟨t, stepped, rfl⟩ := PartialRun.observed_some.mp taken
  have billed := Sys.step_dues stepped
  constructor
  · exact inv.reached.step stepped
  · exact inv.books.step billed
  · intro loss lost
    have same : t.queue.capacity = seen.1.queue.capacity := billed.capacity
    rw [same]
    rcases List.mem_append.mp lost with before | new
    · exact inv.fits loss before
    · rw [loses_found new]
      exact (reachable_ordered inv.reached).bound

theorem Recorded.step_truthful {seen next : Sys × List Loss} {action : Action}
    (inv : Recorded config serde bufferSize seen)
    (taken : PartialRun.observed (Sys.step config serde) Sys.loses seen action = some next) :
    Truthful next.1 next.2 ↔ Truthful seen.1 seen.2 ∧ seen.1.LogsOpen action := by
  have later := inv.step taken
  obtain ⟨t, stepped, rfl⟩ := PartialRun.observed_some.mp taken
  have same : t.queue.capacity = seen.1.queue.capacity := (Sys.step_dues stepped).capacity
  rw [later.books.truthful_iff later.fits, inv.books.truthful_iff inv.fits,
    ← (reachable_ordered inv.reached).fair_iff action]
  simp only [same]
  exact List.forall_mem_append

/-- In every run all losses are on record, and the reports of a full queue are truthful
exactly if the run is one in which no record is logged after shutdown. -/
theorem queue_full_truthful_iff {spawned : Bool} {now : Instant} {actions : List Action} {s : Sys}
    (ran : PartialRun.run (Sys.step config serde) (Sys.build bufferSize spawned now) actions =
      some s) :
    ∃ losses,
      PartialRun.run (PartialRun.observed (Sys.step config serde) Sys.loses)
        (Sys.build bufferSize spawned now, []) actions = some (s, losses) ∧
      losses.map Loss.entry = s.history.dropped ∧
      (Truthful s losses ↔
        PartialRun.run (PartialRun.guarded (Sys.step config serde) Sys.LogsOpen)
          (Sys.build bufferSize spawned now) actions = some s) := by
  have start : Recorded config serde bufferSize (Sys.build bufferSize spawned now, []) := by
    refine ⟨⟨spawned, now, .refl⟩, ⟨?_, rfl⟩, nofun⟩
    cases spawned <;> exact .refl _
  have blank : Truthful (Sys.build bufferSize spawned now) [] := by
    rw [start.books.truthful_iff start.fits]
    exact nofun
  obtain ⟨losses, recorded⟩ :
      ∃ losses, PartialRun.run (PartialRun.observed (Sys.step config serde) Sys.loses)
        (Sys.build bufferSize spawned now, []) actions = some (s, losses) :=
    PartialRun.observed_of_run [] ran
  obtain ⟨inv, sharp⟩ := PartialRun.observed_exactly (Recorded config serde bufferSize)
    (fun seen => Truthful seen.1 seen.2) (fun _ _ _ inv taken => inv.step taken)
    (fun _ _ _ inv taken => inv.step_truthful taken) start recorded
  exact ⟨losses, recorded, inv.books.dropped, sharp.trans (and_iff_right blank)⟩

def overflowRun : List Action :=
  let log (message : String) := Action.log (.new 0 .information "app" message)
  [log "first", log "second"] ++ List.replicate 5 (.worker .up) ++
    [log "third", .worker (.down 3), .worker .up, .worker .up, .report 0]

theorem queue_full_truthful_overflow :
    ∃ s losses, runDefault 1 overflowRun = some s ∧
      (losses.map Loss.entry).map Entry.seq = [0, 1] ∧
      s.history.reports.filter Error.isQueueFull = [.queueFull 1 2, .queueFull 1 1] ∧
      Truthful s losses := by
  obtain ⟨s, ran, admitted, lost, reports⟩ :
      ∃ s, runDefault 1 overflowRun = some s ∧
        PartialRun.run (PartialRun.guarded (Sys.step ClientBuilder.default.toConfig compactSerde)
          Sys.LogsOpen) (Sys.build 1 true 0) overflowRun = some s ∧
        s.history.dropped.map Entry.seq = [0, 1] ∧
        s.history.reports.filter Error.isQueueFull = [.queueFull 1 2, .queueFull 1 1] :=
    ⟨_, rfl, rfl, rfl, rfl⟩
  obtain ⟨losses, _, dropped, sharp⟩ := queue_full_truthful_iff ran
  refine ⟨s, losses, ran, ?_, reports, sharp.mpr admitted⟩
  rw [dropped]
  exact lost

def lateLogRun : List Action :=
  [.closeShutdown 0, .log (.new 0 .information "app" "late"), .report 0]

theorem late_log_reported_full :
    ∃ s losses,
      PartialRun.run
        (PartialRun.observed (Sys.step ClientBuilder.default.toConfig compactSerde) Sys.loses)
        (Sys.build 1000 true 0, []) lateLogRun = some (s, losses) ∧
      s.history.reports = [.queueFull 1000 1] ∧ losses.map Loss.found = [[]] ∧
      ¬ Truthful s losses := by
  refine ⟨_, _, rfl, rfl, rfl, ?_⟩
  intro truthful
  cases truthful.never _ (.head _) (Nat.zero_lt_succ 999)

end Ecapplog
