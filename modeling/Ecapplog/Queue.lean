import Mathlib.Data.List.Basic

/-! The bounded, drop-oldest hand-off between logging threads and the worker.
Each function is one critical section: what it does to the queue between taking
the lock and its last read of the state, and what it returns. A wait that ends
early, late or spuriously ends in the same final section, so a waiting call is
that section at the moment the wait is over. -/

namespace Ecapplog

variable {ρ : Type}

inductive Pop (ρ : Type) where
  | item (record : ρ)
  | shutdown
  | idle

namespace Queue

structure State (ρ : Type) where
  items : List ρ
  busy : Bool
  shutdown : Bool

end Queue

structure Queue (ρ : Type) where
  state : Queue.State ρ
  capacity : Nat
  dropped : UInt64
  capacity_pos : 0 < capacity

namespace Queue

def new (ρ : Type) (capacity : Nat) : Queue ρ where
  state := ⟨[], false, false⟩
  capacity := max capacity 1
  dropped := 0
  capacity_pos := by omega

def droppedCount (q : Queue ρ) : UInt64 := q.dropped

/-- `dropped.fetch_add(1) + 1`, both wrapping. -/
def countDrop (q : Queue ρ) : Queue ρ × Option UInt64 :=
  ({ q with dropped := q.dropped + 1 }, some (q.dropped + 1))

def push (q : Queue ρ) (record : ρ) : Queue ρ × Option UInt64 :=
  if q.state.shutdown then q.countDrop
  else
    let (q, dropped) :=
      if q.capacity ≤ q.state.items.length then
        { q with state := { q.state with items := q.state.items.tail } }.countDrop
      else (q, none)
    ({ q with state := { q.state with items := q.state.items ++ [record] } }, dropped)

/-- The entry that a push discards: the new one after shutdown, else the oldest
of a full queue. The source lets it go out of scope. -/
def pushLoss (q : Queue ρ) (record : ρ) : List ρ :=
  if q.state.shutdown then [record]
  else if q.capacity ≤ q.state.items.length then q.state.items.head?.toList
  else []

def pushFront (q : Queue ρ) (record : ρ) : Queue ρ × Option UInt64 :=
  if q.capacity ≤ q.state.items.length then q.countDrop
  else ({ q with state := { q.state with items := record :: q.state.items } }, none)

def pop (q : Queue ρ) : Queue ρ × Pop ρ :=
  match q.state.items with
  | record :: rest =>
      ({ q with state := { q.state with items := rest, busy := true } }, .item record)
  | [] => if q.state.shutdown then (q, .shutdown) else (q, .idle)

def finish (q : Queue ρ) : Queue ρ :=
  { q with state := { q.state with busy := false } }

/-- The verdict of a flush at the moment its wait is over. -/
def flush (q : Queue ρ) : Bool :=
  q.state.items.isEmpty && !q.state.busy

def shutdown (q : Queue ρ) : Queue ρ :=
  { q with state := { q.state with shutdown := true } }

def isEmpty (q : Queue ρ) : Bool := q.state.items.isEmpty

def isShutdown (q : Queue ρ) : Bool := q.state.shutdown

def sleepOrShutdown (q : Queue ρ) : Bool := q.state.shutdown

/-- The three wait predicates: the call stays parked while its one is true. -/
def popWaits (q : Queue ρ) : Bool := q.state.items.isEmpty && !q.state.shutdown

def sleepWaits (q : Queue ρ) : Bool := !q.state.shutdown

def flushWaits (q : Queue ρ) : Bool := !q.state.items.isEmpty || q.state.busy

theorem waits_verdicts (q : Queue ρ) :
    (q.pop.2 = .idle ↔ q.popWaits = true) ∧ q.sleepOrShutdown = !q.sleepWaits ∧
      q.flush = !q.flushWaits := by
  refine ⟨?_, ?_, ?_⟩
  · cases items : q.state.items with
    | nil => cases closing : q.state.shutdown <;> simp [pop, popWaits, items, closing]
    | cons record rest => simp [pop, popWaits, items]
  · simp [sleepOrShutdown, sleepWaits]
  · simp [flush, flushWaits]

theorem flush_true (q : Queue ρ) :
    q.flush = true ↔ q.state.items = [] ∧ q.state.busy = false := by
  simp [flush, List.isEmpty_iff]

theorem push_shutdown (q : Queue ρ) (record : ρ) (closed : q.state.shutdown = true) :
    q.push record = q.countDrop ∧ q.pushLoss record = [record] := by
  simp [push, pushLoss, closed]

theorem push_room (q : Queue ρ) (record : ρ) (running : q.state.shutdown = false)
    (room : q.state.items.length < q.capacity) :
    q.push record =
        ({ q with state := { q.state with items := q.state.items ++ [record] } }, none) ∧
      q.pushLoss record = [] := by
  simp [push, pushLoss, running, Nat.not_le.mpr room]

theorem push_full (q : Queue ρ) (record : ρ) (running : q.state.shutdown = false)
    (full : q.capacity ≤ q.state.items.length) :
    q.push record =
        ({ q with
            state := { q.state with items := q.state.items.tail ++ [record] }
            dropped := q.dropped + 1 }, some (q.dropped + 1)) ∧
      q.pushLoss record = q.state.items.head?.toList := by
  simp [push, pushLoss, running, full, countDrop]

theorem pushFront_room (q : Queue ρ) (record : ρ) (room : q.state.items.length < q.capacity) :
    q.pushFront record =
      ({ q with state := { q.state with items := record :: q.state.items } }, none) := by
  simp [pushFront, Nat.not_le.mpr room]

theorem pushFront_full (q : Queue ρ) (record : ρ) (full : q.capacity ≤ q.state.items.length) :
    q.pushFront record = q.countDrop := by
  simp [pushFront, full]

theorem pop_empty (q : Queue ρ) (empty : q.state.items = []) : q.pop.1 = q := by
  rw [pop, empty]
  simp only
  split <;> rfl

theorem push_frame (q : Queue ρ) (record : ρ) :
    (q.push record).1.state.busy = q.state.busy ∧
      (q.push record).1.state.shutdown = q.state.shutdown ∧
      (q.push record).1.capacity = q.capacity := by
  cases closed : q.state.shutdown with
  | true =>
      rw [(q.push_shutdown record closed).1]
      exact ⟨rfl, closed, rfl⟩
  | false =>
      rcases Nat.lt_or_ge q.state.items.length q.capacity with room | full
      · rw [(q.push_room record closed room).1]
        exact ⟨rfl, closed, rfl⟩
      · rw [(q.push_full record closed full).1]
        exact ⟨rfl, closed, rfl⟩

end Queue

end Ecapplog
