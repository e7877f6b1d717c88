import Mathlib.Algebra.GroupWithZero.Nat
import Mathlib.Data.List.Basic
import Ecapplog.Record

/-! Connecting to the server, and writing a buffer to the connection. What the
network answers is an argument of every function. -/

namespace Ecapplog

structure Config where
  appName : String
  address : String
  flushOnClose : Bool
  flushTimeout : Duration
  connectTimeout : Duration
  reconnectDelay : Duration

def second : Duration := 1000000000

/-- What `ClientBuilder` collects: the worker's configuration and the queue size. -/
structure ClientBuilder extends Config where
  bufferSize : Nat

def ClientBuilder.default : ClientBuilder where
  appName := "ECAPPLOG-RUST"
  address := "127.0.0.1:13991"
  bufferSize := 1000
  flushOnClose := true
  flushTimeout := 5 * second
  connectTimeout := 10 * second
  reconnectDelay := 5 * second

structure SocketAddr where
  host : String
  port : Nat
  deriving DecidableEq, Repr

/-- `Instant + Duration`, which panics past a signed 64-bit count of seconds. -/
def instantAdd (now : Instant) (duration : Duration) : Option Instant :=
  if (now + duration) / 1000000000 < 2 ^ 63 then some (now + duration) else none

theorem instantAdd_none_later {now later : Instant} {duration : Duration} (order : now ≤ later)
    (overflows : instantAdd now duration = none) : instantAdd later duration = none := by
  unfold instantAdd at overflows ⊢
  split at overflows
  · cases overflows
  · rename_i large
    have more : (now + duration) / 1000000000 ≤ (later + duration) / 1000000000 :=
      Nat.div_le_div_right (Nat.add_le_add_right order duration)
    exact if_neg (Nat.not_lt.mpr (Nat.le_trans (Nat.not_lt.mp large) more))

def millisecond : Duration := 1000000

/-- The timeout of one connection attempt. The subtraction saturates, as
`checked_duration_since(..).unwrap_or(ZERO)` does. -/
def attemptTimeout (config : Config) (flushDeadline : Option Instant) (now : Instant) : Duration :=
  match flushDeadline with
  | some deadline => max (min (deadline - now) config.connectTimeout) millisecond
  | none => config.connectTimeout

/-- The loop over the resolved addresses, each given with how an attempt on it
goes: the attempts made and, if none succeeds, the last error. -/
def tryAddresses (timeout : Duration) :
    List (SocketAddr × Except IoError Unit) → Option IoError →
      List (SocketAddr × Duration) × Except (Option IoError) Unit
  | [], lastError => ([], .error lastError)
  | (address, .ok ()) :: _, _ => ([(address, timeout)], .ok ())
  | (address, .error error) :: rest, _ =>
      let (attempts, result) := tryAddresses timeout rest (some error)
      ((address, timeout) :: attempts, result)

abbrev Dial := Except IoError (List (SocketAddr × Except IoError Unit))

def noAddresses : IoError :=
  ⟨.addrNotAvailable, "the address resolved to no socket addresses"⟩

/-- The attempts made, each with its timeout, and the outcome. -/
def connect (config : Config) (flushDeadline : Option Instant) (now : Instant) (dial : Dial) :
    List (SocketAddr × Duration) × Except Error Unit :=
  let timeout := attemptTimeout config flushDeadline now
  match dial with
  | .error source => ([], .error (.resolve config.address source))
  | .ok addresses =>
      match tryAddresses timeout addresses none with
      | (attempts, .ok ()) => (attempts, .ok ())
      | (attempts, .error lastError) =>
          (attempts, .error (.connect config.address (lastError.getD noAddresses)))

theorem tryAddresses_timeouts (timeout : Duration)
    (addresses : List (SocketAddr × Except IoError Unit)) (lastError : Option IoError) :
    ∀ attempt ∈ (tryAddresses timeout addresses lastError).1, attempt.2 = timeout := by
  induction addresses generalizing lastError with
  | nil => exact nofun
  | cons this rest later =>
      rcases this with ⟨address, _ | _⟩
      · simpa [tryAddresses] using later _
      · simp [tryAddresses]

theorem connect_timeouts (config : Config) (flushDeadline : Option Instant) (now : Instant)
    (dial : Dial) : ∀ attempt ∈ (connect config flushDeadline now dial).1,
      attempt.2 = attemptTimeout config flushDeadline now := by
  cases dial with
  | error source => exact nofun
  | ok addresses =>
      have same := tryAddresses_timeouts (attemptTimeout config flushDeadline now) addresses none
      simp only [connect]
      split
      · simpa only [*] using same
      · simpa only [*] using same

theorem connect_total (config : Config) (flushDeadline : Option Instant) (now : Instant)
    (dial : Dial) :
    ((connect config flushDeadline now dial).1.map Prod.snd).sum =
      (connect config flushDeadline now dial).1.length *
        attemptTimeout config flushDeadline now := by
  have each : ∀ timeout ∈ (connect config flushDeadline now dial).1.map Prod.snd,
      timeout = attemptTimeout config flushDeadline now := by
    intro timeout isTimeout
    rcases List.mem_map.mp isTimeout with ⟨attempt, made, rfl⟩
    exact connect_timeouts config flushDeadline now dial attempt made
  rw [List.eq_replicate_of_mem each, List.sum_replicate_nat, List.length_map]

/-- `write_all`: everything goes out, or a strict prefix and then an error. An
empty buffer needs no write. -/
def writeAll (buffer : List UInt8) (failure : Option (Nat × IoError)) :
    List UInt8 × Except IoError Unit :=
  match failure with
  | none => (buffer, .ok ())
  | some (sent, error) =>
      if buffer = [] then ([], .ok ())
      else (buffer.take (min sent (buffer.length - 1)), .error error)

theorem connect_error (config : Config) (flushDeadline : Option Instant) (now : Instant)
    (dial : Dial) (error : Error)
    (failed : (connect config flushDeadline now dial).2 = .error error) :
    ∃ address source, error = .resolve address source ∨ error = .connect address source := by
  cases dial with
  | error source =>
      cases failed
      exact ⟨_, _, .inl rfl⟩
  | ok addresses =>
      simp only [connect] at failed
      rcases tried : tryAddresses (attemptTimeout config flushDeadline now) addresses none with
        ⟨attempts, result⟩
      rw [tried] at failed
      cases result with
      | error lastError =>
          cases failed
          exact ⟨_, _, .inr rfl⟩
      | ok => cases failed

theorem writeAll_cases (buffer : List UInt8) (failure : Option (Nat × IoError)) :
    writeAll buffer failure = (buffer, .ok ()) ∨
      ∃ sent error, writeAll buffer failure = (sent, .error error) ∧
        sent <+: buffer ∧ sent.length < buffer.length := by
  unfold writeAll
  split
  · exact Or.inl rfl
  · rename_i sent error
    split
    · rename_i empty
      exact Or.inl (by rw [empty])
    · rename_i nonempty
      have positive : 0 < buffer.length := List.length_pos_iff.mpr nonempty
      refine Or.inr ⟨_, error, rfl, List.take_prefix _ _, ?_⟩
      rw [List.length_take]
      omega

def refuses (address : SocketAddr × Except IoError Unit) : Bool :=
  match address.2 with
  | .error _ => true
  | .ok _ => false

def Dial.tries : Dial → Nat
  | .error _ => 0
  | .ok addresses => min addresses.length ((addresses.takeWhile refuses).length + 1)

theorem tryAddresses_length (timeout : Duration)
    (addresses : List (SocketAddr × Except IoError Unit)) (lastError : Option IoError) :
    (tryAddresses timeout addresses lastError).1.length =
      min addresses.length ((addresses.takeWhile refuses).length + 1) := by
  induction addresses generalizing lastError with
  | nil => rfl
  | cons this rest ih =>
      rcases this with ⟨address, error | _⟩
      · rw [List.takeWhile_cons_of_pos rfl]
        simp [tryAddresses, ih, Nat.add_min_add_right]
      · rw [List.takeWhile_cons_of_neg Bool.false_ne_true]
        simp [tryAddresses]

theorem connect_tries (config : Config) (flushDeadline : Option Instant) (now : Instant)
    (dial : Dial) : (connect config flushDeadline now dial).1.length = dial.tries := by
  cases dial with
  | error source => rfl
  | ok addresses =>
      rw [Dial.tries,
        ← tryAddresses_length (attemptTimeout config flushDeadline now) addresses none]
      simp only [connect]
      split
      · simp only [*]
      · simp only [*]

theorem attempts_fit_iff (tries left timeout : Nat) {least : Nat} (positive : 0 < least) :
    tries * max (min left timeout) least ≤ max least left ↔
      tries ≤ 1 ∨ tries * max timeout least ≤ left := by
  rcases Nat.lt_or_ge 1 tries with several | few
  · have several_exceed (each budget : Nat) (reaches : budget ≤ each) (lasts : 0 < each) :
        ¬ tries * each ≤ budget := by
      have twice : 2 * each ≤ tries * each := Nat.mul_le_mul_right each several
      omega
    rw [or_iff_right (Nat.not_le.mpr several)]
    rcases Nat.lt_or_ge (max timeout least) left with short | long
    · have uncapped : max (min left timeout) least = max timeout least := by omega
      have budget : max least left = left := by omega
      rw [uncapped, budget]
    · exact iff_of_false (several_exceed _ _ (by omega) (by omega))
        (several_exceed _ _ long (by omega))
  · apply iff_of_true _ (.inl few)
    calc
      tries * max (min left timeout) least ≤ 1 * max (min left timeout) least :=
        Nat.mul_le_mul_right _ few
      _ ≤ max least left := by omega

/-- A connect during a flush stays inside the flush budget exactly if it makes at most
one attempt, or as many full timeouts as it makes attempts fit. -/
theorem connect_within_budget_iff (config : Config) (deadline now : Instant) (dial : Dial) :
    ((connect config (some deadline) now dial).1.map Prod.snd).sum ≤
        max millisecond (deadline - now) ↔
      dial.tries ≤ 1 ∨ dial.tries * max config.connectTimeout millisecond ≤ deadline - now := by
  rw [connect_total, connect_tries]
  exact attempts_fit_iff dial.tries (deadline - now) config.connectTimeout (by decide)

def blackHoles : Dial :=
  .ok [(⟨"10.0.0.1", 13991⟩, .error ⟨.os 110, "Connection timed out"⟩),
    (⟨"10.0.0.2", 13991⟩, .error ⟨.os 110, "Connection timed out"⟩)]

theorem black_holes_outlast_budget :
    ¬ ((connect ClientBuilder.default.toConfig (some (5 * second)) 0 blackHoles).1.map
        Prod.snd).sum ≤ max millisecond (5 * second - 0) := by decide

end Ecapplog
