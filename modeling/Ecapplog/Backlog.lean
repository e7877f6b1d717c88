import Ecapplog.Foundations.Overflow
import Ecapplog.Delivery

/-! How much a client loses before it is closed: what could not be sent on in time, less what
the queue holds. -/

namespace Ecapplog

variable {bufferSize : Nat} {config : Config} {serde : SerdeJson}

/-- Entries that have been pushed, and neither written nor given up as unsendable. -/
def Sys.backlog (s : Sys) : Nat :=
  s.history.pushed.length - ((s.contents .written).length + (s.contents .discarded).length)

def Core.held (c : Core) : Nat := c.items.length + c.hand.toList.length

namespace Effect

variable {c d : Core}

theorem closed_stays (effect : Effect c d) (open_ : d.shutdown = false) : c.shutdown = false := by
  cases effect with
  | shutdown => cases open_
  | _ => exact open_

theorem loses (effect : Effect c d) (open_ : d.shutdown = false) :
    d.dropped.length = c.dropped.length ∨
      c.dropped.length < d.dropped.length ∧ d.capacity ≤ d.held := by
  cases effect with
  | refuse entry next closed =>
      rw [show c.shutdown = false from open_] at closed
      cases closed
  | evict entry oldest rest next running full front =>
      right
      rw [front, List.length_cons] at full
      simp [Core.held]
      omega
  | giveUp entry out full =>
      right
      simp [Core.held]
      exact full
  | _ => exact .inl rfl

end Effect

namespace Sys

theorem step_buffer (config : Config) (serde : SerdeJson) (bufferSize : Nat) :
    PartialRun.Buffer (Sys.step config serde) (Reachable config serde bufferSize)
      (fun s => s.queue.isShutdown = false) (fun s => (s.contents .dropped).length)
      (fun s => s.core.held) (max bufferSize 1) 1 where
  keep := fun _ _ _ reached taken => reached.step taken
  back := fun _ _ _ _ taken open_ => (step_effect config serde taken).closed_stays open_
  fits := by
    intro s reached
    obtain ⟨w, _, rep⟩ := reachable_represented reached
    have bound := w.bound
    rw [← rep.items] at bound
    have one : s.core.hand.toList.length ≤ 1 := Option.length_toList_le
    exact Nat.add_le_add bound one
  full := by
    intro s action t reached taken open_
    obtain ⟨w, _, rep⟩ := reachable_represented (reached.step taken)
    rw [← rep.capacity]
    exact (step_effect config serde taken).loses open_

theorem backlog_eq {s : Sys} (reached : Reachable config serde bufferSize s) :
    s.backlog = (s.contents .dropped).length + s.core.held := by
  have all := (pushed_perm reached).length_eq
  simp only [List.length_append] at all
  have queued : (s.contents .queue).length = s.core.items.length := rfl
  have out : (s.contents .hand).length = s.core.hand.toList.length := rfl
  rw [backlog, Core.held]
  omega

end Sys

/-- Before a client is closed it has lost as many entries as its worst backlog was above the
capacity, or one less. In particular it has lost none if the backlog has always fitted. -/
theorem losses_are_excess {s : Sys} {spawned : Bool} {now : Instant} {actions : List Action}
    (ran : PartialRun.run (Sys.step config serde) (Sys.build bufferSize spawned now) actions =
      some s) (running : s.queue.isShutdown = false) :
    let most := PartialRun.peak (Sys.step config serde) Sys.backlog
      (Sys.build bufferSize spawned now) actions
    (s.contents .dropped).length ≤ most - s.queue.capacity ∧
      most - s.queue.capacity ≤ (s.contents .dropped).length + 1 := by
  have buffer := Sys.step_buffer config serde bufferSize
  have initially : Reachable config serde bufferSize (Sys.build bufferSize spawned now) :=
    ⟨spawned, now, .refl⟩
  have reached : Reachable config serde bufferSize s :=
    ⟨spawned, now, PartialRun.reaches_of_run ran⟩
  obtain ⟨w, _, rep⟩ := reachable_represented reached
  have capacity : s.queue.capacity = max bufferSize 1 := rep.capacity
  have nothing : ((Sys.build bufferSize spawned now).contents .dropped).length = 0 := rfl
  obtain ⟨lower, upper⟩ := buffer.lost_peak initially ran running
  rw [nothing] at lower
  have same : PartialRun.peak (Sys.step config serde) Sys.backlog
        (Sys.build bufferSize spawned now) actions =
      PartialRun.peak (Sys.step config serde) (fun s => (s.contents .dropped).length + s.core.held)
        (Sys.build bufferSize spawned now) actions :=
    PartialRun.peak_congr (Reachable config serde bufferSize) buffer.keep
      (fun _ before => Sys.backlog_eq before) initially actions
  rw [same, capacity]
  omega

def behindRun : List Action :=
  let log (message : String) := Action.log (.new 0 .information "app" message)
  log "first" :: List.replicate 5 (.worker .up) ++ [log "second", log "third", log "fourth"]

theorem losses_are_excess_behind :
    ∃ s, runDefault 2 behindRun = some s ∧ (s.contents .dropped).map Entry.seq = [1] ∧
      let most := PartialRun.peak (Sys.step ClientBuilder.default.toConfig compactSerde)
        Sys.backlog (Sys.build 2 true 0) behindRun
      most = 4 ∧ (s.contents .dropped).length ≤ most - s.queue.capacity ∧
        most - s.queue.capacity ≤ (s.contents .dropped).length + 1 := by
  obtain ⟨s, ran, running, lost⟩ : ∃ s, runDefault 2 behindRun = some s ∧
      s.queue.isShutdown = false ∧ (s.contents .dropped).map Entry.seq = [1] :=
    ⟨_, rfl, rfl, rfl⟩
  exact ⟨s, ran, lost, rfl, losses_are_excess ran running⟩

end Ecapplog
