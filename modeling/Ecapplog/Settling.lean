import Mathlib.Algebra.BigOperators.Group.Finset.Basic
import Mathlib.Algebra.Order.BigOperators.Group.Finset
import Ecapplog.Console

/-! The threads of the server, left to themselves, come to an end. -/

namespace Ecapplog

open MockServer (SerdeValue output recordLine)
open Interleaving (part part_append)

variable {V : Type} {bufferSize : Nat} {config : Config} {serde : SerdeJson}
  {reader : SerdeValue V}

theorem frames_length (frames : List Frame) :
    frames.length ≤ (frames.map Frame.encode).flatten.length := by
  induction frames with
  | nil => exact Nat.le_refl _
  | cons frame frames ih =>
      have some_ : 0 < frame.encode.length := by
        rw [Frame.encode, frameOf_length]
        omega
      rw [List.map_cons, List.flatten_cons, List.length_append, List.length_cons]
      omega

theorem output_length (reader : SerdeValue V) (chunks : List Bytes) :
    (output reader chunks).length ≤ chunks.flatten.length := by
  obtain ⟨server, left, parsed⟩ := serverPeeler_sound.drain Server.start chunks.flatten
  have handled := parsed.account
  rw [← handleChunks_drain] at handled
  rw [output, List.length_map, handled, List.length_append]
  exact (frames_length _).trans (Nat.le_add_right _ _)

namespace Deployed

/-- The bytes of a connection that its thread has not read, and those without a line. -/
def unsettledOn (s : Deployed) (connection : Nat) : Nat :=
  ((s.sent connection).length - (s.reads connection).flatten.length) +
    ((s.sent connection).length - (part s.console connection).length)

def unsettled (s : Deployed) : Nat :=
  (Finset.range s.sys.connections.length).sum s.unsettledOn

variable {s t : Deployed}

theorem Faithful.bounds (inv : s.Faithful config serde reader bufferSize) (connection : Nat) :
    (part s.console connection).length ≤ (s.due reader connection).length ∧
      (s.due reader connection).length ≤ (s.reads connection).flatten.length ∧
      (s.reads connection).flatten.length ≤ (s.sent connection).length :=
  ⟨(inv.printed connection).length_le, output_length reader _, (inv.arrived connection).length_le⟩

theorem Faithful.lowers (inv : s.Faithful config serde reader bufferSize)
    {action : DeployedAction} (own : action.isThread = true)
    (taken : s.step config serde reader action = some t) :
    t.sys = s.sys ∧ ∃ connection, t.unsettledOn connection < s.unsettledOn connection ∧
      ∀ other, other ≠ connection → t.unsettledOn other = s.unsettledOn other := by
  cases action with
  | client action => cases own
  | read connection chunk =>
      simp only [Deployed.step] at taken
      split at taken
      case isFalse => cases taken
      case isTrue admitted =>
          cases taken
          obtain ⟨_, _, some_, _, fits⟩ := admitted
          have long := fits.length_le
          rw [List.length_append] at long
          refine ⟨rfl, connection, ?_, fun other apart => ?_⟩
          · simp only [unsettledOn, sent, Function.update_self, List.flatten_append,
              List.flatten_singleton, List.length_append] at long ⊢
            omega
          · simp only [unsettledOn, sent, Function.update_of_ne apart]
  | print connection =>
      simp only [Deployed.step] at taken
      split at taken
      case h_2 => cases taken
      case h_1 line next =>
          cases taken
          have early := (List.getElem?_eq_some_iff.mp next).1
          obtain ⟨_, lines, bytes⟩ := inv.bounds connection
          refine ⟨rfl, connection, ?_, fun other apart => ?_⟩
          · simp only [unsettledOn, sent, part_append, Interleaving.part_self, List.length_append,
              List.length_singleton] at bytes ⊢
            omega
          · simp only [unsettledOn, sent, part_append, Interleaving.part_other (Ne.symm apart),
              List.append_nil]

theorem Faithful.unsettled_lowers (inv : s.Faithful config serde reader bufferSize)
    {action : DeployedAction} (own : action.isThread = true)
    (taken : s.step config serde reader action = some t) : t.unsettled < s.unsettled := by
  obtain ⟨same, connection, less, others⟩ := inv.lowers own taken
  have here : connection < s.sys.connections.length := by
    by_contra beyond
    have nothing : s.sent connection = [] := by
      rw [sent, List.getElem?_eq_none (Nat.le_of_not_lt beyond)]
    rw [unsettledOn, unsettledOn, nothing] at less
    simp at less
  rw [unsettled, unsettled, same]
  apply Finset.sum_lt_sum
  · intro other _
    by_cases mine : other = connection
    · rw [mine]
      exact Nat.le_of_lt less
    · exact Nat.le_of_eq (others other mine)
  · exact ⟨connection, Finset.mem_range.mpr here, less⟩

theorem Faithful.settled_of_stuck (inv : s.Faithful config serde reader bufferSize)
    (serves : ∀ connection, s.serving connection = true)
    (stuck : ∀ action : DeployedAction, action.isThread = true →
      s.step config serde reader action = none) : s.Settled reader := by
  have printed (connection : Nat) :
      (part s.console connection).length = (s.due reader connection).length := by
    apply Nat.le_antisymm (inv.bounds connection).1
    by_contra more
    have next := List.getElem?_eq_getElem (Nat.lt_of_not_le more)
    have blocked := stuck (.print connection) rfl
    simp only [Deployed.step, next] at blocked
    cases blocked
  refine ⟨fun connection => ?_, printed⟩
  obtain ⟨rest, account⟩ := inv.arrived connection
  cases rest with
  | nil => exact (List.append_nil _).symm.trans account
  | cons byte rest =>
      have fits : (s.reads connection).flatten ++ [byte] <+: s.sent connection :=
        ⟨rest, by rw [List.append_assoc]; exact account⟩
      have small : 1 ≤ chunkSize := by decide
      have blocked := stuck (.read connection [byte]) rfl
      simp only [Deployed.step] at blocked
      rw [if_pos ⟨printed connection, serves connection, Nat.one_pos, small, fits⟩] at blocked
      cases blocked

theorem Settled.stuck (settled : s.Settled reader) {action : DeployedAction}
    (own : action.isThread = true) : s.step config serde reader action = none := by
  cases action with
  | client action => cases own
  | read connection chunk =>
      simp only [Deployed.step]
      apply if_neg
      rintro ⟨_, _, some_, _, fits⟩
      have long := fits.length_le
      rw [settled.read connection, List.length_append] at long
      omega
  | print connection =>
      have all := List.getElem?_eq_none (Nat.le_of_eq (settled.printed connection).symm)
      simp only [Deployed.step, all]

/-- However the threads of the server go on without the client, they make only so many steps;
and where none of them can go on, the console shows exactly the entries written, if the app name
fits the frame limit. -/
theorem threads_settle {escape : Char → List Char} {spawned : Bool} {now : Instant}
    {actions : List DeployedAction}
    (before : PartialRun.Reaches (Deployed.step config serde reader)
      (start bufferSize spawned now) s)
    (ran : PartialRun.run (Deployed.step config serde reader) s actions = some t)
    (alone : ∀ action ∈ actions, action.isThread = true)
    (documented : serde.Documented escape) (read : reader.Documented)
    (named : 9 + (utf8 config.appName).length ≤ maxPayloadSize) :
    actions.length ≤ s.unsettled ∧
      ((∀ action : DeployedAction, action.isThread = true →
          t.step config serde reader action = none) →
        ∃ received : List (Nat × Entry),
          (t.console.filter fun item => item.2.isEntry) =
            received.map (Prod.map id fun entry => recordLine entry.record) ∧
          (received.map Prod.snd).Perm s.sys.written) := by
  have inv := reaches_faithful before
  have ran : PartialRun.run (PartialRun.guarded (Deployed.step config serde reader)
      fun _ action => action.isThread = true) s actions = some t :=
    (PartialRun.run_guarded fun action member _ => alone action member).trans ran
  have own {r u : Deployed} {action : DeployedAction}
      (taken : PartialRun.guarded (Deployed.step config serde reader)
        (fun _ action => action.isThread = true) r action = some u) :
      action.isThread = true ∧ r.step config serde reader action = some u := by
    unfold PartialRun.guarded at taken
    split at taken
    · exact ⟨‹_›, taken⟩
    · cases taken
  constructor
  · have bound := PartialRun.own_steps_bounded (Faithful config serde reader bufferSize)
      (fun _ => true) unsettled
      (fun _ _ _ inv taken => inv.step (own taken).2)
      (fun _ _ _ inv _ taken => inv.unsettled_lowers (own taken).1 (own taken).2)
      (fun _ _ _ _ other _ => Bool.noConfusion other) inv ran
    rw [List.countP_true] at bound
    omega
  · intro stuck
    have after : t.Faithful config serde reader bufferSize ∧ t.sys = s.sys := by
      refine PartialRun.invariant
        (fun u => u.Faithful config serde reader bufferSize ∧ u.sys = s.sys) ?_ ⟨inv, rfl⟩
        (PartialRun.reachesWhen_of_run ran)
      rintro r action u ⟨inv, same⟩ own taken
      exact ⟨inv.step taken, (inv.lowers own taken).1.trans same⟩
    have serves := fun connection => (after.1.thread documented read named connection).1
    obtain ⟨received, entries, drawn, full⟩ := after.1.entries documented read named
    refine ⟨received, entries, ?_⟩
    rw [← after.2]
    exact drawn_complete drawn after.1.reached (full (after.1.settled_of_stuck serves stuck))

theorem threads_settle_overtaken :
    ∃ s t actions, PartialRun.run (Deployed.step ClientBuilder.default.toConfig compactSerde
        MockServer.textReader) s actions = some t ∧
      (t.console.filter fun item => item.2.isEntry).map Prod.fst = [1, 1, 0] ∧
      actions.length ≤ s.unsettled ∧
        ∃ received : List (Nat × Entry),
          (t.console.filter fun item => item.2.isEntry) =
            received.map (Prod.map id fun entry => recordLine entry.record) ∧
          (received.map Prod.snd).Perm s.sys.written := by
  obtain ⟨s, t, actions, before, ran, alone, order, settled⟩ := overtaken
  have ends := threads_settle before ran alone compactSerde_documented
    MockServer.textReader_documented (by decide)
  exact ⟨s, t, actions, ran, order, ends.1, ends.2 fun _ own => settled.stuck own⟩

end Deployed

end Ecapplog
