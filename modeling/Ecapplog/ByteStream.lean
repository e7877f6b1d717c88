import Ecapplog.Foundations.Framing
import Ecapplog.Delivery
import Ecapplog.Worker

/-! What the client puts on a connection: the banner frame, then one frame for each
sendable entry popped while the connection was in use, cut short at most once and
at the very end. -/

namespace Ecapplog

open Framing

variable {bufferSize : Nat} (config : Config) (serde : SerdeJson)

namespace Stream

def sendables (c : Stream) : List Entry := c.popped.filter fun entry => Sendable serde entry.record

def frames (c : Stream) : List Bytes :=
  bannerFrame config :: (c.sendables serde).map (logFrame serde)

/-- Everything that belongs on the connection so far has been sent. -/
structure Whole (c : Stream) : Prop where
  bytes : c.bytes = (c.frames config serde).flatten
  written : c.written = c.sendables serde

structure WellFormed (c : Stream) : Prop where
  cut : Cut (c.frames config serde) c.bytes
  banner_first : ¬ bannerFrame config <+: c.bytes → c.popped = []
  written : c.written =
    if c.bytes = (c.frames config serde).flatten then c.sendables serde
    else (c.sendables serde).dropLast

variable {config serde}

theorem banner_prefix (c : Stream) : bannerFrame config <+: (c.frames config serde).flatten := by
  rw [frames, List.flatten_cons]
  exact List.prefix_append _ _

theorem Whole.wellFormed {c : Stream} (whole : c.Whole config serde) :
    c.WellFormed config serde where
  cut := by
    rw [whole.bytes]
    exact .whole _
  banner_first := by
    intro absent
    apply absurd _ absent
    rw [whole.bytes]
    exact c.banner_prefix
  written := by rw [if_pos whole.bytes, whole.written]

theorem banner_broken {part : Bytes} (partly : part <+: bannerFrame config) :
    WellFormed config serde { fresh with bytes := fresh.bytes ++ part } where
  cut := Cut.broken [] partly
  banner_first := fun _ => rfl
  written := by
    split
    · rfl
    · rfl

theorem fresh_wellFormed : fresh.WellFormed config serde :=
  banner_broken List.nil_prefix

theorem banner_whole :
    Whole config serde { fresh with bytes := fresh.bytes ++ bannerFrame config } where
  bytes := by simp [fresh, frames, sendables]
  written := rfl

def withPopped (c : Stream) (entry : Entry) : Stream := { c with popped := c.popped ++ [entry] }

theorem sendables_withPopped (c : Stream) (entry : Entry) :
    (c.withPopped entry).sendables serde =
      c.sendables serde ++ if Sendable serde entry.record then [entry] else [] := by
  simp only [sendables, withPopped, List.filter_append]
  split
  case isTrue sendable => simp [sendable]
  case isFalse unsendable => simp [unsendable]

theorem frames_withPopped {c : Stream} {entry : Entry} (sendable : Sendable serde entry.record) :
    (c.withPopped entry).frames config serde = c.frames config serde ++ [logFrame serde entry] := by
  simp [frames, sendables_withPopped, sendable]

theorem Whole.condemned {c : Stream} (whole : c.Whole config serde) {entry : Entry}
    (unsendable : ¬ Sendable serde entry.record) : (c.withPopped entry).Whole config serde := by
  have same : (c.withPopped entry).sendables serde = c.sendables serde := by
    simp [sendables_withPopped, unsendable]
  constructor
  · rw [frames, same]
    exact whole.bytes
  · rw [same]
    exact whole.written

theorem Whole.sent {c : Stream} (whole : c.Whole config serde) {entry : Entry}
    (sendable : Sendable serde entry.record) :
    Whole config serde { c.withPopped entry with
      bytes := c.bytes ++ logFrame serde entry
      written := c.written ++ [entry] } where
  bytes := by
    calc
      c.bytes ++ logFrame serde entry =
          (c.frames config serde).flatten ++ logFrame serde entry := by rw [whole.bytes]
      _ = (c.frames config serde ++ [logFrame serde entry]).flatten := by simp
      _ = ((c.withPopped entry).frames config serde).flatten := by rw [frames_withPopped sendable]
  written := by
    calc
      c.written ++ [entry] = c.sendables serde ++ [entry] := by rw [whole.written]
      _ = (c.withPopped entry).sendables serde := by rw [sendables_withPopped, if_pos sendable]

theorem Whole.broken {c : Stream} (whole : c.Whole config serde) {entry : Entry}
    (sendable : Sendable serde entry.record) {part : Bytes} (partly : part <+: logFrame serde entry)
    (short : part.length < (logFrame serde entry).length) :
    WellFormed config serde { c.withPopped entry with bytes := c.bytes ++ part } := by
  have more : frames config serde { c.withPopped entry with bytes := c.bytes ++ part } =
      c.frames config serde ++ [logFrame serde entry] := frames_withPopped sendable
  have last : sendables serde { c.withPopped entry with bytes := c.bytes ++ part } =
      c.sendables serde ++ [entry] := by
    change (c.withPopped entry).sendables serde = _
    rw [sendables_withPopped, if_pos sendable]
  have incomplete : c.bytes ++ part ≠
      (c.frames config serde ++ [logFrame serde entry]).flatten := by
    intro all
    have lengths := congrArg List.length all
    rw [whole.bytes, List.flatten_append, List.length_append, List.length_append] at lengths
    simp only [List.flatten_singleton] at lengths
    omega
  constructor
  · rw [more, whole.bytes]
    exact .broken _ partly
  · intro absent
    apply absurd _ absent
    have announced : bannerFrame config <+: c.bytes := by
      rw [whole.bytes]
      exact c.banner_prefix
    exact announced.trans (List.prefix_append _ _)
  · rw [more, last, if_neg incomplete, List.dropLast_concat]
    exact whole.written

theorem Whole.popped {c : Stream} (whole : c.Whole config serde) (entry : Entry) :
    (c.withPopped entry).WellFormed config serde := by
  by_cases sendable : Sendable serde entry.record
  · have nothing := whole.broken sendable List.nil_prefix
      (List.length_pos_of_ne_nil (frameOf_ne_nil _ _))
    rw [List.append_nil] at nothing
    exact nothing
  · exact (whole.condemned sendable).wellFormed

end Stream

/-- What holds of the connection in use, by where the worker is. -/
def Pc.InStep : Pc → Prop
  | .deadline stream => ∀ c ∈ stream, c.Whole config serde
  | .expiry _ stream => ∀ c ∈ stream, c.Whole config serde
  | .banner c => c = Stream.fresh
  | .inner c => c.Whole config serde
  | .popping c => c.Whole config serde
  | .writing c entry => ∃ before : Stream, before.Whole config serde ∧ c = before.withPopped entry
  | .finishing c => c.Whole config serde
  | _ => True

structure InStep (c : Control) : Prop where
  past : ∀ stream ∈ c.past, stream.WellFormed config serde
  present : c.pc.InStep config serde

variable {config serde}

theorem Pc.InStep.wellFormed {pc : Pc} (inStep : pc.InStep config serde) :
    ∀ c ∈ pc.stream, c.WellFormed config serde := by
  intro c present
  cases pc with
  | deadline stream => exact (inStep c present).wellFormed
  | expiry deadline stream => exact (inStep c present).wellFormed
  | banner stream =>
      cases present
      rw [show c = Stream.fresh from inStep]
      exact Stream.fresh_wellFormed
  | inner stream =>
      cases present
      exact Stream.Whole.wellFormed inStep
  | popping stream =>
      cases present
      exact Stream.Whole.wellFormed inStep
  | finishing stream =>
      cases present
      exact Stream.Whole.wellFormed inStep
  | writing stream entry =>
      cases present
      obtain ⟨before, whole, rfl⟩ := inStep
      exact whole.popped entry
  | _ => cases present

theorem past_filed {past : List Stream} (stream : Option Stream)
    (earlier : ∀ c ∈ past, c.WellFormed config serde)
    (this : ∀ c ∈ stream, c.WellFormed config serde) :
    ∀ c ∈ past ++ stream.toList, c.WellFormed config serde := by
  intro c member
  rcases List.mem_append.mp member with old | new
  · exact earlier c old
  · exact this c (Option.mem_toList.mp new)

theorem Move.inStep {c d : Control} (move : Move config serde c d) (inv : InStep config serde c) :
    InStep config serde d := by
  have past := inv.past
  have present := inv.present
  cases move with
  | proceed here running => exact ⟨past, trivial⟩
  | wantsDrain here closing drains => exact ⟨past, trivial⟩
  | leaveHead here closing drops => exact ⟨past, trivial⟩
  | nothingQueued here empty => exact ⟨past, trivial⟩
  | backlog here queued => exact ⟨past, nofun⟩
  | remember stream deadline here known => exact ⟨past, by rw [here] at present; exact present⟩
  | initiate stream deadline here unknown sum =>
      exact ⟨past, by rw [here] at present; exact present⟩
  | overflow stream here unknown sum =>
      rw [here] at present
      exact ⟨past_filed _ past fun c member => (present c member).wellFormed, trivial⟩
  | expired deadline stream here late =>
      rw [here] at present
      exact ⟨past_filed _ past fun c member => (present c member).wellFormed, trivial⟩
  | reconnect deadline here early => exact ⟨past, trivial⟩
  | resume deadline stream here early =>
      rw [here] at present
      exact ⟨past, present stream rfl⟩
  | connected here => exact ⟨past, rfl⟩
  | unreachable here => exact ⟨past, trivial⟩
  | announced stream here =>
      rw [here] at present
      cases present
      exact ⟨past, Stream.banner_whole⟩
  | unannounced stream part here partly short =>
      rw [here] at present
      cases present
      refine ⟨past_filed (some _) past fun c member => ?_, trivial⟩
      cases member
      exact Stream.banner_broken partly
  | leaveDelay here closing => exact ⟨past, trivial⟩
  | retry here running => exact ⟨past, trivial⟩
  | serve stream here running => exact ⟨past, by rw [here] at present; exact present⟩
  | keepDraining stream here closing drains =>
      rw [here] at present
      refine ⟨past, fun c member => ?_⟩
      cases member
      exact present
  | leaveInner stream here closing drops =>
      have filed := present.wellFormed
      rw [here] at filed
      exact ⟨past_filed _ past filed, trivial⟩
  | take stream entry rest here front =>
      rw [here] at present
      exact ⟨past, stream, present, rfl⟩
  | drained stream here empty closing =>
      have filed := present.wellFormed
      rw [here] at filed
      exact ⟨past_filed _ past filed, trivial⟩
  | idle stream here empty running => exact ⟨past, by rw [here] at present; exact present⟩
  | condemn stream entry here unsendable =>
      rw [here] at present
      obtain ⟨before, whole, rfl⟩ := present
      exact ⟨past, whole.condemned unsendable⟩
  | send stream entry here sendable =>
      rw [here] at present
      obtain ⟨before, whole, rfl⟩ := present
      exact ⟨past, whole.sent sendable⟩
  | breakOff stream entry part here sendable partly short =>
      rw [here] at present
      obtain ⟨before, whole, rfl⟩ := present
      refine ⟨past_filed (some _) past fun c member => ?_, trivial⟩
      cases member
      exact whole.broken sendable partly short
  | finish stream here => exact ⟨past, by rw [here] at present; exact present⟩
  | putBack entry here => exact ⟨past, trivial⟩
  | giveUp entry total here full => exact ⟨past, trivial⟩
  | settle requeued here => exact ⟨past, trivial⟩

theorem reachable_inStep {s : Sys} (reached : Reachable config serde bufferSize s) :
    InStep config serde s.control := by
  obtain ⟨spawned, now, ran⟩ := reached
  refine PartialRun.invariant (fun s => InStep config serde s.control) ?_ ?_ ran
  · intro s action t inv _ taken
    rcases Sys.step_control taken with ⟨_, move⟩ | ⟨_, aside⟩
    · exact move.inStep inv
    · exact ⟨by rw [aside.past]; exact inv.past, by rw [aside.pc]; exact inv.present⟩
  · refine ⟨nofun, ?_⟩
    cases spawned <;> trivial

/-- On every connection the bytes are those of the banner frame and of the frames of
the sendable entries popped there, up to the tail of the last one. -/
theorem connections_well_formed {s : Sys} (reached : Reachable config serde bufferSize s) :
    ∀ c ∈ s.connections, c.WellFormed config serde := by
  have inv := reachable_inStep reached
  exact past_filed _ inv.past inv.present.wellFormed

theorem connections_well_formed_reconnect :
    ∃ s, runDefault 2 reconnectRun = some s ∧
      ∀ c ∈ s.connections, c.WellFormed ClientBuilder.default.toConfig compactSerde := by
  obtain ⟨s, ran, _⟩ := reconnectRun_ends
  exact ⟨s, ran, connections_well_formed (runDefault_reaches ran)⟩

end Ecapplog
