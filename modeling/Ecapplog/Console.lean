import Ecapplog.Foundations.Interleaving
import Ecapplog.EndToEnd
import Ecapplog.Growth

/-! The client and the server together. Each connection has a thread of the server's to itself,
and all of them print to one console. -/

namespace Ecapplog

open MockServer (Line SerdeValue output recordLine)
open Interleaving (part part_append part_filter mem_part part_mem From)

variable {V : Type} {bufferSize : Nat} {config : Config} {serde : SerdeJson}
  {reader : SerdeValue V}

theorem output_grows (reader : SerdeValue V) (chunks : List Bytes) (chunk : Bytes) :
    output reader chunks <+: output reader (chunks ++ [chunk]) := by
  rw [output, output, List.foldl_append]
  apply List.IsPrefix.map
  generalize chunks.foldl handleChunk Server.connected = held
  obtain ⟨handled, _ | ⟨server, buffer⟩⟩ := held
  · exact List.prefix_refl _
  · exact List.prefix_append _ _

/-- The client with what the thread of each connection has read, and with the lines on the console,
each beside the connection it is from. -/
structure Deployed where
  sys : Sys
  reads : Nat → List Bytes
  console : List (Nat × Line)

inductive DeployedAction where
  | client (action : Action)
  | read (connection : Nat) (chunk : Bytes)
  | print (connection : Nat)

def DeployedAction.isThread : DeployedAction → Bool
  | .client _ => false
  | .read _ _ | .print _ => true

namespace Deployed

def start (bufferSize : Nat) (spawned : Bool) (now : Instant) : Deployed where
  sys := Sys.build bufferSize spawned now
  reads := fun _ => []
  console := []

def chunkSize : Nat := 8192

def sent (s : Deployed) (connection : Nat) : Bytes :=
  match s.sys.connections[connection]? with
  | some c => c.bytes
  | none => []

def due (reader : SerdeValue V) (s : Deployed) (connection : Nat) : List Line :=
  output reader (s.reads connection)

def serving (s : Deployed) (connection : Nat) : Bool :=
  ((s.reads connection).foldl handleChunk Server.connected).2.isSome

def step (config : Config) (serde : SerdeJson) (reader : SerdeValue V) (s : Deployed) :
    DeployedAction → Option Deployed
  | .client action => (s.sys.step config serde action).map fun sys => { s with sys := sys }
  | .read connection chunk =>
      -- a thread goes on to read when it has printed what it has to
      if (part s.console connection).length = (s.due reader connection).length ∧
          s.serving connection = true ∧ 0 < chunk.length ∧ chunk.length ≤ chunkSize ∧
          (s.reads connection).flatten ++ chunk <+: s.sent connection then
        some { s with
          reads := Function.update s.reads connection (s.reads connection ++ [chunk]) }
      else none
  | .print connection =>
      match (s.due reader connection)[(part s.console connection).length]? with
      | some line => some { s with console := s.console ++ [(connection, line)] }
      | none => none

/-- All is read that was sent, and all is printed. -/
structure Settled (reader : SerdeValue V) (s : Deployed) : Prop where
  read : ∀ connection, (s.reads connection).flatten = s.sent connection
  printed : ∀ connection, (part s.console connection).length = (s.due reader connection).length

structure Faithful (config : Config) (serde : SerdeJson) (reader : SerdeValue V)
    (bufferSize : Nat) (s : Deployed) : Prop where
  reached : Reachable config serde bufferSize s.sys
  arrived : ∀ connection, (s.reads connection).flatten <+: s.sent connection
  printed : From (s.due reader) s.console

variable {s t : Deployed}

theorem start_faithful (spawned : Bool) (now : Instant) :
    (start bufferSize spawned now).Faithful config serde reader bufferSize where
  reached := ⟨spawned, now, .refl⟩
  arrived := fun _ => List.nil_prefix
  printed := fun _ => List.nil_prefix

theorem sent_grows {sys : Sys} (grown : Grown s.sys.connections sys.connections)
    (connection : Nat) : s.sent connection <+: Deployed.sent { s with sys := sys } connection := by
  unfold sent
  cases before : s.sys.connections[connection]? with
  | none => exact List.nil_prefix
  | some c =>
      obtain ⟨d, after, grows⟩ := grown connection c before
      simp only [after]
      exact grows

theorem Faithful.step {action : DeployedAction}
    (inv : s.Faithful config serde reader bufferSize)
    (taken : s.step config serde reader action = some t) :
    t.Faithful config serde reader bufferSize := by
  cases action with
  | client action =>
      obtain ⟨sys, stepped, rfl⟩ := Option.map_eq_some_iff.mp taken
      refine ⟨inv.reached.step stepped, fun connection => ?_, inv.printed⟩
      exact (inv.arrived connection).trans (sent_grows (Sys.step_kept stepped) _)
  | read connection chunk =>
      simp only [Deployed.step] at taken
      split at taken
      case isFalse => cases taken
      case isTrue admitted =>
          cases taken
          refine ⟨inv.reached, fun other => ?_, fun other => ?_⟩
          · by_cases mine : other = connection
            · subst mine
              simp only [Function.update_self, List.flatten_append, List.flatten_singleton]
              exact admitted.2.2.2.2
            · simp only [Function.update_of_ne mine]
              exact inv.arrived other
          · refine (inv.printed other).trans ?_
            unfold due
            by_cases mine : other = connection
            · subst mine
              simp only [Function.update_self]
              exact output_grows reader _ chunk
            · simp only [Function.update_of_ne mine]
              exact List.prefix_refl _
  | print connection =>
      simp only [Deployed.step] at taken
      split at taken
      case h_2 => cases taken
      case h_1 line next =>
          cases taken
          refine ⟨inv.reached, inv.arrived, inv.printed.next ?_⟩
          obtain ⟨rest, split_⟩ := inv.printed connection
          have first : rest[0]? = some line := by
            rw [← split_, List.getElem?_append_right (Nat.le_refl _), Nat.sub_self] at next
            exact next
          cases rest with
          | nil => cases first
          | cons head more =>
              cases first
              rw [← split_]
              exact List.prefix_append_right_inj _ |>.mpr (List.prefix_append [line] more)

def writtenOn (s : Deployed) (connection : Nat) : List Entry :=
  match s.sys.connections[connection]? with
  | some c => c.written
  | none => []

theorem Faithful.thread {escape : Char → List Char}
    (inv : s.Faithful config serde reader bufferSize) (documented : serde.Documented escape)
    (read : reader.Documented) (named : 9 + (utf8 config.appName).length ≤ maxPayloadSize)
    (connection : Nat) :
    s.serving connection = true ∧ ∃ received : List Entry,
      (s.due reader connection).filter Line.isEntry =
        received.map (fun entry => recordLine entry.record) ∧
      received <+: s.writtenOn connection ∧
      ((s.reads connection).flatten = s.sent connection →
        received = s.writtenOn connection) := by
  have inStep := reachable_inStep inv.reached
  have formed := past_filed _ inStep.past inStep.present.wellFormed
  have arrived := inv.arrived connection
  unfold sent at arrived ⊢
  unfold writtenOn
  cases found : s.sys.connections[connection]? with
  | none =>
      simp only [found] at arrived
      have nothing : (s.reads connection).flatten = [] := List.prefix_nil.mp arrived
      have untouched : (s.reads connection).foldl handleChunk Server.connected =
          [].foldl handleChunk Server.connected := by
        rw [handleChunks_drain, handleChunks_drain, nothing]
        rfl
      refine ⟨?_, [], ?_, List.nil_prefix, fun _ => rfl⟩
      · rw [serving, untouched]
        rfl
      · rw [due, output, untouched]
        rfl
  | some c =>
      simp only [found] at arrived
      obtain ⟨received, shows⟩ :=
        (formed c (List.mem_of_getElem? found)).shown documented read named arrived
      obtain ⟨buffer, connected⟩ := shows.connected
      refine ⟨?_, received, shows.entries, shows.in_order, shows.all⟩
      rw [serving, connected]
      rfl

theorem written_ordered (reached : Reachable config serde bufferSize s.sys) :
    (∀ connection, (s.writtenOn connection).Pairwise fun a b => a.seq < b.seq) ∧
      ∀ connection other, connection < other → ∀ a ∈ s.writtenOn connection,
        ∀ b ∈ s.writtenOn other, a.seq < b.seq := by
  have increasing := (accepted_increasing reached).sublist ((written_accepted reached).map _)
  obtain ⟨within, across⟩ := List.pairwise_flatMap.mp (List.pairwise_map.mp increasing)
  constructor
  · intro connection
    unfold writtenOn
    split
    · rename_i c found
      exact within c (List.mem_of_getElem? found)
    · exact .nil
  · intro connection other before a early b late
    unfold writtenOn at early late
    split at early
    case h_2 => cases early
    case h_1 c here =>
        split at late
        case h_2 => cases late
        case h_1 d there =>
            obtain ⟨short, rfl⟩ := List.getElem?_eq_some_iff.mp here
            obtain ⟨long, rfl⟩ := List.getElem?_eq_some_iff.mp there
            exact List.pairwise_iff_getElem.mp across _ _ short long before a early b late

theorem mem_written {entry : Entry} :
    entry ∈ s.sys.written ↔ ∃ connection, entry ∈ s.writtenOn connection := by
  rw [Sys.written, List.mem_flatMap]
  constructor
  · rintro ⟨c, member, there⟩
    obtain ⟨connection, short, rfl⟩ := List.mem_iff_getElem.mp member
    exact ⟨connection, by rw [writtenOn, List.getElem?_eq_getElem short]; exact there⟩
  · rintro ⟨connection, there⟩
    unfold writtenOn at there
    split at there
    · rename_i c found
      exact ⟨c, List.mem_of_getElem? found, there⟩
    · cases there

theorem Faithful.entries {escape : Char → List Char}
    (inv : s.Faithful config serde reader bufferSize) (documented : serde.Documented escape)
    (read : reader.Documented) (named : 9 + (utf8 config.appName).length ≤ maxPayloadSize) :
    ∃ received : List (Nat × Entry),
      (s.console.filter fun item => item.2.isEntry) =
        received.map (Prod.map id fun entry => recordLine entry.record) ∧
      From s.writtenOn received ∧
      (s.Settled reader → ∀ connection, part received connection = s.writtenOn connection) := by
  choose shows entries prefixes all using fun connection =>
    (inv.thread documented read named connection).2
  have lines (connection : Nat) :
      part (s.console.filter fun item => item.2.isEntry) connection <+:
        (shows connection).map fun entry => recordLine entry.record := by
    rw [part_filter, ← entries connection]
    exact (inv.printed connection).filter _
  obtain ⟨received, same, from_⟩ := From.lift lines
  refine ⟨received, same.symm, fun connection => (from_ connection).trans (prefixes connection),
    fun settled connection => ?_⟩
  rw [← all connection (settled.read connection)]
  apply (from_ connection).eq_of_length
  have printed := (inv.printed connection).eq_of_length (settled.printed connection)
  have images := congrArg (fun merged => (part merged connection).length) same
  simp only [Interleaving.part_map, List.length_map] at images
  rw [images, part_filter, printed, entries connection, List.length_map]

theorem drawn_in_order {received : List (Nat × Entry)} (drawn : From s.writtenOn received)
    (reached : Reachable config serde bufferSize s.sys) :
    received.Pairwise fun first second =>
      first.1 ≤ second.1 ∧ first.2.seq < second.2.seq ∨
        second.1 < first.1 ∧ second.2.seq < first.2.seq := by
  obtain ⟨within, across⟩ := written_ordered reached
  refine (drawn.pairwise Nat.lt_trichotomy within across).imp fun apart => ?_
  exact apart.imp_left fun ⟨before, older⟩ => ⟨Nat.le_iff_lt_or_eq.mpr before, older⟩

theorem drawn_complete {received : List (Nat × Entry)} (drawn : From s.writtenOn received)
    (reached : Reachable config serde bufferSize s.sys)
    (full : ∀ connection, part received connection = s.writtenOn connection) :
    (received.map Prod.snd).Perm s.sys.written := by
  have once : (received.map Prod.snd).Nodup := by
    apply List.pairwise_map.mpr
    refine (drawn_in_order drawn reached).imp ?_
    intro first second apart same
    rw [same] at apart
    rcases apart with ⟨_, older⟩ | ⟨_, older⟩ <;> exact Nat.lt_irrefl _ older
  have distinct : s.sys.written.Nodup := by
    have increasing := (accepted_increasing reached).sublist ((written_accepted reached).map _)
    exact .of_map _ (increasing.imp Nat.ne_of_lt)
  apply (List.perm_ext_iff_of_nodup once distinct).mpr
  intro entry
  rw [mem_written]
  constructor
  · intro member
    obtain ⟨item, there, rfl⟩ := List.mem_map.mp member
    exact ⟨item.1, drawn.mem there⟩
  · rintro ⟨connection, there⟩
    rw [← full connection] at there
    exact List.mem_map.mpr ⟨_, part_mem there, rfl⟩

theorem reaches_faithful {spawned : Bool} {now : Instant}
    (ran : PartialRun.Reaches (Deployed.step config serde reader) (start bufferSize spawned now)
      s) : s.Faithful config serde reader bufferSize :=
  PartialRun.invariant (Faithful config serde reader bufferSize)
    (fun _ _ _ inv _ taken => inv.step taken) (start_faithful spawned now) ran

/-- Whatever the client, the network and the threads of the server do in whatever order, if the
app name fits the frame limit: no thread disconnects, the entries on the console were written on
the connections they are from, none is there twice, and two of them are in the order of the
calls, unless the thread of the later connection was ahead, when they are in the reverse. When
all threads are through, the console has what was written. -/
theorem console_ordered {escape : Char → List Char} {spawned : Bool} {now : Instant}
    (ran : PartialRun.Reaches (Deployed.step config serde reader) (start bufferSize spawned now) s)
    (documented : serde.Documented escape) (read : reader.Documented)
    (named : 9 + (utf8 config.appName).length ≤ maxPayloadSize) :
    (∀ connection, s.serving connection = true) ∧ ∃ received : List (Nat × Entry),
      (s.console.filter fun item => item.2.isEntry) =
        received.map (Prod.map id fun entry => recordLine entry.record) ∧
      (∀ item ∈ received, item.2 ∈ s.writtenOn item.1) ∧
      (received.Pairwise fun first second =>
        first.1 ≤ second.1 ∧ first.2.seq < second.2.seq ∨
          second.1 < first.1 ∧ second.2.seq < first.2.seq) ∧
      (s.Settled reader → (received.map Prod.snd).Perm s.sys.written) := by
  have inv := reaches_faithful ran
  obtain ⟨received, entries, drawn, full⟩ := inv.entries documented read named
  exact ⟨fun connection => (inv.thread documented read named connection).1, received, entries,
    fun item member => drawn.mem member, drawn_in_order drawn inv.reached,
    fun settled => drawn_complete drawn inv.reached (full settled)⟩

theorem reaches_client {actions : List Action} {sys : Sys}
    (ran : PartialRun.run (Sys.step config serde) s.sys actions = some sys) :
    PartialRun.Reaches (Deployed.step config serde reader) s { s with sys := sys } := by
  induction actions generalizing s with
  | nil =>
      cases ran
      exact .refl
  | cons action rest ih =>
      obtain ⟨next, first, later⟩ := PartialRun.run_cons_some.mp ran
      have taken : s.step config serde reader (.client action) = some { s with sys := next } :=
        Option.map_eq_some_iff.mpr ⟨next, first, rfl⟩
      exact .head ⟨.client action, trivial, taken⟩ (ih (s := { s with sys := next }) later)

theorem run_printed (s : Deployed) (connection : Nat) {left : List Line}
    (todo : (s.due reader connection).drop (part s.console connection).length = left) :
    PartialRun.run (Deployed.step config serde reader) s
        (List.replicate left.length (.print connection)) =
      some { s with console := s.console ++ left.map fun line => (connection, line) } := by
  induction left generalizing s with
  | nil =>
      simp only [List.map_nil, List.append_nil]
      rfl
  | cons line rest ih =>
      have next : (s.due reader connection)[(part s.console connection).length]? = some line := by
        have first := congrArg (·[0]?) todo
        simpa using first
      have taken : s.step config serde reader (.print connection) =
          some { s with console := s.console ++ [(connection, line)] } := by
        simp only [Deployed.step, next]
      have later : (s.due reader connection).drop
          (part (s.console ++ [(connection, line)]) connection).length = rest := by
        rw [part_append, Interleaving.part_self, List.length_append, List.length_singleton,
          ← List.drop_drop, todo, List.drop_one, List.tail_cons]
      have done := ih { s with console := s.console ++ [(connection, line)] } later
      rw [List.append_assoc] at done
      exact PartialRun.run_cons_some.mpr ⟨_, taken, done⟩

def showing (reader : SerdeValue V) (connection : Nat) (bytes : Bytes) : List DeployedAction :=
  .read connection bytes :: List.replicate (output reader [bytes]).length (.print connection)

theorem showing_threads (reader : SerdeValue V) (connection : Nat) (bytes : Bytes) :
    ∀ action ∈ showing reader connection bytes, action.isThread = true := by
  intro action member
  rcases List.mem_cons.mp member with rfl | print
  · rfl
  · rw [List.eq_of_mem_replicate print]
    rfl

theorem run_showing (config : Config) (serde : SerdeJson) (reader : SerdeValue V)
    (s : Deployed) {connection : Nat} {c : Stream}
    (found : s.sys.connections[connection]? = some c) (untouched : s.reads connection = [])
    (unprinted : part s.console connection = []) (some_ : 0 < c.bytes.length)
    (short : c.bytes.length ≤ chunkSize) :
    PartialRun.run (Deployed.step config serde reader) s (showing reader connection c.bytes) =
      some { s with
        reads := Function.update s.reads connection [c.bytes]
        console := s.console ++
          (output reader [c.bytes]).map fun line => (connection, line) } := by
  have fits : (s.reads connection).flatten ++ c.bytes <+: s.sent connection := by
    rw [untouched, sent, found]
    exact List.prefix_refl _
  have silent : (part s.console connection).length = (s.due reader connection).length := by
    rw [unprinted, due, untouched]
    rfl
  have connected : s.serving connection = true := by
    rw [serving, untouched]
    rfl
  have taken : s.step config serde reader (.read connection c.bytes) =
      some { s with reads := Function.update s.reads connection [c.bytes] } := by
    simp only [Deployed.step]
    rw [if_pos ⟨silent, connected, some_, short, fits⟩, untouched, List.nil_append]
  refine PartialRun.run_cons_some.mpr ⟨_, taken, run_printed _ connection ?_⟩
  simp only [unprinted, due, Function.update_self, List.length_nil, List.drop_zero]

/-- Of two connections that no thread has read, the second is read and printed before the first. -/
theorem second_first (config : Config) (serde : SerdeJson) (reader : SerdeValue V) (s : Deployed)
    {c d : Stream} (both : s.sys.connections = [c, d])
    (unread : ∀ connection, s.reads connection = []) (blank : s.console = [])
    (first : 0 < c.bytes.length ∧ c.bytes.length ≤ chunkSize)
    (second : 0 < d.bytes.length ∧ d.bytes.length ≤ chunkSize) :
    ∃ t actions, PartialRun.run (Deployed.step config serde reader) s actions = some t ∧
      (∀ action ∈ actions, action.isThread = true) ∧
      t.console = ((output reader [d.bytes]).map fun line => (1, line)) ++
        (output reader [c.bytes]).map (fun line => (0, line)) ∧
      t.Settled reader := by
  have early := run_showing config serde reader s (congrArg (·[1]?) both) (unread 1)
    (by rw [blank]; rfl) second.1 second.2
  rw [blank, List.nil_append] at early
  have late := run_showing config serde reader
    { s with
      reads := Function.update s.reads 1 [d.bytes]
      console := (output reader [d.bytes]).map fun line => (1, line) }
    (congrArg (·[0]?) both) (unread 0) (Interleaving.part_untagged Nat.one_ne_zero _)
    first.1 first.2
  have ran : PartialRun.run (Deployed.step config serde reader) s
      (showing reader 1 d.bytes ++ showing reader 0 c.bytes) = _ :=
    (PartialRun.run_append s _ _).trans ((congrArg (Option.bind · _) early).trans late)
  refine ⟨_, _, ran, ?_, rfl, ⟨?_, ?_⟩⟩
  · intro action member
    rcases List.mem_append.mp member with there | here
    · exact showing_threads reader 1 d.bytes action there
    · exact showing_threads reader 0 c.bytes action here
  · intro connection
    simp only [sent, both]
    rcases connection with _ | _ | more
    · exact List.flatten_singleton
    · exact List.flatten_singleton
    · exact congrArg List.flatten (unread (more + 2))
  · intro connection
    simp only [part_append]
    rcases connection with _ | _ | more
    · rw [Interleaving.part_untagged (by decide), Interleaving.part_tagged]
      rfl
    · rw [Interleaving.part_tagged, Interleaving.part_untagged (by decide), List.append_nil]
      rfl
    · rw [Interleaving.part_untagged (by omega), Interleaving.part_untagged (by omega), due]
      have silent : output reader (s.reads (more + 2)) = [] := by
        rw [unread]
        rfl
      exact congrArg List.length silent.symm

theorem output_whole {escape : Char → List Char} {c : Stream} (whole : c.WellFormed config serde)
    (documented : serde.Documented escape) (read : reader.Documented)
    (named : 9 + (utf8 config.appName).length ≤ maxPayloadSize) (some_ : c.written ≠ []) :
    output reader [c.bytes] =
      .banner (utf8 config.appName) :: c.written.map fun entry => recordLine entry.record := by
  have everything : [c.bytes].flatten = c.bytes := List.flatten_singleton
  obtain ⟨received, shows⟩ :=
    whole.shown documented read named ⟨[], (List.append_nil _).trans everything⟩
  obtain rfl := shows.all everything
  rcases shows.lines with ⟨_, nothing, _⟩ | spoken
  · exact absurd nothing some_
  · exact spoken

theorem overtaken :
    ∃ s t actions, PartialRun.Reaches (Deployed.step ClientBuilder.default.toConfig compactSerde
        MockServer.textReader) (start 2 true 0) s ∧
      PartialRun.run (Deployed.step ClientBuilder.default.toConfig compactSerde
        MockServer.textReader) s actions = some t ∧
      (∀ action ∈ actions, action.isThread = true) ∧
      (t.console.filter fun item => item.2.isEntry).map Prod.fst = [1, 1, 0] ∧
      t.Settled MockServer.textReader := by
  obtain ⟨sys, ran, c, d, both, one, two, sizes⟩ :
      ∃ sys, runDefault 2 reconnectRun = some sys ∧ ∃ c d : Stream, sys.connections = [c, d] ∧
        c.written.map Entry.seq = [1] ∧ d.written.map Entry.seq = [2, 3] ∧
        (0 < c.bytes.length ∧ c.bytes.length ≤ chunkSize) ∧
          0 < d.bytes.length ∧ d.bytes.length ≤ chunkSize :=
    ⟨_, rfl, _, _, rfl, rfl, rfl, by decide +kernel⟩
  have inStep := reachable_inStep (runDefault_reaches ran)
  have formed : ∀ c ∈ sys.connections, c.WellFormed ClientBuilder.default.toConfig compactSerde :=
    past_filed _ inStep.past inStep.present.wellFormed
  rw [both] at formed
  obtain ⟨first, more, shape, _, none_⟩ := List.map_eq_cons_iff.mp one
  obtain rfl := List.map_eq_nil_iff.mp none_
  obtain ⟨second, more, shape', _, late⟩ := List.map_eq_cons_iff.mp two
  obtain ⟨third, more, rfl, _, none_⟩ := List.map_eq_cons_iff.mp late
  obtain rfl := List.map_eq_nil_iff.mp none_
  have shown := output_whole (formed c (.head _)) compactSerde_documented
    MockServer.textReader_documented (by decide) (by rw [shape]; exact List.cons_ne_nil _ _)
  have shown' := output_whole (formed d (.tail _ (.head _))) compactSerde_documented
    MockServer.textReader_documented (by decide) (by rw [shape']; exact List.cons_ne_nil _ _)
  rw [shape] at shown
  rw [shape'] at shown'
  obtain ⟨t, actions, shows, alone, lines, settled⟩ := second_first
    ClientBuilder.default.toConfig compactSerde MockServer.textReader
    { start 2 true 0 with sys := sys } both (fun _ => rfl) rfl sizes.1 sizes.2
  refine ⟨_, t, actions, reaches_client ran, shows, alone, ?_, settled⟩
  rw [lines, shown, shown']
  rfl

theorem console_ordered_overtaken :
    ∃ s, PartialRun.Reaches (Deployed.step ClientBuilder.default.toConfig compactSerde
        MockServer.textReader) (start 2 true 0) s ∧
      (s.console.filter fun item => item.2.isEntry).map Prod.fst = [1, 1, 0] ∧
      ∃ received : List (Nat × Entry),
        (s.console.filter fun item => item.2.isEntry) =
          received.map (Prod.map id fun entry => recordLine entry.record) ∧
        (∀ item ∈ received, item.2 ∈ s.writtenOn item.1) ∧
        (received.Pairwise fun first second =>
          first.1 ≤ second.1 ∧ first.2.seq < second.2.seq ∨
            second.1 < first.1 ∧ second.2.seq < first.2.seq) ∧
        (s.Settled MockServer.textReader → (received.map Prod.snd).Perm s.sys.written) := by
  obtain ⟨s, t, actions, sent, ran, _, order, _⟩ := overtaken
  have reached := sent.trans (PartialRun.reaches_of_run ran)
  exact ⟨t, reached, order, (console_ordered reached compactSerde_documented
    MockServer.textReader_documented (by decide)).2⟩

end Deployed

end Ecapplog
