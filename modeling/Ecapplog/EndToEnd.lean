import Ecapplog.ByteStream
import Ecapplog.MockServer
import Ecapplog.Receivers

/-! From the calls of `log` to the lines that the server prints: what the client puts
on its connections, and what the mock server makes of whatever part arrives. -/

namespace Ecapplog

open Framing MockServer

variable {bufferSize : Nat} {config : Config} {serde : SerdeJson}

def Stream.wire (config : Config) (serde : SerdeJson) (entries : List Entry) : List Frame :=
  ⟨cmdBanner, bannerPayload config.appName⟩ ::
    entries.map fun entry => ⟨cmdLog, jsonOf serde entry.record⟩

namespace Stream

theorem frames_encode (c : Stream) :
    c.frames config serde = (wire config serde (c.sendables serde)).map Frame.encode := by
  rw [frames, wire, List.map_cons, List.map_map]
  rfl

theorem frames_flatten (c : Stream) :
    (c.frames config serde).flatten = encodeAll (wire config serde (c.sendables serde)) := by
  rw [frames_encode, encodeAll]

theorem wire_dropLast {entries : List Entry} (some_ : entries ≠ []) :
    (wire config serde entries).dropLast = wire config serde entries.dropLast := by
  rw [wire, List.dropLast_cons_of_ne_nil (by simpa using some_), ← List.map_dropLast]
  rfl

theorem sendables_sendable (c : Stream) :
    ∀ entry ∈ c.sendables serde, Sendable serde entry.record := by
  intro entry member
  exact of_decide_eq_true (List.mem_filter.mp member).2

end Stream

theorem admits_banner (named : 9 + (utf8 config.appName).length ≤ maxPayloadSize) :
    serverAdmits .start ⟨cmdBanner, bannerPayload config.appName⟩ = some ⟨true, 0⟩ := by
  rw [← bannerPayload_length] at named
  have small : ¬ maxPayloadSize < (bannerPayload config.appName).length := Nat.not_lt.mpr named
  rw [serverAdmits, admitSized, if_neg (by simpa using small), handleFrame, if_pos rfl]
  exact (if_neg Bool.false_ne_true).trans (if_pos (List.prefix_append _ _))

theorem admits_logs {entries : List Entry}
    (sendable : ∀ entry ∈ entries, Sendable serde entry.record) (count : Nat) :
    admitAll serverAdmits ⟨true, count⟩
        (entries.map fun entry => ⟨cmdLog, jsonOf serde entry.record⟩) =
      some ⟨true, count + entries.length⟩ := by
  induction entries generalizing count with
  | nil => rfl
  | cons entry entries ih =>
      have small : ¬ maxPayloadSize < (jsonOf serde entry.record).length :=
        Nat.not_lt.mpr (sendable entry List.mem_cons_self).2
      have first : serverAdmits ⟨true, count⟩ ⟨cmdLog, jsonOf serde entry.record⟩ =
          some ⟨true, count + 1⟩ := by
        rw [serverAdmits, admitSized, if_neg (by simpa using small)]
        rfl
      rw [List.map_cons, admitAll, first, Option.bind_some,
        ih (fun later member => sendable later (List.mem_cons_of_mem _ member)),
        List.length_cons]
      congr 2
      omega

theorem admits_wire (named : 9 + (utf8 config.appName).length ≤ maxPayloadSize)
    {entries : List Entry} (sendable : ∀ entry ∈ entries, Sendable serde entry.record) :
    admitAll serverAdmits .start (Stream.wire config serde entries) =
      some ⟨true, entries.length⟩ := by
  rw [Stream.wire, admitAll, admits_banner named, Option.bind_some, admits_logs sendable,
    Nat.zero_add]

theorem wire_fits (named : 9 + (utf8 config.appName).length ≤ maxPayloadSize)
    {entries : List Entry} (sendable : ∀ entry ∈ entries, Sendable serde entry.record) :
    ∀ frame ∈ Stream.wire config serde entries, frame.Fits := by
  intro frame member
  have limit : maxPayloadSize < 2 ^ 32 := by decide
  rcases List.mem_cons.mp member with rfl | log
  · rw [← bannerPayload_length] at named
    exact Nat.lt_of_le_of_lt named limit
  · obtain ⟨entry, there, rfl⟩ := List.mem_map.mp log
    exact Nat.lt_of_le_of_lt (sendable entry there).2 limit

theorem Stream.WellFormed.complete {c : Stream} (whole : c.WellFormed config serde) :
    ∃ done todo tail, (done = wire config serde c.written ∨ (done = [] ∧ c.written = [])) ∧
      wire config serde (c.sendables serde) = done ++ todo ∧
      c.bytes = encodeAll done ++ tail ∧
      ∀ next ∈ todo.head?, tail.length < next.encode.length := by
  have written := whole.written
  have cut := whole.cut
  rw [c.frames_flatten] at written
  rw [c.frames_encode] at cut
  by_cases all : c.bytes = encodeAll (wire config serde (c.sendables serde))
  · rw [if_pos all] at written
    refine ⟨_, [], [], .inl rfl, ?_, ?_, nofun⟩
    · rw [written, List.append_nil]
    · rw [written, List.append_nil]
      exact all
  · rw [if_neg all] at written
    have nonempty : wire config serde (c.sendables serde) ≠ [] := List.cons_ne_nil _ _
    obtain ⟨tail, account⟩ := cut.begun
    rw [← List.map_dropLast] at account
    refine ⟨(wire config serde (c.sendables serde)).dropLast, [_], tail, ?_,
      (List.dropLast_append_getLast nonempty).symm, account.symm, ?_⟩
    · by_cases none_ : c.sendables serde = []
      · rw [none_] at written ⊢
        exact .inr ⟨rfl, written⟩
      · rw [wire_dropLast none_, written]
        exact .inl rfl
    · intro next last
      cases last
      have shorter : c.bytes.length < (encodeAll (wire config serde (c.sendables serde))).length :=
        Nat.lt_of_le_of_ne cut.within.length_le fun same => all (cut.within.eq_of_length same)
      rw [← List.dropLast_append_getLast nonempty, ← account, encodeAll, List.map_append,
        List.flatten_append] at shorter
      simpa using shorter

theorem Stream.WellFormed.written_sendable {c : Stream} (whole : c.WellFormed config serde) :
    ∀ entry ∈ c.written, Sendable serde entry.record := by
  intro entry member
  apply c.sendables_sendable
  rw [whole.written] at member
  split at member
  · exact member
  · exact (List.dropLast_subset _) member

/-- What the server shows of a connection: the banner and then the entries received, a
first part of those written on it. -/
structure Shown {V : Type} (config : Config) (reader : SerdeValue V) (c : Stream)
    (chunks : List Bytes) (received : List Entry) : Prop where
  connected : ∃ buffer, (chunks.foldl handleChunk Server.connected).2 =
    some (⟨!(output reader chunks).isEmpty, received.length⟩, buffer)
  lines : (output reader chunks = [] ∧ received = [] ∧ ¬ bannerFrame config <+: chunks.flatten) ∨
    output reader chunks =
      .banner (utf8 config.appName) :: received.map fun entry => recordLine entry.record
  in_order : received <+: c.written
  all : chunks.flatten = c.bytes → received = c.written

section Showing

variable {V : Type} {reader : SerdeValue V} {escape : Char → List Char}

theorem output_wire (documented : serde.Documented escape) (read : reader.Documented)
    (entries : List Entry) :
    (Stream.wire config serde entries).map (line reader) =
      .banner (utf8 config.appName) :: entries.map fun entry => recordLine entry.record := by
  rw [Stream.wire, List.map_cons, line_banner, List.map_map]
  congr 1
  apply List.map_congr_left
  intro entry _
  exact line_log documented read entry.record

theorem wire_prefix {entries : List Entry} {handled : List Frame}
    (front : handled <+: Stream.wire config serde entries) :
    handled = [] ∨ ∃ received, received <+: entries ∧
      handled = Stream.wire config serde received := by
  cases handled with
  | nil => exact .inl rfl
  | cons frame handled =>
      right
      obtain ⟨rfl, logs⟩ := List.cons_prefix_cons.mp front
      obtain ⟨received, part, rfl⟩ := List.prefix_map_iff.mp logs
      exact ⟨received, part, rfl⟩

theorem Stream.WellFormed.shown {c : Stream} (whole : c.WellFormed config serde)
    (documented : serde.Documented escape) (read : reader.Documented)
    (named : 9 + (utf8 config.appName).length ≤ maxPayloadSize) {chunks : List Bytes}
    (arrived : chunks.flatten <+: c.bytes) :
    ∃ received, Shown config reader c chunks received := by
  have sendable : ∀ entry ∈ c.sendables serde, Sendable serde entry.record :=
    c.sendables_sendable
  have within : chunks.flatten <+: encodeAll (wire config serde (c.sendables serde)) := by
    rw [← c.frames_flatten]
    exact arrived.trans whole.cut.within
  have outcome := serverPeeler_decodes.drain .start _ (wire_fits named sendable) _ within
  rw [← handleChunks_drain] at outcome
  obtain ⟨done, todo, tail, finished, split, account, unfinished⟩ := whole.complete
  generalize held : chunks.foldl handleChunk Server.connected = now at outcome
  cases outcome with
  | closed handled next rest server split' welcome unwelcome =>
      have admitted := admits_wire named sendable
      rw [split', admitAll_refused welcome unwelcome] at admitted
      cases admitted
  | listening handled rest server buffer split' welcome account' unfinished' _ =>
      have grown : (handled.map Frame.encode).flatten ++ buffer <+:
          (done.map Frame.encode).flatten ++ tail := by
        rw [← account', ← encodeAll, ← account]
        exact arrived
      have front : handled <+: done := complete_grows (split'.symm.trans split) grown unfinished
      have same (everything : chunks.flatten = c.bytes) : handled = done := by
        refine (complete_unique (split'.symm.trans split) ?_
          (fun next first => (unfinished' next first).2) unfinished).1
        rw [← account', everything, account, encodeAll]
      have among : handled <+: wire config serde c.written := by
        rcases finished with rfl | ⟨rfl, _⟩
        · exact front
        · rw [List.prefix_nil.mp front]
          exact List.nil_prefix
      have shows : output reader chunks = handled.map (line reader) := by rw [output, held]
      rcases wire_prefix among with rfl | ⟨received, part, rfl⟩
      · cases welcome
        refine ⟨[], ⟨buffer, by rw [held, shows]; rfl⟩, .inl ⟨shows, rfl, ?_⟩, List.nil_prefix,
          fun everything => ?_⟩
        · intro announced
          have short := (unfinished' _ (by rw [← split'.trans (List.nil_append rest)]; rfl)).2
          have long := announced.length_le
          rw [account'] at long
          exact Nat.not_lt.mpr long short
        · rcases finished with rfl | ⟨_, nothing⟩
          · cases same everything
          · exact nothing.symm
      · have welcomed := admits_wire named fun entry member =>
          whole.written_sendable entry (part.subset member)
        rw [welcome] at welcomed
        cases welcomed
        rw [output_wire documented read] at shows
        refine ⟨received, ⟨buffer, by rw [held, shows]; rfl⟩, .inr shows, part, ?_⟩
        intro everything
        rcases finished with rfl | ⟨rfl, _⟩
        · have lengths := congrArg List.length (same everything)
          simp only [wire, List.length_cons, List.length_map] at lengths
          exact part.eq_of_length (by omega)
        · cases same everything

theorem shown_each (documented : serde.Documented escape) (read : reader.Documented)
    (named : 9 + (utf8 config.appName).length ≤ maxPayloadSize) {arrivals : List (List Bytes)}
    {connections : List Stream} (whole : ∀ c ∈ connections, c.WellFormed config serde)
    (arrived : List.Forall₂ (fun chunks c => chunks.flatten <+: c.bytes) arrivals connections) :
    List.Forall₂ (fun chunks c => ∃ received, Shown config reader c chunks received) arrivals
      connections := by
  induction arrived with
  | nil => exact .nil
  | cons first rest ih =>
      obtain ⟨this, others⟩ := List.forall_mem_cons.mp whole
      exact .cons (this.shown documented read named first) (ih others)

section Together

variable {c : Stream} {chunks : List Bytes} {received : List Entry}

theorem Shown.entries (shows : Shown config reader c chunks received) :
    (output reader chunks).filter Line.isEntry =
      received.map fun entry => recordLine entry.record := by
  rcases shows.lines with ⟨silent, nothing, _⟩ | spoken
  · rw [silent, nothing]
    rfl
  · rw [spoken, List.filter_cons_of_neg Bool.false_ne_true]
    apply List.filter_eq_self.mpr
    intro shownLine member
    obtain ⟨entry, _, rfl⟩ := List.mem_map.mp member
    rfl

theorem Shown.kinds (shows : Shown config reader c chunks received) :
    ∀ shownLine ∈ output reader chunks, shownLine = .banner (utf8 config.appName) ∨
      ∃ entry ∈ received, shownLine = recordLine entry.record := by
  intro shownLine member
  rcases shows.lines with ⟨silent, _, _⟩ | spoken
  · rw [silent] at member
    cases member
  · rw [spoken] at member
    rcases List.mem_cons.mp member with banner | log
    · exact .inl banner
    · obtain ⟨entry, among, same⟩ := List.mem_map.mp log
      exact .inr ⟨entry, among, same.symm⟩

theorem shown_together {arrivals : List (List Bytes)} {connections : List Stream}
    (shown : List.Forall₂ (fun chunks c => ∃ received, Shown config reader c chunks received)
      arrivals connections) :
    ∃ received : List Entry,
      (arrivals.flatMap (output reader)).filter Line.isEntry =
        received.map (fun entry => recordLine entry.record) ∧
      (∀ shownLine ∈ arrivals.flatMap (output reader),
        shownLine = .banner (utf8 config.appName) ∨
          ∃ entry ∈ received, shownLine = recordLine entry.record) ∧
      received.Sublist (connections.flatMap Stream.written) ∧
      (List.Forall₂ (fun chunks c => chunks.flatten = c.bytes) arrivals connections →
        received = connections.flatMap Stream.written) := by
  induction shown with
  | nil => exact ⟨[], rfl, nofun, List.Sublist.refl _, fun _ => rfl⟩
  | cons first rest ih =>
      obtain ⟨these, shows⟩ := first
      obtain ⟨more, entries, kinds, ordered, complete⟩ := ih
      refine ⟨these ++ more, ?_, ?_, ?_, ?_⟩
      · rw [List.flatMap_cons, List.filter_append, shows.entries, entries, List.map_append]
      · intro shownLine member
        rw [List.flatMap_cons, List.mem_append] at member
        rcases member with here | there
        · refine (shows.kinds shownLine here).imp id ?_
          rintro ⟨entry, among, same⟩
          exact ⟨entry, List.mem_append_left _ among, same⟩
        · refine (kinds shownLine there).imp id ?_
          rintro ⟨entry, among, same⟩
          exact ⟨entry, List.mem_append_right _ among, same⟩
      · rw [List.flatMap_cons]
        exact shows.in_order.sublist.append ordered
      · intro everything
        cases everything with
        | cons here there => rw [List.flatMap_cons, shows.all here, complete there]

end Together

end Showing

structure ShowsLog {V : Type} (config : Config) (reader : SerdeValue V) (s : Sys)
    (arrivals : List (List Bytes)) (received : List Entry) : Prop where
  each : List.Forall₂ (fun chunks c => ∃ received, Shown config reader c chunks received) arrivals
    s.connections
  entries : (arrivals.flatMap (output reader)).filter Line.isEntry =
    received.map fun entry => recordLine entry.record
  in_order : received.Sublist s.history.accepted ∧ (received.map Entry.seq).Pairwise (· < ·)
  all : List.Forall₂ (fun chunks c => chunks.flatten = c.bytes) arrivals s.connections →
    received = s.written
  unflagged : (∀ entry ∈ received, FourDigitYear entry.record.time) →
    ∀ shownLine ∈ arrivals.flatMap (output reader), shownLine.complains = false

theorem reachable_shown {V : Type} {reader : SerdeValue V} {escape : Char → List Char} {s : Sys}
    (reached : Reachable config serde bufferSize s) (documented : serde.Documented escape)
    (read : reader.Documented) (named : 9 + (utf8 config.appName).length ≤ maxPayloadSize)
    {arrivals : List (List Bytes)}
    (arrived : List.Forall₂ (fun chunks c => chunks.flatten <+: c.bytes) arrivals s.connections) :
    List.Forall₂ (fun chunks c => ∃ received, Shown config reader c chunks received) arrivals
      s.connections := by
  have inStep := reachable_inStep reached
  have formed := past_filed _ inStep.past inStep.present.wellFormed
  exact shown_each documented read named formed arrived

theorem written_accepted {s : Sys} (reached : Reachable config serde bufferSize s) :
    s.written.Sublist s.history.accepted := by
  obtain ⟨w, _, rep⟩ := reachable_represented reached
  rw [show s.written = _ from rep.written, show s.history.accepted = _ from rep.accepted]
  exact w.delivered_entered

/-- If the app name fits the frame limit, the server stays connected on whatever part of the
bytes arrives, in whatever chunks. Over all connections it shows each entry at most once and in
the order of the calls, all that were written if everything arrives, and complains of nothing
but a timestamp. -/
theorem server_shows_log {V : Type} {reader : SerdeValue V} {escape : Char → List Char} {s : Sys}
    (reached : Reachable config serde bufferSize s) (documented : serde.Documented escape)
    (read : reader.Documented) (named : 9 + (utf8 config.appName).length ≤ maxPayloadSize)
    {arrivals : List (List Bytes)}
    (arrived : List.Forall₂ (fun chunks c => chunks.flatten <+: c.bytes) arrivals s.connections) :
    ∃ received, ShowsLog config reader s arrivals received := by
  have shown := reachable_shown reached documented read named arrived
  obtain ⟨received, entries, kinds, ordered, complete⟩ := shown_together shown
  have accepted := ordered.trans (written_accepted reached)
  refine ⟨received, shown, entries,
    ⟨accepted, (accepted_increasing reached).sublist (accepted.map _)⟩, complete, ?_⟩
  intro fourDigits shownLine member
  rcases kinds shownLine member with rfl | ⟨entry, among, rfl⟩
  · rfl
  · exact recordLine_complains (fourDigits entry among)

theorem server_shows_log_reconnect :
    ∃ s, runDefault 2 reconnectRun = some s ∧
      ∃ received, ShowsLog ClientBuilder.default.toConfig textReader s
        (s.connections.map fun c => [c.bytes.take 100]) received := by
  obtain ⟨s, ran, _⟩ := reconnectRun_ends
  refine ⟨s, ran, server_shows_log (runDefault_reaches ran) compactSerde_documented
    textReader_documented (by decide) ?_⟩
  apply List.forall₂_map_left_iff.mpr
  apply List.forall₂_same.mpr
  intro c _
  rw [List.flatten_singleton]
  exact List.take_prefix 100 c.bytes

end Ecapplog
