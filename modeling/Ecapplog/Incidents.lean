import Ecapplog.EndToEnd

/-! What the reports say of entries that cannot be sent and of connections that break. -/

namespace Ecapplog

open Framing

variable {bufferSize : Nat} {config : Config} {serde : SerdeJson}

def refusal (serde : SerdeJson) (record : Record) : Option Error :=
  match serde.toWriter (.fromRecord record) with
  | (_, some source) => some (.serialize source)
  | (text, none) =>
      if maxPayloadSize < text.length then some (.payloadTooLarge text.length maxPayloadSize)
      else none

theorem sendable_iff {record : Record} : Sendable serde record ↔ refusal serde record = none := by
  unfold Sendable refusal
  rcases serde.toWriter (.fromRecord record) with ⟨text, _ | source⟩
  · simp
  · simp

theorem writeRecord_discards {record : Record} {json frame : Bytes}
    {failure : Option (Nat × IoError)} {error : Error}
    (condemned : (writeRecord serde record json frame failure).result = .error (.discard error)) :
    refusal serde record = some error := by
  rcases serialised : serde.toWriter (.fromRecord record) with ⟨text, _ | source⟩
  · simp only [writeRecord, serialised, clear, List.nil_append] at condemned
    simp only [refusal, serialised]
    split at condemned
    · rename_i large
      cases condemned
      exact if_pos large
    · split at condemned <;> cases condemned
  · simp only [writeRecord, serialised] at condemned
    cases condemned
    simp only [refusal, serialised]

def Error.isWrite : Error → Bool
  | .write _ => true
  | _ => false

theorem isWrite_of_isUnsendable {error : Error} (condemns : error.isUnsendable = true) :
    error.isWrite = false := by
  cases error <;> first | rfl | cases condemns

/-- Something that belongs on the connection has not been sent in full. -/
def Stream.Ragged (config : Config) (serde : SerdeJson) (c : Stream) : Prop :=
  c.bytes ≠ (c.frames config serde).flatten

instance (c : Stream) : Decidable (c.Ragged config serde) := by
  unfold Stream.Ragged
  infer_instance

theorem Pc.InStep.ragged_banner {stream : Stream} {part : Bytes}
    (inStep : (Pc.banner stream).InStep config serde)
    (short : part.length < (bannerFrame config).length) :
    Stream.Ragged config serde { stream with bytes := stream.bytes ++ part } := by
  intro all
  have lengths := congrArg List.length all
  rw [show stream = Stream.fresh from inStep] at lengths
  simp [Stream.frames, Stream.sendables, Stream.fresh] at lengths
  omega

theorem Pc.InStep.ragged_entry {stream : Stream} {entry : Entry} {part : Bytes}
    (inStep : (Pc.writing stream entry).InStep config serde)
    (sendable : Sendable serde entry.record)
    (short : part.length < (logFrame serde entry).length) :
    Stream.Ragged config serde { stream with bytes := stream.bytes ++ part } := by
  obtain ⟨before, whole, rfl⟩ := inStep
  intro all
  have lengths := congrArg List.length all
  have frames : Stream.frames config serde
      { before.withPopped entry with bytes := (before.withPopped entry).bytes ++ part } =
        before.frames config serde ++ [logFrame serde entry] := Stream.frames_withPopped sendable
  have sofar : (before.withPopped entry).bytes = _ := whole.bytes
  rw [frames, sofar, List.flatten_append, List.length_append, List.length_append,
    List.flatten_singleton] at lengths
  omega

inductive Notes (config : Config) (serde : SerdeJson) (s t : Sys) : Prop where
  | nothing (closed : Option Stream)
      (inOrder : s.pc.InStep config serde → ∀ c ∈ closed, c.Whole config serde)
      (past : t.history.past = s.history.past ++ closed.toList)
      (ends : closed ≠ none → t.pc.running = false)
      (reports : t.history.reports.countP Error.isWrite = s.history.reports.countP Error.isWrite)
      (discarded : t.history.discarded = s.history.discarded)
  | condemned (entry : Entry) (error : Error) (why : refusal serde entry.record = some error)
      (past : t.history.past = s.history.past)
      (reports : t.history.reports.countP Error.isWrite = s.history.reports.countP Error.isWrite)
      (discarded : t.history.discarded = s.history.discarded ++ [(entry, error)])
  | broken (stream : Stream) (ragged : s.pc.InStep config serde → stream.Ragged config serde)
      (past : t.history.past = s.history.past ++ [stream])
      (reports : t.history.reports.countP Error.isWrite =
        s.history.reports.countP Error.isWrite + 1)
      (discarded : t.history.discarded = s.history.discarded)

theorem Notes.still {s t : Sys} (past : t.history.past = s.history.past)
    (reports : t.history.reports.countP Error.isWrite = s.history.reports.countP Error.isWrite)
    (discarded : t.history.discarded = s.history.discarded) : Notes config serde s t := by
  apply Notes.nothing none
  case inOrder =>
      intro _ c member
      cases member
  case past => rw [past, Option.toList_none, List.append_nil]
  case ends => exact fun some_ => absurd rfl some_
  case reports => exact reports
  case discarded => exact discarded

namespace Sys

variable {s t : Sys} {net : Network}

theorem report_breaks (s : Sys) {error : Error} (other : error.isWrite = false) :
    (s.report error).history.reports.countP Error.isWrite =
      s.history.reports.countP Error.isWrite := by
  simp [report, other]

theorem leave_notes {s : Sys} {stream : Option Stream} {pc : Pc}
    (inOrder : s.pc.InStep config serde → ∀ c ∈ stream, c.Whole config serde)
    (stopped : pc.running = false) : Notes config serde s (s.leave stream pc) :=
  .nothing stream inOrder rfl (fun _ => stopped) rfl rfl

theorem atConnecting_notes (s : Sys) : Notes config serde s (s.atConnecting config net) := by
  unfold atConnecting
  split
  · exact .still rfl rfl rfl
  · rename_i error failed
    refine .still rfl (report_breaks s ?_) rfl
    obtain ⟨address, source, rfl | rfl⟩ := connect_error _ _ _ _ _ failed
    · rfl
    · rfl

theorem atBanner_notes {stream : Stream} (here : s.pc = .banner stream) :
    Notes config serde s (s.atBanner config net stream) := by
  rcases writeAll_cases (bannerFrame config) net.failure with
    all | ⟨part, source, failed, _, short⟩
  · have sent : writeAll (encodeFrame cmdBanner (bannerPayload config.appName) s.frame)
        net.failure = _ := all
    simp only [atBanner, sent]
    exact .still rfl rfl rfl
  · have sent : writeAll (encodeFrame cmdBanner (bannerPayload config.appName) s.frame)
        net.failure = _ := failed
    simp only [atBanner, sent]
    apply Notes.broken { stream with bytes := stream.bytes ++ part }
    case past => rfl
    case discarded => rfl
    case reports => simp [leave, network, report, Error.isWrite]
    case ragged =>
        rw [here]
        exact fun inStep => inStep.ragged_banner short

theorem atWriting_notes {stream : Stream} {entry : Entry} (here : s.pc = .writing stream entry) :
    Notes config serde s (s.atWriting serde net stream entry) := by
  rcases writeRecord_cases serde entry.record s.json s.frame net.failure with
    ⟨_, nothing, error, condemns, result⟩ | ⟨_, _, result⟩ |
      ⟨sendable, _, short, source, result⟩
  · have why := writeRecord_discards result
    simp only [atWriting, result]
    exact .condemned entry error why rfl (report_breaks _ (isWrite_of_isUnsendable condemns)) rfl
  · simp only [atWriting, result]
    exact .still rfl rfl rfl
  · simp only [atWriting, result]
    apply Notes.broken
    case past => rfl
    case discarded => rfl
    case reports => simp [leave, network, report, Error.isWrite]
    case ragged =>
        rw [here]
        exact fun inStep => inStep.ragged_entry sendable short

theorem workerStep_notes (taken : s.workerStep config serde net = some t) :
    Notes config serde s t := by
  have present {stream : Stream} (whole : stream.Whole config serde) :
      ∀ c ∈ some stream, c.Whole config serde := by
    rintro c ⟨⟩
    exact whole
  unfold workerStep at taken
  split at taken
  case h_1 => cases taken; unfold atHead; split <;> [split; skip] <;> exact .still rfl rfl rfl
  case h_2 => cases taken; unfold atEmptyCheck; split <;> exact .still rfl rfl rfl
  case h_3 stream here =>
      cases taken
      unfold atDeadline
      split
      · exact .still rfl rfl rfl
      · split
        · exact .still rfl rfl rfl
        · exact leave_notes (by rw [here]; exact id) rfl
  case h_4 deadline stream here =>
      cases taken
      unfold atExpiry
      split
      · exact leave_notes (by rw [here]; exact id) rfl
      · split <;> exact .still rfl rfl rfl
  case h_5 => cases taken; exact atConnecting_notes s
  case h_6 here => cases taken; exact atBanner_notes here
  case h_7 => cases taken; unfold atDelay; split <;> exact .still rfl rfl rfl
  case h_8 stream here =>
      cases taken
      unfold atInner
      split
      · split
        · exact .still rfl rfl rfl
        · exact leave_notes (by rw [here]; exact present) rfl
      · exact .still rfl rfl rfl
  case h_9 stream here =>
      cases taken
      unfold atPopping
      split
      · exact .still rfl rfl rfl
      · exact .nothing (some stream) (by rw [here]; exact present) rfl (fun _ => rfl) rfl rfl
      · exact .still rfl rfl rfl
  case h_10 here => cases taken; exact atWriting_notes here
  case h_11 => cases taken; exact .still rfl rfl rfl
  case h_12 => cases taken; exact .still rfl rfl rfl
  case h_13 requeued _ =>
      cases taken
      cases requeued with
      | none => exact .still rfl rfl rfl
      | some total =>
          exact .still rfl (report_breaks s rfl) rfl
  all_goals cases taken

structure Noted (config : Config) (serde : SerdeJson) (s : Sys) : Prop where
  breaks : s.history.reports.countP Error.isWrite =
    s.history.past.countP fun c => c.Ragged config serde
  running : s.pc.running = true → ∀ c ∈ s.history.past, c.Ragged config serde
  judged : ∀ pair ∈ s.history.discarded, refusal serde pair.1.record = some pair.2

end Sys

theorem Stream.Whole.not_ragged {c : Stream} (whole : c.Whole config serde) :
    ¬ c.Ragged config serde := fun ragged => ragged whole.bytes

theorem Notes.noted {s t : Sys} (notes : Notes config serde s t) (running : s.pc.running = true)
    (inStep : s.pc.InStep config serde) (inv : s.Noted config serde) : t.Noted config serde := by
  cases notes with
  | nothing closed inOrder past ends reports discarded =>
      constructor
      · have whole : closed.toList.countP (fun c => c.Ragged config serde) = 0 := by
          rw [List.countP_eq_zero]
          intro c member
          simpa using (inOrder inStep c (Option.mem_toList.mp member)).not_ragged
        rw [reports, past, List.countP_append, whole, inv.breaks, Nat.add_zero]
      · intro still
        cases closed with
        | none =>
            rw [past, Option.toList_none, List.append_nil]
            exact inv.running running
        | some c =>
            rw [ends (Option.some_ne_none c)] at still
            cases still
      · rw [discarded]
        exact inv.judged
  | condemned entry error why past reports discarded =>
      constructor
      · rw [reports, past, inv.breaks]
      · rw [past]
        exact fun _ => inv.running running
      · rw [discarded]
        intro pair member
        rcases List.mem_append.mp member with before | now
        · exact inv.judged pair before
        · rw [List.mem_singleton.mp now]
          exact why
  | broken stream ragged past reports discarded =>
      have incomplete := ragged inStep
      constructor
      · rw [reports, past, List.countP_append, List.countP_singleton, if_pos (by simpa), inv.breaks]
      · rw [past]
        intro _ c member
        rcases List.mem_append.mp member with before | now
        · exact inv.running running c before
        · rw [List.mem_singleton.mp now]
          exact incomplete
      · rw [discarded]
        exact inv.judged

theorem Sys.step_noted {s t : Sys} {action : Action} (reached : Reachable config serde bufferSize s)
    (inv : s.Noted config serde) (taken : s.step config serde action = some t) :
    t.Noted config serde := by
  cases action with
  | worker net =>
      have move := workerStep_move config serde net taken
      exact (workerStep_notes taken).noted move.running (reachable_inStep reached).present inv
  | log record =>
      cases taken
      exact ⟨inv.breaks, inv.running, inv.judged⟩
  | report index =>
      obtain ⟨total, _, rfl⟩ := step_report taken
      exact ⟨(report_breaks s rfl).trans inv.breaks, inv.running, inv.judged⟩
  | closeShutdown call =>
      obtain ⟨_, rfl⟩ := step_closeShutdown taken
      exact ⟨inv.breaks, inv.running, inv.judged⟩
  | closeTake call =>
      rw [step_caller config serde taken (.inl ⟨call, .inl rfl⟩)]
      exact ⟨inv.breaks, inv.running, inv.judged⟩
  | closeJoin call =>
      rw [step_caller config serde taken (.inl ⟨call, .inr rfl⟩)]
      exact ⟨inv.breaks, inv.running, inv.judged⟩
  | flushEnter call =>
      rw [step_caller config serde taken (.inr ⟨call, .inl rfl⟩)]
      exact ⟨inv.breaks, inv.running, inv.judged⟩
  | flushWake call =>
      rw [step_caller config serde taken (.inr ⟨call, .inr rfl⟩)]
      exact ⟨inv.breaks, inv.running, inv.judged⟩
  | tick elapsed =>
      cases taken
      exact ⟨inv.breaks, inv.running, inv.judged⟩

theorem reachable_noted {s : Sys} (reached : Reachable config serde bufferSize s) :
    s.Noted config serde := by
  obtain ⟨spawned, now, ran⟩ := reached
  have both : Reachable config serde bufferSize s ∧ s.Noted config serde := by
    refine PartialRun.invariant
      (fun s => Reachable config serde bufferSize s ∧ s.Noted config serde) ?_ ?_ ran
    · rintro r action next ⟨before, inv⟩ _ taken
      exact ⟨before.step taken, Sys.step_noted before inv taken⟩
    · refine ⟨⟨spawned, now, .refl⟩, by simp [Sys.build], nofun, ?_⟩
      intro pair member
      cases member
  exact both.2

/-- The reports of a broken write are as many as the connections that broke off within a
frame; the others were given up in order, and that only by a worker that has ended. -/
theorem breaks_reported {s : Sys} (reached : Reachable config serde bufferSize s) :
    (s.history.reports.countP Error.isWrite =
      s.history.past.countP fun c => c.Ragged config serde) ∧
    (s.pc.running = true →
      s.history.reports.countP Error.isWrite = s.history.past.length) := by
  have inv := reachable_noted reached
  refine ⟨inv.breaks, fun running => ?_⟩
  rw [inv.breaks, List.countP_eq_length]
  intro c member
  exact decide_eq_true (inv.running running c member)

theorem breaks_reported_reconnect :
    ∃ s, runDefault 2 reconnectRun = some s ∧ s.history.past.length = 1 ∧
      (s.history.reports.countP Error.isWrite = s.history.past.countP fun c =>
        c.Ragged ClientBuilder.default.toConfig compactSerde) ∧
      (s.pc.running = true →
        s.history.reports.countP Error.isWrite = s.history.past.length) := by
  obtain ⟨s, ran, one⟩ : ∃ s, runDefault 2 reconnectRun = some s ∧ s.history.past.length = 1 :=
    ⟨_, rfl, rfl⟩
  exact ⟨s, ran, one, breaks_reported (runDefault_reaches ran)⟩

theorem written_sendable {s : Sys} (reached : Reachable config serde bufferSize s) (entry : Entry)
    (member : entry ∈ s.contents .written) : Sendable serde entry.record := by
  obtain ⟨c, among, there⟩ := List.mem_flatMap.mp member
  have inv := reachable_inStep reached
  have whole := past_filed _ inv.past inv.present.wellFormed c among
  exact whole.written_sendable entry there

/-- Whether an entry is written or discarded, and with which report, is decided by its record
alone: by no other entry, no buffer and no connection. -/
theorem fates_follow_records {s : Sys} (reached : Reachable config serde bufferSize s) :
    (∀ entry ∈ s.contents .written, refusal serde entry.record = none) ∧
    (∀ entry error, (entry, error) ∈ s.history.discarded →
      refusal serde entry.record = some error) ∧
    s.history.reports.filter Error.isUnsendable =
      (s.contents .discarded).filterMap fun entry => refusal serde entry.record := by
  have judged := (reachable_noted reached).judged
  refine ⟨?_, fun entry error member => judged (entry, error) member, ?_⟩
  · intro entry member
    exact sendable_iff.mp (written_sendable reached entry member)
  · have reported : s.history.reports.filter Error.isUnsendable =
        s.history.discarded.map Prod.snd := (reachable_accounted reached).condemned
    rw [reported, Sys.contents, List.filterMap_map]
    exact (List.filterMap_eq_map_iff_forall_eq_some.mpr judged).symm

theorem fates_follow_records_reconnect :
    ∃ s, runDefault 2 reconnectRun = some s ∧ (s.contents .written).map Entry.seq = [1, 2, 3] ∧
      (∀ entry ∈ s.contents .written, refusal compactSerde entry.record = none) ∧
      (∀ entry error, (entry, error) ∈ s.history.discarded →
        refusal compactSerde entry.record = some error) ∧
      s.history.reports.filter Error.isUnsendable =
        (s.contents .discarded).filterMap fun entry => refusal compactSerde entry.record := by
  obtain ⟨s, ran, _, written, _⟩ := reconnectRun_ends
  exact ⟨s, ran, written, fates_follow_records (runDefault_reaches ran)⟩

end Ecapplog
