import Ecapplog.Delivery
import Ecapplog.Worker

/-! The frames handed to the socket, against the server's limit on what a frame may
declare. -/

namespace Ecapplog

/-- The header declares exactly the payload that follows, and no more than the
server accepts. -/
def Acceptable : Bytes → Prop
  | _ :: a :: b :: c :: d :: payload =>
      (fromBeBytes a b c d).toNat = payload.length ∧ payload.length ≤ maxPayloadSize
  | _ => False

theorem acceptable_frameOf (command : UInt8) (payload : Bytes) :
    Acceptable (frameOf command payload) ↔ payload.length ≤ maxPayloadSize := by
  rw [frameOf_eq]
  change (fromBeBytes _ _ _ _).toNat = payload.length ∧ _ ↔ _
  rw [fromBeBytes_toBeBytes, UInt32.toNat_ofNat']
  constructor
  · intro both
    exact both.2
  · intro fits
    have small : payload.length < 2 ^ 32 := Nat.lt_of_le_of_lt fits (by decide)
    exact ⟨Nat.mod_eq_of_lt small, fits⟩

namespace Sys

variable (config : Config) (serde : SerdeJson)

/-- The frame buffer that the worker's next step passes to `write_all`; `write_record`
passes none if it refuses the record. -/
def handed (s : Sys) : Option Bytes :=
  match s.pc with
  | .banner _ => some (encodeFrame cmdBanner (bannerPayload config.appName) s.frame)
  | .writing _ entry =>
      let write := writeRecord serde entry.record s.json s.frame none
      match write.result with
      | .error (.discard _) => none
      | _ => some write.frame
  | _ => none

/-- What becomes of a serialisable record at the step that writes it: within the
limit its frame goes to the socket, beyond it the error is reported and the
connection is left as it is. -/
def LimitsRecords (s : Sys) : Prop :=
  ∀ stream entry, s.pc = .writing stream entry →
    (serde.toWriter (.fromRecord entry.record)).2 = none → ∀ net,
      let size := (jsonOf serde entry.record).length
      let t := s.atWriting serde net stream entry
      (size ≤ maxPayloadSize →
        s.handed config serde = some (logFrame serde entry) ∧
          t.connections.map Stream.bytes = s.history.past.map Stream.bytes ++
            [stream.bytes ++ (writeAll (logFrame serde entry) net.failure).1]) ∧
      (maxPayloadSize < size →
        s.handed config serde = none ∧
          t.connections.map Stream.bytes = s.connections.map Stream.bytes ∧
          t.history.reports = s.history.reports ++ [.payloadTooLarge size maxPayloadSize])

variable {config serde}

theorem handed_banner {s : Sys} {stream : Stream} (here : s.pc = .banner stream) :
    s.handed config serde = some (bannerFrame config) := by
  simp only [handed, here]
  rfl

end Sys

variable {config : Config} {serde : SerdeJson}

theorem writeRecord_fits {record : Record}
    (serialises : (serde.toWriter (.fromRecord record)).2 = none)
    (fits : (jsonOf serde record).length ≤ maxPayloadSize) (json frame : Bytes)
    (failure : Option (Nat × IoError)) :
    (writeRecord serde record json frame failure).frame = frameOf cmdLog (jsonOf serde record) ∧
      (writeRecord serde record json frame failure).sent =
        (writeAll (frameOf cmdLog (jsonOf serde record)) failure).1 ∧
      ((writeRecord serde record json frame failure).result = .ok () ∨
        ∃ source, (writeRecord serde record json frame failure).result =
          .error (.connection (.write source))) := by
  rcases written : serde.toWriter (.fromRecord record) with ⟨text, refused⟩
  have same : jsonOf serde record = text := by rw [jsonOf, written]
  rw [written] at serialises
  cases serialises
  rw [same] at fits ⊢
  simp only [writeRecord, written, clear, List.nil_append, if_neg (Nat.not_lt.mpr fits),
    encodeFrame_eq_frameOf]
  rcases outcome : writeAll (frameOf cmdLog text) failure with ⟨sent, result⟩
  cases result with
  | ok => exact ⟨rfl, rfl, .inl rfl⟩
  | error source => exact ⟨rfl, rfl, .inr ⟨source, rfl⟩⟩

theorem writeRecord_large {record : Record}
    (serialises : (serde.toWriter (.fromRecord record)).2 = none)
    (large : maxPayloadSize < (jsonOf serde record).length) (json frame : Bytes)
    (failure : Option (Nat × IoError)) :
    writeRecord serde record json frame failure =
      ⟨[], jsonOf serde record, frame, .error (.discard
        (.payloadTooLarge (jsonOf serde record).length maxPayloadSize))⟩ := by
  rcases written : serde.toWriter (.fromRecord record) with ⟨text, refused⟩
  have same : jsonOf serde record = text := by rw [jsonOf, written]
  rw [written] at serialises
  cases serialises
  rw [same] at large ⊢
  simp only [writeRecord, written, clear, List.nil_append, if_pos large]

namespace Sys

theorem limitsRecords (s : Sys) : s.LimitsRecords config serde := by
  intro stream entry here serialises net
  constructor
  · intro fits
    constructor
    · rcases writeRecord_fits serialises fits s.json s.frame none with ⟨frame, _, result⟩
      simp only [handed, here, frame]
      rcases result with done | ⟨source, broken⟩
      · rw [done]
        rfl
      · rw [broken]
        rfl
    · rcases writeRecord_fits serialises fits s.json s.frame net.failure with ⟨_, sent, result⟩
      simp only [atWriting, sent]
      rcases result with done | ⟨source, broken⟩
      · simp [done, connections, network, logFrame]
      · simp [broken, connections, network, leave, report, logFrame]
  · intro large
    refine ⟨?_, ?_, ?_⟩
    · simp only [handed, here, writeRecord_large serialises large]
    · simp [atWriting, writeRecord_large serialises large, connections, report, here]
    · simp [atWriting, writeRecord_large serialises large, report]

theorem handed_log {s : Sys} {stream : Stream} {entry : Entry} {frame : Bytes}
    (here : s.pc = .writing stream entry) (given : frame ∈ s.handed config serde) :
    (jsonOf serde entry.record).length ≤ maxPayloadSize ∧ frame = logFrame serde entry := by
  cases serialises : (serde.toWriter (.fromRecord entry.record)).2 with
  | some source =>
      have refused : (writeRecord serde entry.record s.json s.frame none).result =
          .error (.discard (.serialize source)) := by
        simp only [writeRecord, serialises]
      simp [handed, here, refused] at given
  | none =>
      rcases Nat.lt_or_ge maxPayloadSize (jsonOf serde entry.record).length with large | fits
      · simp [handed, here, writeRecord_large serialises large] at given
      · rw [((s.limitsRecords stream entry here serialises .up).1 fits).1] at given
        cases given
        exact ⟨fits, rfl⟩

end Sys

theorem banner_reached (config : Config) (serde : SerdeJson) (bufferSize : Nat) :
    ∃ s, PartialRun.run (Sys.step config serde) (Sys.build bufferSize true 0)
      [.worker .up, .worker .up] = some s ∧ s.pc = .banner .fresh :=
  ⟨_, rfl, rfl⟩

/-- Every frame handed to the socket is one the server accepts, and every record is
held to the limit, in every run if and only if the app name leaves room for the nine
bytes before it. -/
theorem frames_acceptable_iff (config : Config) (serde : SerdeJson) :
    (∀ bufferSize s, Reachable config serde bufferSize s →
      (∀ frame ∈ s.handed config serde, Acceptable frame) ∧ s.LimitsRecords config serde) ↔
      9 + (utf8 config.appName).length ≤ maxPayloadSize := by
  rw [← bannerPayload_length]
  constructor
  · intro always
    obtain ⟨s, ran, here⟩ := banner_reached config serde 1
    have reached : Reachable config serde 1 s := ⟨true, 0, PartialRun.reaches_of_run ran⟩
    have accepted := (always 1 s reached).1 (bannerFrame config) (Sys.handed_banner here)
    exact (acceptable_frameOf _ _).mp accepted
  · intro fits bufferSize s reached
    refine ⟨?_, s.limitsRecords⟩
    intro frame given
    cases here : s.pc with
    | banner stream =>
        rw [Sys.handed_banner here] at given
        cases given
        exact (acceptable_frameOf _ _).mpr fits
    | writing stream entry =>
        rcases Sys.handed_log here given with ⟨small, rfl⟩
        exact (acceptable_frameOf _ _).mpr small
    | _ => simp [Sys.handed, here] at given

def longNamed : Config :=
  { ClientBuilder.default.toConfig with
    appName := String.ofList (List.replicate maxPayloadSize 'a') }

theorem long_app_name_rejected :
    ∃ s, PartialRun.run (Sys.step longNamed compactSerde) (Sys.build 1000 true 0)
        [.worker .up, .worker .up] = some s ∧
      ∃ frame ∈ s.handed longNamed compactSerde, ¬ Acceptable frame := by
  obtain ⟨s, ran, here⟩ := banner_reached longNamed compactSerde 1000
  refine ⟨s, ran, bannerFrame longNamed, Sys.handed_banner here, ?_⟩
  intro accepted
  have fits := (acceptable_frameOf _ _).mp accepted
  have name : (utf8 longNamed.appName).length = maxPayloadSize := by
    calc
      (utf8 longNamed.appName).length =
          ((List.replicate maxPayloadSize 'a').map Char.utf8Size).sum := utf8_ofList_length _
      _ = maxPayloadSize * 'a'.utf8Size := by rw [List.map_replicate, List.sum_replicate_nat]
      _ = maxPayloadSize := Nat.mul_one _
  rw [bannerPayload_length, name] at fits
  omega

end Ecapplog
