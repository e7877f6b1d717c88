import Ecapplog.Foundations.Framing
import Ecapplog.Proto

/-! The receiving side as the repository has it twice, in the wire tests and in the
mock server: append a chunk, take off whatever frames are complete, and keep the rest. -/

namespace Ecapplog

open Framing

structure Frame where
  command : UInt8
  payload : Bytes
  deriving DecidableEq, Repr

def Frame.encode (frame : Frame) : Bytes := frameOf frame.command frame.payload

def lengthAt (buffer : Bytes) (offset : Nat) (_header : offset + 5 ≤ buffer.length) : Nat :=
  (fromBeBytes buffer[offset + 1] buffer[offset + 2] buffer[offset + 3] buffer[offset + 4]).toNat

def frameAt (buffer : Bytes) (offset : Nat) (header : offset + 5 ≤ buffer.length) : Frame :=
  ⟨buffer[offset], (buffer.drop (offset + 5)).take (lengthAt buffer offset header)⟩

/-- The inner loop of `read_frames`: the frames that are complete from `offset` on,
and the offset it stops at. -/
def decodeFrom (buffer : Bytes) (offset : Nat) : List Frame × Nat :=
  if header : offset + 5 ≤ buffer.length then
    let length := lengthAt buffer offset header
    if buffer.length < offset + 5 + length then ([], offset)
    else
      let (frames, stop) := decodeFrom buffer (offset + 5 + length)
      (frameAt buffer offset header :: frames, stop)
  else ([], offset)
termination_by buffer.length - offset

structure Reading where
  frames : List Frame
  buffer : Bytes

def Reading.start : Reading := ⟨[], []⟩

def readChunk (reading : Reading) (chunk : Bytes) : Reading :=
  let buffer := reading.buffer ++ chunk
  let (frames, offset) := decodeFrom buffer 0
  ⟨reading.frames ++ frames, buffer.drop offset⟩

/-- What a read returns; `quiet` when it would block or has timed out. -/
inductive Arrival where
  | data (chunk : Bytes)
  | quiet
  | broken (error : IoError)

/-- `read_frames`, with the arrivals up to its deadline. A broken read panics. -/
def readFrames (wanted : Nat) : List Arrival → Reading → Except IoError (List Frame)
  | [], reading => .ok reading.frames
  | arrival :: rest, reading =>
      if wanted ≤ reading.frames.length then .ok reading.frames
      else
        match arrival with
        | .data [] => .ok reading.frames
        | .data chunk => readFrames wanted rest (readChunk reading chunk)
        | .quiet => readFrames wanted rest (readChunk reading [])
        | .broken error => .error error

structure Server where
  seenBanner : Bool
  count : Nat
  deriving DecidableEq, Repr

def Server.start : Server := ⟨false, 0⟩

/-- The match on the command byte; none where the server disconnects. -/
def handleFrame (server : Server) (frame : Frame) : Option Server :=
  if frame.command = cmdBanner then
    if server.seenBanner then none
    else if bannerPrefix <+: frame.payload then some { server with seenBanner := true }
    else none
  else if frame.command = cmdLog then some { server with count := server.count + 1 }
  else some server

/-- The inner loop of `handle`; the offset is none when the server disconnects. -/
def handleFrom (buffer : Bytes) (server : Server) (offset : Nat) :
    List Frame × Option (Server × Nat) :=
  if header : offset + 5 ≤ buffer.length then
    let length := lengthAt buffer offset header
    if maxPayloadSize < length then ([], none)
    else if buffer.length < offset + 5 + length then ([], some (server, offset))
    else
      let frame := frameAt buffer offset header
      match handleFrame server frame with
      | none => ([], none)
      | some server =>
          let (frames, stop) := handleFrom buffer server (offset + 5 + length)
          (frame :: frames, stop)
  else ([], some (server, offset))
termination_by buffer.length - offset

/-- The frames handled so far, and the server with its buffer while it is connected. -/
def handleChunk : List Frame × Option (Server × Bytes) → Bytes →
    List Frame × Option (Server × Bytes)
  | (handled, none), _ => (handled, none)
  | (handled, some (server, buffer)), chunk =>
      let buffer := buffer ++ chunk
      let (frames, stop) := handleFrom buffer server 0
      (handled ++ frames, stop.map fun (server, offset) => (server, buffer.drop offset))

section Peeling

variable {σ : Type} (tooLarge : Nat → Bool) (accepts : σ → Frame → Option σ)

def peelFrame (state : σ) : Bytes → Peeled UInt8 Frame σ
  | command :: a :: b :: c :: d :: rest =>
      let length := (fromBeBytes a b c d).toNat
      if tooLarge length then .refuse
      else if rest.length < length then .wait
      else
        match accepts state ⟨command, rest.take length⟩ with
        | none => .refuse
        | some next => .frame ⟨command, rest.take length⟩ next (rest.drop length)
  | _ => .wait

theorem peelFrame_short (state : σ) (bytes : Bytes) (short : bytes.length < 5) :
    peelFrame tooLarge accepts state bytes = .wait := by
  unfold peelFrame
  split
  · simp only [List.length_cons] at short
    omega
  · rfl

theorem peelFrame_frame {state next : σ} {bytes rest : Bytes} {frame : Frame}
    (found : peelFrame tooLarge accepts state bytes = .frame frame next rest) :
    ∃ command a b c d tail, bytes = command :: a :: b :: c :: d :: tail ∧
      ¬ tooLarge (fromBeBytes a b c d).toNat ∧
      (fromBeBytes a b c d).toNat ≤ tail.length ∧
      frame = ⟨command, tail.take (fromBeBytes a b c d).toNat⟩ ∧
      accepts state frame = some next ∧ rest = tail.drop (fromBeBytes a b c d).toNat := by
  unfold peelFrame at found
  split at found
  · rename_i command a b c d tail
    simp only at found
    split at found
    · cases found
    · rename_i small
      split at found
      · cases found
      · rename_i whole
        split at found
        · cases found
        · rename_i admitted
          cases found
          exact ⟨command, a, b, c, d, tail, rfl, small, Nat.le_of_not_lt whole, rfl, admitted, rfl⟩
  · cases found

theorem peelFrame_refuse {state : σ} {bytes : Bytes}
    (found : peelFrame tooLarge accepts state bytes = .refuse) :
    ∃ command a b c d tail, bytes = command :: a :: b :: c :: d :: tail ∧
      (tooLarge (fromBeBytes a b c d).toNat ∨
        (fromBeBytes a b c d).toNat ≤ tail.length ∧
          accepts state ⟨command, tail.take (fromBeBytes a b c d).toNat⟩ = none) := by
  unfold peelFrame at found
  split at found
  · rename_i command a b c d tail
    refine ⟨command, a, b, c, d, tail, rfl, ?_⟩
    simp only at found
    split at found
    · rename_i large
      exact .inl large
    · split at found
      · cases found
      · rename_i whole
        split at found
        · rename_i refused
          exact .inr ⟨Nat.le_of_not_lt whole, refused⟩
        · cases found
  · cases found

def framePeeler : Peeler UInt8 Frame σ where
  peel := peelFrame tooLarge accepts
  progress := by
    intro state bytes frame next rest found
    obtain ⟨command, a, b, c, d, tail, rfl, _, _, _, _, rfl⟩ :=
      peelFrame_frame tooLarge accepts found
    simp only [List.length_drop, List.length_cons]
    omega
  stable := by
    intro state bytes frame next rest more found
    obtain ⟨command, a, b, c, d, tail, rfl, small, whole, rfl, admitted, rfl⟩ :=
      peelFrame_frame tooLarge accepts found
    have still : ¬ (tail ++ more).length < (fromBeBytes a b c d).toNat := by
      rw [List.length_append]
      omega
    simp only [List.cons_append, peelFrame, if_neg small, if_neg still,
      List.take_append_of_le_length whole, admitted, List.drop_append_of_le_length whole]
  final := by
    intro state bytes more found
    obtain ⟨command, a, b, c, d, tail, rfl, large | ⟨whole, refused⟩⟩ :=
      peelFrame_refuse tooLarge accepts found
    · simp only [List.cons_append, peelFrame, if_pos large]
    · have still : ¬ (tail ++ more).length < (fromBeBytes a b c d).toNat := by
        rw [List.length_append]
        omega
      simp only [List.cons_append, peelFrame, if_neg still, List.take_append_of_le_length whole,
        refused, ite_self]

def admitSized (state : σ) (frame : Frame) : Option σ :=
  if tooLarge frame.payload.length then none else accepts state frame

def Frame.Fits (frame : Frame) : Prop := frame.payload.length < 2 ^ 32

theorem declared_length (n : Nat) (fits : n < 2 ^ 32) :
    (fromBeBytes (UInt8.ofNat (n / 2 ^ 24)) (UInt8.ofNat (n / 2 ^ 16)) (UInt8.ofNat (n / 2 ^ 8))
      (UInt8.ofNat n)).toNat = n := by
  have narrow : (UInt32.ofNat n).toNat = n := UInt32.toNat_ofNat_of_lt' fits
  have back := congrArg UInt32.toNat (fromBeBytes_toBeBytes (UInt32.ofNat n))
  rw [narrow] at back
  exact back

theorem peelFrame_header (state : σ) (frame : Frame) (fits : frame.Fits) (arrived : Bytes) :
    peelFrame tooLarge accepts state
        (frame.command :: (toBeBytes (UInt32.ofNat frame.payload.length) ++ arrived)) =
      if tooLarge frame.payload.length then .refuse
      else if arrived.length < frame.payload.length then .wait
      else
        match accepts state ⟨frame.command, arrived.take frame.payload.length⟩ with
        | none => .refuse
        | some next => .frame ⟨frame.command, arrived.take frame.payload.length⟩ next
            (arrived.drop frame.payload.length) := by
  have narrow : (UInt32.ofNat frame.payload.length).toNat = frame.payload.length :=
    UInt32.toNat_ofNat_of_lt' fits
  simp only [toBeBytes, narrow, List.cons_append, List.nil_append, peelFrame,
    declared_length _ fits]

theorem peelFrame_encode (state : σ) (frame : Frame) (fits : frame.Fits) (rest : Bytes) :
    peelFrame tooLarge accepts state (frame.encode ++ rest) =
      match admitSized tooLarge accepts state frame with
      | none => .refuse
      | some next => .frame frame next rest := by
  have whole : ¬ (frame.payload ++ rest).length < frame.payload.length := by
    rw [List.length_append]
    omega
  rw [Frame.encode, frameOf_eq, List.cons_append, List.append_assoc,
    peelFrame_header tooLarge accepts state frame fits, if_neg whole, List.take_left,
    List.drop_left, admitSized]
  split
  · rfl
  · rfl

theorem framePeeler_decodes :
    Decodes (framePeeler tooLarge accepts) Frame.encode (admitSized tooLarge accepts)
      Frame.Fits where
  admitted := by
    intro state frame next rest fits admitted
    have peeled := peelFrame_encode tooLarge accepts state frame fits rest
    rw [admitted] at peeled
    exact peeled
  refused := by
    intro state frame rest fits refused
    have peeled := peelFrame_encode tooLarge accepts state frame fits rest
    rw [refused] at peeled
    exact peeled
  incomplete := by
    intro state frame part fits partly short
    rcases Nat.lt_or_ge part.length 5 with cut | header
    · exact .inl (peelFrame_short tooLarge accepts state part cut)
    · obtain ⟨n, length⟩ := Nat.exists_eq_add_of_le' header
      have arrived : part = frame.command ::
          (toBeBytes (UInt32.ofNat frame.payload.length) ++ frame.payload.take n) := by
        rw [List.prefix_iff_eq_take.mp partly, length, Frame.encode, frameOf_eq]
        rfl
      have open_ : (frame.payload.take n).length < frame.payload.length := by
        rw [Frame.encode, frameOf_length] at short
        rw [List.length_take]
        omega
      have peeled := peelFrame_header tooLarge accepts state frame fits (frame.payload.take n)
      rw [← arrived, if_pos open_] at peeled
      by_cases large : tooLarge frame.payload.length
      · rw [if_pos large] at peeled
        exact .inr ⟨if_pos large, peeled⟩
      · rw [if_neg large] at peeled
        exact .inl peeled
  silence := fun _ => rfl

end Peeling

theorem drop_header {buffer : Bytes} {offset : Nat} (header : offset + 5 ≤ buffer.length) :
    buffer.drop offset = buffer[offset] :: buffer[offset + 1] :: buffer[offset + 2] ::
      buffer[offset + 3] :: buffer[offset + 4] :: buffer.drop (offset + 5) := by
  rw [List.drop_eq_getElem_cons, List.drop_eq_getElem_cons, List.drop_eq_getElem_cons,
    List.drop_eq_getElem_cons, List.drop_eq_getElem_cons]

theorem drop_no_header {buffer : Bytes} {offset : Nat} (short : ¬ offset + 5 ≤ buffer.length) :
    (buffer.drop offset).length < 5 := by
  rw [List.length_drop]
  omega

theorem peelFrame_drop {σ : Type} (tooLarge : Nat → Bool) (accepts : σ → Frame → Option σ)
    (state : σ) {buffer : Bytes} {offset : Nat} (header : offset + 5 ≤ buffer.length) :
    peelFrame tooLarge accepts state (buffer.drop offset) =
      if tooLarge (lengthAt buffer offset header) then .refuse
      else if buffer.length < offset + 5 + lengthAt buffer offset header then .wait
      else
        match accepts state (frameAt buffer offset header) with
        | none => .refuse
        | some next => .frame (frameAt buffer offset header) next
            (buffer.drop (offset + 5 + lengthAt buffer offset header)) := by
  have room : (buffer.drop (offset + 5)).length < lengthAt buffer offset header ↔
      buffer.length < offset + 5 + lengthAt buffer offset header := by
    rw [List.length_drop]
    omega
  unfold frameAt lengthAt
  unfold lengthAt at room
  rw [drop_header header]
  simp only [peelFrame, room, List.drop_drop]

def readPeeler : Peeler UInt8 Frame Unit := framePeeler (fun _ => false) fun _ _ => some ()

def serverPeeler : Peeler UInt8 Frame Server :=
  framePeeler (fun length => maxPayloadSize < length) handleFrame

theorem readPeeler_peel (bytes : Bytes) :
    readPeeler.peel () bytes = peelFrame (fun _ => false) (fun _ _ => some ()) () bytes := rfl

theorem serverPeeler_peel (server : Server) (bytes : Bytes) :
    serverPeeler.peel server bytes =
      peelFrame (fun length => maxPayloadSize < length) handleFrame server bytes := rfl

theorem decodeFrom_drain (buffer : Bytes) (offset : Nat) :
    readPeeler.drain () (buffer.drop offset) =
      ((decodeFrom buffer offset).1, some ((), buffer.drop (decodeFrom buffer offset).2)) := by
  induction offset using decodeFrom.induct buffer with
  | case1 offset header length short =>
      have stops : decodeFrom buffer offset = ([], offset) := by
        rw [decodeFrom, dif_pos header]
        exact if_pos short
      rw [readPeeler.drain_wait, stops]
      rw [readPeeler_peel, peelFrame_drop _ _ _ header, if_neg Bool.false_ne_true]
      exact if_pos short
  | case2 offset header length whole frames stop _ ih =>
      have goesOn : decodeFrom buffer offset =
          (frameAt buffer offset header ::
            (decodeFrom buffer (offset + 5 + length)).1,
            (decodeFrom buffer (offset + 5 + length)).2) := by
        rw [decodeFrom, dif_pos header]
        exact if_neg whole
      have found : readPeeler.peel () (buffer.drop offset) =
          .frame (frameAt buffer offset header) ()
            (buffer.drop (offset + 5 + length)) := by
        rw [readPeeler_peel, peelFrame_drop _ _ _ header, if_neg Bool.false_ne_true]
        exact if_neg whole
      rw [readPeeler.drain_frame found, ih, goesOn]
  | case3 offset short =>
      rw [readPeeler.drain_wait, decodeFrom, dif_neg short]
      rw [readPeeler_peel]
      exact peelFrame_short _ _ () _ (drop_no_header short)

theorem handleFrom_drain (buffer : Bytes) (server : Server) (offset : Nat) :
    serverPeeler.drain server (buffer.drop offset) =
      ((handleFrom buffer server offset).1,
        (handleFrom buffer server offset).2.map fun (server, stop) =>
          (server, buffer.drop stop)) := by
  induction server, offset using handleFrom.induct buffer with
  | case1 server offset header length large =>
      have stops : handleFrom buffer server offset = ([], none) := by
        rw [handleFrom, dif_pos header]
        exact if_pos large
      rw [serverPeeler.drain_refuse, stops]
      · rfl
      · rw [serverPeeler_peel, peelFrame_drop _ _ _ header]
        exact if_pos (decide_eq_true large)
  | case2 server offset header length small short =>
      have stops : handleFrom buffer server offset = ([], some (server, offset)) := by
        rw [handleFrom, dif_pos header]
        exact (if_neg small).trans (if_pos short)
      rw [serverPeeler.drain_wait, stops]
      · rfl
      · rw [serverPeeler_peel, peelFrame_drop _ _ _ header]
        exact (if_neg (by simpa using small)).trans (if_pos short)
  | case3 server offset header length small whole frame unwelcome =>
      have stops : handleFrom buffer server offset = ([], none) := by
        rw [handleFrom, dif_pos header]
        refine (if_neg small).trans ((if_neg whole).trans ?_)
        change (match handleFrame server frame with | none => _ | some _ => _) = _
        rw [unwelcome]
      rw [serverPeeler.drain_refuse, stops]
      · rfl
      · rw [serverPeeler_peel, peelFrame_drop _ _ _ header]
        refine (if_neg (by simpa using small)).trans ((if_neg whole).trans ?_)
        rw [show handleFrame server (frameAt buffer offset header) = none from unwelcome]
  | case4 server offset header length small whole frame next welcome frames stop _ ih =>
      have goesOn : handleFrom buffer server offset =
          (frame :: (handleFrom buffer next (offset + 5 + length)).1,
            (handleFrom buffer next (offset + 5 + length)).2) := by
        rw [handleFrom, dif_pos header]
        refine (if_neg small).trans ((if_neg whole).trans ?_)
        change (match handleFrame server frame with | none => _ | some _ => _) = _
        rw [welcome]
      have found : serverPeeler.peel server (buffer.drop offset) =
          .frame frame next (buffer.drop (offset + 5 + length)) := by
        rw [serverPeeler_peel, peelFrame_drop _ _ _ header]
        refine (if_neg (by simpa using small)).trans ((if_neg whole).trans ?_)
        rw [show handleFrame server (frameAt buffer offset header) = some next from welcome]
      rw [serverPeeler.drain_frame found, ih, goesOn]
  | case5 server offset short =>
      have stops : handleFrom buffer server offset = ([], some (server, offset)) := by
        rw [handleFrom, dif_neg short]
      rw [serverPeeler.drain_wait, stops]
      · rfl
      · rw [serverPeeler_peel]
        exact peelFrame_short _ _ server _ (drop_no_header short)

def Reading.outcome (reading : Reading) : List Frame × Option (Unit × Bytes) :=
  (reading.frames, some ((), reading.buffer))

theorem readChunk_outcome (reading : Reading) (chunk : Bytes) :
    readPeeler.feed reading.outcome chunk = (readChunk reading chunk).outcome := by
  have drained := decodeFrom_drain (reading.buffer ++ chunk) 0
  rw [List.drop_zero] at drained
  rw [Reading.outcome, Peeler.feed, drained]
  rfl

theorem readChunks_drain (chunks : List Bytes) :
    (chunks.foldl readChunk .start).outcome = readPeeler.drain () chunks.flatten := by
  have silence : readPeeler.drain () [] = Reading.start.outcome := readPeeler.drain_wait rfl
  calc
    (chunks.foldl readChunk .start).outcome = chunks.foldl readPeeler.feed Reading.start.outcome :=
      (List.foldl_hom Reading.outcome readChunk_outcome).symm
    _ = chunks.foldl readPeeler.feed (readPeeler.drain () []) := by rw [silence]
    _ = readPeeler.drain () chunks.flatten := readPeeler.feed_chunks () [] chunks

theorem handleChunk_feed (held : List Frame × Option (Server × Bytes)) (chunk : Bytes) :
    handleChunk held chunk = serverPeeler.feed held chunk := by
  rcases held with ⟨handled, _ | ⟨server, buffer⟩⟩
  · rfl
  · have drained := handleFrom_drain (buffer ++ chunk) server 0
    rw [List.drop_zero] at drained
    rw [Peeler.feed, drained]
    rfl

def Server.connected : List Frame × Option (Server × Bytes) := ([], some (.start, []))

theorem handleChunks_drain (chunks : List Bytes) :
    chunks.foldl handleChunk Server.connected = serverPeeler.drain .start chunks.flatten := by
  have silence : serverPeeler.drain .start [] = Server.connected := serverPeeler.drain_wait rfl
  calc
    chunks.foldl handleChunk Server.connected =
        chunks.foldl serverPeeler.feed Server.connected := by
      rw [funext₂ handleChunk_feed]
    _ = chunks.foldl serverPeeler.feed (serverPeeler.drain .start []) := by rw [silence]
    _ = serverPeeler.drain .start chunks.flatten := serverPeeler.feed_chunks .start [] chunks

def serverAdmits : Server → Frame → Option Server :=
  admitSized (fun length => maxPayloadSize < length) handleFrame

theorem serverPeeler_decodes : Decodes serverPeeler Frame.encode serverAdmits Frame.Fits :=
  framePeeler_decodes _ _

def encodeAll (frames : List Frame) : Bytes := (frames.map Frame.encode).flatten

/-- Exactly the frames that are complete in what has arrived, and the remainder. -/
structure Yields (frames : List Frame) (arrived : Bytes) (reading : Reading) : Prop where
  in_order : ∃ todo, frames = reading.frames ++ todo ∧
    ∀ next ∈ todo.head?, reading.buffer <+: next.encode ∧
      reading.buffer.length < next.encode.length
  remainder : arrived = encodeAll reading.frames ++ reading.buffer
  all : arrived = encodeAll frames → reading.frames = frames ∧ reading.buffer = []

theorem readChunks_received (frames : List Frame) (fits : ∀ frame ∈ frames, frame.Fits)
    (chunks : List Bytes) (cut : chunks.flatten <+: encodeAll frames) :
    ∃ todo, frames = (chunks.foldl readChunk .start).frames ++ todo ∧
      chunks.flatten = encodeAll (chunks.foldl readChunk .start).frames ++
        (chunks.foldl readChunk .start).buffer ∧
      ∀ next ∈ todo.head?, (chunks.foldl readChunk .start).buffer <+: next.encode ∧
        (chunks.foldl readChunk .start).buffer.length < next.encode.length := by
  have received : Received Frame.encode (admitSized (fun _ => false) fun _ _ => some ()) () frames
      chunks.flatten (readPeeler.drain () chunks.flatten) :=
    (framePeeler_decodes _ _).drain () frames fits chunks.flatten cut
  rw [← readChunks_drain] at received
  cases received with
  | listening _ todo _ _ split _ account unfinished _ => exact ⟨todo, split, account, unfinished⟩

theorem readChunks_yield (frames : List Frame) (fits : ∀ frame ∈ frames, frame.Fits)
    (chunks : List Bytes) (cut : chunks.flatten <+: encodeAll frames) :
    Yields frames chunks.flatten (chunks.foldl readChunk .start) := by
  obtain ⟨todo, split, account, unfinished⟩ := readChunks_received frames fits chunks cut
  refine ⟨⟨todo, split, unfinished⟩, account, fun complete => ?_⟩
  have ends : encodeAll (chunks.foldl readChunk .start).frames ++
      (chunks.foldl readChunk .start).buffer = encodeAll frames ++ [] := by
    rw [← account, List.append_nil, complete]
  have nothing : ∀ next ∈ ([] : List Frame).head?, ([] : Bytes).length < next.encode.length := nofun
  refine complete_unique ?_ ends (fun next first => (unfinished next first).2) nothing
  rw [List.append_nil, ← split]

theorem handleChunks_agree (frames : List Frame) (fits : ∀ frame ∈ frames, frame.Fits)
    (chunks : List Bytes) (cut : chunks.flatten <+: encodeAll frames)
    (welcome : admitAll serverAdmits .start frames ≠ none) :
    ∃ server, chunks.foldl handleChunk Server.connected =
      ((chunks.foldl readChunk .start).frames,
        some (server, (chunks.foldl readChunk .start).buffer)) := by
  have received : Received Frame.encode serverAdmits Server.start frames chunks.flatten
      (serverPeeler.drain .start chunks.flatten) :=
    serverPeeler_decodes.drain Server.start frames fits chunks.flatten cut
  rw [← handleChunks_drain] at received
  obtain ⟨todo', split', account', unfinished'⟩ := readChunks_received frames fits chunks cut
  generalize chunks.foldl handleChunk Server.connected = held at received ⊢
  cases received with
  | listening done todo server buffer split _ account unfinished _ =>
      have same := complete_unique (split.symm.trans split') (account.symm.trans account')
        (fun next first => (unfinished next first).2)
        (fun next first => (unfinished' next first).2)
      exact ⟨server, by rw [same.1, same.2]⟩
  | closed done next todo now split welcomed unwelcome =>
      rw [split] at welcome
      exact absurd (admitAll_refused welcomed unwelcome) welcome

def Arrival.ofChunk : Bytes → Arrival
  | [] => .quiet
  | byte :: rest => .data (byte :: rest)

theorem readFrames_stops (wanted : Nat) (chunks : List Bytes) (reading : Reading) :
    ∃ arrived, arrived <+: chunks ∧
      readFrames wanted (chunks.map .ofChunk) reading =
        .ok (arrived.foldl readChunk reading).frames ∧
      (arrived = chunks ∨ wanted ≤ (arrived.foldl readChunk reading).frames.length) := by
  induction chunks generalizing reading with
  | nil => exact ⟨[], List.prefix_refl _, rfl, .inl rfl⟩
  | cons chunk chunks ih =>
      by_cases enough : wanted ≤ reading.frames.length
      · exact ⟨[], List.nil_prefix, if_pos enough, .inr enough⟩
      · obtain ⟨arrived, initial, result, reason⟩ := ih (readChunk reading chunk)
        refine ⟨chunk :: arrived, List.cons_prefix_cons.mpr ⟨rfl, initial⟩, ?_, ?_⟩
        · cases chunk with
          | nil => exact (if_neg enough).trans result
          | cons byte rest => exact (if_neg enough).trans result
        · exact reason.imp (congrArg (chunk :: ·)) id

/-- However a first part of the encodings of a list of frames is cut into chunks, the
decoder has after each chunk the frames complete in it and keeps the remainder; and
so has the server if it admits the list. -/
theorem decoding_undoes_encoding (frames : List Frame) (fits : ∀ frame ∈ frames, frame.Fits)
    (chunks : List Bytes) (cut : chunks.flatten <+: encodeAll frames) :
    (∀ arrived, arrived <+: chunks →
      Yields frames arrived.flatten (arrived.foldl readChunk .start) ∧
      (admitAll serverAdmits .start frames ≠ none → ∃ server,
        arrived.foldl handleChunk Server.connected =
          ((arrived.foldl readChunk .start).frames,
            some (server, (arrived.foldl readChunk .start).buffer)))) ∧
    ∀ wanted, ∃ arrived, arrived <+: chunks ∧
      readFrames wanted (chunks.map .ofChunk) .start =
        .ok (arrived.foldl readChunk .start).frames ∧
      (arrived = chunks ∨ wanted ≤ (arrived.foldl readChunk .start).frames.length) := by
  refine ⟨fun arrived initial => ?_, fun wanted => readFrames_stops wanted chunks .start⟩
  have part : arrived.flatten <+: encodeAll frames := by
    obtain ⟨later, rfl⟩ := initial
    rw [List.flatten_append] at cut
    exact (List.prefix_append _ _).trans cut
  exact ⟨readChunks_yield frames fits arrived part, handleChunks_agree frames fits arrived part⟩

def threeFrames : List Frame := [⟨99, bannerPrefix ++ [97]⟩, ⟨0, []⟩, ⟨7, [1, 2, 3]⟩]

def threeFramesCut : List Bytes :=
  [(encodeAll threeFrames).take 3, [], ((encodeAll threeFrames).drop 3).take 10,
    (encodeAll threeFrames).drop 13]

theorem decoding_undoes_encoding_threeFrames :
    (∀ arrived, arrived <+: threeFramesCut →
      Yields threeFrames arrived.flatten (arrived.foldl readChunk .start) ∧
      (admitAll serverAdmits .start threeFrames ≠ none → ∃ server,
        arrived.foldl handleChunk Server.connected =
          ((arrived.foldl readChunk .start).frames,
            some (server, (arrived.foldl readChunk .start).buffer)))) ∧
    ∀ wanted, ∃ arrived, arrived <+: threeFramesCut ∧
      readFrames wanted (threeFramesCut.map .ofChunk) .start =
        .ok (arrived.foldl readChunk .start).frames ∧
      (arrived = threeFramesCut ∨ wanted ≤ (arrived.foldl readChunk .start).frames.length) :=
  decoding_undoes_encoding threeFrames (by simp [threeFrames, Frame.Fits, bannerPrefix])
    threeFramesCut ⟨[], rfl⟩

end Ecapplog
