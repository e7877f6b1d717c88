import Ecapplog.Decoder

/-! The two receivers on streams that no client of this library need have sent. -/

namespace Ecapplog

open Framing

theorem toBeBytes_fromBeBytes (a b c d : UInt8) :
    toBeBytes (fromBeBytes a b c d) = [a, b, c, d] := by
  have top := a.toNat_lt
  have high := b.toNat_lt
  have low := c.toNat_lt
  have bottom := d.toNat_lt
  have value : (fromBeBytes a b c d).toNat =
      ((a.toNat * 2 ^ 8 + b.toNat) * 2 ^ 8 + c.toNat) * 2 ^ 8 + d.toNat := by
    rw [fromBeBytes, UInt32.toNat_ofNat']
    omega
  have byte (n : Nat) (x : UInt8) (same : n % 2 ^ 8 = x.toNat) : UInt8.ofNat n = x := by
    apply UInt8.toNat_inj.mp
    rw [UInt8.toNat_ofNat', same]
  rw [toBeBytes, value, byte _ a (by omega), byte _ b (by omega), byte _ c (by omega),
    byte _ d (by omega)]

def Unfinished : Bytes → Prop
  | _ :: a :: b :: c :: d :: rest => rest.length < (fromBeBytes a b c d).toNat
  | _ => True

section Peeling

variable {σ : Type} (tooLarge : Nat → Bool) (accepts : σ → Frame → Option σ)

theorem framePeeler_sound :
    Sound (framePeeler tooLarge accepts) Frame.encode (admitSized tooLarge accepts)
      Frame.Fits := by
  constructor
  intro state bytes frame next rest found
  obtain ⟨command, a, b, c, d, tail, rfl, small, whole, rfl, admitted, rfl⟩ :=
    peelFrame_frame tooLarge accepts found
  have declared : (tail.take (fromBeBytes a b c d).toNat).length = (fromBeBytes a b c d).toNat := by
    rw [List.length_take]
    exact Nat.min_eq_left whole
  refine ⟨?_, ?_, ?_⟩
  · simp only [Frame.encode, frameOf_eq, declared, UInt32.ofNat_toNat, toBeBytes_fromBeBytes,
      List.cons_append, List.nil_append, List.take_append_drop]
  · rw [Frame.Fits, declared]
    exact UInt32.toNat_lt _
  · rw [admitSized, declared, if_neg small]
    exact admitted

theorem peelFrame_wait {state : σ} {bytes : Bytes}
    (found : peelFrame tooLarge accepts state bytes = .wait) :
    Unfinished bytes ∧ ∀ limit, (∀ n, ¬ tooLarge n → n ≤ limit) → bytes.length < 5 + limit := by
  unfold peelFrame at found
  split at found
  · rename_i command a b c d rest
    simp only at found
    split at found
    · cases found
    · rename_i small
      split at found
      · rename_i short
        refine ⟨short, fun limit below => ?_⟩
        have declared := below _ small
        simp only [List.length_cons]
        omega
      · split at found <;> cases found
  · rename_i bare
    refine ⟨?_, fun limit _ => ?_⟩
    · unfold Unfinished
      split
      · rename_i command a b c d rest
        exact absurd rfl (bare command a b c d rest)
      · trivial
    · rcases Nat.lt_or_ge bytes.length 5 with short | long
      · omega
      · exfalso
        rcases bytes with _ | ⟨command, _ | ⟨a, _ | ⟨b, _ | ⟨c, _ | ⟨d, rest⟩⟩⟩⟩⟩
        case cons.cons.cons.cons.cons => exact bare command a b c d rest rfl
        all_goals simp at long

theorem peelFrame_unfinished {state : σ} {bytes : Bytes} (open_ : Unfinished bytes)
    (admits : ∀ n, tooLarge n = false) : peelFrame tooLarge accepts state bytes = .wait := by
  unfold peelFrame
  split
  · rename_i command a b c d rest
    simp only [admits, Bool.false_eq_true, if_false]
    exact if_pos open_
  · rfl

end Peeling

theorem readPeeler_sound :
    Sound readPeeler Frame.encode (admitSized (fun _ => false) fun _ _ => some ()) Frame.Fits :=
  framePeeler_sound _ _

theorem readPeeler_waits (bytes : Bytes) : readPeeler.peel () bytes = .wait ↔ Unfinished bytes := by
  rw [readPeeler_peel]
  constructor
  · intro waits
    exact (peelFrame_wait _ _ waits).1
  · intro short
    exact peelFrame_unfinished _ _ short fun _ => rfl

theorem readPeeler_welcome (frames : List Frame) :
    admitAll (admitSized (fun _ => false) fun _ _ => some ()) () frames = some () := by
  induction frames with
  | nil => rfl
  | cons frame frames ih => exact ih

/-- The wire tests' decoder takes any stream, however it is cut into chunks, apart in the
only way there is: frames, and then less than a frame. -/
theorem any_stream_parsed (chunks : List Bytes) (reading : Reading) :
    chunks.foldl readChunk .start = reading ↔
      chunks.flatten = encodeAll reading.frames ++ reading.buffer ∧
        (∀ frame ∈ reading.frames, frame.Fits) ∧ Unfinished reading.buffer := by
  have drained := readChunks_drain chunks
  constructor
  · rintro rfl
    obtain ⟨now, left, parsed⟩ := readPeeler_sound.drain () chunks.flatten
    rw [← drained] at parsed
    rcases parsed.ends with ⟨same, waits⟩ | ⟨closed, _⟩
    · cases same
      exact ⟨parsed.account, parsed.fits, (readPeeler_waits _).mp waits⟩
    · cases closed
  · rintro ⟨account, fits, short⟩
    have codec : Decodes readPeeler Frame.encode
        (admitSized (fun _ => false) fun _ _ => some ()) Frame.Fits := framePeeler_decodes _ _
    have waits := (readPeeler_waits reading.buffer).mpr short
    have outcome : (chunks.foldl readChunk .start).outcome = reading.outcome := by
      calc
        (chunks.foldl readChunk .start).outcome =
            readPeeler.drain () (encodeAll reading.frames ++ reading.buffer) := by
          rw [drained, account]
        _ = (reading.frames ++ (readPeeler.drain () reading.buffer).1,
              (readPeeler.drain () reading.buffer).2) :=
          codec.drain_append fits (readPeeler_welcome reading.frames) reading.buffer
        _ = reading.outcome := by
          rw [readPeeler.drain_wait waits, List.append_nil]
          rfl
    rcases read : chunks.foldl readChunk .start with ⟨frames, buffer⟩
    rw [read] at outcome
    cases reading
    cases outcome
    rfl

def Frame.isBanner (frame : Frame) : Bool := frame.command == cmdBanner

def Frame.isLog (frame : Frame) : Bool := frame.command == cmdLog

def Frame.Unwelcome (seenBanner : Bool) (frame : Frame) : Prop :=
  frame.isBanner = true ∧ (seenBanner = true ∨ ¬ bannerPrefix <+: frame.payload)

/-- The front of a stream at which the server closes the connection: a header that declares
too much, or a complete banner that is a second one or has no prefix. -/
def Offends (seenBanner : Bool) : Bytes → Prop
  | command :: a :: b :: c :: d :: rest =>
      maxPayloadSize < (fromBeBytes a b c d).toNat ∨
        (fromBeBytes a b c d).toNat ≤ rest.length ∧
          Frame.Unwelcome seenBanner ⟨command, rest.take (fromBeBytes a b c d).toNat⟩
  | _ => False

theorem handleFrame_none {server : Server} {frame : Frame} :
    handleFrame server frame = none ↔ frame.Unwelcome server.seenBanner := by
  unfold handleFrame Frame.Unwelcome Frame.isBanner
  by_cases banner : frame.command = cmdBanner
  · by_cases seen : server.seenBanner = true
    · simp [banner, seen]
    · by_cases named : bannerPrefix <+: frame.payload
      · simp [banner, seen, named]
      · simp [banner, seen, named]
  · by_cases log : frame.command = cmdLog
    · simp [log, show cmdLog ≠ cmdBanner by decide]
    · simp [banner, log]

theorem handleFrame_some {server next : Server} {frame : Frame}
    (welcomed : handleFrame server frame = some next) :
    next.seenBanner = (server.seenBanner || frame.isBanner) ∧
      next.count = server.count + (if frame.isLog then 1 else 0) ∧
      (frame.isBanner = true → server.seenBanner = false ∧ bannerPrefix <+: frame.payload) := by
  unfold handleFrame at welcomed
  unfold Frame.isBanner Frame.isLog
  split at welcomed
  · rename_i banner
    split at welcomed
    · cases welcomed
    · rename_i unseen
      split at welcomed
      · rename_i named
        cases welcomed
        simp [banner, unseen, named, show cmdBanner ≠ cmdLog by decide]
      · cases welcomed
  · rename_i other
    split at welcomed
    · rename_i log
      cases welcomed
      simp [log, show cmdLog ≠ cmdBanner by decide]
    · rename_i unknown
      cases welcomed
      simp [other, unknown]

structure Server.After (server now : Server) (handled : List Frame) : Prop where
  seenBanner : now.seenBanner = (server.seenBanner || handled.any Frame.isBanner)
  count : now.count = server.count + handled.countP Frame.isLog
  one_banner : server.seenBanner.toNat + handled.countP Frame.isBanner ≤ 1
  named : ∀ frame ∈ handled, frame.isBanner = true → bannerPrefix <+: frame.payload
  sized : ∀ frame ∈ handled, frame.payload.length ≤ maxPayloadSize

theorem admitAll_after {server now : Server} {handled : List Frame}
    (welcome : admitAll serverAdmits server handled = some now) : server.After now handled := by
  induction handled generalizing server with
  | nil =>
      cases welcome
      refine ⟨by simp, rfl, ?_, nofun, nofun⟩
      exact Bool.toNat_le now.seenBanner
  | cons frame handled ih =>
      obtain ⟨next, first, later⟩ := Option.bind_eq_some_iff.mp welcome
      have rest := ih later
      rw [serverAdmits, admitSized] at first
      split at first
      · cases first
      · rename_i small
        obtain ⟨seen, counted, banner⟩ := handleFrame_some first
        constructor
        · rw [rest.seenBanner, seen, List.any_cons, Bool.or_assoc]
        · rw [rest.count, counted, List.countP_cons]
          omega
        · have one := rest.one_banner
          rw [seen] at one
          rw [List.countP_cons]
          cases this : frame.isBanner with
          | true =>
              rw [(banner this).1, this] at one
              rw [(banner this).1]
              simpa [Nat.add_comm] using one
          | false =>
              rw [this, Bool.or_false] at one
              simpa using one
        · exact List.forall_mem_cons.mpr ⟨fun this => (banner this).2, rest.named⟩
        · exact List.forall_mem_cons.mpr ⟨by simpa using small, rest.sized⟩

theorem serverPeeler_sound : Sound serverPeeler Frame.encode serverAdmits Frame.Fits :=
  framePeeler_sound _ _

theorem serverPeeler_refuse {server : Server} {bytes : Bytes}
    (refused : serverPeeler.peel server bytes = .refuse) : Offends server.seenBanner bytes := by
  rw [serverPeeler_peel] at refused
  obtain ⟨command, a, b, c, d, tail, rfl, large | ⟨whole, unwelcome⟩⟩ :=
    peelFrame_refuse _ _ refused
  · exact .inl (of_decide_eq_true large)
  · exact .inr ⟨whole, handleFrame_none.mp unwelcome⟩

theorem serverPeeler_wait {server : Server} {bytes : Bytes}
    (waits : serverPeeler.peel server bytes = .wait) :
    Unfinished bytes ∧ bytes.length < 5 + maxPayloadSize := by
  rw [serverPeeler_peel] at waits
  obtain ⟨short, bound⟩ := peelFrame_wait _ _ waits
  exact ⟨short, bound maxPayloadSize fun n small => by simpa using small⟩

structure Served (stream : Bytes) (handled : List Frame) (outcome : Option (Server × Bytes))
    (server : Server) (left : Bytes) : Prop where
  account : stream = encodeAll handled ++ left
  after : Server.start.After server handled
  ends : (outcome = some (server, left) ∧ Unfinished left ∧ left.length < 5 + maxPayloadSize) ∨
    (outcome = none ∧ Offends server.seenBanner left)

/-- Whatever a peer sends, and however it arrives: the server has handled frames that make
up the stream, one banner with its prefix at most among them and none over the limit; it
keeps less than one frame of the limit, and closes the connection only over an offence. -/
theorem any_stream_served (chunks : List Bytes) :
    ∃ server left,
      Served chunks.flatten (chunks.foldl handleChunk Server.connected).1
        (chunks.foldl handleChunk Server.connected).2 server left := by
  obtain ⟨server, left, parsed⟩ := serverPeeler_sound.drain Server.start chunks.flatten
  rw [← handleChunks_drain] at parsed
  refine ⟨server, left, parsed.account, admitAll_after parsed.welcome, ?_⟩
  rcases parsed.ends with ⟨connected, waits⟩ | ⟨closed, refuses⟩
  · exact .inl ⟨connected, serverPeeler_wait waits⟩
  · exact .inr ⟨closed, serverPeeler_refuse refuses⟩

end Ecapplog
