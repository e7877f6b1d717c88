import Mathlib.Data.List.Basic

/-! Streams of self-delimiting frames: what a sender that may break off inside a
frame has put on the wire, and incremental decoding of a stream in whatever
chunks it arrives. -/

namespace Framing

variable {α φ σ : Type*}

/-- Every frame in full, except possibly the tail of the last one. -/
structure Cut (frames : List (List α)) (sent : List α) : Prop where
  begun : frames.dropLast.flatten <+: sent
  within : sent <+: frames.flatten

theorem Cut.whole (frames : List (List α)) : Cut frames frames.flatten where
  begun := by
    rcases List.eq_nil_or_concat frames with rfl | ⟨front, last, rfl⟩
    · exact List.prefix_refl _
    · simp
  within := List.prefix_refl _

theorem Cut.broken (frames : List (List α)) {frame part : List α} (partly : part <+: frame) :
    Cut (frames ++ [frame]) (frames.flatten ++ part) where
  begun := by simp
  within := by
    obtain ⟨rest, rfl⟩ := partly
    exact ⟨rest, by simp⟩

inductive Peeled (α φ σ : Type*) where
  | wait
  | refuse
  | frame (frame : φ) (state : σ) (rest : List α)

/-- How to take one frame off a buffer. The receiver's state may make it refuse;
bytes that arrive later never change a decision. -/
structure Peeler (α φ σ : Type*) where
  peel : σ → List α → Peeled α φ σ
  progress : ∀ {state bytes frame next rest}, peel state bytes = .frame frame next rest →
    rest.length < bytes.length
  stable : ∀ {state bytes frame next rest} (more : List α),
    peel state bytes = .frame frame next rest →
      peel state (bytes ++ more) = .frame frame next (rest ++ more)
  final : ∀ {state bytes} (more : List α), peel state bytes = .refuse →
    peel state (bytes ++ more) = .refuse

namespace Peeler

/-- Take off whatever is complete. What is left is the state with the retained
bytes, or nothing once a frame was refused. -/
def drain (p : Peeler α φ σ) (state : σ) (bytes : List α) : List φ × Option (σ × List α) :=
  match _found : p.peel state bytes with
  | .wait => ([], some (state, bytes))
  | .refuse => ([], none)
  | .frame frame next rest =>
      let (frames, left) := p.drain next rest
      (frame :: frames, left)
termination_by bytes.length
decreasing_by exact p.progress _found

def feed (p : Peeler α φ σ) :
    List φ × Option (σ × List α) → List α → List φ × Option (σ × List α)
  | (frames, none), _ => (frames, none)
  | (frames, some (state, buffer)), chunk =>
      let (more, left) := p.drain state (buffer ++ chunk)
      (frames ++ more, left)

variable (p : Peeler α φ σ)

theorem drain_wait {state : σ} {bytes : List α} (found : p.peel state bytes = .wait) :
    p.drain state bytes = ([], some (state, bytes)) := by
  rw [drain]
  split
  · rfl
  · rename_i refused
    rw [found] at refused
    cases refused
  · rename_i another
    rw [found] at another
    cases another

theorem drain_refuse {state : σ} {bytes : List α} (found : p.peel state bytes = .refuse) :
    p.drain state bytes = ([], none) := by
  rw [drain]
  split
  · rename_i waits
    rw [found] at waits
    cases waits
  · rfl
  · rename_i another
    rw [found] at another
    cases another

theorem drain_frame {state next : σ} {bytes rest : List α} {frame : φ}
    (found : p.peel state bytes = .frame frame next rest) :
    p.drain state bytes = (frame :: (p.drain next rest).1, (p.drain next rest).2) := by
  rw [drain]
  split
  · rename_i waits
    rw [found] at waits
    cases waits
  · rename_i refused
    rw [found] at refused
    cases refused
  · rename_i another
    rw [found] at another
    cases another
    rfl

theorem feed_drain (state : σ) (bytes chunk : List α) :
    p.feed (p.drain state bytes) chunk = p.drain state (bytes ++ chunk) := by
  induction state, bytes using Peeler.drain.induct p with
  | case1 state bytes found =>
      rw [p.drain_wait found, feed]
      rfl
  | case2 state bytes found =>
      rw [p.drain_refuse found, p.drain_refuse (p.final chunk found), feed]
  | case3 state bytes frame next rest found frames left _ ih =>
      rw [p.drain_frame found, p.drain_frame (p.stable chunk found), ← ih]
      rcases p.drain next rest with ⟨frames, _ | left⟩
      · rfl
      · rfl

/-- However a stream is cut into chunks, the outcome is that of the whole. -/
theorem feed_chunks (state : σ) (bytes : List α) (chunks : List (List α)) :
    chunks.foldl p.feed (p.drain state bytes) = p.drain state (bytes ++ chunks.flatten) := by
  induction chunks generalizing bytes with
  | nil => simp
  | cons chunk chunks ih =>
      rw [List.foldl_cons, feed_drain, ih, List.flatten_cons, List.append_assoc]

end Peeler

/-- What makes a peeler the inverse of an encoding: it takes off a frame that it
admits, refuses one that it does not, and refuses early only such a one. -/
structure Decodes (p : Peeler α φ σ) (encode : φ → List α) (accepts : σ → φ → Option σ)
    (Fits : φ → Prop) : Prop where
  admitted : ∀ {state frame next} (rest : List α), Fits frame → accepts state frame = some next →
    p.peel state (encode frame ++ rest) = .frame frame next rest
  refused : ∀ {state frame} (rest : List α), Fits frame → accepts state frame = none →
    p.peel state (encode frame ++ rest) = .refuse
  incomplete : ∀ state {frame part}, Fits frame → part <+: encode frame →
    part.length < (encode frame).length →
      p.peel state part = .wait ∨ (accepts state frame = none ∧ p.peel state part = .refuse)
  silence : ∀ state, p.peel state [] = .wait

def admitAll (accepts : σ → φ → Option σ) : σ → List φ → Option σ
  | state, [] => some state
  | state, frame :: frames => (accepts state frame).bind fun next => admitAll accepts next frames

inductive Received (encode : φ → List α) (accepts : σ → φ → Option σ) (state : σ) (frames : List φ)
    (bytes : List α) : List φ × Option (σ × List α) → Prop where
  | listening (done todo : List φ) (now : σ) (buffer : List α) (split : frames = done ++ todo)
      (welcome : admitAll accepts state done = some now)
      (account : bytes = (done.map encode).flatten ++ buffer)
      (unfinished : ∀ next ∈ todo.head?, buffer <+: encode next ∧
        buffer.length < (encode next).length)
      (finished : todo = [] → buffer = []) :
      Received encode accepts state frames bytes (done, some (now, buffer))
  | closed (done : List φ) (next : φ) (todo : List φ) (now : σ)
      (split : frames = done ++ next :: todo) (welcome : admitAll accepts state done = some now)
      (unwelcome : accepts now next = none) :
      Received encode accepts state frames bytes (done, none)

theorem Received.cons {encode : φ → List α} {accepts : σ → φ → Option σ} {state next : σ}
    {frame : φ} {frames : List φ} {rest : List α} {outcome : List φ × Option (σ × List α)}
    (welcomed : accepts state frame = some next)
    (tail : Received encode accepts next frames rest outcome) :
    Received encode accepts state (frame :: frames) (encode frame ++ rest)
      (frame :: outcome.1, outcome.2) := by
  have rule : ∀ done, admitAll accepts state (frame :: done) = admitAll accepts next done :=
    fun done => by rw [admitAll, welcomed, Option.bind_some]
  cases tail with
  | listening done todo now buffer split welcome account unfinished finished =>
      refine .listening (frame :: done) todo now buffer (by rw [split]; rfl)
        ((rule done).trans welcome) ?_ unfinished finished
      rw [account, List.map_cons, List.flatten_cons, List.append_assoc]
  | closed done last todo now split welcome unwelcome =>
      exact .closed (frame :: done) last todo now (by rw [split]; rfl)
        ((rule done).trans welcome) unwelcome

variable {p : Peeler α φ σ} {encode : φ → List α} {accepts : σ → φ → Option σ} {Fits : φ → Prop}

/-- Whatever first part of the encodings has arrived, decoding yields the frames
that are complete in it, up to the first that is refused. -/
theorem Decodes.drain (codec : Decodes p encode accepts Fits) (state : σ) (frames : List φ)
    (fits : ∀ frame ∈ frames, Fits frame) (bytes : List α)
    (arrived : bytes <+: (frames.map encode).flatten) :
    Received encode accepts state frames bytes (p.drain state bytes) := by
  induction frames generalizing state bytes with
  | nil =>
      have nothing : bytes = [] := List.prefix_nil.mp arrived
      subst nothing
      rw [p.drain_wait (codec.silence state)]
      exact .listening [] [] state [] rfl rfl rfl nofun (fun _ => rfl)
  | cons frame frames ih =>
      have fitsFrame := fits frame List.mem_cons_self
      have fitsRest : ∀ later ∈ frames, Fits later :=
        fun later member => fits later (List.mem_cons_of_mem frame member)
      rw [List.map_cons, List.flatten_cons] at arrived
      rcases Nat.lt_or_ge bytes.length (encode frame).length with short | long
      · have part : bytes <+: encode frame :=
          List.prefix_of_prefix_length_le arrived (List.prefix_append _ _) (Nat.le_of_lt short)
        rcases codec.incomplete state fitsFrame part short with
          waits | ⟨unwelcome, refused⟩
        · rw [p.drain_wait waits]
          refine .listening [] (frame :: frames) state bytes rfl rfl rfl ?_ nofun
          intro next first
          cases first
          exact ⟨part, short⟩
        · rw [p.drain_refuse refused]
          exact .closed [] frame frames state rfl rfl unwelcome
      · obtain ⟨rest, rfl⟩ : encode frame <+: bytes :=
          List.prefix_of_prefix_length_le (List.prefix_append _ _) arrived long
        have later : rest <+: (frames.map encode).flatten :=
          (List.prefix_append_right_inj _).mp arrived
        cases welcomed : accepts state frame with
        | none =>
            rw [p.drain_refuse (codec.refused rest fitsFrame welcomed)]
            exact .closed [] frame frames state rfl rfl welcomed
        | some next =>
            rw [p.drain_frame (codec.admitted rest fitsFrame welcomed)]
            exact .cons welcomed (ih next fitsRest rest later)

theorem complete_prefix {encode : φ → List α} {done more todo : List φ} {buffer buffer' : List α}
    (account : (done.map encode).flatten ++ buffer =
      ((done ++ more).map encode).flatten ++ buffer')
    (unfinished : ∀ next ∈ (more ++ todo).head?, buffer.length < (encode next).length) :
    more = [] ∧ buffer = buffer' := by
  rw [List.map_append, List.flatten_append, List.append_assoc] at account
  have rest := List.append_cancel_left account
  cases more with
  | nil => exact ⟨rfl, rest⟩
  | cons next more =>
      have short := unfinished next rfl
      rw [rest, List.map_cons, List.flatten_cons, List.append_assoc, List.length_append] at short
      omega

theorem complete_unique {encode : φ → List α} {done done' todo todo' : List φ}
    {buffer buffer' : List α} (split : done ++ todo = done' ++ todo')
    (account : (done.map encode).flatten ++ buffer = (done'.map encode).flatten ++ buffer')
    (unfinished : ∀ next ∈ todo.head?, buffer.length < (encode next).length)
    (unfinished' : ∀ next ∈ todo'.head?, buffer'.length < (encode next).length) :
    done = done' ∧ buffer = buffer' := by
  rcases List.append_eq_append_iff.mp split with ⟨more, rfl, rfl⟩ | ⟨more, rfl, rfl⟩
  · obtain ⟨rfl, same⟩ := complete_prefix account unfinished
    exact ⟨(List.append_nil done).symm, same⟩
  · obtain ⟨rfl, same⟩ := complete_prefix account.symm unfinished'
    exact ⟨List.append_nil done', same.symm⟩

theorem complete_grows {encode : φ → List α} {done done' todo todo' : List φ}
    {buffer buffer' : List α} (split : done ++ todo = done' ++ todo')
    (grown : (done.map encode).flatten ++ buffer <+: (done'.map encode).flatten ++ buffer')
    (unfinished' : ∀ next ∈ todo'.head?, buffer'.length < (encode next).length) :
    done <+: done' := by
  rcases List.append_eq_append_iff.mp split with ⟨more, rfl, _⟩ | ⟨more, rfl, rfl⟩
  · exact List.prefix_append done more
  · cases more with
    | nil => exact (List.append_nil done').symm ▸ List.prefix_refl done'
    | cons next more =>
        have short := unfinished' next rfl
        have lengths := grown.length_le
        rw [List.map_append, List.flatten_append, List.map_cons, List.flatten_cons] at lengths
        simp only [List.length_append] at lengths
        omega

theorem admitAll_refused {accepts : σ → φ → Option σ} {state now : σ} {done : List φ} {next : φ}
    {todo : List φ} (welcome : admitAll accepts state done = some now)
    (unwelcome : accepts now next = none) :
    admitAll accepts state (done ++ next :: todo) = none := by
  induction done generalizing state with
  | nil =>
      cases welcome
      rw [List.nil_append, admitAll, unwelcome, Option.bind_none]
  | cons frame done ih =>
      obtain ⟨between, first, later⟩ := Option.bind_eq_some_iff.mp welcome
      rw [List.cons_append, admitAll, first, Option.bind_some]
      exact ih later

/-- The converse: whatever a peeler takes off is the encoding of an admitted frame. -/
structure Sound (p : Peeler α φ σ) (encode : φ → List α) (accepts : σ → φ → Option σ)
    (Fits : φ → Prop) : Prop where
  peeled : ∀ {state bytes frame next rest}, p.peel state bytes = .frame frame next rest →
    bytes = encode frame ++ rest ∧ Fits frame ∧ accepts state frame = some next

structure Parsed (p : Peeler α φ σ) (encode : φ → List α) (accepts : σ → φ → Option σ)
    (Fits : φ → Prop) (state : σ) (bytes : List α) (outcome : List φ × Option (σ × List α))
    (now : σ) (left : List α) : Prop where
  account : bytes = (outcome.1.map encode).flatten ++ left
  fits : ∀ frame ∈ outcome.1, Fits frame
  welcome : admitAll accepts state outcome.1 = some now
  ends : (outcome.2 = some (now, left) ∧ p.peel now left = .wait) ∨
    (outcome.2 = none ∧ p.peel now left = .refuse)

theorem Sound.drain (sound : Sound p encode accepts Fits) (state : σ) (bytes : List α) :
    ∃ now left, Parsed p encode accepts Fits state bytes (p.drain state bytes) now left := by
  induction state, bytes using Peeler.drain.induct p with
  | case1 state bytes found =>
      rw [p.drain_wait found]
      exact ⟨state, bytes, rfl, nofun, rfl, .inl ⟨rfl, found⟩⟩
  | case2 state bytes found =>
      rw [p.drain_refuse found]
      exact ⟨state, bytes, rfl, nofun, rfl, .inr ⟨rfl, found⟩⟩
  | case3 state bytes frame next rest found frames left _ ih =>
      obtain ⟨now, left, parsed⟩ := ih
      obtain ⟨whole, fits, welcomed⟩ := sound.peeled found
      rw [p.drain_frame found]
      refine ⟨now, left, ?_, ?_, ?_, parsed.ends⟩
      · calc
          bytes = encode frame ++ rest := whole
          _ = encode frame ++ (((p.drain next rest).1.map encode).flatten ++ left) := by
            rw [← parsed.account]
          _ = ((frame :: (p.drain next rest).1).map encode).flatten ++ left := by simp
      · exact List.forall_mem_cons.mpr ⟨fits, parsed.fits⟩
      · rw [admitAll, welcomed, Option.bind_some]
        exact parsed.welcome

theorem Decodes.drain_append (codec : Decodes p encode accepts Fits) {state now : σ}
    {frames : List φ} (fits : ∀ frame ∈ frames, Fits frame)
    (welcome : admitAll accepts state frames = some now) (rest : List α) :
    p.drain state ((frames.map encode).flatten ++ rest) =
      (frames ++ (p.drain now rest).1, (p.drain now rest).2) := by
  induction frames generalizing state with
  | nil =>
      cases welcome
      rfl
  | cons frame frames ih =>
      obtain ⟨next, first, later⟩ := Option.bind_eq_some_iff.mp welcome
      have fitsFrame := fits frame List.mem_cons_self
      have fitsRest : ∀ other ∈ frames, Fits other :=
        fun other member => fits other (List.mem_cons_of_mem frame member)
      rw [List.map_cons, List.flatten_cons, List.append_assoc,
        p.drain_frame (codec.admitted _ fitsFrame first), ih fitsRest later]
      rfl

end Framing
