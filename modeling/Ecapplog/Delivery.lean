import Mathlib.Data.List.Range
import Mathlib.Data.List.Sort
import Ecapplog.Foundations.SlidingWindow
import Ecapplog.Effect
import Ecapplog.Payload

/-! The client refines a sliding window over the stream of accepted entries.
Conservation of entries, in-order delivery and the drop-oldest rule follow. -/

namespace Ecapplog

open SlidingWindow

variable {cap bufferSize : Nat} {config : Config} {serde : SerdeJson}

/-- The abstract hand-off that a state of the client stands for. -/
structure Represents (c : Core) (w : Ledger Entry cap) : Prop where
  capacity : c.capacity = cap
  items : c.items = w.items
  hand : c.hand = w.held
  accepted : c.accepted = w.entered
  pushed : c.pushed = w.offered
  written : c.written = w.delivered
  discarded : c.discarded.map Prod.fst = w.discarded
  dropped : c.dropped = w.lost
  running : c.shutdown = false → w.refused = []

theorem Represents.enter {c d : Core} {w : Ledger Entry cap} (rep : Represents c w) (entry : Entry)
    (running : c.shutdown = false) (capacity : d.capacity = c.capacity)
    (items : d.items = w.slid entry) (hand : d.hand = c.hand)
    (accepted : d.accepted = c.accepted ++ [entry]) (pushed : d.pushed = c.pushed ++ [entry])
    (written : d.written = c.written) (discarded : d.discarded = c.discarded)
    (dropped : d.dropped = c.dropped ++ w.overflow entry) : Represents d (w.enter entry) where
  capacity := capacity.trans rep.capacity
  items := items
  hand := hand.trans rep.hand
  accepted := by
    rw [accepted, rep.accepted]
    exact (w.enter_entered entry).symm
  pushed := by
    have unrefused := rep.running running
    have entered := w.enter_entered entry
    rw [pushed, rep.pushed, Ledger.offered, Ledger.offered]
    change _ = (w.toWindow.enter entry).entered ++ w.refused
    rw [entered, unrefused, List.append_nil, List.append_nil]
  written := written.trans rep.written
  discarded := by rw [discarded]; exact rep.discarded
  dropped := by
    rw [dropped, rep.dropped]
    rfl
  running := fun _ => rep.running running

theorem Effect.represented {c d : Core} {w : Ledger Entry cap} (effect : Effect c d)
    (rep : Represents c w) : ∃ v, Relation.ReflTransGen Ledger.Step w v ∧ Represents d v := by
  have sameCapacity := rep.capacity
  have sameItems := rep.items
  cases effect with
  | silent => exact ⟨w, .refl, rep⟩
  | refuse entry next closed =>
      refine ⟨w.refuse entry, .single (.refuse w entry), ?_⟩
      exact
        { rep with
          accepted := rep.accepted
          pushed := by
            change c.pushed ++ [entry] = w.entered ++ (w.refused ++ [entry])
            rw [rep.pushed, Ledger.offered, List.append_assoc]
          dropped := by rw [rep.dropped]; rfl
          running := fun open_ => by rw [closed] at open_; cases open_ }
  | enter entry next running room =>
      have fits : w.items.length < cap := by rw [← sameItems, ← sameCapacity]; exact room
      have none_over : w.items.length + 1 - cap = 0 := by omega
      refine ⟨w.enter entry, .single (.enter w entry), ?_⟩
      refine rep.enter entry running rfl ?_ rfl rfl rfl rfl rfl ?_
      · simp [Window.slid, none_over, sameItems]
      · simp [w.overflow_nil entry fits]
  | evict entry oldest rest next running full front =>
      have overfull : cap ≤ w.items.length := by rw [← sameItems, ← sameCapacity]; exact full
      have one_over : w.items.length + 1 - cap = 1 := by
        have fits := w.bound
        omega
      have first : w.items = oldest :: rest := by rw [← sameItems, front]
      refine ⟨w.enter entry, .single (.enter w entry), ?_⟩
      refine rep.enter entry running rfl ?_ rfl rfl rfl rfl rfl ?_
      · simp only [Window.slid, one_over]
        rw [first]
        rfl
      · simp only [Window.overflow, one_over]
        rw [first]
        rfl
  | pop entry rest free front =>
      have free' : w.held = none := by rw [← rep.hand]; exact free
      have first : w.items = entry :: rest := by rw [← sameItems, front]
      refine ⟨w.checkOut entry rest free' first, .single (.checkOut w entry rest free' first), ?_⟩
      have entered := w.checkOut_entered entry rest first
      exact
        { rep with
          items := rfl
          hand := rfl
          accepted := rep.accepted.trans entered.symm
          pushed := rep.pushed.trans (congrArg (· ++ w.refused) entered.symm) }
  | deliver entry out =>
      have out' : w.held = some entry := by rw [← rep.hand]; exact out
      refine ⟨w.deliver entry out', .single (.deliver w entry out'), ?_⟩
      exact
        { rep with
          hand := rfl
          written := by rw [rep.written]; rfl }
  | discard entry error out condemns =>
      have out' : w.held = some entry := by rw [← rep.hand]; exact out
      refine ⟨w.discard entry out', .single (.discard w entry out'), ?_⟩
      exact
        { rep with
          hand := rfl
          discarded := by rw [List.map_append, rep.discarded]; rfl }
  | putBack entry out room =>
      have out' : w.held = some entry := by rw [← rep.hand]; exact out
      have fits : w.items.length < cap := by rw [← sameItems, ← sameCapacity]; exact room
      have entered := w.putBack_entered entry out' fits
      refine ⟨w.putBack entry out' fits, .single (.putBack w entry out' fits), ?_⟩
      exact
        { rep with
          items := by rw [sameItems]; rfl
          hand := rfl
          accepted := rep.accepted.trans entered.symm
          pushed := rep.pushed.trans (congrArg (· ++ w.refused) entered.symm) }
  | giveUp entry out full =>
      have out' : w.held = some entry := by rw [← rep.hand]; exact out
      have exactly : w.items.length = cap := by
        have fits := w.bound
        have overfull : cap ≤ w.items.length := by rw [← sameItems, ← sameCapacity]; exact full
        omega
      refine ⟨w.giveUp entry out', .single (.giveUp w entry out' exactly), ?_⟩
      exact
        { rep with
          hand := rfl
          dropped := by rw [rep.dropped]; rfl }
  | finish free => exact ⟨w, .refl, { rep with }⟩
  | shutdown => exact ⟨w, .refl, { rep with running := fun open_ => by cases open_ }⟩

theorem build_represents (bufferSize : Nat) (spawned : Bool) (now : Instant) :
    Represents (Sys.build bufferSize spawned now).core
      (Ledger.empty Entry (max bufferSize 1)) where
  capacity := rfl
  items := rfl
  hand := by cases spawned <;> rfl
  accepted := rfl
  pushed := rfl
  written := by cases spawned <;> rfl
  discarded := rfl
  dropped := rfl
  running := fun _ => rfl

/-- The client refines the hand-off: every reachable state stands for a state that
the sliding window reaches by its own steps. -/
theorem reachable_represented {s : Sys} (reached : Reachable config serde bufferSize s) :
    ∃ w : Ledger Entry (max bufferSize 1),
      Relation.ReflTransGen Ledger.Step (Ledger.empty Entry (max bufferSize 1)) w ∧
        Represents s.core w := by
  obtain ⟨spawned, now, ran⟩ := reached
  exact PartialRun.simulation (fun s w => Represents s.core w)
    (fun _ _ _ _ rep taken => (Sys.step_effect config serde taken).represented rep)
    (build_represents bufferSize spawned now) ran

structure Accounted (c : Core) : Prop where
  numbered : c.pushed.map Entry.seq = List.range c.pushed.length
  count : c.count = UInt64.ofNat c.dropped.length
  totals : c.totals = (List.range' 1 c.dropped.length).map UInt64.ofNat
  condemned : c.condemned = c.discarded.map Prod.snd
  condemning : ∀ error ∈ c.condemned, error.isUnsendable = true
  busy : c.hand ≠ none → c.busy = true

theorem Effect.accounted {c d : Core} (effect : Effect c d) (books : Accounted c) :
    Accounted d := by
  have numbered_push (entry : Entry) (next : entry.seq = c.pushed.length) :
      (c.pushed ++ [entry]).map Entry.seq = List.range (c.pushed ++ [entry]).length := by
    rw [List.map_append, books.numbered, List.length_append, List.length_singleton,
      List.range_succ, List.map_singleton, next]
  have count_drop (entry : Entry) : c.count + 1 = UInt64.ofNat (c.dropped ++ [entry]).length := by
    rw [List.length_append, List.length_singleton, UInt64.ofNat_add, books.count]
    rfl
  have totals_drop (entry : Entry) : c.totals ++ [c.count + 1] =
      (List.range' 1 (c.dropped ++ [entry]).length).map UInt64.ofNat := by
    rw [books.totals, count_drop entry, List.length_append, List.length_singleton,
      List.range'_concat, List.map_append, List.map_singleton]
    congr 3
    omega
  cases effect with
  | silent => exact books
  | refuse entry next closed =>
      exact
        { books with
          numbered := numbered_push entry next
          count := count_drop entry
          totals := totals_drop entry }
  | enter entry next running room => exact { books with numbered := numbered_push entry next }
  | evict entry oldest rest next running full front =>
      exact
        { books with
          numbered := numbered_push entry next
          count := count_drop oldest
          totals := totals_drop oldest }
  | pop entry rest free front => exact { books with busy := fun _ => rfl }
  | deliver entry out => exact { books with busy := fun held => absurd rfl held }
  | discard entry error out condemns =>
      exact
        { books with
          condemned := by rw [books.condemned, List.map_append]; rfl
          condemning := by
            intro reported member
            rcases List.mem_append.mp member with earlier | this
            · exact books.condemning reported earlier
            · rw [List.mem_singleton.mp this]
              exact condemns
          busy := fun held => absurd rfl held }
  | putBack entry out room => exact { books with busy := fun held => absurd rfl held }
  | giveUp entry out full =>
      exact
        { books with
          count := count_drop entry
          totals := totals_drop entry
          busy := fun held => absurd rfl held }
  | finish free => exact { books with busy := fun held => absurd free held }
  | shutdown => exact { books with }

theorem build_accounted (bufferSize : Nat) (spawned : Bool) (now : Instant) :
    Accounted (Sys.build bufferSize spawned now).core where
  numbered := rfl
  count := rfl
  totals := rfl
  condemned := rfl
  condemning := by
    intro error reported
    cases reported
  busy := by
    intro held
    cases spawned <;> exact absurd rfl held

theorem reachable_accounted {s : Sys} (reached : Reachable config serde bufferSize s) :
    Accounted s.core := by
  obtain ⟨spawned, now, ran⟩ := reached
  exact PartialRun.invariant (fun s => Accounted s.core)
    (fun _ _ _ books _ taken => (Sys.step_effect config serde taken).accounted books)
    (build_accounted bufferSize spawned now) ran

inductive Place where
  | queue
  | hand
  | written
  | discarded
  | dropped

def Sys.contents (s : Sys) : Place → List Entry
  | .queue => s.queue.state.items
  | .hand => s.hand.toList
  | .written => s.written
  | .discarded => s.history.discarded.map Prod.fst
  | .dropped => s.history.dropped

theorem pushed_nodup {s : Sys} (reached : Reachable config serde bufferSize s) :
    s.history.pushed.Nodup := by
  apply List.Nodup.of_map Entry.seq
  rw [show s.history.pushed.map Entry.seq = _ from (reachable_accounted reached).numbered]
  exact List.nodup_range

theorem pushed_perm {s : Sys} (reached : Reachable config serde bufferSize s) :
    (s.contents .queue ++ s.contents .hand ++ s.contents .written ++ s.contents .discarded ++
      s.contents .dropped).Perm s.history.pushed := by
  obtain ⟨w, _, rep⟩ := reachable_represented reached
  have account := w.account_offered
  rw [← rep.items, ← rep.hand, ← rep.written, ← rep.discarded, ← rep.dropped, ← rep.pushed]
    at account
  exact account

theorem pushed_unique_place {s : Sys} (reached : Reachable config serde bufferSize s)
    (entry : Entry) (pushed : entry ∈ s.history.pushed) : ∃! place, entry ∈ s.contents place := by
  have once := List.count_eq_one_of_mem (pushed_nodup reached) pushed
  rw [← (pushed_perm reached).count_eq entry] at once
  simp only [List.count_append] at once
  have occurs (place : Place) (there : entry ∈ s.contents place) :
      0 < (s.contents place).count entry := List.count_pos_iff.mpr there
  have somewhere : ∃ place, entry ∈ s.contents place := by
    have present := (pushed_perm reached).mem_iff.mpr pushed
    simp only [List.mem_append] at present
    rcases present with (((inQueue | inHand) | isWritten) | isDiscarded) | isDropped
    · exact ⟨.queue, inQueue⟩
    · exact ⟨.hand, inHand⟩
    · exact ⟨.written, isWritten⟩
    · exact ⟨.discarded, isDiscarded⟩
    · exact ⟨.dropped, isDropped⟩
  obtain ⟨place, there⟩ := somewhere
  refine ⟨place, there, fun other elsewhere => ?_⟩
  have here := occurs place there
  have also := occurs other elsewhere
  -- two places together would count the entry twice
  cases place <;> cases other <;> first | rfl | omega

theorem contents_sound {s : Sys} (reached : Reachable config serde bufferSize s) (place : Place) :
    (s.contents place).Nodup ∧ ∀ entry ∈ s.contents place, entry ∈ s.history.pushed := by
  have all := (pushed_perm reached).nodup_iff.mpr (pushed_nodup reached)
  have part : (s.contents place).Sublist (s.contents .queue ++ s.contents .hand ++
      s.contents .written ++ s.contents .discarded ++ s.contents .dropped) := by
    have split : s.contents .queue ++ s.contents .hand ++ s.contents .written ++
        s.contents .discarded ++ s.contents .dropped =
          ([.queue, .hand, .written, .discarded, .dropped].map s.contents).flatten := by
      simp
    rw [split]
    apply List.sublist_flatten_of_mem
    cases place <;> simp
  exact ⟨all.sublist part, fun entry there => (pushed_perm reached).subset (part.subset there)⟩

theorem accepted_numbered {s : Sys} (reached : Reachable config serde bufferSize s) :
    s.history.accepted.map Entry.seq = List.range s.history.accepted.length := by
  obtain ⟨w, _, rep⟩ := reachable_represented reached
  have numbered : s.history.pushed.map Entry.seq = List.range s.history.pushed.length :=
    (reachable_accounted reached).numbered
  have pushed : s.history.pushed = s.history.accepted ++ w.refused := by
    rw [show s.history.pushed = _ from rep.pushed, show s.history.accepted = _ from rep.accepted]
    rfl
  have fewer : s.history.accepted.length ≤ s.history.pushed.length := by simp [pushed]
  calc
    s.history.accepted.map Entry.seq =
        (s.history.pushed.map Entry.seq).take s.history.accepted.length := by simp [pushed]
    _ = (List.range s.history.pushed.length).take s.history.accepted.length := by rw [numbered]
    _ = List.range s.history.accepted.length := by
      rw [List.take_range, Nat.min_eq_left fewer]

theorem accepted_increasing {s : Sys} (reached : Reachable config serde bufferSize s) :
    (s.history.accepted.map Entry.seq).Pairwise (· < ·) := by
  rw [accepted_numbered reached]
  exact List.pairwise_lt_range

structure Conserved (s : Sys) : Prop where
  numbered : s.history.pushed.map Entry.seq = List.range s.history.pushed.length
  unique_place : ∀ entry ∈ s.history.pushed, ∃! place, entry ∈ s.contents place
  sound : ∀ place, (s.contents place).Nodup ∧
    ∀ entry ∈ s.contents place, entry ∈ s.history.pushed
  reported : s.history.reports.filter Error.isUnsendable = s.history.discarded.map Prod.snd
  count : s.queue.droppedCount = UInt64.ofNat (s.contents .dropped).length
  totals : s.history.totals = (List.range' 1 (s.contents .dropped).length).map UInt64.ofNat
  totals_exact : (s.contents .dropped).length < 2 ^ 64 →
    s.history.totals.map UInt64.toNat = List.range' 1 s.queue.droppedCount.toNat
  exited : s.pc = .exited → s.contents .hand = []

/-- In every reachable state each pushed entry is in exactly one place, and the
drop counter and the returned totals count the dropped ones. -/
theorem entries_conserved {s : Sys} (reached : Reachable config serde bufferSize s) :
    Conserved s := by
  have books := reachable_accounted reached
  have count : s.queue.dropped = UInt64.ofNat s.history.dropped.length := books.count
  have totals : s.history.totals = (List.range' 1 s.history.dropped.length).map UInt64.ofNat :=
    books.totals
  refine
    { numbered := books.numbered
      unique_place := pushed_unique_place reached
      sound := contents_sound reached
      reported := books.condemned
      count := count
      totals := totals
      totals_exact := ?_
      exited := ?_ }
  · intro small
    change s.history.dropped.length < 2 ^ 64 at small
    have plain : ∀ n ∈ List.range' 1 s.history.dropped.length,
        (UInt64.toNat ∘ UInt64.ofNat) n = id n := by
      intro n member
      have bound := List.mem_range'_1.mp member
      exact UInt64.toNat_ofNat_of_lt' (show n < 2 ^ 64 by omega)
    rw [Queue.droppedCount, count, totals, List.map_map, UInt64.toNat_ofNat_of_lt' small,
      List.map_congr_left plain, List.map_id]
  · intro gone
    simp [Sys.contents, Sys.hand, gone]

def runDefault (bufferSize : Nat) (actions : List Action) : Option Sys :=
  PartialRun.run (Sys.step ClientBuilder.default.toConfig compactSerde)
    (Sys.build bufferSize true 0) actions

theorem runDefault_reaches {actions : List Action} {s : Sys}
    (ran : runDefault bufferSize actions = some s) :
    Reachable ClientBuilder.default.toConfig compactSerde bufferSize s :=
  ⟨true, 0, PartialRun.reaches_of_run ran⟩

def reconnectRun : List Action :=
  let log (message : String) := Action.log (.new 0 .information "app" message)
  let up (steps : Nat) := List.replicate steps (Action.worker .up)
  [log "first", log "second", log "third"] ++ up 9 ++ [log "fourth", .worker (.down 3)] ++
    up 13 ++ [log "fifth"]

theorem reconnectRun_ends :
    ∃ s, runDefault 2 reconnectRun = some s ∧
      (s.contents .dropped).map Entry.seq = [0] ∧
      (s.contents .written).map Entry.seq = [1, 2, 3] ∧
      (s.contents .queue).map Entry.seq = [4] :=
  ⟨_, rfl, rfl, rfl, rfl⟩

theorem entries_conserved_reconnect :
    ∃ s, runDefault 2 reconnectRun = some s ∧ Conserved s := by
  obtain ⟨s, ran, _⟩ := reconnectRun_ends
  exact ⟨s, ran, entries_conserved (runDefault_reaches ran)⟩

/-- Over all connections in time order, entries are written in the order in which
they were accepted, and none is written in full twice. -/
theorem delivery_in_order {s : Sys} (reached : Reachable config serde bufferSize s) :
    s.history.accepted.map Entry.seq = List.range s.history.accepted.length ∧
      s.written.Sublist s.history.accepted ∧
      (s.written.map Entry.seq).Pairwise (· < ·) := by
  obtain ⟨w, _, rep⟩ := reachable_represented reached
  have ordered : s.written.Sublist s.history.accepted := by
    rw [show s.written = _ from rep.written, show s.history.accepted = _ from rep.accepted]
    exact w.delivered_entered
  exact ⟨accepted_numbered reached, ordered,
    (accepted_increasing reached).sublist (ordered.map Entry.seq)⟩

theorem delivery_in_order_reconnect :
    ∃ s, runDefault 2 reconnectRun = some s ∧
      s.history.accepted.map Entry.seq = List.range s.history.accepted.length ∧
      s.written.Sublist s.history.accepted ∧
      (s.written.map Entry.seq).Pairwise (· < ·) := by
  obtain ⟨s, ran, _⟩ := reconnectRun_ends
  exact ⟨s, ran, delivery_in_order (runDefault_reaches ran)⟩

/-- The queue is the newest part of the accepted stream, without a gap, and what
overflow has cost is older than everything still queued. -/
theorem queue_is_newest {s : Sys} (reached : Reachable config serde bufferSize s) :
    s.queue.capacity = max bufferSize 1 ∧
      s.queue.state.items.length ≤ max bufferSize 1 ∧
      s.queue.state.items =
        s.history.accepted.drop (s.history.accepted.length - s.queue.state.items.length) ∧
      ∀ lost ∈ s.history.dropped, lost ∈ s.history.accepted →
        ∀ entry ∈ s.queue.state.items, lost.seq < entry.seq := by
  obtain ⟨w, _, rep⟩ := reachable_represented reached
  have items : s.queue.state.items = w.items := rep.items
  have accepted : s.history.accepted = w.gone ++ w.items := rep.accepted
  refine ⟨rep.capacity, by rw [items]; exact w.bound, ?_, ?_⟩
  · rw [items, accepted]
    exact List.suffix_iff_eq_drop.mp w.items_suffix
  · intro lost dropped wasAccepted entry queued
    have increasing := accepted_increasing reached
    rw [accepted] at wasAccepted increasing
    rw [List.map_append, List.pairwise_append] at increasing
    have notQueued : lost ∉ w.items := by
      intro stillQueued
      rw [← items] at stillQueued
      have pushed := (contents_sound reached .dropped).2 lost dropped
      have same : Place.queue = Place.dropped :=
        (pushed_unique_place reached lost pushed).unique stillQueued dropped
      cases same
    have gone : lost ∈ w.gone := by
      rcases List.mem_append.mp wasAccepted with gone | stillQueued
      · exact gone
      · exact absurd stillQueued notQueued
    rw [items] at queued
    exact increasing.2.2 _ (List.mem_map_of_mem gone) _ (List.mem_map_of_mem queued)

theorem queue_is_newest_reconnect :
    ∃ s, runDefault 2 reconnectRun = some s ∧
      s.queue.capacity = max 2 1 ∧ s.queue.state.items.length ≤ max 2 1 ∧
      s.queue.state.items =
        s.history.accepted.drop (s.history.accepted.length - s.queue.state.items.length) ∧
      ∀ lost ∈ s.history.dropped, lost ∈ s.history.accepted →
        ∀ entry ∈ s.queue.state.items, lost.seq < entry.seq := by
  obtain ⟨s, ran, _⟩ := reconnectRun_ends
  exact ⟨s, ran, queue_is_newest (runDefault_reaches ran)⟩

end Ecapplog
