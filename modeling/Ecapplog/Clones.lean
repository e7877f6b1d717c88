import Ecapplog.Callers
import Ecapplog.Losses
import Ecapplog.Progress

/-! The clones of a client and the close that comes with the last of them. A call borrows
the clone it is made on, so that the last clone is not dropped while a call is going on. -/

namespace Ecapplog

variable {bufferSize : Nat} {config : Config} {serde : SerdeJson}

/-- Some call on the client has begun and not returned: a log that owes a report, a flush,
or an explicit close. Close 0 is the one that dropping `Inner` makes. -/
def Sys.InUse (s : Sys) : Prop :=
  s.owed ≠ [] ∨ (∃ call, s.flushes call = .waiting) ∨
    ∃ call, s.closes (call + 1) = .requested ∨ s.closes (call + 1) = .joining

structure Shared where
  sys : Sys
  clones : Nat

inductive SharedAction where
  | clone
  | drop
  | sys (action : Action)

namespace Shared

def build (bufferSize : Nat) (spawned : Bool) (now : Instant) : Shared :=
  ⟨Sys.build bufferSize spawned now, 1⟩

def step (config : Config) (serde : SerdeJson) (s : Shared) : SharedAction → Option Shared
  | .clone => some { s with clones := s.clones + 1 }
  | .drop => some { s with clones := s.clones - 1 }
  | .sys action => (s.sys.step config serde action).map fun sys => { s with sys := sys }

/-- What the language's rules of ownership admit. Whoever begins a call has a clone;
`Inner` is dropped, and closes, when there are no more. -/
def Owns (s : Shared) : SharedAction → Prop
  | .clone => 0 < s.clones
  | .drop => 0 < s.clones ∧ (s.clones = 1 → ¬ s.sys.InUse)
  | .sys (.log _) => 0 < s.clones
  | .sys (.flushEnter _) => 0 < s.clones
  | .sys (.closeShutdown 0) => s.clones = 0
  | .sys (.closeShutdown _) => 0 < s.clones
  | .sys _ => True

theorem step_sys {s t : Shared} {action : Action}
    (taken : s.step config serde (.sys action) = some t) :
    ∃ sys, s.sys.step config serde action = some sys ∧ t = ⟨sys, s.clones⟩ := by
  obtain ⟨sys, stepped, rfl⟩ := Option.map_eq_some_iff.mp taken
  exact ⟨sys, stepped, rfl⟩

structure Owned (s : Shared) : Prop where
  released : s.clones = 0 → ¬ s.sys.InUse
  kept : 0 < s.clones → s.sys.closes 0 = .idle
  handle : s.sys.handle = false →
    s.sys.pc.running = false ∨ ∃ call, s.sys.closes call = .joining
  requested : s.sys.queue.isShutdown = true → ∃ call, s.sys.closes call ≠ .idle
  waits : s.sys.closes 0 = .returned → s.sys.pc.running = false

theorem build_owned (bufferSize : Nat) (spawned : Bool) (now : Instant) :
    (build bufferSize spawned now).Owned where
  released := nofun
  kept := fun _ => rfl
  handle := by
    intro gone
    cases spawned with
    | false => exact .inl rfl
    | true => cases gone
  requested := nofun
  waits := nofun

theorem Owned.aside {s : Shared} {sys : Sys} (inv : s.Owned) (closes : sys.closes = s.sys.closes)
    (handle : sys.handle = s.sys.handle)
    (shutdown : sys.queue.isShutdown = s.sys.queue.isShutdown)
    (stopped : s.sys.pc.running = false → sys.pc.running = false)
    (released : s.clones = 0 → ¬ sys.InUse) : Owned ⟨sys, s.clones⟩ where
  released := released
  kept := by
    rw [closes]
    exact inv.kept
  handle := by
    rw [closes, handle]
    exact fun gone => (inv.handle gone).imp stopped id
  requested := by
    rw [closes, shutdown]
    exact inv.requested
  waits := by
    rw [closes]
    exact fun returns => stopped (inv.waits returns)

theorem Owned.idle {s : Shared} (inv : s.Owned) (gone : s.clones = 0) (call : Nat) :
    s.sys.closes (call + 1) ≠ .requested ∧ s.sys.closes (call + 1) ≠ .joining :=
  ⟨fun here => inv.released gone (.inr (.inr ⟨call, .inl here⟩)),
    fun here => inv.released gone (.inr (.inr ⟨call, .inr here⟩))⟩

theorem Owned.closes {s : Shared} (inv : s.Owned) {call : Nat} {sys : Sys} {stage : CloseCall}
    (underWay : s.sys.closes call = .requested ∨ s.sys.closes call = .joining)
    (moved : sys.closes = Function.update s.sys.closes call stage) (begun : stage ≠ .idle)
    (calls : sys.owed = s.sys.owed ∧ sys.flushes = s.sys.flushes) (pc : sys.pc = s.sys.pc)
    (handle : sys.handle = false →
      sys.pc.running = false ∨ ∃ call, sys.closes call = .joining)
    (waits : call = 0 → stage = .returned → s.sys.pc.running = false) :
    Owned ⟨sys, s.clones⟩ where
  released := by
    intro gone
    have last : call = 0 := by
      cases call with
      | zero => rfl
      | succ call => exact (underWay.elim (inv.idle gone call).1 (inv.idle gone call).2).elim
    subst last
    have same : sys.InUse ↔ s.sys.InUse := by
      simp [Sys.InUse, calls, moved]
    rw [same]
    exact inv.released gone
  kept := by
    intro live
    have other : (0 : Nat) ≠ call := by
      rintro rfl
      rw [inv.kept live] at underWay
      rcases underWay with here | here <;> cases here
    rw [moved, Function.update_of_ne other]
    exact inv.kept live
  handle := handle
  requested := fun _ => ⟨call, by rw [moved, Function.update_self]; exact begun⟩
  waits := by
    rw [moved, pc]
    by_cases last : call = 0
    · subst last
      rw [Function.update_self]
      exact waits rfl
    · rw [Function.update_of_ne (Ne.symm last)]
      exact inv.waits

theorem Owned.begins {s : Shared} (inv : s.Owned) {call : Nat} (idle : s.sys.closes call = .idle)
    (live : 0 < s.clones ↔ call ≠ 0) :
    Owned ⟨{ s.sys with queue := s.sys.queue.shutdown }.setClose call .requested, s.clones⟩ where
  released := by
    intro gone
    have last : call = 0 := by
      by_contra other
      exact absurd gone (Nat.ne_of_gt (live.mpr other))
    subst last
    have same : ({ s.sys with queue := s.sys.queue.shutdown }.setClose 0 .requested).InUse ↔
        s.sys.InUse := by
      simp [Sys.InUse, Sys.setClose]
    rw [same]
    exact inv.released gone
  kept := by
    intro some_
    have other := live.mp some_
    exact (Function.update_of_ne other.symm _ _).trans (inv.kept some_)
  handle := by
    intro gone
    refine (inv.handle gone).imp id ?_
    rintro ⟨taker, joins⟩
    have other : taker ≠ call := by
      rintro rfl
      rw [idle] at joins
      cases joins
    exact ⟨taker, (Function.update_of_ne other _ _).trans joins⟩
  requested := fun _ => ⟨call, by simp [Sys.setClose]⟩
  waits := by
    intro returns
    by_cases last : call = 0
    · subst last
      simp [Sys.setClose] at returns
    · exact inv.waits ((Function.update_of_ne (Ne.symm last) _ _).symm.trans returns)

theorem Owned.step {s t : Shared} {action : SharedAction} (inv : s.Owned) (owns : s.Owns action)
    (taken : s.step config serde action = some t) : t.Owned := by
  cases action with
  | clone =>
      cases taken
      have live : 0 < s.clones := owns
      exact
        { inv with
          released := fun gone => absurd gone (Nat.succ_ne_zero _)
          kept := fun _ => inv.kept live }
  | drop =>
      cases taken
      have live : 0 < s.clones := owns.1
      exact
        { inv with
          released := fun gone => owns.2 (by change s.clones - 1 = 0 at gone; omega)
          kept := fun _ => inv.kept live }
  | sys action =>
      obtain ⟨sys, stepped, rfl⟩ := step_sys taken
      have stopped := stopped_stays stepped
      cases action with
      | log record =>
          cases stepped
          have live : 0 < s.clones := owns
          exact inv.aside rfl rfl (s.sys.queue.push_frame _).2.1 id fun gone => by omega
      | report index =>
          obtain ⟨total, owed, rfl⟩ := Sys.step_report stepped
          refine inv.aside rfl rfl rfl id fun gone => ?_
          refine absurd (.inl ?_) (inv.released gone)
          rintro none_
          simp [none_] at owed
      | closeShutdown call =>
          obtain ⟨idle, rfl⟩ := Sys.step_closeShutdown stepped
          apply inv.begins idle
          cases call with
          | zero =>
              have gone : s.clones = 0 := owns
              omega
          | succ call =>
              have live : 0 < s.clones := owns
              omega
      | closeTake call =>
          obtain ⟨requested, ⟨there, rfl⟩ | ⟨gone, rfl⟩⟩ := Sys.step_closeTake stepped
          · refine inv.closes (.inl requested) rfl (by decide) ⟨rfl, rfl⟩ rfl
              (fun _ => .inr ⟨call, ?_⟩) ?_
            · simp [Sys.setClose]
            · intro _ returned
              cases returned
          · refine inv.closes (.inl requested) rfl (by decide) ⟨rfl, rfl⟩ rfl ?_ ?_
            · intro _
              refine (inv.handle gone).imp id ?_
              rintro ⟨taker, joins⟩
              have other : taker ≠ call := by
                rintro rfl
                rw [requested] at joins
                cases joins
              exact ⟨taker, (Function.update_of_ne other _ _).trans joins⟩
            · rintro rfl _
              -- the last clone has gone, so nobody else is still joining
              have none_ : s.clones = 0 := by
                by_contra live
                have idle := inv.kept (Nat.pos_of_ne_zero live)
                rw [requested] at idle
                cases idle
              rcases inv.handle gone with ended | ⟨taker, joins⟩
              · exact ended
              · cases taker with
                | zero =>
                    rw [requested] at joins
                    cases joins
                | succ taker => exact absurd joins (inv.idle none_ taker).2
      | closeJoin call =>
          obtain ⟨joining, ended, rfl⟩ := Sys.step_closeJoin stepped
          have stopped := ended_stopped ended
          exact inv.closes (.inr joining) rfl (by decide) ⟨rfl, rfl⟩ rfl (fun _ => .inl stopped)
            fun _ _ => stopped
      | flushEnter call =>
          have live : 0 < s.clones := owns
          obtain ⟨_, ⟨_, rfl⟩ | ⟨_, rfl⟩⟩ := Sys.step_flushEnter stepped
          · exact inv.aside rfl rfl rfl id fun gone => by omega
          · exact inv.aside rfl rfl rfl id fun gone => by omega
      | flushWake call =>
          obtain ⟨waiting, rfl⟩ := Sys.step_flushWake stepped
          refine inv.aside rfl rfl rfl id fun gone => ?_
          exact absurd (.inr (.inl ⟨call, waiting⟩)) (inv.released gone)
      | tick elapsed =>
          cases stepped
          exact inv.aside rfl rfl rfl id inv.released
      | worker net =>
          have move := Sys.workerStep_move config serde net stepped
          have accounts := Sys.workerStep_accounts stepped
          refine inv.aside move.callers.2.1 move.callers.1 move.shutdown stopped fun gone => ?_
          have same : sys.InUse ↔ s.sys.InUse := by
            have flushes : sys.flushes = s.sys.flushes := move.callers.2.2
            have closes : sys.closes = s.sys.closes := move.callers.2.1
            rw [Sys.InUse, accounts.2.1, flushes, closes, Sys.InUse]
          rw [same]
          exact inv.released gone

def ReachableShared (config : Config) (serde : SerdeJson) (bufferSize : Nat) (s : Shared) : Prop :=
  ∃ spawned now, PartialRun.ReachesWhen (step config serde) Owns (build bufferSize spawned now) s

theorem ReachableShared.owned {s : Shared} (reached : ReachableShared config serde bufferSize s) :
    s.Owned := by
  obtain ⟨spawned, now, ran⟩ := reached
  exact PartialRun.invariant Owned (fun _ _ _ inv owns taken => inv.step owns taken)
    (build_owned bufferSize spawned now) ran

theorem reachable_sys {s : Shared} (reached : ReachableShared config serde bufferSize s) :
    Reachable config serde bufferSize s.sys := by
  obtain ⟨spawned, now, ran⟩ := reached
  refine PartialRun.invariant (fun s => Reachable config serde bufferSize s.sys) ?_
    ⟨spawned, now, .refl⟩ ran
  intro s action t before _ taken
  cases action with
  | clone =>
      cases taken
      exact before
  | drop =>
      cases taken
      exact before
  | sys action =>
      obtain ⟨sys, stepped, rfl⟩ := step_sys taken
      exact before.step stepped

/-- However a program clones, drops, logs, flushes and closes: the worker runs on while a
clone lives and no close was called; when the last is gone no call is under way and none
begins; and the drop of the last returns only when the worker has stopped, whatever closes
were called before. -/
theorem last_drop_waits {s : Shared} (reached : ReachableShared config serde bufferSize s) :
    (0 < s.clones → (∀ call, s.sys.closes (call + 1) = .idle) →
      s.sys.queue.isShutdown = false ∧ s.sys.pc.ended = false) ∧
    (s.clones = 0 → ¬ s.sys.InUse ∧
      ∀ action t, s.Owns action → s.step config serde action = some t →
        t.clones = 0 ∧ t.sys.history.pushed = s.sys.history.pushed) ∧
    (s.sys.closes 0 = .returned → s.sys.pc.running = false) := by
  have inv := reached.owned
  refine ⟨?_, ?_, inv.waits⟩
  · intro live uncalled
    have open_ : s.sys.queue.isShutdown = false := by
      apply Bool.eq_false_iff.mpr
      intro closing
      obtain ⟨call, begun⟩ := inv.requested closing
      cases call with
      | zero => exact begun (inv.kept live)
      | succ call => exact begun (uncalled call)
    refine ⟨open_, Bool.eq_false_iff.mpr fun ended => ?_⟩
    have closing : s.sys.queue.isShutdown = true := ended_closing (reachable_sys reached) ended
    rw [open_] at closing
    cases closing
  · intro gone
    refine ⟨inv.released gone, ?_⟩
    intro action t owns taken
    cases action with
    | clone =>
        have live : 0 < s.clones := owns
        omega
    | drop =>
        have live : 0 < s.clones := owns.1
        omega
    | sys action =>
        obtain ⟨sys, stepped, rfl⟩ := step_sys taken
        refine ⟨gone, (Sys.step_silent ?_ stepped).1⟩
        cases action with
        | log record =>
            have live : 0 < s.clones := owns
            omega
        | _ => rfl

theorem dropped_reached :
    ∃ s, ReachableShared ClientBuilder.default.toConfig compactSerde 1 s ∧
      s.sys.closes 0 = .returned ∧ s.sys.closes 1 = .returned := by
  refine ⟨_, ⟨true, 0, .head ⟨.clone, Nat.one_pos, rfl⟩ <|
    .head ⟨.sys (.closeShutdown 1), Nat.two_pos, rfl⟩ <|
    .head ⟨.sys (.closeTake 1), trivial, rfl⟩ <|
    .head ⟨.drop, ⟨Nat.two_pos, nofun⟩, rfl⟩ <|
    .head ⟨.sys (.worker .up), trivial, rfl⟩ <|
    .head ⟨.sys (.worker .up), trivial, rfl⟩ <|
    .head ⟨.sys (.closeJoin 1), trivial, rfl⟩ <|
    .head ⟨.drop, ⟨Nat.one_pos, fun _ => ?_⟩, rfl⟩ <|
    .head ⟨.sys (.closeShutdown 0), rfl, rfl⟩ <|
    .head ⟨.sys (.closeTake 0), trivial, rfl⟩ .refl⟩, rfl, rfl⟩
  -- both calls on the clones have returned
  rintro (owed | ⟨call, waiting⟩ | ⟨call, underWay⟩)
  · exact owed rfl
  · cases waiting
  · cases call with
    | zero => rcases underWay with here | here <;> cases here
    | succ call => rcases underWay with here | here <;> cases here

theorem last_drop_waits_dropped :
    ∃ s, ReachableShared ClientBuilder.default.toConfig compactSerde 1 s ∧
      s.sys.closes 0 = .returned ∧
      (0 < s.clones → (∀ call, s.sys.closes (call + 1) = .idle) →
        s.sys.queue.isShutdown = false ∧ s.sys.pc.ended = false) ∧
      (s.clones = 0 → ¬ s.sys.InUse ∧
        ∀ action t, s.Owns action →
          s.step ClientBuilder.default.toConfig compactSerde action = some t →
            t.clones = 0 ∧ t.sys.history.pushed = s.sys.history.pushed) ∧
      (s.sys.closes 0 = .returned → s.sys.pc.running = false) := by
  obtain ⟨s, reached, returned, _⟩ := dropped_reached
  exact ⟨s, reached, returned, last_drop_waits reached⟩

/-- A program that leaves closing to the drop of the last clone. -/
def Leaves (s : Shared) (action : SharedAction) : Prop :=
  s.Owns action ∧ ∀ call, action ≠ .sys (.closeShutdown (call + 1))

theorem step_idle {s t : Sys} {action : Action} (taken : s.step config serde action = some t)
    {call : Nat} (other : action ≠ .closeShutdown call) (idle : s.closes call = .idle) :
    t.closes call = .idle := by
  have apart {moved : Nat} {stage : CloseCall} (begun : s.closes moved ≠ .idle) :
      Function.update s.closes moved stage call = .idle := by
    have distinct : call ≠ moved := by
      rintro rfl
      exact begun idle
    exact (Function.update_of_ne distinct _ _).trans idle
  cases action with
  | log record =>
      cases taken
      exact idle
  | report index =>
      obtain ⟨total, _, rfl⟩ := Sys.step_report taken
      exact idle
  | closeShutdown moved =>
      obtain ⟨_, rfl⟩ := Sys.step_closeShutdown taken
      have distinct : call ≠ moved := fun same => other (same ▸ rfl)
      exact (Function.update_of_ne distinct _ _).trans idle
  | closeTake moved =>
      obtain ⟨here, ⟨_, rfl⟩ | ⟨_, rfl⟩⟩ := Sys.step_closeTake taken
      · exact apart (by rw [here]; exact nofun)
      · exact apart (by rw [here]; exact nofun)
  | closeJoin moved =>
      obtain ⟨here, _, rfl⟩ := Sys.step_closeJoin taken
      exact apart (by rw [here]; exact nofun)
  | flushEnter which =>
      obtain ⟨_, ⟨_, rfl⟩ | ⟨_, rfl⟩⟩ := Sys.step_flushEnter taken
      · exact idle
      · exact idle
  | flushWake which =>
      obtain ⟨_, rfl⟩ := Sys.step_flushWake taken
      exact idle
  | tick elapsed =>
      cases taken
      exact idle
  | worker net =>
      have move := Sys.workerStep_move config serde net taken
      have closes : t.closes = s.closes := move.callers.2.1
      rw [closes]
      exact idle

structure Undisturbed (config : Config) (serde : SerdeJson) (bufferSize : Nat) (s : Shared)
    (losses : List Loss) : Prop where
  owned : s.Owned
  uncalled : ∀ call, s.sys.closes (call + 1) = .idle
  recorded : Recorded config serde bufferSize (s.sys, losses)
  truthful : Truthful s.sys losses

theorem Undisturbed.closing {s : Shared} {losses : List Loss}
    (inv : Undisturbed config serde bufferSize s losses)
    (closing : s.sys.queue.isShutdown = true) : s.clones = 0 := by
  obtain ⟨call, begun⟩ := inv.owned.requested closing
  by_contra live
  cases call with
  | zero => exact begun (inv.owned.kept (Nat.pos_of_ne_zero live))
  | succ call => exact begun (inv.uncalled call)

def loses (s : Shared) : SharedAction → List Loss
  | .sys action => s.sys.loses action
  | .clone | .drop => []

theorem Undisturbed.step {s : Shared} {losses : List Loss} {next : Shared × List Loss}
    {action : SharedAction} (inv : Undisturbed config serde bufferSize s losses)
    (leaves : s.Leaves action)
    (seen : PartialRun.observed (step config serde) loses (s, losses) action = some next) :
    Undisturbed config serde bufferSize next.1 next.2 := by
  obtain ⟨t, taken, rfl⟩ := PartialRun.observed_some.mp seen
  have owned := inv.owned.step leaves.1 taken
  cases action with
  | clone =>
      cases taken
      rw [show losses ++ s.loses .clone = losses from List.append_nil _]
      exact { inv with owned := owned }
  | drop =>
      cases taken
      rw [show losses ++ s.loses .drop = losses from List.append_nil _]
      exact { inv with owned := owned }
  | sys action =>
      obtain ⟨sys, stepped, rfl⟩ := step_sys taken
      have observed : PartialRun.observed (Sys.step config serde) Sys.loses (s.sys, losses) action =
          some (sys, losses ++ s.sys.loses action) :=
        PartialRun.observed_some.mpr ⟨sys, stepped, rfl⟩
      have logsOpen : s.sys.LogsOpen action := by
        cases action with
        | log record =>
            have live : 0 < s.clones := leaves.1
            apply Bool.eq_false_iff.mpr
            intro closing
            exact absurd (inv.closing closing) (Nat.ne_of_gt live)
        | _ => trivial
      refine ⟨owned, fun call => step_idle stepped ?_ (inv.uncalled call),
        inv.recorded.step observed, ?_⟩
      · rintro rfl
        exact leaves.2 call rfl
      · exact (inv.recorded.step_truthful observed).mpr ⟨inv.truthful, logsOpen⟩

/-- If closing is left to the drop of the last clone, then every close that has returned
has waited for the worker, no call is under way once shutdown is requested, so that no
flush is left waiting, and the reports of a full queue are truthful of the run's losses. -/
theorem drop_only_sound {spawned : Bool} {now : Instant} {s : Shared} {losses : List Loss}
    (ran : PartialRun.ReachesWhen (PartialRun.observed (step config serde) loses)
      (fun seen => seen.1.Leaves) (build bufferSize spawned now, []) (s, losses)) :
    s.sys.Waited ∧ (s.sys.queue.isShutdown = true → ¬ s.sys.InUse) ∧
      losses.map Loss.entry = s.sys.history.dropped ∧ Truthful s.sys losses := by
  have inv : Undisturbed config serde bufferSize s losses := by
    refine PartialRun.invariant
      (fun seen => Undisturbed config serde bufferSize seen.1 seen.2) ?_ ?_ ran
    · intro seen action next inv leaves taken
      exact inv.step leaves taken
    · have start : Recorded config serde bufferSize (Sys.build bufferSize spawned now, []) := by
        refine ⟨⟨spawned, now, .refl⟩, ⟨?_, rfl⟩, nofun⟩
        cases spawned <;> exact .refl _
      exact ⟨build_owned bufferSize spawned now, fun _ => rfl, start,
        (start.books.truthful_iff start.fits).mpr nofun⟩
  refine ⟨?_, fun closing => inv.owned.released (inv.closing closing),
    inv.recorded.books.dropped, inv.truthful⟩
  intro call returned
  cases call with
  | zero => exact inv.owned.waits returned
  | succ call =>
      rw [inv.uncalled call] at returned
      cases returned

theorem drop_only_sound_evicting :
    ∃ s losses,
      PartialRun.ReachesWhen
        (PartialRun.observed (step ClientBuilder.default.toConfig compactSerde) loses)
        (fun seen => seen.1.Leaves) (build 1 true 0, []) (s, losses) ∧
      s.sys.queue.isShutdown = true ∧ s.sys.history.reports = [.queueFull 1 1] ∧
      s.sys.Waited ∧ (s.sys.queue.isShutdown = true → ¬ s.sys.InUse) ∧
      losses.map Loss.entry = s.sys.history.dropped ∧ Truthful s.sys losses := by
  obtain ⟨s, losses, ran, closing, reports⟩ :
      ∃ s losses,
        PartialRun.ReachesWhen
          (PartialRun.observed (step ClientBuilder.default.toConfig compactSerde) loses)
          (fun seen => seen.1.Leaves) (build 1 true 0, []) (s, losses) ∧
        s.sys.queue.isShutdown = true ∧ s.sys.history.reports = [.queueFull 1 1] := by
    refine ⟨_, _,
      .head ⟨.sys (.log (.new 0 .information "app" "first")), ⟨Nat.one_pos, nofun⟩, rfl⟩ <|
      .head ⟨.sys (.log (.new 0 .information "app" "second")), ⟨Nat.one_pos, nofun⟩, rfl⟩ <|
      .head ⟨.sys (.report 0), ⟨trivial, nofun⟩, rfl⟩ <|
      .head ⟨.drop, ⟨⟨Nat.one_pos, fun _ => ?_⟩, nofun⟩, rfl⟩ <|
      .head ⟨.sys (.closeShutdown 0), ⟨rfl, nofun⟩, rfl⟩ .refl, rfl, rfl⟩
    rintro (owed | ⟨call, waiting⟩ | ⟨call, underWay⟩)
    · exact owed rfl
    · cases waiting
    · rcases underWay with here | here <;> cases here
  exact ⟨s, losses, ran, closing, reports, drop_only_sound ran⟩

end Shared

end Ecapplog
