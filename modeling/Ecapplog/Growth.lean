import Ecapplog.Progress

/-! Connections only grow: no byte that was put on one is taken back. -/

namespace Ecapplog

variable {config : Config} {serde : SerdeJson}

/-- Every connection is still there at its place, with the bytes that were on it in front. -/
def Grown (before after : List Stream) : Prop :=
  ∀ (i : Nat) (c : Stream), before[i]? = some c → ∃ d, after[i]? = some d ∧ c.bytes <+: d.bytes

theorem Grown.refl (connections : List Stream) : Grown connections connections :=
  fun _ c found => ⟨c, found, List.prefix_rfl⟩

theorem Grown.opened (past more : List Stream) : Grown past (past ++ more) := by
  intro i c found
  have early := (List.getElem?_eq_some_iff.mp found).1
  exact ⟨c, (List.getElem?_append_left early).trans found, List.prefix_rfl⟩

theorem Grown.last (past : List Stream) {c d : Stream} (more : c.bytes <+: d.bytes) :
    Grown (past ++ [c]) (past ++ [d]) := by
  intro i e found
  rcases Nat.lt_or_ge i past.length with earlier | late
  · rw [List.getElem?_append_left earlier] at found ⊢
    exact ⟨e, found, List.prefix_rfl⟩
  · rw [List.getElem?_append_right late] at found ⊢
    cases here : i - past.length with
    | zero =>
        rw [here] at found
        cases found
        exact ⟨d, rfl, more⟩
    | succ n =>
        rw [here] at found
        cases found

def Control.connections (c : Control) : List Stream := c.past ++ c.pc.stream.toList

/-- A move of the worker opens a connection, adds to the last, or files it away as it is. -/
theorem Move.grown {c d : Control} (move : Move config serde c d) :
    Grown c.connections d.connections := by
  have same (here : d.connections = c.connections) : Grown c.connections d.connections := by
    rw [here]
    exact .refl _
  have more (old new : Stream) (here : c.pc.stream = some old)
      (after : d.connections = c.past ++ [new]) (grows : old.bytes <+: new.bytes) :
      Grown c.connections d.connections := by
    rw [Control.connections, here, after]
    exact .last c.past grows
  cases move with
  | connected here =>
      have before : c.connections = c.past := by simp [Control.connections, here]
      rw [before]
      exact .opened c.past _
  | announced stream here =>
      exact more stream _ (by rw [here]; rfl) rfl (List.prefix_append _ _)
  | unannounced stream part here _ _ =>
      exact more stream _ (by rw [here]; rfl) (List.append_nil _) (List.prefix_append _ _)
  | take stream entry rest here _ =>
      exact more stream _ (by rw [here]; rfl) rfl List.prefix_rfl
  | send stream entry here _ =>
      exact more stream _ (by rw [here]; rfl) rfl (List.prefix_append _ _)
  | breakOff stream entry part here _ _ _ =>
      exact more stream _ (by rw [here]; rfl) (List.append_nil _) (List.prefix_append _ _)
  | _ => exact same (by simp [Control.connections, *])

theorem Sys.step_kept {s t : Sys} {action : Action} (taken : s.step config serde action = some t) :
    Grown s.connections t.connections := by
  cases action with
  | worker net => exact (workerStep_move config serde net taken).grown
  | report index =>
      obtain ⟨total, _, rfl⟩ := step_report taken
      exact .refl _
  | log record =>
      cases taken
      exact .refl _
  | closeShutdown call =>
      obtain ⟨_, rfl⟩ := step_closeShutdown taken
      exact .refl _
  | closeTake call =>
      rw [step_caller config serde taken (.inl ⟨call, .inl rfl⟩)]
      exact .refl _
  | closeJoin call =>
      rw [step_caller config serde taken (.inl ⟨call, .inr rfl⟩)]
      exact .refl _
  | flushEnter call =>
      rw [step_caller config serde taken (.inr ⟨call, .inl rfl⟩)]
      exact .refl _
  | flushWake call =>
      rw [step_caller config serde taken (.inr ⟨call, .inr rfl⟩)]
      exact .refl _
  | tick elapsed =>
      cases taken
      exact .refl _

end Ecapplog
