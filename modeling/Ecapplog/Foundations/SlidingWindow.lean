import Mathlib.Data.List.Perm.Basic
import Mathlib.Data.List.Nodup
import Mathlib.Logic.Relation

/-! A bounded drop-oldest window sliding over a stream, with at most one element
checked out at a time, and the ledger of what became of every element. -/

namespace SlidingWindow

variable {α : Type*} {cap : Nat}

/-- `gone ++ items` is the stream so far. While an element is checked out, the
stream between it and the window may only be non-empty if the window is full. -/
structure Window (α : Type*) (cap : Nat) where
  gone : List α
  items : List α
  held : Option α
  bound : items.length ≤ cap
  gap : ∀ a, held = some a → (∃ before, gone = before ++ [a]) ∨ (items.length = cap ∧ a ∈ gone)

namespace Window

def entered (w : Window α cap) : List α := w.gone ++ w.items

def overflow (w : Window α cap) (a : α) : List α :=
  (w.items ++ [a]).take (w.items.length + 1 - cap)

def slid (w : Window α cap) (a : α) : List α :=
  (w.items ++ [a]).drop (w.items.length + 1 - cap)

theorem overflow_slid (w : Window α cap) (a : α) : w.overflow a ++ w.slid a = w.items ++ [a] :=
  List.take_append_drop _ _

theorem slid_length (w : Window α cap) (a : α) :
    (w.slid a).length = min (w.items.length + 1) cap := by
  have fits := w.bound
  simp only [slid, List.length_drop, List.length_append, List.length_singleton]
  omega

theorem overflow_nil (w : Window α cap) (a : α) (room : w.items.length < cap) :
    w.overflow a = [] := by
  have none_over : w.items.length + 1 - cap = 0 := by omega
  simp [overflow, none_over]

def enter (w : Window α cap) (a : α) : Window α cap where
  gone := w.gone ++ w.overflow a
  items := w.slid a
  held := w.held
  bound := by rw [slid_length]; exact Nat.min_le_right _ _
  gap := by
    intro h out
    rw [slid_length]
    rcases Nat.lt_or_ge w.items.length cap with room | full
    · rcases w.gap h out with ⟨before, last⟩ | ⟨full, _⟩
      · exact Or.inl ⟨before, by rw [overflow_nil w a room, List.append_nil, last]⟩
      · omega
    · have there : h ∈ w.gone := by
        rcases w.gap h out with ⟨before, last⟩ | ⟨_, there⟩
        · simp [last]
        · exact there
      exact Or.inr ⟨by omega, List.mem_append_left _ there⟩

theorem enter_entered (w : Window α cap) (a : α) : (w.enter a).entered = w.entered ++ [a] := by
  simp only [entered, enter, List.append_assoc, overflow_slid]

def checkOut (w : Window α cap) (a : α) (rest : List α) (front : w.items = a :: rest) :
    Window α cap where
  gone := w.gone ++ [a]
  items := rest
  held := some a
  bound := by
    have fits := w.bound
    rw [front, List.length_cons] at fits
    omega
  gap := by
    intro h out
    cases out
    exact Or.inl ⟨w.gone, rfl⟩

theorem checkOut_entered (w : Window α cap) (a : α) (rest : List α) (front : w.items = a :: rest) :
    (w.checkOut a rest front).entered = w.entered := by
  simp [entered, checkOut, front]

def release (w : Window α cap) : Window α cap where
  gone := w.gone
  items := w.items
  held := none
  bound := w.bound
  gap := by intro h out; cases out

/-- With room left there was no eviction since the check-out, so the stream ends
its departed part with the very element that comes back. -/
theorem last_gone (w : Window α cap) (a : α) (out : w.held = some a)
    (room : w.items.length < cap) : w.gone = w.gone.dropLast ++ [a] := by
  rcases w.gap a out with ⟨before, last⟩ | ⟨full, _⟩
  · rw [last, List.dropLast_concat]
  · omega

def putBack (w : Window α cap) (a : α) (room : w.items.length < cap) : Window α cap where
  gone := w.gone.dropLast
  items := a :: w.items
  held := none
  bound := by rw [List.length_cons]; omega
  gap := by intro h none_out; cases none_out

theorem putBack_entered (w : Window α cap) (a : α) (out : w.held = some a)
    (room : w.items.length < cap) : (w.putBack a room).entered = w.entered := by
  have last := w.last_gone a out room
  calc
    (w.putBack a room).entered = (w.gone.dropLast ++ [a]) ++ w.items := by
      simp [entered, putBack]
    _ = w.entered := by rw [← last, entered]

end Window

/-- The window together with the fate of every element ever offered. -/
structure Ledger (α : Type*) (cap : Nat) extends Window α cap where
  delivered : List α
  discarded : List α
  lost : List α
  refused : List α
  inOrder : (delivered ++ held.toList).Sublist gone
  account : (items ++ held.toList ++ delivered ++ discarded ++ lost).Perm (gone ++ items ++ refused)

namespace Ledger

def offered (w : Ledger α cap) : List α := w.entered ++ w.refused

def empty (α : Type*) (cap : Nat) : Ledger α cap where
  gone := []
  items := []
  held := none
  bound := Nat.zero_le _
  gap := by intro h out; cases out
  delivered := []
  discarded := []
  lost := []
  refused := []
  inOrder := List.Sublist.refl _
  account := List.Perm.refl _

def enter (w : Ledger α cap) (a : α) : Ledger α cap where
  toWindow := w.toWindow.enter a
  delivered := w.delivered
  discarded := w.discarded
  lost := w.lost ++ w.overflow a
  refused := w.refused
  inOrder := w.inOrder.trans (List.sublist_append_left _ _)
  account := by
    classical
    rw [List.perm_iff_count]
    intro x
    have before := (List.perm_iff_count.mp w.account) x
    have split := congrArg (List.count x) (w.overflow_slid a)
    simp only [Window.enter, List.count_append] at before split ⊢
    omega

def refuse (w : Ledger α cap) (a : α) : Ledger α cap where
  toWindow := w.toWindow
  delivered := w.delivered
  discarded := w.discarded
  lost := w.lost ++ [a]
  refused := w.refused ++ [a]
  inOrder := w.inOrder
  account := by
    rw [← List.append_assoc, ← List.append_assoc]
    exact w.account.append_right [a]

def checkOut (w : Ledger α cap) (a : α) (rest : List α) (free : w.held = none)
    (front : w.items = a :: rest) : Ledger α cap where
  toWindow := w.toWindow.checkOut a rest front
  delivered := w.delivered
  discarded := w.discarded
  lost := w.lost
  refused := w.refused
  inOrder := by
    have before := w.inOrder
    rw [free, Option.toList_none, List.append_nil] at before
    exact before.append (List.Sublist.refl [a])
  account := by
    classical
    rw [List.perm_iff_count]
    intro x
    have before := (List.perm_iff_count.mp w.account) x
    rw [free, front, ← List.singleton_append] at before
    simp only [Window.checkOut, List.count_append, Option.toList_some, Option.toList_none,
      List.count_nil] at before ⊢
    omega

theorem account_settled (w : Ledger α cap) (a : α) (out : w.held = some a)
    {delivered discarded lost : List α}
    (moved : (delivered ++ discarded ++ lost).Perm
      (a :: (w.delivered ++ w.discarded ++ w.lost))) :
    (w.items ++ (none : Option α).toList ++ delivered ++ discarded ++ lost).Perm
      (w.gone ++ w.items ++ w.refused) := by
  calc
    w.items ++ (none : Option α).toList ++ delivered ++ discarded ++ lost =
        w.items ++ (delivered ++ discarded ++ lost) := by simp
    _ |>.Perm (w.items ++ (a :: (w.delivered ++ w.discarded ++ w.lost))) := moved.append_left _
    _ = w.items ++ w.held.toList ++ w.delivered ++ w.discarded ++ w.lost := by simp [out]
    _ |>.Perm (w.gone ++ w.items ++ w.refused) := w.account

def deliver (w : Ledger α cap) (a : α) (out : w.held = some a) : Ledger α cap where
  toWindow := w.toWindow.release
  delivered := w.delivered ++ [a]
  discarded := w.discarded
  lost := w.lost
  refused := w.refused
  inOrder := by
    have before := w.inOrder
    rw [out] at before
    simpa [Window.release] using before
  account := by
    apply w.account_settled a out
    simp only [List.append_assoc]
    exact List.perm_middle

theorem delivered_gone (w : Ledger α cap) : w.delivered.Sublist w.gone :=
  (List.sublist_append_left _ _).trans w.inOrder

def discard (w : Ledger α cap) (a : α) (out : w.held = some a) : Ledger α cap where
  toWindow := w.toWindow.release
  delivered := w.delivered
  discarded := w.discarded ++ [a]
  lost := w.lost
  refused := w.refused
  inOrder := by simpa [Window.release] using w.delivered_gone
  account := by
    apply w.account_settled a out
    simp only [List.append_assoc]
    rw [← List.append_assoc, ← List.append_assoc w.delivered]
    exact List.perm_middle

def putBack (w : Ledger α cap) (a : α) (out : w.held = some a) (room : w.items.length < cap) :
    Ledger α cap where
  toWindow := w.toWindow.putBack a room
  delivered := w.delivered
  discarded := w.discarded
  lost := w.lost
  refused := w.refused
  inOrder := by
    have before := w.inOrder
    rw [out, w.last_gone a out room] at before
    simpa [Window.putBack] using List.append_sublist_append_right [a] |>.mp before
  account := by
    classical
    rw [List.perm_iff_count]
    intro x
    have before := (List.perm_iff_count.mp w.account) x
    have last := congrArg (List.count x) (w.last_gone a out room)
    rw [out] at before
    rw [List.count_append] at last
    simp only [Window.putBack, List.count_append, Option.toList_some, Option.toList_none,
      List.count_nil, List.count_cons] at before last ⊢
    omega

def giveUp (w : Ledger α cap) (a : α) (out : w.held = some a) : Ledger α cap where
  toWindow := w.toWindow.release
  delivered := w.delivered
  discarded := w.discarded
  lost := w.lost ++ [a]
  refused := w.refused
  inOrder := by simpa [Window.release] using w.delivered_gone
  account := by
    apply w.account_settled a out
    rw [← List.append_assoc]
    exact List.perm_append_singleton a _

inductive Step : Ledger α cap → Ledger α cap → Prop
  | enter (w : Ledger α cap) (a : α) : Step w (w.enter a)
  | refuse (w : Ledger α cap) (a : α) : Step w (w.refuse a)
  | checkOut (w : Ledger α cap) (a : α) (rest : List α) (free : w.held = none)
      (front : w.items = a :: rest) : Step w (w.checkOut a rest free front)
  | deliver (w : Ledger α cap) (a : α) (out : w.held = some a) : Step w (w.deliver a out)
  | discard (w : Ledger α cap) (a : α) (out : w.held = some a) : Step w (w.discard a out)
  | putBack (w : Ledger α cap) (a : α) (out : w.held = some a) (room : w.items.length < cap) :
      Step w (w.putBack a out room)
  | giveUp (w : Ledger α cap) (a : α) (out : w.held = some a) (full : w.items.length = cap) :
      Step w (w.giveUp a out)

theorem delivered_entered (w : Ledger α cap) : w.delivered.Sublist w.entered :=
  w.delivered_gone.trans (List.sublist_append_left _ _)

theorem items_suffix (w : Ledger α cap) : w.items <:+ w.entered :=
  List.suffix_append _ _

theorem account_offered (w : Ledger α cap) :
    (w.items ++ w.held.toList ++ w.delivered ++ w.discarded ++ w.lost).Perm w.offered :=
  w.account

end Ledger

end SlidingWindow
