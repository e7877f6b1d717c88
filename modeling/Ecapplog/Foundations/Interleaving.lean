import Mathlib.Data.List.Induction

/-! Several sources that write into one list, each item with the tag of its source. -/

namespace Interleaving

variable {α β γ : Type*} [DecidableEq α]

def part (merged : List (α × β)) (tag : α) : List β :=
  (merged.filter fun item => decide (item.1 = tag)).map Prod.snd

theorem part_append (merged more : List (α × β)) (tag : α) :
    part (merged ++ more) tag = part merged tag ++ part more tag := by
  rw [part, part, part, List.filter_append, List.map_append]

theorem part_self (tag : α) (item : β) : part [(tag, item)] tag = [item] := by
  simp [part]

theorem part_other {tag other : α} (apart : other ≠ tag) (item : β) :
    part [(other, item)] tag = [] := by
  simp [part, apart]

theorem part_tagged (tag : α) (items : List β) :
    part (items.map fun item => (tag, item)) tag = items := by
  induction items with
  | nil => rfl
  | cons item rest ih =>
      rw [List.map_cons, ← List.singleton_append, part_append, part_self, ih]
      rfl

theorem part_untagged {tag other : α} (apart : other ≠ tag) (items : List β) :
    part (items.map fun item => (other, item)) tag = [] := by
  induction items with
  | nil => rfl
  | cons item rest ih =>
      rw [List.map_cons, ← List.singleton_append, part_append, part_other apart, ih]
      rfl

theorem part_map (f : β → γ) (merged : List (α × β)) (tag : α) :
    part (merged.map (Prod.map id f)) tag = (part merged tag).map f := by
  rw [part, part, List.filter_map, List.map_map, List.map_map]
  rfl

theorem part_filter (keeps : β → Bool) (merged : List (α × β)) (tag : α) :
    part (merged.filter fun item => keeps item.2) tag = (part merged tag).filter keeps := by
  rw [part, part, List.filter_map, List.filter_filter, List.filter_filter]
  congr 2
  funext item
  exact Bool.and_comm _ _

theorem mem_part {merged : List (α × β)} {item : α × β} (member : item ∈ merged) :
    item.2 ∈ part merged item.1 :=
  List.mem_map_of_mem (List.mem_filter.mpr ⟨member, decide_eq_true rfl⟩)

theorem part_mem {merged : List (α × β)} {tag : α} {item : β} (member : item ∈ part merged tag) :
    (tag, item) ∈ merged := by
  obtain ⟨⟨other, same⟩, kept, rfl⟩ := List.mem_map.mp member
  obtain ⟨there, tagged⟩ := List.mem_filter.mp kept
  obtain rfl : other = tag := of_decide_eq_true tagged
  exact there

/-- Each source has written a first part of what it has. -/
def From (sources : α → List β) (merged : List (α × β)) : Prop :=
  ∀ tag, part merged tag <+: sources tag

variable {sources : α → List β} {merged : List (α × β)}

theorem From.mem (drawn : From sources merged) {item : α × β} (member : item ∈ merged) :
    item.2 ∈ sources item.1 :=
  (drawn item.1).subset (mem_part member)

theorem From.next (drawn : From sources merged) {tag : α} {item : β}
    (front : part merged tag ++ [item] <+: sources tag) :
    From sources (merged ++ [(tag, item)]) := by
  intro other
  rw [part_append]
  by_cases here : tag = other
  · subst here
    rw [part_self]
    exact front
  · rw [part_other here, List.append_nil]
    exact drawn other

theorem From.lift {f : β → γ} {merged : List (α × γ)}
    (drawn : From (fun tag => (sources tag).map f) merged) :
    ∃ lifted : List (α × β), lifted.map (Prod.map id f) = merged ∧ From sources lifted := by
  induction merged using List.reverseRecOn with
  | nil => exact ⟨[], rfl, fun _ => List.nil_prefix⟩
  | append_singleton before last ih =>
      obtain ⟨tag, image⟩ := last
      have earlier : From (fun tag => (sources tag).map f) before := by
        intro other
        have whole := drawn other
        rw [part_append] at whole
        exact (List.prefix_append _ _).trans whole
      obtain ⟨lifted, rfl, from_⟩ := ih earlier
      have whole := drawn tag
      rw [part_append, part_self, part_map] at whole
      obtain ⟨front, there, same⟩ := List.prefix_map_iff.mp whole
      obtain ⟨old, new, rfl, olds, news⟩ := List.map_eq_append_iff.mp same.symm
      obtain ⟨item, rfl, rfl⟩ := List.map_eq_singleton_iff.mp news
      -- both are first parts of the source, and of one length
      have alike : old = part lifted tag := by
        have lengths : old.length = (part lifted tag).length := by
          rw [← List.length_map f, olds, List.length_map]
        have one : old <+: sources tag := (List.prefix_append _ _).trans there
        exact (List.prefix_of_prefix_length_le one (from_ tag) (Nat.le_of_eq lengths)).eq_of_length
          lengths
      rw [alike] at there
      refine ⟨lifted ++ [(tag, item)], ?_, from_.next there⟩
      rw [List.map_append]
      rfl

/-- Where the sources are in order one after the other, two items of a merge are in order, but
for the later source's being ahead. -/
theorem From.pairwise {earlier : α → α → Prop} {R : β → β → Prop} (drawn : From sources merged)
    (total : ∀ tag other, earlier tag other ∨ tag = other ∨ earlier other tag)
    (within : ∀ tag, (sources tag).Pairwise R)
    (across : ∀ tag other, earlier tag other → ∀ a ∈ sources tag, ∀ b ∈ sources other, R a b) :
    merged.Pairwise fun first second =>
      (earlier first.1 second.1 ∨ first.1 = second.1) ∧ R first.2 second.2 ∨
        earlier second.1 first.1 ∧ R second.2 first.2 := by
  apply List.pairwise_iff_forall_sublist.mpr
  intro first second both
  have one := drawn.mem (both.subset (.head _))
  have two := drawn.mem (both.subset (.tail _ (.head _)))
  rcases total first.1 second.1 with before | same | after
  · exact .inl ⟨.inl before, across _ _ before _ one _ two⟩
  · have pair : [first.2, second.2].Sublist (part merged first.1) := by
      have kept := (both.filter fun item => decide (item.1 = first.1)).map Prod.snd
      simpa [part, same] using kept
    exact .inl ⟨.inr same, List.pairwise_iff_forall_sublist.mp (within first.1)
      (pair.trans (drawn first.1).sublist)⟩
  · exact .inr ⟨after, across _ _ after _ two _ one⟩

end Interleaving
