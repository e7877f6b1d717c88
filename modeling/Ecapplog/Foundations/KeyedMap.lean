import Mathlib.Data.List.Pairwise
import Mathlib.Data.Option.Basic
import Mathlib.Logic.Basic
import Mathlib.Order.Basic
import Mathlib.Order.Lattice

/-! Maps as lists of entries in ascending order of their keys, so that equal maps have
equal entries; an insertion replaces the value under its key. -/

structure KeyedMap (κ ν : Type*) [LinearOrder κ] where
  entries : List (κ × ν)
  ascending : entries.Pairwise fun a b => a.1 < b.1

namespace KeyedMap

variable {κ ν : Type*} [LinearOrder κ]

def empty : KeyedMap κ ν := ⟨[], .nil⟩

def isEmpty (m : KeyedMap κ ν) : Bool := m.entries.isEmpty

def find (m : KeyedMap κ ν) (key : κ) : Option ν := m.entries.lookup key

def last (key : κ) (pairs : List (κ × ν)) : Option ν := pairs.reverse.lookup key

def insertEntry (key : κ) (value : ν) : List (κ × ν) → List (κ × ν)
  | [] => [(key, value)]
  | (k, old) :: rest =>
      if key < k then (key, value) :: (k, old) :: rest
      else if key = k then (key, value) :: rest
      else (k, old) :: insertEntry key value rest

theorem lookup_cons (key : κ) (pair : κ × ν) (rest : List (κ × ν)) :
    (pair :: rest).lookup key = if key = pair.1 then some pair.2 else rest.lookup key := by
  by_cases here : key = pair.1
  · rw [List.lookup_cons, beq_iff_eq.mpr here, if_pos here]
  · rw [List.lookup_cons, beq_false_of_ne here, if_neg here]

theorem lookup_eq_some {key : κ} {value : ν} {pairs : List (κ × ν)}
    (distinct : (pairs.map Prod.fst).Nodup) :
    pairs.lookup key = some value ↔ (key, value) ∈ pairs := by
  rw [List.lookup_eq_some_iff]
  constructor
  · rintro ⟨before, after, rfl, _⟩
    simp
  · intro member
    rcases List.append_of_mem member with ⟨before, after, rfl⟩
    refine ⟨before, after, rfl, ?_⟩
    intro pair earlier
    rw [List.map_append, List.nodup_append] at distinct
    have other := distinct.2.2 pair.1 (List.mem_map_of_mem earlier) key (by simp)
    exact bne_iff_ne.mpr (Ne.symm other)

theorem last_append (key : κ) (pairs more : List (κ × ν)) :
    last key (pairs ++ more) = (last key more).or (last key pairs) := by
  rw [last, List.reverse_append, List.lookup_append]
  rfl

theorem last_cons (key : κ) (pair : κ × ν) (rest : List (κ × ν)) :
    last key (pair :: rest) =
      (last key rest).or (if key = pair.1 then some pair.2 else none) := by
  rw [← List.singleton_append, last_append]
  exact congrArg (Option.or _) (lookup_cons key pair [])

theorem last_eq_none {key : κ} {pairs : List (κ × ν)} :
    last key pairs = none ↔ ∀ pair ∈ pairs, pair.1 ≠ key := by
  rw [last, List.lookup_eq_none_iff]
  simp only [List.mem_reverse, bne_iff_ne]
  exact ⟨fun other pair member => Ne.symm (other pair member),
    fun other pair member => Ne.symm (other pair member)⟩

theorem last_eq_some {key : κ} {value : ν} {pairs : List (κ × ν)}
    (distinct : (pairs.map Prod.fst).Nodup) :
    last key pairs = some value ↔ (key, value) ∈ pairs := by
  rw [last, lookup_eq_some, List.mem_reverse]
  rw [List.map_reverse]
  exact (List.reverse_perm _).nodup_iff.mpr distinct

theorem mem_insertEntry {key : κ} {value : ν} {entries : List (κ × ν)} {entry : κ × ν}
    (member : entry ∈ insertEntry key value entries) : entry = (key, value) ∨ entry ∈ entries := by
  induction entries with
  | nil => exact .inl (by simpa [insertEntry] using member)
  | cons head rest ih =>
      rcases head with ⟨k, old⟩
      simp only [insertEntry] at member
      split at member
      · simpa using member
      · split at member
        · rcases List.mem_cons.mp member with new | kept
          · exact .inl new
          · exact .inr (.tail _ kept)
        · rcases List.mem_cons.mp member with same | later
          · exact .inr (same ▸ .head _)
          · rcases ih later with new | kept
            · exact .inl new
            · exact .inr (.tail _ kept)

theorem insertEntry_ascending (key : κ) (value : ν) {entries : List (κ × ν)}
    (ascending : entries.Pairwise fun a b => a.1 < b.1) :
    (insertEntry key value entries).Pairwise fun a b => a.1 < b.1 := by
  induction entries with
  | nil => exact List.pairwise_singleton _ _
  | cons head rest ih =>
      rcases head with ⟨k, old⟩
      rcases List.pairwise_cons.mp ascending with ⟨least, sorted⟩
      simp only [insertEntry]
      split
      case isTrue before =>
          refine List.pairwise_cons.mpr ⟨?_, ascending⟩
          intro entry member
          rcases List.mem_cons.mp member with same | later
          · exact same ▸ before
          · exact lt_trans before (least entry later)
      case isFalse notBefore =>
          split
          case isTrue same =>
              refine List.pairwise_cons.mpr ⟨?_, sorted⟩
              intro entry member
              exact same ▸ least entry member
          case isFalse other =>
              refine List.pairwise_cons.mpr ⟨?_, ih sorted⟩
              intro entry member
              rcases mem_insertEntry member with new | kept
              · rw [new]
                exact lt_of_le_of_ne (not_lt.mp notBefore) (Ne.symm other)
              · exact least entry kept

def insert (m : KeyedMap κ ν) (key : κ) (value : ν) : KeyedMap κ ν :=
  ⟨insertEntry key value m.entries, insertEntry_ascending key value m.ascending⟩

def insertSome (m : KeyedMap κ ν) (key : κ) : Option ν → KeyedMap κ ν
  | some value => m.insert key value
  | none => m

def insertAll (m : KeyedMap κ ν) (pairs : List (κ × ν)) : KeyedMap κ ν :=
  pairs.foldl (fun m pair => m.insert pair.1 pair.2) m

theorem lookup_insertEntry (key : κ) (value : ν) (entries : List (κ × ν)) (other : κ) :
    (insertEntry key value entries).lookup other =
      if other = key then some value else entries.lookup other := by
  induction entries with
  | nil => exact lookup_cons other (key, value) []
  | cons head rest ih =>
      rcases head with ⟨k, old⟩
      simp only [insertEntry]
      split
      case isTrue => exact lookup_cons other (key, value) _
      case isFalse =>
          split
          case isTrue same =>
              rw [lookup_cons, lookup_cons, same]
              split <;> rfl
          case isFalse different =>
              rw [lookup_cons, lookup_cons, ih]
              split
              case isTrue here => rw [if_neg (fun same => different (same.symm.trans here))]
              case isFalse => rfl

@[simp] theorem find_empty (key : κ) : (empty : KeyedMap κ ν).find key = none := rfl

theorem find_insert (m : KeyedMap κ ν) (key : κ) (value : ν) (other : κ) :
    (m.insert key value).find other = if other = key then some value else m.find other :=
  lookup_insertEntry key value m.entries other

theorem find_insertSome (m : KeyedMap κ ν) (key : κ) (value : Option ν) (other : κ) :
    (m.insertSome key value).find other =
      if other = key then value.or (m.find other) else m.find other := by
  cases value with
  | some value => exact find_insert m key value other
  | none => exact (ite_self _).symm

theorem insertAll_append (m : KeyedMap κ ν) (pairs more : List (κ × ν)) :
    m.insertAll (pairs ++ more) = (m.insertAll pairs).insertAll more :=
  List.foldl_append

theorem find_insertAll (m : KeyedMap κ ν) (pairs : List (κ × ν)) (key : κ) :
    (m.insertAll pairs).find key = (last key pairs).or (m.find key) := by
  induction pairs generalizing m with
  | nil => rfl
  | cons pair rest ih =>
      change ((m.insert pair.1 pair.2).insertAll rest).find key = _
      rw [ih, find_insert, last_cons, Option.or_assoc]
      split <;> rfl

theorem mem_entries {m : KeyedMap κ ν} {key : κ} {value : ν} :
    (key, value) ∈ m.entries ↔ m.find key = some value :=
  (lookup_eq_some (List.pairwise_map.mpr (m.ascending.imp ne_of_lt))).symm

theorem ext_entries {m m' : KeyedMap κ ν} (same : m.entries = m'.entries) : m = m' := by
  cases m
  cases m'
  cases same
  rfl

theorem ext_find {m m' : KeyedMap κ ν} (same : ∀ key, m.find key = m'.find key) : m = m' := by
  apply ext_entries
  have members (entry : κ × ν) : entry ∈ m.entries ↔ entry ∈ m'.entries := by
    rw [mem_entries, mem_entries, same]
  have unique (n : KeyedMap κ ν) : n.entries.Nodup := n.ascending.imp fun before same =>
    absurd (same ▸ before) (lt_irrefl _)
  exact ((List.perm_ext_iff_of_nodup (unique m) (unique m')).mpr members).eq_of_pairwise
    (fun a b _ _ before after => absurd (lt_trans before after) (lt_irrefl _))
    m.ascending m'.ascending

theorem isEmpty_iff {m : KeyedMap κ ν} : m.isEmpty = true ↔ m = empty := by
  rw [isEmpty, List.isEmpty_iff]
  exact ⟨fun bare => ext_entries bare, fun same => same ▸ rfl⟩

theorem insertAll_again (m : KeyedMap κ ν) (pairs : List (κ × ν)) :
    (m.insertAll pairs).insertAll pairs = m.insertAll pairs := by
  apply ext_find
  intro key
  rw [find_insertAll, find_insertAll, ← Option.or_assoc, Option.or_self]

end KeyedMap
