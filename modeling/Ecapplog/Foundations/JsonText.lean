import Mathlib.Algebra.GroupWithZero.Nat
import Mathlib.Data.List.Basic
import Mathlib.Data.Option.Basic

/-! JSON texts made of strings, arrays and objects: a compact writer over any
escaping of characters, a reader, and the round trip between them. -/

namespace JsonText

inductive Value where
  | str (text : String)
  | arr (items : List Value)
  | obj (fields : List (String × Value))

def shortEscape : Char → Option Char
  | '"' => some '"'
  | '\\' => some '\\'
  | '/' => some '/'
  | 'b' => some (Char.ofNat 8)
  | 'f' => some (Char.ofNat 12)
  | 'n' => some '\n'
  | 'r' => some '\r'
  | 't' => some '\t'
  | _ => none

def hexDigit (c : Char) : Option Nat :=
  if '0' ≤ c ∧ c ≤ '9' then some (c.toNat - 48)
  else if 'a' ≤ c ∧ c ≤ 'f' then some (c.toNat - 87)
  else if 'A' ≤ c ∧ c ≤ 'F' then some (c.toNat - 55)
  else none

def hexEscape (a b c d : Char) : Option Char := do
  let a ← hexDigit a
  let b ← hexDigit b
  let c ← hexDigit c
  let d ← hexDigit d
  let code := ((a * 16 + b) * 16 + c) * 16 + d
  if code.isValidChar then some (Char.ofNat code) else none

/-- `text` is one of the ways a JSON string may spell `c`. -/
inductive Spells (c : Char) : List Char → Prop where
  | verbatim (notQuote : c ≠ '"') (notBackslash : c ≠ '\\') (notControl : 0x20 ≤ c.toNat) :
      Spells c [c]
  | short (mark : Char) (meaning : shortEscape mark = some c) : Spells c ['\\', mark]
  | hex (h₁ h₂ h₃ h₄ : Char) (meaning : hexEscape h₁ h₂ h₃ h₄ = some c) :
      Spells c ['\\', 'u', h₁, h₂, h₃, h₄]

section Writer

variable (escape : Char → List Char)

def quoted (text : String) : List Char :=
  '"' :: (text.toList.flatMap escape ++ ['"'])

mutual

def write : Value → List Char
  | .str text => quoted escape text
  | .arr items => '[' :: writeItems items
  | .obj fields => '{' :: writeFields fields

def writeItems : List Value → List Char
  | [] => [']']
  | [item] => write item ++ [']']
  | item :: next :: rest => write item ++ ',' :: writeItems (next :: rest)

def writeFields : List (String × Value) → List Char
  | [] => ['}']
  | [(key, value)] => quoted escape key ++ ':' :: (write value ++ ['}'])
  | (key, value) :: next :: rest =>
      quoted escape key ++ ':' :: (write value ++ ',' :: writeFields (next :: rest))

end

end Writer

def readString : List Char → Option (List Char × List Char)
  | [] => none
  | '"' :: rest => some ([], rest)
  | '\\' :: 'u' :: a :: b :: c :: d :: rest => do
      let first ← hexEscape a b c d
      let (text, after) ← readString rest
      some (first :: text, after)
  | '\\' :: mark :: rest => do
      let first ← shortEscape mark
      let (text, after) ← readString rest
      some (first :: text, after)
  | c :: rest =>
      if c = '\\' ∨ c.toNat < 0x20 then none
      else do
        let (text, after) ← readString rest
        some (c :: text, after)

mutual

/-- One value and what follows it. The fuel bounds the nesting and the length. -/
def readValue : Nat → List Char → Option (Value × List Char)
  | 0, _ => none
  | _ + 1, '"' :: rest => do
      let (text, after) ← readString rest
      some (.str (String.ofList text), after)
  | fuel + 1, '[' :: rest => do
      let (items, after) ← readItems fuel rest
      some (.arr items, after)
  | fuel + 1, '{' :: rest => do
      let (fields, after) ← readFields fuel rest
      some (.obj fields, after)
  | _ + 1, _ => none

def readItems : Nat → List Char → Option (List Value × List Char)
  | 0, _ => none
  | _ + 1, ']' :: rest => some ([], rest)
  | fuel + 1, text => do
      let (item, after) ← readValue fuel text
      match after with
      | ',' :: more => do
          let (items, rest) ← readItems fuel more
          some (item :: items, rest)
      | ']' :: rest => some ([item], rest)
      | _ => none

def readFields : Nat → List Char → Option (List (String × Value) × List Char)
  | 0, _ => none
  | _ + 1, '}' :: rest => some ([], rest)
  | fuel + 1, '"' :: text => do
      let (key, after) ← readString text
      match after with
      | ':' :: body => do
          let (value, after) ← readValue fuel body
          match after with
          | ',' :: more => do
              let (fields, rest) ← readFields fuel more
              some ((String.ofList key, value) :: fields, rest)
          | '}' :: rest => some ([(String.ofList key, value)], rest)
          | _ => none
      | _ => none
  | _ + 1, _ => none

end

def read (text : List Char) : Option Value :=
  match readValue (text.length + 1) text with
  | some (value, []) => some value
  | _ => none

theorem write_head (escape : Char → List Char) (v : Value) :
    ∃ c tail, write escape v = c :: tail ∧ c ≠ ']' := by
  cases v with
  | str text => exact ⟨'"', _, by rw [write, quoted], by decide⟩
  | arr items => exact ⟨'[', _, by rw [write], by decide⟩
  | obj fields => exact ⟨'{', _, by rw [write], by decide⟩

theorem readItems_other (escape : Char → List Char) (fuel : Nat) (v : Value) (rest : List Char) :
    readItems (fuel + 1) (write escape v ++ rest) =
      (readValue fuel (write escape v ++ rest)).bind (fun p =>
        match p.2 with
        | ',' :: more => (readItems fuel more).bind (fun q => some (p.1 :: q.1, q.2))
        | ']' :: rest => some ([p.1], rest)
        | _ => none) := by
  obtain ⟨c, tail, head, notClose⟩ := write_head escape v
  rw [head, List.cons_append, readItems]
  · rfl
  · exact fun _ closes => notClose (List.cons.inj closes).1

theorem readString_spells {c : Char} {spelt : List Char} (spells : Spells c spelt)
    (rest : List Char) :
    readString (spelt ++ rest) = (readString rest).bind (fun p => some (c :: p.1, p.2)) := by
  cases spells with
  | verbatim notQuote notBackslash notControl =>
      have printable : ¬ (c = '\\' ∨ c.toNat < 0x20) := by
        rintro (backslash | control)
        · exact notBackslash backslash
        · omega
      rw [List.singleton_append, readString]
      · rw [if_neg printable]
        rfl
      · exact fun quote => notQuote quote
      · exact fun _ _ _ _ _ backslash _ => notBackslash backslash
      · exact fun _ _ backslash _ => notBackslash backslash
  | short mark meaning =>
      have notHex : mark ≠ 'u' := by
        rintro rfl
        simp [shortEscape] at meaning
      rw [List.cons_append, List.singleton_append, readString]
      · rw [meaning]
        rfl
      · exact fun _ _ _ _ _ isHex _ => notHex isHex
  | hex h₁ h₂ h₃ h₄ meaning =>
      simp only [List.cons_append, List.nil_append, readString, meaning]
      rfl

section RoundTrip

variable {escape : Char → List Char}

theorem readString_escaped (legal : ∀ c, Spells c (escape c)) (text rest : List Char) :
    readString (text.flatMap escape ++ '"' :: rest) = some (text, rest) := by
  induction text with
  | nil => rw [List.flatMap_nil, List.nil_append, readString]
  | cons c text ih =>
      rw [List.flatMap_cons, List.append_assoc, readString_spells (legal c), ih]
      rfl

theorem readString_quoted (legal : ∀ c, Spells c (escape c)) (text : String)
    (rest : List Char) :
    readString (text.toList.flatMap escape ++ '"' :: rest) = some (text.toList, rest) :=
  readString_escaped legal text.toList rest

mutual

theorem readValue_write (legal : ∀ c, Spells c (escape c)) (v : Value) (fuel : Nat)
    (rest : List Char) (enough : (write escape v).length ≤ fuel) :
    readValue fuel (write escape v ++ rest) = some (v, rest) := by
  cases fuel with
  | zero =>
      obtain ⟨c, tail, head, _⟩ := write_head escape v
      rw [head] at enough
      cases enough
  | succ fuel =>
      match v with
      | .str text =>
          simp only [write, quoted, List.cons_append, List.append_assoc, List.nil_append, readValue]
          rw [readString_quoted legal]
          simp
      | .arr items =>
          rw [write, List.length_cons] at enough
          simp only [write, List.cons_append, readValue]
          rw [readItems_write legal items fuel rest (by omega)]
          rfl
      | .obj fields =>
          rw [write, List.length_cons] at enough
          simp only [write, List.cons_append, readValue]
          rw [readFields_write legal fields fuel rest (by omega)]
          rfl

theorem readItems_write (legal : ∀ c, Spells c (escape c)) (items : List Value) (fuel : Nat)
    (rest : List Char) (enough : (writeItems escape items).length ≤ fuel) :
    readItems fuel (writeItems escape items ++ rest) = some (items, rest) := by
  match items, fuel with
  | [], 0 => simp [writeItems] at enough
  | [], fuel + 1 => rfl
  | [item], 0 => simp [writeItems] at enough
  | [item], fuel + 1 =>
      simp only [writeItems, List.length_append, List.length_singleton] at enough
      rw [writeItems, List.append_assoc, readItems_other escape,
        readValue_write legal item fuel _ (by omega)]
      rfl
  | item :: next :: more, 0 => simp [writeItems] at enough
  | item :: next :: more, fuel + 1 =>
      simp only [writeItems, List.length_append, List.length_cons] at enough
      rw [writeItems, List.append_assoc, readItems_other escape,
        readValue_write legal item fuel _ (by omega)]
      simp only [List.cons_append, Option.bind_some]
      rw [readItems_write legal (next :: more) fuel rest (by omega)]
      rfl

theorem readFields_write (legal : ∀ c, Spells c (escape c)) (fields : List (String × Value))
    (fuel : Nat) (rest : List Char) (enough : (writeFields escape fields).length ≤ fuel) :
    readFields fuel (writeFields escape fields ++ rest) = some (fields, rest) := by
  match fields, fuel with
  | [], 0 => simp [writeFields] at enough
  | [], fuel + 1 => rfl
  | [(key, value)], 0 => simp [writeFields, quoted] at enough
  | [(key, value)], fuel + 1 =>
      simp only [writeFields, quoted, List.length_append, List.length_cons,
        List.length_nil] at enough
      simp only [writeFields, quoted, List.cons_append, List.append_assoc, List.nil_append,
        readFields, readString_quoted legal, Option.bind_eq_bind, Option.bind_some]
      rw [readValue_write legal value fuel _ (by omega)]
      simp
  | (key, value) :: next :: more, 0 => simp [writeFields, quoted] at enough
  | (key, value) :: next :: more, fuel + 1 =>
      simp only [writeFields, quoted, List.length_append, List.length_cons,
        List.length_nil] at enough
      simp only [writeFields, quoted, List.cons_append, List.append_assoc, List.nil_append,
        readFields, readString_quoted legal, Option.bind_eq_bind, Option.bind_some]
      rw [readValue_write legal value fuel _ (by omega)]
      simp only [Option.bind_some]
      rw [readFields_write legal (next :: more) fuel rest (by omega)]
      simp

end

theorem read_write (legal : ∀ c, Spells c (escape c)) (v : Value) :
    read (write escape v) = some v := by
  have back := readValue_write legal v ((write escape v).length + 1) [] (Nat.le_succ _)
  rw [List.append_nil] at back
  rw [read, back]

end RoundTrip

def size (text : List Char) : Nat := (text.map Char.utf8Size).sum

@[simp] theorem size_nil : size [] = 0 := rfl

@[simp] theorem size_cons (c : Char) (text : List Char) :
    size (c :: text) = c.utf8Size + size text := by
  rw [size, List.map_cons, List.sum_cons, size]

@[simp] theorem size_append (text more : List Char) :
    size (text ++ more) = size text + size more := by
  rw [size, List.map_append, List.sum_append, size, size]

mutual

def bulk : Value → Nat
  | .str text => size text.toList
  | .arr items => bulkItems items
  | .obj fields => bulkFields fields

def bulkItems : List Value → Nat
  | [] => 0
  | item :: rest => bulk item + bulkItems rest

def bulkFields : List (String × Value) → Nat
  | [] => 0
  | (key, value) :: rest => size key.toList + bulk value + bulkFields rest

end

mutual

def marks : Value → Nat
  | .str _ => 2
  | .arr items => 1 + marksItems items
  | .obj fields => 1 + marksFields fields

def marksItems : List Value → Nat
  | [] => 1
  | [item] => marks item + 1
  | item :: next :: rest => marks item + 1 + marksItems (next :: rest)

def marksFields : List (String × Value) → Nat
  | [] => 1
  | [(_, value)] => 3 + marks value + 1
  | (_, value) :: next :: rest => 3 + marks value + 1 + marksFields (next :: rest)

end

theorem bulkItems_eq (items : List Value) : bulkItems items = (items.map bulk).sum := by
  induction items with
  | nil => rw [bulkItems, List.map_nil, List.sum_nil]
  | cons item rest ih => rw [bulkItems, ih, List.map_cons, List.sum_cons]

theorem bulkFields_append (fields more : List (String × Value)) :
    bulkFields (fields ++ more) = bulkFields fields + bulkFields more := by
  induction fields with
  | nil => rw [List.nil_append, bulkFields, Nat.zero_add]
  | cons field rest ih =>
      obtain ⟨key, value⟩ := field
      rw [List.cons_append, bulkFields, bulkFields, ih]
      omega

theorem marksItems_le (items : List Value) :
    marksItems items ≤ 1 + (items.map fun item => marks item + 1).sum := by
  induction items with
  | nil => exact Nat.le_refl _
  | cons item rest ih =>
      cases rest with
      | nil => simp [marksItems]
      | cons next rest =>
          rw [marksItems, List.map_cons, List.sum_cons]
          omega

theorem marksFields_le (fields : List (String × Value)) :
    marksFields fields ≤ 1 + (fields.map fun field => marks field.2 + 4).sum := by
  induction fields with
  | nil => exact Nat.le_refl _
  | cons field rest ih =>
      cases rest with
      | nil =>
          simp [marksFields]
          omega
      | cons next rest =>
          rw [marksFields, List.map_cons, List.sum_cons]
          omega

/-- `total` is made of the marks, and of the bulk at one to six times its own bytes. -/
structure Spread (marks bulk total : Nat) : Prop where
  least : marks + bulk ≤ total
  most : total ≤ marks + 6 * bulk

theorem hexDigit_size {c : Char} {n : Nat} (digit : hexDigit c = some n) : c.utf8Size = 1 := by
  rw [Char.utf8Size_eq_one_iff]
  have below (limit : Char) (small : limit.val ≤ 127) (order : c ≤ limit) : c.val ≤ 127 :=
    UInt32.le_trans order small
  unfold hexDigit at digit
  split at digit
  · rename_i range
    exact below '9' (by decide) range.2
  · split at digit
    · rename_i range
      exact below 'f' (by decide) range.2
    · split at digit
      · rename_i range
        exact below 'F' (by decide) range.2
      · cases digit

theorem hexEscape_size {c h₁ h₂ h₃ h₄ : Char} (meaning : hexEscape h₁ h₂ h₃ h₄ = some c) :
    size ['\\', 'u', h₁, h₂, h₃, h₄] = 6 := by
  simp only [hexEscape, Option.bind_eq_bind, Option.bind_eq_some_iff] at meaning
  obtain ⟨_, first, _, second, _, third, _, fourth, _⟩ := meaning
  simp [hexDigit_size first, hexDigit_size second, hexDigit_size third, hexDigit_size fourth]
  decide

theorem shortEscape_size {c mark : Char} (meaning : shortEscape mark = some c) :
    mark.utf8Size = 1 ∧ c.utf8Size = 1 := by
  unfold shortEscape at meaning
  split at meaning <;> cases meaning <;> exact ⟨by decide, by decide⟩

theorem Spells.spread {c : Char} {spelt : List Char} (spells : Spells c spelt) :
    Spread 0 c.utf8Size (size spelt) := by
  have least := c.utf8Size_pos
  have most := c.utf8Size_le_four
  cases spells with
  | verbatim =>
      rw [size_cons, size_nil]
      constructor <;> omega
  | short mark meaning =>
      obtain ⟨ofMark, ofChar⟩ := shortEscape_size meaning
      have ofBackslash : '\\'.utf8Size = 1 := by decide
      rw [size_cons, size_cons, size_nil, ofMark, ofChar, ofBackslash]
      constructor <;> omega
  | hex h₁ h₂ h₃ h₄ meaning =>
      rw [hexEscape_size meaning]
      constructor <;> omega

section Size

variable {escape : Char → List Char}

theorem escaped_spread (legal : ∀ c, Spells c (escape c)) (text : List Char) :
    Spread 0 (size text) (size (text.flatMap escape)) := by
  induction text with
  | nil => exact ⟨Nat.le_refl _, Nat.le_refl _⟩
  | cons c text ih =>
      have ⟨least, most⟩ := (legal c).spread
      have ⟨least', most'⟩ := ih
      rw [List.flatMap_cons, size_append, size_cons]
      constructor <;> omega

theorem quoted_spread (legal : ∀ c, Spells c (escape c)) (text : String) :
    Spread 2 (size text.toList) (size (quoted escape text)) := by
  have ⟨least, most⟩ := escaped_spread legal text.toList
  have ofQuote : '"'.utf8Size = 1 := by decide
  rw [quoted, size_cons, size_append, size_cons, size_nil, ofQuote]
  constructor <;> omega

mutual

theorem write_spread (legal : ∀ c, Spells c (escape c)) (v : Value) :
    Spread (marks v) (bulk v) (size (write escape v)) := by
  match v with
  | .str text =>
      rw [marks, bulk, write]
      exact quoted_spread legal text
  | .arr items =>
      have ⟨least, most⟩ := writeItems_spread legal items
      have ofBracket : '['.utf8Size = 1 := by decide
      rw [marks, bulk, write, size_cons, ofBracket]
      constructor <;> omega
  | .obj fields =>
      have ⟨least, most⟩ := writeFields_spread legal fields
      have ofBrace : '{'.utf8Size = 1 := by decide
      rw [marks, bulk, write, size_cons, ofBrace]
      constructor <;> omega

theorem writeItems_spread (legal : ∀ c, Spells c (escape c)) (items : List Value) :
    Spread (marksItems items) (bulkItems items) (size (writeItems escape items)) := by
  have ofBracket : ']'.utf8Size = 1 := by decide
  match items with
  | [] =>
      rw [marksItems, bulkItems, writeItems, size_cons, size_nil, ofBracket]
      constructor <;> omega
  | [item] =>
      have ⟨least, most⟩ := write_spread legal item
      rw [marksItems, bulkItems, bulkItems, writeItems, size_append, size_cons, size_nil, ofBracket]
      constructor <;> omega
  | item :: next :: rest =>
      have ⟨least, most⟩ := write_spread legal item
      have ⟨least', most'⟩ := writeItems_spread legal (next :: rest)
      have ofComma : ','.utf8Size = 1 := by decide
      rw [marksItems, bulkItems, writeItems, size_append, size_cons, ofComma]
      constructor <;> omega

theorem writeFields_spread (legal : ∀ c, Spells c (escape c)) (fields : List (String × Value)) :
    Spread (marksFields fields) (bulkFields fields) (size (writeFields escape fields)) := by
  have ofColon : ':'.utf8Size = 1 := by decide
  have ofBrace : '}'.utf8Size = 1 := by decide
  match fields with
  | [] =>
      rw [marksFields, bulkFields, writeFields, size_cons, size_nil, ofBrace]
      constructor <;> omega
  | [(key, value)] =>
      have ⟨least, most⟩ := quoted_spread legal key
      have ⟨least', most'⟩ := write_spread legal value
      rw [marksFields, bulkFields, bulkFields, writeFields, size_append, size_cons, size_append,
        size_cons, size_nil, ofColon, ofBrace]
      constructor <;> omega
  | (key, value) :: next :: rest =>
      have ⟨least, most⟩ := quoted_spread legal key
      have ⟨least', most'⟩ := write_spread legal value
      have ⟨least'', most''⟩ := writeFields_spread legal (next :: rest)
      have ofComma : ','.utf8Size = 1 := by decide
      rw [marksFields, bulkFields, writeFields, size_append, size_cons, size_append, size_cons,
        ofColon, ofComma]
      constructor <;> omega

end

end Size

end JsonText
