import Ecapplog.Payload

/-! The chained calls that assemble a record, and what is left of them on the wire. -/

namespace Ecapplog

variable {serde : SerdeJson} {escape : Char → List Char}

namespace Record

inductive Setter where
  /-- `Record::at`. -/
  | time (time : SystemTime)
  | source (source : String)
  | originalCategory (originalCategory : String)
  | extraCategory (category : String)
  | extraCategories (categories : List String)
  | color (color : String)
  | bgColor (bgColor : String)

def set (record : Record) : Setter → Record
  | .time time => { record with time := time }
  | .source source => { record with source := source }
  | .originalCategory originalCategory => { record with originalCategory := originalCategory }
  | .extraCategory category =>
      { record with extraCategories := record.extraCategories ++ [category] }
  | .extraCategories categories =>
      { record with extraCategories := record.extraCategories ++ categories }
  | .color color => { record with color := color }
  | .bgColor bgColor => { record with bgColor := bgColor }

def chain (record : Record) (calls : List Setter) : Record := calls.foldl set record

namespace Setter

/-! What a call sets, if it is of the method. -/

def time? : Setter → Option SystemTime
  | .time value => some value
  | _ => none

def source? : Setter → Option String
  | .source value => some value
  | _ => none

def originalCategory? : Setter → Option String
  | .originalCategory value => some value
  | _ => none

def color? : Setter → Option String
  | .color value => some value
  | _ => none

def bgColor? : Setter → Option String
  | .bgColor value => some value
  | _ => none

def adds : Setter → List String
  | .extraCategory category => [category]
  | .extraCategories categories => categories
  | _ => []

/-- What the last of the calls that set something has set. -/
def last {β : Type} (sets : Setter → Option β) (calls : List Setter) (unset : β) : β :=
  (calls.filterMap sets).getLastD unset

theorem last_cons {β : Type} (sets : Setter → Option β) (call : Setter) (calls : List Setter)
    (unset : β) : last sets (call :: calls) unset = last sets calls ((sets call).getD unset) := by
  unfold last
  cases here : sets call with
  | none =>
      rw [List.filterMap_cons_none here]
      rfl
  | some value =>
      rw [List.filterMap_cons_some here, List.getLastD_cons]
      rfl

end Setter

open Setter (last)

theorem chain_eq (record : Record) (calls : List Setter) :
    record.chain calls =
      { record with
        time := last Setter.time? calls record.time
        source := last Setter.source? calls record.source
        originalCategory := last Setter.originalCategory? calls record.originalCategory
        extraCategories := record.extraCategories ++ calls.flatMap Setter.adds
        color := last Setter.color? calls record.color
        bgColor := last Setter.bgColor? calls record.bgColor } := by
  induction calls generalizing record with
  | nil =>
      rw [List.flatMap_nil, List.append_nil]
      rfl
  | cons call calls ih =>
      have onward : record.chain (call :: calls) = (record.set call).chain calls := rfl
      simp only [onward, ih, Setter.last_cons, List.flatMap_cons, ← List.append_assoc]
      cases call with
      | extraCategory category => rfl
      | extraCategories categories => rfl
      | _ =>
          simp only [Setter.adds, List.append_nil]
          rfl

end Record

theorem sameOnWire_iff (r r' : Record) :
    LogPayload.fromRecord r = LogPayload.fromRecord r' ↔ SameOnWire r r' := by
  constructor
  · intro same
    have back := fields_readBack r'
    rw [← same] at back
    exact (fields_readBack r).sameOnWire back
  · intro same
    simp only [LogPayload.fromRecord, same.time, same.priority, same.category, same.message,
      same.source, same.original, same.extra, same.color, same.bgcolor]

open Record (Setter)
open Record.Setter (last)

/-- Two chains of calls are the same to the server exactly if each method was last called
alike, with times of the same millisecond, and the extra categories were added in the same
order, however the calls were grouped and mixed. -/
theorem chains_alike_iff (documented : serde.Documented escape) (record : Record)
    (calls others : List Setter) :
    serde.toWriter (.fromRecord (record.chain calls)) =
        serde.toWriter (.fromRecord (record.chain others)) ↔
      formatUtc (last Setter.time? calls record.time) =
          formatUtc (last Setter.time? others record.time) ∧
        last Setter.source? calls record.source = last Setter.source? others record.source ∧
        last Setter.originalCategory? calls record.originalCategory =
          last Setter.originalCategory? others record.originalCategory ∧
        calls.flatMap Setter.adds = others.flatMap Setter.adds ∧
        last Setter.color? calls record.color = last Setter.color? others record.color ∧
        last Setter.bgColor? calls record.bgColor = last Setter.bgColor? others record.bgColor := by
  constructor
  · intro same
    have first := (toWriter_readBack documented (record.chain calls)).2
    rw [same, (toWriter_readBack documented (record.chain others)).2] at first
    have back := fields_readBack (record.chain calls)
    rw [← Option.some.inj first] at back
    have alike := back.sameOnWire (fields_readBack (record.chain others))
    rw [Record.chain_eq, Record.chain_eq] at alike
    exact ⟨alike.time, alike.source, alike.original, List.append_cancel_left alike.extra,
      alike.color, alike.bgcolor⟩
  · rintro ⟨time, source, original, extra, color, bgcolor⟩
    apply congrArg serde.toWriter
    apply (sameOnWire_iff _ _).mpr
    rw [Record.chain_eq, Record.chain_eq]
    exact
      { time := time
        priority := rfl
        category := rfl
        message := rfl
        source := source
        original := original
        extra := congrArg (record.extraCategories ++ ·) extra
        color := color
        bgcolor := bgcolor }

theorem chains_alike_mixed :
    let record := Record.new 0 .error "app" "could not open the database"
    let calls : List Setter := [.source "main.rs", .extraCategories ["db", "disk"], .color "red"]
    compactSerde.toWriter (.fromRecord (record.chain calls)) =
        compactSerde.toWriter (.fromRecord (record.chain
          [.color "blue", .extraCategory "db", .color "red", .time 999999,
            .extraCategory "disk", .source "main.rs"])) ∧
      compactSerde.toWriter (.fromRecord (record.chain calls)) ≠
        compactSerde.toWriter (.fromRecord (record.chain
          [.source "main.rs", .extraCategories ["disk", "db"], .color "red"])) := by
  refine ⟨(chains_alike_iff compactSerde_documented _ _ _).mpr ?_, fun same => ?_⟩
  · exact ⟨rfl, rfl, rfl, rfl, rfl, rfl⟩
  · have added := ((chains_alike_iff compactSerde_documented _ _ _).mp same).2.2.2.1
    exact absurd added (by decide)

end Ecapplog
