import Ecapplog.Proto

/-! How priorities are read and classified, against the string that the server sees. -/

namespace Ecapplog

def toAsciiUppercase (text : String) : String :=
  String.ofList (text.toList.map Char.toUpper)

/-- What the server compares the priority with, to find the errors. -/
def errorNames : List String := ["FATAL", "CRITICAL", "ERROR"]

def alarmNames : List String := "WARNING" :: errorNames

namespace Priority

def isError : Priority → Bool
  | .fatal => true
  | .critical => true
  | .error => true
  | _ => false

def isErrorOrWarning (priority : Priority) : Bool :=
  priority.isError || priority == .warning

def all : List Priority :=
  [.trace, .debug, .information, .notice, .warning, .fatal, .critical, .error]

def fromStr (text : String) : Priority :=
  match toAsciiUppercase text with
  | "TRACE" => .trace
  | "DEBUG" => .debug
  | "INFORMATION" => .information
  | "NOTICE" => .notice
  | "WARNING" => .warning
  | "FATAL" => .fatal
  | "CRITICAL" => .critical
  | "ERROR" => .error
  | _ => .custom text

/-- A custom priority that spells the name of an error or a warning. -/
def disguised : Priority → Bool
  | .custom name => alarmNames.contains name
  | _ => false

/-- Two priorities that are the same on the wire are classified alike. -/
def AgreesWith (p q : Priority) : Prop :=
  p.asStr = q.asStr → p.isError = q.isError ∧ p.isErrorOrWarning = q.isErrorOrWarning

theorem fromStr_cases (text : String) :
    (fromStr text ∈ all ∧ (fromStr text).asStr = toAsciiUppercase text) ∨
      (fromStr text = .custom text ∧ toAsciiUppercase text ∉ all.map asStr) := by
  rw [fromStr]
  split
  case h_9 trace debug information notice warning fatal critical error =>
      right
      refine ⟨rfl, ?_⟩
      simp only [all, List.map_cons, List.map_nil, asStr, List.mem_cons, List.not_mem_nil, or_false,
        not_or]
      exact ⟨trace, debug, information, notice, warning, fatal, critical, error⟩
  all_goals
    rename_i name
    left
    rw [name]
    decide

theorem fromStr_asStr : ∀ p ∈ all, fromStr p.asStr = p := by decide

theorem fromStr_undisguised (text : String) : (fromStr text).disguised = false := by
  rcases fromStr_cases text with ⟨named, _⟩ | ⟨custom, unnamed⟩
  · have plain : ∀ p ∈ all, p.disguised = false := by decide
    exact plain _ named
  · have upper : ∀ name ∈ alarmNames, toAsciiUppercase name ∈ all.map asStr := by decide
    rw [custom]
    apply Bool.eq_false_iff.mpr
    intro spells
    exact unnamed (upper text (List.contains_iff_mem.mp spells))

theorem classified {p : Priority} (plain : p.disguised = false) :
    p.isError = errorNames.contains p.asStr ∧
      p.isErrorOrWarning = alarmNames.contains p.asStr := by
  cases p with
  | custom name =>
      have unlisted : name ∉ alarmNames := by simpa [disguised] using plain
      simp only [alarmNames, errorNames, List.mem_cons, List.not_mem_nil, or_false, not_or]
        at unlisted
      rcases unlisted with ⟨warning, fatal, critical, error⟩
      simp [isErrorOrWarning, isError, asStr, alarmNames, errorNames, warning, fatal, critical,
        error]
  | _ => decide

theorem disguised_unclassified {p : Priority} (spells : p.disguised = true) :
    p.isError = false ∧ p.isErrorOrWarning = false ∧ p.asStr ∈ alarmNames := by
  cases p with
  | custom name => exact ⟨rfl, rfl, List.contains_iff_mem.mp spells⟩
  | _ => cases spells

theorem disguise_shows {p q : Priority} (spells : p.disguised = true) (plain : q.disguised = false)
    (same : p.asStr = q.asStr) : p.isErrorOrWarning ≠ q.isErrorOrWarning := by
  rcases disguised_unclassified spells with ⟨_, unclassified, listed⟩
  rw [same] at listed
  rw [unclassified, (classified plain).2, List.contains_iff_mem.mpr listed]
  decide

theorem agreesWith_iff (p q : Priority) :
    p.AgreesWith q ↔ (p.asStr = q.asStr → p.disguised = q.disguised) := by
  constructor
  · intro agrees same
    have alike := (agrees same).2
    cases spells : p.disguised with
    | true =>
        cases plain : q.disguised with
        | true => rfl
        | false => exact absurd alike (disguise_shows spells plain same)
    | false =>
        cases spells' : q.disguised with
        | true => exact absurd alike.symm (disguise_shows spells' spells same.symm)
        | false => rfl
  · intro alike same
    have both := alike same
    cases spells : q.disguised with
    | true =>
        rw [spells] at both
        rcases disguised_unclassified both with ⟨noError, noAlarm, _⟩
        rcases disguised_unclassified spells with ⟨noError', noAlarm', _⟩
        exact ⟨noError.trans noError'.symm, noAlarm.trans noAlarm'.symm⟩
    | false =>
        rw [spells] at both
        rw [(classified both).1, (classified both).2, (classified spells).1, (classified spells).2,
          same]
        exact ⟨rfl, rfl⟩

theorem predicts_iff (p : Priority) :
    (p.isErrorOrWarning = true ↔ p.asStr ∈ alarmNames) ↔ p.disguised = false := by
  constructor
  · intro predicts
    apply Bool.eq_false_iff.mpr
    intro spells
    rcases disguised_unclassified spells with ⟨_, unclassified, listed⟩
    have classed := predicts.mpr listed
    rw [unclassified] at classed
    cases classed
  · intro plain
    rw [(classified plain).2, List.contains_iff_mem]

end Priority

/-- Classification goes by the string on the wire, but for custom priorities that spell an
error or a warning; and none is read from a text. -/
theorem classification_factors_iff (p q : Priority) (record : Record) (text : String) :
    (p.AgreesWith q ↔ (p.asStr = q.asStr → p.disguised = q.disguised)) ∧
    ((record.priority.isErrorOrWarning = true ↔
          (LogPayload.fromRecord record).priority ∈ alarmNames) ↔
        record.priority.disguised = false) ∧
    (∀ named ∈ Priority.all, named.disguised = false) ∧
    (Priority.fromStr text).disguised = false :=
  ⟨Priority.agreesWith_iff p q, Priority.predicts_iff record.priority, by decide,
    Priority.fromStr_undisguised text⟩

theorem custom_error_misjudged :
    ¬ Priority.error.AgreesWith (.custom "ERROR") ∧
      ¬ ((Priority.custom "ERROR").isErrorOrWarning = true ↔
        (LogPayload.fromRecord (.new 0 (.custom "ERROR") "app" "x")).priority ∈ alarmNames) := by
  constructor
  · intro agrees
    exact absurd (agrees rfl).1 (by decide)
  · intro predicts
    exact absurd (predicts.mpr (by decide)) (by decide)

namespace Priority

def Names (text : String) : Prop := toAsciiUppercase text ∈ all.map asStr

theorem fromStr_named {text : String} (names : Names text) :
    fromStr text ∈ all ∧ (fromStr text).asStr = toAsciiUppercase text := by
  rcases fromStr_cases text with named | ⟨_, unnamed⟩
  · exact named
  · exact absurd names unnamed

theorem fromStr_unnamed {text : String} (unnamed : ¬ Names text) : fromStr text = .custom text := by
  rcases fromStr_cases text with ⟨named, upper⟩ | ⟨custom, _⟩
  · refine absurd ?_ unnamed
    rw [Names, ← upper]
    exact List.mem_map_of_mem named
  · exact custom

theorem asStr_injOn : ∀ p ∈ all, ∀ q ∈ all, p.asStr = q.asStr → p = q := by decide

theorem named_not_custom : ∀ p ∈ all, ∀ name, p ≠ .custom name := by
  intro p named name spells
  subst spells
  simp [all] at named

theorem fromStr_asStr_iff (p : Priority) :
    fromStr p.asStr = p ↔ ∀ name, p = .custom name → ¬ Names name := by
  cases p with
  | custom name =>
      constructor
      · rintro back _ ⟨⟩ names
        exact named_not_custom _ (fromStr_named names).1 name back
      · intro unnamed
        exact fromStr_unnamed (unnamed name rfl)
  | _ => exact iff_of_true (by decide) nofun

theorem fromStr_again (text : String) : fromStr (fromStr text).asStr = fromStr text := by
  by_cases names : Names text
  · exact fromStr_asStr _ (fromStr_named names).1
  · rw [fromStr_unnamed names]
    exact fromStr_unnamed names

theorem fromStr_eq {text other : String} (same : fromStr text = fromStr other) :
    text = other ∨ (Names text ∧ toAsciiUppercase text = toAsciiUppercase other) := by
  by_cases names : Names text
  · obtain ⟨named, upper⟩ := fromStr_named names
    by_cases names' : Names other
    · rw [← upper, same, (fromStr_named names').2]
      exact .inr ⟨names, rfl⟩
    · rw [fromStr_unnamed names'] at same
      exact absurd same (named_not_custom _ named other)
  · by_cases names' : Names other
    · rw [fromStr_unnamed names] at same
      exact absurd same.symm (named_not_custom _ (fromStr_named names').1 text)
    · rw [fromStr_unnamed names, fromStr_unnamed names'] at same
      exact .inl (custom.inj same)

theorem fromStr_upper {text other : String} (names : Names text)
    (upper : toAsciiUppercase text = toAsciiUppercase other) : fromStr text = fromStr other := by
  have names' : Names other := by rwa [Names, ← upper]
  obtain ⟨named, read⟩ := fromStr_named names
  obtain ⟨named', read'⟩ := fromStr_named names'
  exact asStr_injOn _ named _ named' (read.trans (upper.trans read'.symm))

end Priority

/-- Reading and writing priorities: what comes back is the priority itself, but for a custom
one that spells a name in any case; what was read is read again unchanged; and two texts are
read alike only if they are the same or the same name. -/
theorem priority_round_trip :
    (∀ p : Priority, Priority.fromStr p.asStr = p ↔
      ∀ name, p = .custom name → ¬ Priority.Names name) ∧
    (∀ text, Priority.fromStr (Priority.fromStr text).asStr = Priority.fromStr text) ∧
    (∀ text other, Priority.fromStr text = Priority.fromStr other ↔
      text = other ∨ (Priority.Names text ∧ toAsciiUppercase text = toAsciiUppercase other)) := by
  refine ⟨Priority.fromStr_asStr_iff, Priority.fromStr_again, fun text other => ?_⟩
  constructor
  · exact Priority.fromStr_eq
  · rintro (rfl | ⟨names, upper⟩)
    · rfl
    · exact Priority.fromStr_upper names upper

end Ecapplog
