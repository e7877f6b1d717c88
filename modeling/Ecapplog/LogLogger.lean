import Ecapplog.Source

/-! The `log` facade's logger, and the same records through the bridge of `tracing-log`
and the layer. -/

namespace Ecapplog

namespace Log

inductive Level where
  | error
  | warn
  | info
  | debug
  | trace
  deriving DecidableEq, Repr

def Level.verbosity : Level → Nat
  | .error => 1
  | .warn => 2
  | .info => 3
  | .debug => 4
  | .trace => 5

/-- `log::LevelFilter`; none is `Off`. -/
abbrev LevelFilter := Option Level

def Level.passes (level : Level) : LevelFilter → Bool
  | some most => level.verbosity ≤ most.verbosity
  | none => false

structure Metadata where
  level : Level
  target : String

structure Record where
  metadata : Metadata
  args : String
  modulePath : Option String
  file : Option String
  line : Option UInt32

end Log

namespace AdapterLog

inductive CategorySource where
  | target
  | fixed (category : String)
  | custom (f : Log.Record → String)

structure LogLogger where
  level : Log.LevelFilter
  category : CategorySource

def LogLogger.default : LogLogger := ⟨some .trace, .target⟩

def priorityFor : Log.Level → Priority
  | .trace => .trace
  | .debug => .debug
  | .info => .information
  | .warn => .warning
  | .error => .error

namespace LogLogger

def categoryFor (logger : LogLogger) (record : Log.Record) : String :=
  match logger.category with
  | .target => record.metadata.target
  | .fixed category => category
  | .custom f => f record

def enabled (logger : LogLogger) (metadata : Log.Metadata) : Bool :=
  metadata.level.passes logger.level

/-- The entry that goes to the client, if the record is enabled; `now` is the clock reading
of `Record::new`. -/
def log (logger : LogLogger) (now : SystemTime) (record : Log.Record) : Option Record :=
  if logger.enabled record.metadata then
    let category := logger.categoryFor record
    let entry := Record.new now (priorityFor record.metadata.level) category record.args
    let entry :=
      match record.file with
      | some file =>
          match record.line with
          | some line => { entry with source := file ++ ":" ++ toString line.toNat }
          | none => { entry with source := file }
      | none => entry
    let entry :=
      match record.modulePath with
      | some modulePath =>
          if modulePath ≠ category then { entry with originalCategory := modulePath } else entry
      | none => entry
    some entry
  else none

end LogLogger

end AdapterLog

namespace TracingLog

def asTrace : Log.Level → AdapterTracing.Level
  | .error => .error
  | .warn => .warn
  | .info => .info
  | .debug => .debug
  | .trace => .trace

/-- `AsTrace` on a record, and what `normalized_metadata` gives back: the record's own
level, target, module path, file and line. -/
def recordMetadata (record : Log.Record) : AdapterTracing.Metadata where
  name := "log record"
  target := record.metadata.target
  level := asTrace record.metadata.level
  modulePath := record.modulePath
  file := record.file
  line := record.line

end TracingLog

open AdapterTracing (TracingLayer ToText Registry JsonVisitor Map)

/-- The same category setting in both adapters, other than a function of the user's. -/
inductive SameCategory : AdapterLog.CategorySource → AdapterTracing.CategorySource → Prop where
  | target : SameCategory .target .target
  | fixed (category : String) : SameCategory (.fixed category) (.fixed category)

theorem SameCategory.categoryFor {logger : AdapterLog.LogLogger} {layer : TracingLayer}
    (same : SameCategory logger.category layer.category) (record : Log.Record) :
    layer.categoryFor (TracingLog.recordMetadata record) = logger.categoryFor record := by
  rw [AdapterLog.LogLogger.categoryFor, TracingLayer.categoryFor]
  generalize logger.category = setting at same
  generalize layer.category = setting' at same
  cases same with
  | target => rfl
  | fixed => rfl

namespace AdapterLog.LogLogger

def callSite (record : Log.Record) : String :=
  match record.file with
  | some file =>
      match record.line with
      | some line => file ++ ":" ++ toString line.toNat
      | none => file
  | none => ""

theorem log_eq {logger : LogLogger} {record : Log.Record}
    (passes : logger.enabled record.metadata = true) (now : SystemTime) :
    logger.log now record =
      some { Record.new now (priorityFor record.metadata.level) (logger.categoryFor record)
          record.args with
        source := callSite record
        originalCategory := TracingLayer.originalCategory record.modulePath
          (logger.categoryFor record) } := by
  rw [log, if_pos passes]
  simp only [callSite, TracingLayer.originalCategory]
  generalize logger.categoryFor record = category
  cases record.file with
  | none =>
      cases record.modulePath with
      | none => rfl
      | some modulePath => by_cases same : modulePath = category <;> simp [same, Record.new]
  | some file =>
      cases record.line <;> cases record.modulePath with
      | none => rfl
      | some modulePath => by_cases same : modulePath = category <;> simp [same, Record.new]

end AdapterLog.LogLogger

namespace TracingLog

end TracingLog

end Ecapplog
