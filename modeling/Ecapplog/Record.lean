/-! Log entries as the client builds them: priorities, records, and the errors
that go to the `on_error` callback. -/

namespace Ecapplog

/-- Signed nanoseconds from the Unix epoch. -/
abbrev SystemTime := Int

/-- Nanoseconds. -/
abbrev Duration := Nat

/-- Nanoseconds of the monotonic clock. -/
abbrev Instant := Nat

inductive Priority where
  | trace
  | debug
  | information
  | notice
  | warning
  | fatal
  | critical
  | error
  | custom (name : String)
  deriving DecidableEq, Repr

def Priority.asStr : Priority → String
  | .trace => "TRACE"
  | .debug => "DEBUG"
  | .information => "INFORMATION"
  | .notice => "NOTICE"
  | .warning => "WARNING"
  | .fatal => "FATAL"
  | .critical => "CRITICAL"
  | .error => "ERROR"
  | .custom name => name

structure Record where
  time : SystemTime
  priority : Priority
  category : String
  message : String
  source : String
  originalCategory : String
  extraCategories : List String
  color : String
  bgColor : String
  deriving DecidableEq, Repr

def Record.new (now : SystemTime) (priority : Priority) (category message : String) : Record where
  time := now
  priority := priority
  category := category
  message := message
  source := ""
  originalCategory := ""
  extraCategories := []
  color := ""
  bgColor := ""

inductive ErrorKind where
  | addrNotAvailable
  | os (code : Nat)
  deriving DecidableEq, Repr

structure IoError where
  kind : ErrorKind
  message : String
  deriving DecidableEq, Repr

structure SerdeError where
  message : String
  deriving DecidableEq, Repr

inductive Error where
  | resolve (address : String) (source : IoError)
  | connect (address : String) (source : IoError)
  | write (source : IoError)
  | serialize (source : SerdeError)
  | payloadTooLarge (size limit : Nat)
  | queueFull (capacity : Nat) (total : UInt64)
  deriving DecidableEq, Repr

def Error.isUnsendable : Error → Bool
  | .serialize _ => true
  | .payloadTooLarge _ _ => true
  | _ => false

end Ecapplog
