import DocComment.Text.Search

/-! Log records: a severity, the component that speaks, a message, and named values. -/
namespace DocComment

/-- Severities, the most severe first. -/
inductive Level where
  | error | warn | info | debug | trace
deriving DecidableEq, Repr

namespace Level

def name : Level → Text
  | .error => "ERROR".toList
  | .warn => "WARN".toList
  | .info => "INFO".toList
  | .debug => "DEBUG".toList
  | .trace => "TRACE".toList

def rank : Level → Nat
  | .error => 0
  | .warn => 1
  | .info => 2
  | .debug => 3
  | .trace => 4

end Level

structure LogRecord where
  level : Level
  component : Text
  message : Text
  fields : List (Text × Text)
deriving DecidableEq, Repr

def LogRecord.line (r : LogRecord) : Text :=
  r.level.name ++ ' ' :: r.component ++ ": ".toList ++ r.message ++
    r.fields.flatMap fun field => ' ' :: field.1 ++ '=' :: field.2

end DocComment
