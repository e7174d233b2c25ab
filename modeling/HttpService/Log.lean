/-! Log messages, and the loggers that pass them on. -/

namespace HttpService

inductive Level
  | error
  | warn
  | info
  | debug
deriving DecidableEq, Repr

structure LogEntry where
  level : Level
  message : String
  traced : Bool
deriving DecidableEq, Repr

/-- A logger that keeps everything, one that keeps errors alone, and one that hands everything to the
subscriber of the whole process. -/
inductive Logger
  | full
  | errorsOnly
  | tracing
deriving DecidableEq, Repr

namespace Logger

def log (logger : Logger) (level : Level) (message : String) : List LogEntry :=
  match logger with
  | full => [⟨level, message, false⟩]
  | errorsOnly => if level = .error then [⟨level, message, false⟩] else []
  | tracing => [⟨level, message, true⟩]

def kept (entries : List LogEntry) : List LogEntry := entries.filter fun entry => !entry.traced

def tracingTarget : String := "standard_engine"

end Logger

end HttpService
