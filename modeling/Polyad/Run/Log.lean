import Polyad.Disk.Tree

/-!
# Logs

What a run tells about itself. All loggers hang off one, whose level and handlers count for them;
before it is set up it has neither, and only warnings are shown, as they are. Setting it up again
replaces its handlers. A level of zero means that the general level applies: warnings.
-/

namespace Polyad

inductive Level where
  | debug
  | info
  | warning
  | error
  | critical
  deriving DecidableEq, Repr

namespace Level

def number : Level → Nat
  | debug => 10
  | info => 20
  | warning => 30
  | error => 40
  | critical => 50

def name : Level → String
  | debug => "DEBUG"
  | info => "INFO"
  | warning => "WARNING"
  | error => "ERROR"
  | critical => "CRITICAL"

def ofName? (s : String) : Option Level :=
  [debug, info, warning, error, critical].find? (·.name == s)

def ofNumber? (n : Nat) : Option Level :=
  [debug, info, warning, error, critical].find? (·.number == n)

/-- The numbers that levels can be asked for by name. -/
def words : List (String × Nat) := [
  ("CRITICAL", 50), ("FATAL", 50), ("ERROR", 40), ("WARN", 30), ("WARNING", 30), ("INFO", 20),
  ("DEBUG", 10), ("NOTSET", 0)]

/-- The number of a name in any case; an unknown one is taken for information. -/
def numberOf (s : String) : Nat :=
  (words.lookup (String.ofList (s.toList.map Text.asciiCapital))).getD info.number

/-- The number of a level that may be missing; then the environment decides. -/
def resolve (level environment : Option String) : Nat :=
  numberOf ((level.or environment).getD info.name)

end Level

/-- The logger all others hang off. -/
def rootLogger : String := "tuplegen"

/-- The full name of a logger. -/
def loggerName (s : String) : String :=
  if s == rootLogger || (rootLogger ++ ".").toList.isPrefixOf s.toList then s
  else rootLogger ++ "." ++ s

structure Record where
  logger : String
  level : Level
  message : String
  deriving DecidableEq, Repr

def Record.text (r : Record) : String := r.logger ++ " - " ++ r.level.name ++ " - " ++ r.message

inductive Handler where
  | console (level : Nat)
  /-- Writes to the file that it has opened, which may no longer be at any location. -/
  | file (l : Option Location) (level : Nat)
  deriving DecidableEq, Repr

def Handler.level : Handler → Nat
  | console n => n
  | file _ n => n

structure Log where
  level : Nat := 0
  handlers : List Handler := []
  propagate : Bool := true
  deriving DecidableEq, Repr

namespace Log

/-- The least number of a record that is let through. -/
def threshold (log : Log) : Nat := if log.level == 0 then Level.warning.number else log.level

/-- The handlers that write a record down. -/
def handlersFor (log : Log) (r : Record) : List Handler :=
  if r.level.number < log.threshold then []
  else log.handlers.filter (·.level ≤ r.level.number)

/-- The log after the file at a location has given way to another one. -/
def detach (log : Log) (l : Location) : Log :=
  { log with handlers := log.handlers.map fun
    | .file (some k) n => .file (if k == l then none else some k) n
    | h => h }

/-- Whether a record is shown although nothing was set up to show it. -/
def showsBare (log : Log) (r : Record) : Bool :=
  log.threshold ≤ r.level.number && log.handlers.isEmpty &&
    Level.warning.number ≤ r.level.number

end Log
end Polyad
