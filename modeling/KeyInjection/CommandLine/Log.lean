-- SUMMARY: Log lines of the command line.

/-!
# Log lines

A line has a level, and is shown if that level is not below the threshold that was asked for.
Errors go to the standard error, all other lines to the standard output.
-/

namespace KeyInjection.CommandLine

/-- The levels of log lines, the gravest first. -/
inductive LogLevel where
  | error
  | warn
  | info
  | debug
  | trace
  deriving DecidableEq, Repr

namespace LogLevel

def all : List LogLevel := [error, warn, info, debug, trace]

def name : LogLevel → String
  | error => "ERROR"
  | warn => "WARN"
  | info => "INFO"
  | debug => "DEBUG"
  | trace => "TRACE"

def rank (l : LogLevel) : Nat := all.idxOf l

end LogLevel

/-- The gravest lines that are left out begin below this level; without a level all are. -/
structure LogThreshold where
  level : Option LogLevel
  deriving DecidableEq, Repr

namespace LogThreshold

/-- The threshold a name stands for, in upper or lower case. -/
def ofName? (name : String) : Option LogThreshold :=
  let name := name.map Char.toUpper
  if name = "OFF" then some ⟨none⟩
  else (LogLevel.all.find? (·.name = name)).map fun l => ⟨some l⟩

def shows (t : LogThreshold) (l : LogLevel) : Bool :=
  match t.level with
  | some most => l.rank ≤ most.rank
  | none => false

end LogThreshold

structure LogLine where
  level : LogLevel
  text : String
  deriving DecidableEq, Repr

def LogLine.body (l : LogLine) : String := s!"[{l.level.name}] {l.text}"

/-- A log line as it is printed, with the time of day in front. -/
def LogLine.render (time : String) (l : LogLine) : String := s!"{time} {l.body}"

end KeyInjection.CommandLine
