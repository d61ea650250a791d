-- How grave a line of the log is, and how much of the log is let through.
import TopologySync.Text.Numeral

namespace TopologySync.Log

/-- How grave a line is. -/
inductive Level where
  | error
  | warn
  | info
  | debug
  | trace
deriving DecidableEq, Repr

namespace Level

/-- The levels, the gravest first. -/
def all : List Level := [error, warn, info, debug, trace]

/-- The place of a level, counted from the gravest. -/
def rank : Level → Nat
  | error => 1
  | warn => 2
  | info => 3
  | debug => 4
  | trace => 5

/-- The word for a level in a filter. -/
def name : Level → String
  | error => "error"
  | warn => "warn"
  | info => "info"
  | debug => "debug"
  | trace => "trace"

/-- The word for a level in front of a line. -/
def label : Level → String
  | error => "ERROR"
  | warn => "WARN"
  | info => "INFO"
  | debug => "DEBUG"
  | trace => "TRACE"

end Level

/-- How much is let through: nothing, or all lines that are at least as
grave as a level. -/
inductive Verbosity where
  | silent
  | upTo (level : Level)
deriving DecidableEq, Repr

namespace Verbosity

/-- The rank of the last level that is let through. -/
def rank : Verbosity → Nat
  | silent => 0
  | upTo level => level.rank

def permits (verbosity : Verbosity) (level : Level) : Bool :=
  level.rank ≤ verbosity.rank

def all : List Verbosity :=
  silent :: Level.all.map upTo

def name : Verbosity → String
  | silent => "off"
  | upTo level => level.name

/-- The verbosity that a text names by its rank or by its word, in letters
of either case. -/
def ofText? (text : List Char) : Option Verbosity :=
  let ranked := (Text.natural? text).bind (fun n => all.find? (fun v => v.rank == n))
  ranked <|> all.find? (fun v => v.name.toList == text.map Char.toLower)

end Verbosity

end TopologySync.Log
