import Rollout.Error
import Rollout.Text.Basic

/-!
# Log levels

* `LogLevel.ofVerbosity`: the level for a number of requests to say more.
* `LogLevel.parse?`: the level of a name in any case, or of a number from one to five.
* `LogLevel.choose`: the level to log at. `installRefused`: only one log can be installed.
-/

namespace Rollout

/-- How grave a log line is. -/
inductive LogLevel where
  | error
  | warn
  | info
  | debug
  | trace
  deriving DecidableEq, Repr, Inhabited

namespace LogLevel

/-- The name of the level. -/
def name : LogLevel → String
  | error => "ERROR"
  | warn => "WARN"
  | info => "INFO"
  | debug => "DEBUG"
  | trace => "TRACE"

/-- All levels, the gravest first. -/
def all : List LogLevel := [error, warn, info, debug, trace]

/-- The level for a number of requests to say more. -/
def ofVerbosity : Nat → LogLevel
  | 0 => info
  | 1 => debug
  | _ => trace

/-- A number written in decimal digits, with a plus before it or not. -/
def number? (s : List Char) : Option Nat :=
  let digits := if s.head? = some '+' then s.tail else s
  if !digits.isEmpty && digits.all Char.isDigit then
    some (Text.decimal digits)
  else none

/-- The level of a number, one for the gravest, or of a name in any case; blanks around it do not
count. -/
def parse? (s : String) : Option LogLevel :=
  let s := Text.trim s.toList
  match number? s with
  | some n => if n = 0 then none else all[n - 1]?
  | none => all.find? fun level => level.name.toList == s.map Char.toUpper

/-- The level to log at: what is asked for comes before what the environment says. -/
def choose (verbosity : Option Nat) (environment : Option String) : LogLevel :=
  ((verbosity.map ofVerbosity).orElse fun _ => environment.bind parse?).getD info

end LogLevel

/-- A log is installed once for a whole process; a later attempt is an error. -/
def logAlreadyInstalled : Error :=
  .internal ("failed to set tracing subscriber: " ++
    "a global default trace dispatcher has already been set")

end Rollout
