/-!
# Levels of log lines

Levels are ordered by weight. Nothing is logged at the level `none`; a sink of that level is
silent.
-/

namespace Hearth

/-- The weight of a log line. -/
inductive Level where
  | trace
  | debug
  | info
  | warn
  | error
  | panic
  | none
  deriving Repr, DecidableEq, Inhabited

namespace Level

/-- All levels, lightest first. -/
def all : List Level := [.trace, .debug, .info, .warn, .error, .panic, .none]

/-- The place of a level among all levels. -/
def rank : Level → Nat
  | .trace => 0
  | .debug => 1
  | .info => 2
  | .warn => 3
  | .error => 4
  | .panic => 5
  | .none => 6

/-- The name of a level. -/
def name : Level → String
  | .trace => "trace"
  | .debug => "debug"
  | .info => "info"
  | .warn => "warn"
  | .error => "error"
  | .panic => "panic"
  | .none => "none"

/-- The level that a word names; the case of ASCII letters does not matter, and some levels have
further names. -/
def ofWord? (s : String) : Option Level :=
  match String.ofList (s.toList.map Char.toLower) with
  | "trace" => some .trace
  | "debug" => some .debug
  | "info" => some .info
  | "warn" | "warning" => some .warn
  | "error" => some .error
  | "panic" | "critical" | "fatal" => some .panic
  | "none" | "off" => some .none
  | _ => Option.none

/-- The level whose name is exactly `s`. -/
def ofName? (s : String) : Option Level := all.find? fun l => l.name == s

/-- Is a line of level `l` written to a sink of level `sink`? -/
def admits (sink l : Level) : Bool := l != .none && sink.rank ≤ l.rank

/-- The level's name in a filter of diagnostic output, which knows five levels and `off`. -/
def filter : Level → String
  | .panic => "error"
  | .none => "off"
  | l => l.name

/-- The level of a forwarded line: diagnostic output has no level above `error`, and nothing is
forwarded at the level `none`. -/
def forwarded : Level → Option String
  | .trace => some "TRACE"
  | .debug => some "DEBUG"
  | .info => some "INFO"
  | .warn => some "WARN"
  | .error | .panic => some "ERROR"
  | .none => Option.none

/-- The message for a word that names no level. -/
def unknown (s : String) : String := "unknown log level '" ++ s ++ "'"

end Level

end Hearth
