import Hearth.Level
import Hearth.Text.Blank

/-!
# Log sinks

Lines of the log go to every sink whose level admits them. A sink keeps its lines, or hands them on
to the journal of the house, or forwards them to the diagnostic output of the process.
-/

namespace Hearth

/-- What a sink does with its lines. -/
inductive SinkKind where
  | buffer
  | journal
  | forward
  deriving Repr, DecidableEq, Inhabited

/-- A sink, with the lines that it keeps, newest first. -/
structure Sink where
  level : Level
  kind : SinkKind
  /-- Is it still in use? -/
  active : Bool
  lines : List (Level × String)
  deriving Repr, DecidableEq, Inhabited

/-- A line on its way out of the log. -/
inductive LogLine where
  | journal (level : Level) (text : String)
  /-- A line for the diagnostic output, with the name of its level there. -/
  | forward (level : String) (text : String)
  deriving Repr, DecidableEq, Inhabited

/-- All sinks that were ever added, oldest first. -/
structure Log where
  sinks : List Sink
  deriving Repr, DecidableEq, Inhabited

namespace Sink

/-- Writes a line to a sink, whatever its level. -/
def write (s : Sink) (level : Level) (text : String) : Sink × List LogLine :=
  match s.kind with
  | .buffer => ({ s with lines := (level, text) :: s.lines }, [])
  | .journal => (s, [.journal level text])
  | .forward =>
    match level.forwarded with
    | some word => (s, [.forward word text])
    | none => (s, [])

/-- Writes several lines to a sink. -/
def writeAll (s : Sink) (level : Level) : List String → Sink × List LogLine
  | [] => (s, [])
  | text :: rest =>
    let (s, out) := s.write level text
    let (s, more) := s.writeAll level rest
    (s, out ++ more)

/-- Does a sink get lines of a level? -/
def wants (s : Sink) (level : Level) : Bool := s.active && s.level.admits level

/-- Does any line that the sink keeps contain a text? -/
def contains (s : Sink) (part : String) : Bool :=
  s.lines.any fun l => Text.occurs part.toList l.2.toList

end Sink

namespace Log

/-- No sink. -/
def empty : Log := ⟨[]⟩

/-- Adds a sink; its place is its number. -/
def add (l : Log) (kind : SinkKind) (level : Level) : Log :=
  ⟨l.sinks ++ [⟨level, kind, true, []⟩]⟩

/-- The number of sinks in use. -/
def count (l : Log) : Nat := (l.sinks.filter (·.active)).length

/-- Takes a sink out of use; tells whether it was in use. -/
def remove (l : Log) (i : Nat) : Bool × Log :=
  match l.sinks[i]? with
  | some s => (s.active, ⟨l.sinks.set i { s with active := false }⟩)
  | none => (false, l)

/-- Writes lines to every sink among `sinks` that wants them, one sink after the other. -/
def writeTo (level : Level) (texts : List String) : List Sink → List Sink × List LogLine
  | [] => ([], [])
  | s :: rest =>
    let (s, out) := if s.wants level then s.writeAll level texts else (s, [])
    let (rest, more) := writeTo level texts rest
    (s :: rest, out ++ more)

/-- Writes lines to every sink that wants them. -/
def writeAll (l : Log) (level : Level) (texts : List String) : Log × List LogLine :=
  let (sinks, out) := writeTo level texts l.sinks
  (⟨sinks⟩, out)

/-- Empties all sinks. -/
def clear (l : Log) : Log := ⟨l.sinks.map fun s => { s with lines := [] }⟩

end Log

end Hearth
