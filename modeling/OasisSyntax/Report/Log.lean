import OasisSyntax.Parsing.Trace
import OasisSyntax.Source
import OasisSyntax.Syntax.Layout

/-!
# The log

Parsing a source and listing its tokens leave events for a log: every statement as
it ends, in detail, and the outcome.
-/

namespace OasisSyntax

inductive LogLevel where
  | trace | debug
deriving DecidableEq, Repr

structure LogEvent where
  level : LogLevel
  origin : String
  message : String
deriving DecidableEq, Repr

namespace LogEvent

def outcome (message : String) : LogEvent := ⟨.debug, "oasis", message⟩

def ofStatement (event : StatementEvent) : LogEvent :=
  ⟨.trace, "oasis::parse::parser", s!"statement at {event.start}: {event.stmt.render}"⟩

def render (event : LogEvent) : String :=
  let level := match event.level with
    | .trace => "TRACE"
    | .debug => "DEBUG"
  s!"{level} {event.origin} {event.message}"

end LogEvent

def parseLog (source : Source) : List LogEvent :=
  let outcome := match parse source.text with
    | .ok program => s!"parsed {program.length} statements of {source.name}"
    | .error error => s!"parsing {source.name} failed at byte {error.span.start}"
  (traceProgram source.text).map LogEvent.ofStatement ++ [.outcome outcome]

def dumpLog (source : Source) : List LogEvent :=
  let count := (Reader.ofText source.text).tokens.length
  [.outcome s!"scanned {count} tokens of {source.name}"]

end OasisSyntax
