import OasisSyntax.Parsing.Error
import OasisSyntax.Report.Terminal
import OasisSyntax.Source

/-!
# Diagnostics

A diagnostic shows a message, the position it is about, and an excerpt of the
source: the line with carets under the span in question.  The carets are placed by
columns of the terminal, not by characters, so that they stand below wide characters.
What stands in front of the span is measured backwards from it.  A span without any
width still gets one caret.
-/

namespace OasisSyntax

structure Excerpt where
  lineNumber : Nat
  line : String
  indent : Nat
  carets : Nat
deriving DecidableEq, Repr

namespace Excerpt

/-- The excerpt for a span, showing the line of the given number. -/
def ofSpan? (terminal : Terminal) (source : Source) (span : Span) (lineNumber : Nat) :
    Option Excerpt := do
  let (before, _) ← Text.splitAtByte? span.start source.text
  let slice ← Text.sliceBytes? span.start span.stop source.text
  let line := ((Text.lines source.text)[lineNumber - 1]?).getD []
  pure ⟨lineNumber, String.ofList line, terminal.columns (Text.lastPiece before).reverse,
    max (terminal.columns slice) 1⟩

def marker (excerpt : Excerpt) : String :=
  Text.spaces excerpt.indent ++ String.ofList (List.replicate excerpt.carets '^')

def render (terminal : Terminal) (color : Bool) (excerpt : Excerpt) : String :=
  let number := toString excerpt.lineNumber
  let margin := Text.spaces (number.length + 1)
  let marker := if color then terminal.red excerpt.marker else excerpt.marker
  s!"{margin}|\n{number} |{excerpt.line}\n{margin}|{marker}"

end Excerpt

structure Diagnostic where
  message : String
  sourceName : String
  position : Position
  excerpt : Excerpt
deriving DecidableEq, Repr

namespace Diagnostic

def ofSpan? (terminal : Terminal) (source : Source) (span : Span) (message : String) :
    Option Diagnostic := do
  let position ← source.position? span.start
  let excerpt ← Excerpt.ofSpan? terminal source span position.line
  pure ⟨message, source.name, position, excerpt⟩

def ofError? (terminal : Terminal) (source : Source) (error : Spanned SyntaxError) :
    Option Diagnostic :=
  ofSpan? terminal source error.span error.node.message

def render (terminal : Terminal) (color : Bool) (diagnostic : Diagnostic) : String :=
  let line := diagnostic.position.line
  let column := diagnostic.position.column
  let excerpt := diagnostic.excerpt.render terminal color
  s!"error: {diagnostic.message}\n" ++
    s!"--> {diagnostic.sourceName}:{line}:{column}\n{excerpt}"

end Diagnostic

end OasisSyntax
