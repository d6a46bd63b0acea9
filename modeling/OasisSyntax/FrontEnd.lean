import OasisSyntax.Parsing.Session
import OasisSyntax.Report.Diagnostic
import OasisSyntax.Report.Sink
import OasisSyntax.Text.Quoted

/-!
# The front end

Parsing a source reports a syntax error to a sink.  Alternatively the tokens of a
source are listed there, one on each line.
-/

namespace OasisSyntax

inductive CompileError where
  /-- The source has a syntax error, which has been reported. -/
  | syntaxError
  /-- Reading or writing failed for the given reason. -/
  | transfer (reason : String)
deriving DecidableEq, Repr

def CompileError.message : CompileError → String
  | syntaxError => "Error while parsing"
  | transfer reason => reason

def Sink.emit (texts : List String) (sink : Sink) : Except CompileError Unit × Sink :=
  match sink.writeAll texts with
  | (true, after) => (.ok (), after)
  | (false, after) => (.error (.transfer "sink is full"), after)

def emitMessage (message : String) (sink : Sink) : Except CompileError Unit × Sink :=
  sink.emit [message, "\n"]

/-- Nothing if the error has no place in the source. -/
def reportError? (terminal : Terminal) (source : Source) (error : Spanned SyntaxError)
    (color : Bool) (sink : Sink) : Option (Except CompileError Unit × Sink) :=
  (Diagnostic.ofError? terminal source error).map fun diagnostic =>
    emitMessage (diagnostic.render terminal color) sink

def parseSource? (terminal : Terminal) (source : Source) (color : Bool) (sink : Sink) :
    Option (Except CompileError Program × Sink) :=
  match parse source.text with
  | .ok program => some (.ok program, sink)
  | .error error =>
    (reportError? terminal source error color sink).map fun (answer, after) =>
      (answer.bind fun _ => .error .syntaxError, after)

def tokenLine (token : Spanned Token) : String :=
  s!"{token.node.kind.name} {Text.quote token.node.literal} @{token.span.start}\n"

def dumpTokens (source : Source) (sink : Sink) : Except CompileError Unit × Sink :=
  sink.emit ((Reader.ofText source.text).tokens.map tokenLine)

end OasisSyntax
