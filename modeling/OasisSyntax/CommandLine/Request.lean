import OasisSyntax.FrontEnd
import OasisSyntax.Report.Log

/-!
# Requests

A request names a source file and holds the flags that were given with it.  Carrying it
out ends with an exit code and with what has been written to the two outputs.  The tree
of a source goes to the standard output as its canonical text; diagnostics, the log and
the reason of a failure go to the error output.
-/

namespace OasisSyntax.CommandLine

inductive Flag where
  | help | noColor | tokens | version | verbose
deriving DecidableEq, Repr

structure Request where
  file : String
  flags : List Flag
deriving DecidableEq, Repr

namespace Request

def has (flag : Flag) (request : Request) : Bool := request.flags.contains flag

def count (flag : Flag) (request : Request) : Nat := request.flags.count flag

end Request

structure Outcome where
  code : Nat
  stdout : String
  stderr : String
deriving DecidableEq, Repr

namespace Outcome

def success (stdout stderr : String) : Outcome := ⟨0, stdout, stderr⟩

def failure (error : CompileError) (stderr : String) : Outcome :=
  ⟨1, "", s!"{stderr}Error: {error.message}\n"⟩

end Outcome

/-- One verbose flag shows the outcome, more show every statement too. -/
def shownLog (request : Request) (events : List LogEvent) : String :=
  let shown : List LogEvent := match request.count .verbose with
    | 0 => []
    | 1 => events.filter fun event => event.level == .debug
    | _ => events
  String.join (shown.map fun event => event.render ++ "\n")

/-- What a sink without a limit has taken.  Only whole texts go to such a sink, so
its bytes are a text again. -/
def sinkText (sink : Sink) : String :=
  (String.fromUTF8? (ByteArray.mk sink.written.toArray)).getD ""

def listTokens (request : Request) (source : Source) : Outcome :=
  let (answer, sink) := dumpTokens source .unlimited
  match answer with
  | .ok () => .success (sinkText sink) (shownLog request (dumpLog source))
  | .error error => .failure error ""

def printTree? (terminal : Terminal) (request : Request) (source : Source) :
    Option Outcome :=
  let log := shownLog request (parseLog source)
  (parseSource? terminal source (!request.has .noColor) .unlimited).map
    fun (answer, sink) =>
      match answer with
      | .ok program => .success (Program.render program ++ "\n") (log ++ sinkText sink)
      | .error error => .failure error (log ++ sinkText sink)

def Request.run? (terminal : Terminal) (request : Request)
    (content : Except String String) : Option Outcome :=
  match content with
  | .error reason => some (.failure (.transfer reason) "")
  | .ok code =>
    let source : Source := ⟨request.file, code⟩
    if request.has .tokens then some (listTokens request source)
    else printTree? terminal request source

end OasisSyntax.CommandLine
