import OasisSyntax.CommandLine.Directory
import OasisSyntax.CommandLine.Help
import OasisSyntax.CommandLine.Terminal

/-!
# Running the command line

The arguments make a request, which is carried out on the standard terminal, or they stop
the run with a text about the command line itself.
-/

namespace OasisSyntax.CommandLine

def Stop.outcome : Stop → Outcome
  | help => .success helpText ""
  | version => .success versionText ""
  | misuse reason given => ⟨1, "", reason.report given⟩

/-- A run among the files of a directory; nothing if a diagnostic has no place in
the source. -/
def run? (arguments : List String) (directory : Directory) : Option Outcome :=
  match Request.ofArguments arguments with
  | .error stop => some stop.outcome
  | .ok request =>
    request.run? .standard ((directory.read request.file).mapError ReadError.message)

end OasisSyntax.CommandLine
