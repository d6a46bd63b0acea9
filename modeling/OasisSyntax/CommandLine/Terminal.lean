import OasisSyntax.CommandLine.Terminal.Columns
import OasisSyntax.Report.Terminal

/-!
# The terminal of the command line

Texts are as wide as Unicode has them, and color is switched on and off by escape
sequences.
-/

namespace OasisSyntax

def Terminal.standard : Terminal where
  columns := Text.columns
  red text := "\x1b[31m" ++ text ++ "\x1b[0m"

end OasisSyntax
