import OasisSyntax.CommandLine.Arguments

/-!
# Help and usage

The texts about the command line itself: what the program is, how it is called, and
what was wrong with a call.
-/

namespace OasisSyntax.CommandLine

def programName : String := "oasis"

def programVersion : String := "0.1.0"

def programDescription : String := "Parser front end for the Oasis programming language"

def fileArgument : String := "<source-file>"

/-- The general form of a call, or the form with exactly the flags given. -/
def usage (given : List Flag) : String :=
  match Flag.listed given with
  | [] => s!"{programName} [FLAGS] {fileArgument}"
  | flags =>
    String.intercalate " " (programName :: fileArgument :: flags.map Flag.option)

def versionText : String := s!"{programName} {programVersion}\n"

def helpText : String :=
  let flags := String.join (Flag.all.map Flag.helpLine)
  s!"{versionText}{programDescription}\n\nUSAGE:\n    {usage []}\n\n" ++
    s!"FLAGS:\n{flags}\nARGS:\n    {fileArgument}    \n"

def Misuse.message : Misuse → String
  | missingFile =>
    s!"The following required arguments were not provided:\n    {fileArgument}"
  | unexpected argument =>
    s!"Found argument '{argument}' which wasn't expected, " ++
      "or isn't valid in this context"
  | repeated flag =>
    s!"The argument '{flag.option}' was provided more than once, " ++
      "but cannot be used multiple times"

def Misuse.report (reason : Misuse) (given : List Flag) : String :=
  s!"error: {reason.message}\n\nUSAGE:\n    {usage given}\n\n" ++
    "For more information try --help\n"

end OasisSyntax.CommandLine
