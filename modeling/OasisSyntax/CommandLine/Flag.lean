import OasisSyntax.CommandLine.Request

/-!
# How flags are written

Every flag has a long name and most have a letter.  The help text lists them under
those, with the explanations in one column.
-/

namespace OasisSyntax.CommandLine

namespace Flag

def all : List Flag := [help, noColor, tokens, version, verbose]

def letter? : Flag → Option Char
  | help => some 'h'
  | noColor => none
  | tokens => some 't'
  | version => some 'V'
  | verbose => some 'v'

def longName : Flag → String
  | help => "help"
  | noColor => "no-color"
  | tokens => "tokens"
  | version => "version"
  | verbose => "verbose"

def explanation : Flag → String
  | help => "Prints help information"
  | noColor => "print diagnostics without ansi colours"
  | tokens => "print the token stream instead of the syntax tree"
  | version => "Prints version information"
  | verbose => "log to stderr, repeat for more detail"

def ofLetter? (letter : Char) : Option Flag :=
  all.find? fun flag => flag.letter? == some letter

def ofLongName? (name : String) : Option Flag :=
  all.find? fun flag => flag.longName == name

def option (flag : Flag) : String := "--" ++ flag.longName

def repeatable (flag : Flag) : Bool := flag == verbose

/-- The flags among the given ones, each once, by name. -/
def listed (given : List Flag) : List Flag :=
  [noColor, tokens, verbose].filter given.contains

def helpLine (flag : Flag) : String :=
  let letter := match flag.letter? with
    | some letter => String.ofList ['-', letter, ',', ' ']
    | none => "    "
  let widest := ((all.map fun flag => flag.option.length).max?).getD 0
  let gap := Text.spaces (widest + 4 - flag.option.length)
  s!"    {letter}{flag.option}{gap}{flag.explanation}\n"

end Flag

end OasisSyntax.CommandLine
