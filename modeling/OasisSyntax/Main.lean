import OasisSyntax.CommandLine.Run

/-!
# The program

Reads the named source file and carries out the request that the arguments make.
-/

namespace OasisSyntax.CommandLine

/-- Error numbers come with either sign. -/
def systemError? (number : UInt32) : Option ReadError :=
  ReadError.ofSystemNumber? (min number.toNat (0 - number).toNat)

def failureMessage (failure : IO.Error) : String :=
  let known := match failure with
    | .noFileOrDirectory _ number _ | .inappropriateType _ number _
    | .invalidArgument _ number _ | .permissionDenied _ number _ => systemError? number
    | _ => none
  match known with
  | some error => error.message
  | none => toString failure

def readContent (name : String) : IO (Except String String) := do
  try
    let bytes ← IO.FS.readBinFile name
    return (decodeText bytes).mapError ReadError.message
  catch failure => return .error (failureMessage failure)

def outcomeOf (arguments : List String) : IO (Option Outcome) := do
  match Request.ofArguments arguments with
  | .error stop => return some stop.outcome
  | .ok request => return request.run? .standard (← readContent request.file)

end OasisSyntax.CommandLine

def main (arguments : List String) : IO UInt32 := do
  match ← OasisSyntax.CommandLine.outcomeOf arguments with
  | some outcome =>
    (← IO.getStderr).putStr outcome.stderr
    (← IO.getStdout).putStr outcome.stdout
    return outcome.code.toUInt32
  -- A diagnostic about a place outside the source cannot be shown.
  | none => return 101
