import OasisSyntax.CommandLine.Flag

/-!
# Arguments of the command line

The arguments name one source file and any flags, in any order.  Letters of flags
can be joined behind one dash, and two dashes alone end the flags.  Asking for help
or for the version ends the reading at once, and so does an argument that has no
meaning; what is missing or repeated is noticed after all arguments have been read.
-/

namespace OasisSyntax.CommandLine

inductive Misuse where
  | missingFile
  | unexpected (argument : String)
  | repeated (flag : Flag)
deriving DecidableEq, Repr

inductive Stop where
  | help
  | version
  | misuse (reason : Misuse) (given : List Flag)
deriving DecidableEq, Repr

structure Reading where
  file : Option String
  flags : List Flag
  /-- Whether the flags have been ended. -/
  filesOnly : Bool
deriving DecidableEq, Repr

namespace Reading

def start : Reading := ⟨none, [], false⟩

def addFlag (flag : Flag) (reading : Reading) : Except Stop Reading :=
  match flag with
  | .help => .error .help
  | .version => .error .version
  | _ => .ok { reading with flags := reading.flags ++ [flag] }

def refuse (argument : String) (reading : Reading) : Except Stop Reading :=
  .error (.misuse (.unexpected argument) reading.flags)

def addFile (name : String) (reading : Reading) : Except Stop Reading :=
  match reading.file with
  | none => .ok { reading with file := some name }
  | some _ => reading.refuse name

/-- A long name may be followed by an equals sign and a value, which is ignored. -/
def addLong (text : List Char) (reading : Reading) : Except Stop Reading :=
  let name := String.ofList ((text.dropWhile (· == '-')).takeWhile (· != '='))
  match Flag.ofLongName? name with
  | some flag => reading.addFlag flag
  | none => reading.refuse ("--" ++ name)

def addLetters (reading : Reading) : List Char → Except Stop Reading
  | [] => .ok reading
  | letter :: rest =>
    match Flag.ofLetter? letter with
    | some flag =>
      match reading.addFlag flag with
      | .ok after => after.addLetters rest
      | .error stop => .error stop
    | none => reading.refuse (String.ofList ['-', letter])

def add (argument : String) (reading : Reading) : Except Stop Reading :=
  if reading.filesOnly then reading.addFile argument
  else if argument = "--" then .ok { reading with filesOnly := true }
  else
    match argument.toList with
    | '-' :: '-' :: name => reading.addLong name
    | '-' :: letter :: rest => reading.addLetters (letter :: rest)
    | _ => reading.addFile argument

def repeated? (reading : Reading) : Option Flag :=
  Flag.all.find? fun flag => !flag.repeatable && decide (1 < reading.flags.count flag)

def finish (reading : Reading) : Except Stop Request :=
  match reading.file, reading.repeated? with
  | none, _ => .error (.misuse .missingFile reading.flags)
  | some _, some flag => .error (.misuse (.repeated flag) reading.flags)
  | some file, none => .ok ⟨file, reading.flags⟩

end Reading

def Request.ofArguments (arguments : List String) : Except Stop Request := do
  let add := fun (reading : Reading) argument => reading.add argument
  let reading ← arguments.foldlM add Reading.start
  reading.finish

end OasisSyntax.CommandLine
