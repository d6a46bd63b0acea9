import OasisSyntax.Text.Line
import OasisSyntax.Text.Offset

/-!
# Source files

Reading a source file gives its text or the reason why there is none.  A working
directory holds named files with their bytes.  A path is followed name by name from
there, or from outside if it begins with a slash.  What lies outside are directories
of which nothing is known, so no name leads from there to a file or back inside.
-/

namespace OasisSyntax.CommandLine

inductive ReadError where
  | notFound | noPermission | notDirectory | isDirectory | nameTooLong | notText
deriving DecidableEq, Repr

namespace ReadError

def systemNumber? : ReadError → Option Nat
  | notFound => some 2
  | noPermission => some 13
  | notDirectory => some 20
  | isDirectory => some 21
  | nameTooLong => some 36
  | notText => none

def ofSystemNumber? (number : Nat) : Option ReadError :=
  [notFound, noPermission, notDirectory, isDirectory, nameTooLong].find? fun error =>
    error.systemNumber? == some number

def words : ReadError → String
  | notFound => "No such file or directory"
  | noPermission => "Permission denied"
  | notDirectory => "Not a directory"
  | isDirectory => "Is a directory"
  | nameTooLong => "File name too long"
  | notText => "stream did not contain valid UTF-8"

def message (error : ReadError) : String :=
  match error.systemNumber? with
  | some number => s!"{error.words} (os error {number})"
  | none => error.words

end ReadError

def decodeText (bytes : ByteArray) : Except ReadError String :=
  match String.fromUTF8? bytes with
  | some text => .ok text
  | none => .error .notText

structure Directory where
  files : List (String × ByteArray)

inductive Location where
  | working
  | outside
  | file (content : ByteArray)

namespace Directory

def nameLimit : Nat := 255

def pathLimit : Nat := 4095

/-- An empty name stands for the directory in which it is met, as a single dot does. -/
def enter (directory : Directory) (location : Location) (name : List Char) :
    Except ReadError Location :=
  match location with
  | .file _ => .error .notDirectory
  | .working | .outside =>
    if name = [] ∨ name = ['.'] then .ok location
    else if name = ['.', '.'] then .ok .outside
    else if nameLimit < Text.byteLength name then .error .nameTooLong
    else
      match location, directory.files.lookup (String.ofList name) with
      | .working, some content => .ok (.file content)
      | _, _ => .error .notFound

def follow (directory : Directory) (path : List Char) : Except ReadError Location :=
  let first : Location := if path.head? = some '/' then .outside else .working
  (Text.cut '/' path).foldlM directory.enter first

def read (directory : Directory) (path : String) : Except ReadError String :=
  if path = "" then .error .notFound
  else if pathLimit < Text.byteLength path.toList then .error .nameTooLong
  else
    match directory.follow path.toList with
    | .ok (.file content) => decodeText content
    | .ok _ => .error .isDirectory
    | .error error => .error error

end Directory

end OasisSyntax.CommandLine
