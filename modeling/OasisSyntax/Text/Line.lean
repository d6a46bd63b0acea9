/-!
# Lines

A line feed ends a line.  `pieces` cuts a text at every line feed; `lines` are the
lines as they are shown, where a carriage return in front of the line feed belongs
to the line's end and a last piece without any text is no line.  `cut` does the same
at any other mark.
-/

namespace OasisSyntax.Text

/-- The parts of a text between the marks in it; the marks themselves are left out. -/
def cut (mark : Char) : List Char → List (List Char)
  | [] => [[]]
  | char :: rest =>
    if char = mark then [] :: cut mark rest
    else
      match cut mark rest with
      | [] => [[char]]
      | piece :: following => (char :: piece) :: following

def pieces (text : List Char) : List (List Char) := cut '\n' text

def dropFinalReturn (line : List Char) : List Char :=
  if line.getLast? = some '\r' then line.dropLast else line

def linesOfPieces : List (List Char) → List (List Char)
  | [] => []
  | [final] => if final.isEmpty then [] else [final]
  | piece :: following => dropFinalReturn piece :: linesOfPieces following

def lines (text : List Char) : List (List Char) := linesOfPieces (pieces text)

def lastPiece (text : List Char) : List Char :=
  (text.reverse.takeWhile (· ≠ '\n')).reverse

def spaces (count : Nat) : String := String.ofList (List.replicate count ' ')

end OasisSyntax.Text
