import OasisSyntax.Text.Line
import OasisSyntax.Text.Offset
import OasisSyntax.Token

/-!
# Sources

A source is a named text.  Sources are told apart by their names alone.  Places in
a source are given to readers as line and column, both counted from one, columns in
characters.
-/

namespace OasisSyntax

structure Source where
  name : String
  code : String
deriving Repr, Inhabited

instance : BEq Source := ⟨fun first second => first.name == second.name⟩

structure Position where
  line : Nat
  column : Nat
deriving DecidableEq, Repr

namespace Source

def text (source : Source) : List Char := source.code.toList

def slice? (source : Source) (span : Span) : Option String :=
  (Text.sliceBytes? span.start span.stop source.text).map String.ofList

def position? (source : Source) (offset : Nat) : Option Position :=
  (Text.splitAtByte? offset source.text).map fun (before, _) =>
    ⟨before.count '\n' + 1, (Text.lastPiece before).length + 1⟩

end Source

end OasisSyntax
