import OasisSyntax.Token

/-!
# Syntax errors

A syntax error names the token that cannot follow what has been read and the kinds
of tokens that could have followed.
-/

namespace OasisSyntax

inductive SyntaxError where
  /-- An expression had to begin here. -/
  | noOperand (actual : Token)
  /-- One kind of token was the only one possible here. -/
  | missing (expected : Kind) (actual : Token)
  /-- The parser contradicts itself. -/
  | internal (cause : String)
deriving DecidableEq, Repr

namespace SyntaxError

def expected : SyntaxError → List Kind
  | noOperand _ => Kind.operandStarts
  | missing kind _ => [kind]
  | internal _ => []

def actual? : SyntaxError → Option Token
  | noOperand actual => some actual
  | missing _ actual => some actual
  | internal _ => none

def message : SyntaxError → String
  | noOperand actual =>
    let starts := String.intercalate ", " (Kind.operandStarts.map Kind.describe)
    s!"expected one of {starts}, got {actual.describe}"
  | missing kind actual => s!"expected {kind.describe}, got {actual.describe}"
  | internal cause =>
    s!"an internal error has occured: {cause}\nPlease report this as a bug"

end SyntaxError

end OasisSyntax
