import OasisSyntax.Proofs.Grammar.Operators
import OasisSyntax.Syntax.Tree
import OasisSyntax.Token.Lexeme

/-!
# Well-formed trees

A tree may hold any text as a name and any kind as an operator.  It is well-formed if
a source text could hold the tree: its names are words that are no keywords, its
integers are rows of digits, and every operator is one of the kinds that stand in its
place.
-/

namespace OasisSyntax

/-- A letter or an underscore, then letters, digits and underscores, and no keyword. -/
def IsName (text : String) : Prop :=
  text ∉ "fn" :: Kind.keywords.map Kind.spelling ∧
    match text.toList with
    | [] => False
    | char :: rest => Lexeme.isWordStart char ∧ rest.all Lexeme.isWordPart

def IsDigits (text : String) : Prop :=
  text ≠ "" ∧ text.toList.all Char.isDigit

example : "fn" :: Kind.keywords.map Kind.spelling =
    ["fn", "let", "if", "else", "while", "continue", "break", "func", "return"] := rfl

instance : DecidablePred IsName := fun text => by
  unfold IsName
  split <;> infer_instance

instance : DecidablePred IsDigits := fun text =>
  inferInstanceAs (Decidable (text ≠ "" ∧ text.toList.all Char.isDigit))

mutual

def Expr.WellFormed : Expr → Prop
  | .ident name => IsName name
  | .int digits => IsDigits digits
  | .unary op operand => op.isUnary ∧ operand.WellFormed
  | .binary left op right => op.isBinary ∧ left.WellFormed ∧ right.WellFormed
  | .call callee args => callee.WellFormed ∧ Expr.AllWellFormed args
  | .compound form => form.WellFormed
  | .func params body => (∀ name ∈ params, IsName name) ∧ Stmt.AllWellFormed body
termination_by structural expr => expr

def Stmt.WellFormed : Stmt → Prop
  | .expr value => value.WellFormed
  | .binding name value => IsName name ∧ value.WellFormed
  | .jump _ none => True
  | .jump _ (some value) => value.WellFormed
  | .continueLoop => True
  | .compound form => form.WellFormed
  | .funcDecl name params body =>
    IsName name ∧ (∀ name ∈ params, IsName name) ∧ Stmt.AllWellFormed body
termination_by structural stmt => stmt

def Compound.WellFormed : Compound → Prop
  | .block body => Stmt.AllWellFormed body
  | .conditional branches => branches.WellFormed
  | .loop condition body => condition.WellFormed ∧ Stmt.AllWellFormed body
termination_by structural form => form

def Conditional.WellFormed : Conditional → Prop
  | .only condition body => condition.WellFormed ∧ Stmt.AllWellFormed body
  | .orElse condition body other =>
    condition.WellFormed ∧ Stmt.AllWellFormed body ∧ Stmt.AllWellFormed other
  | .elseIf condition body next =>
    condition.WellFormed ∧ Stmt.AllWellFormed body ∧ next.WellFormed
termination_by structural branches => branches

def Expr.AllWellFormed : List Expr → Prop
  | [] => True
  | value :: rest => value.WellFormed ∧ Expr.AllWellFormed rest
termination_by structural args => args

def Stmt.AllWellFormed : List Stmt → Prop
  | [] => True
  | stmt :: rest => stmt.WellFormed ∧ Stmt.AllWellFormed rest
termination_by structural body => body

end

def Program.WellFormed (program : Program) : Prop := Stmt.AllWellFormed program

end OasisSyntax
