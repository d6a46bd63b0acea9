import OasisSyntax.Token.Kind

/-!
# Syntax trees

Blocks, conditionals and loops can stand as statements and as operands; they are
the compounds, shared by both kinds of trees.  Parentheses leave no node, because
the shape of a tree already says what they say.  A tree may hold any kind as an
operator and any text as a name; the parser builds only sensible ones.
-/

namespace OasisSyntax

/-- The statements that leave something and may carry a value out of it. -/
inductive Jump where
  | ret | brk
deriving DecidableEq, Repr, Inhabited

def Jump.kind : Jump → Kind
  | ret => .kwReturn
  | brk => .kwBreak

mutual

inductive Expr where
  | ident (name : String)
  | int (digits : String)
  | unary (op : Kind) (operand : Expr)
  | binary (left : Expr) (op : Kind) (right : Expr)
  | call (callee : Expr) (args : List Expr)
  | compound (form : Compound)
  | func (params : List String) (body : List Stmt)

inductive Stmt where
  | expr (value : Expr)
  | binding (name : String) (value : Expr)
  | jump (word : Jump) (value : Option Expr)
  | continueLoop
  | compound (form : Compound)
  | funcDecl (name : String) (params : List String) (body : List Stmt)

inductive Compound where
  | block (body : List Stmt)
  | conditional (branches : Conditional)
  | loop (condition : Expr) (body : List Stmt)

/-- A chain of conditions, each with the block it guards, and perhaps a block for
when none holds. -/
inductive Conditional where
  | only (condition : Expr) (body : List Stmt)
  | orElse (condition : Expr) (body other : List Stmt)
  | elseIf (condition : Expr) (body : List Stmt) (next : Conditional)

end

instance : Inhabited Expr := ⟨.ident ""⟩
instance : Inhabited Stmt := ⟨.continueLoop⟩
instance : Inhabited Compound := ⟨.block []⟩
instance : Inhabited Conditional := ⟨.only default []⟩

abbrev Program := List Stmt

/-- Whether the text of the expression begins with a block, a conditional or a
loop, which would end the statement there. -/
def Expr.startsCompound : Expr → Bool
  | .compound _ => true
  | .call callee _ => callee.startsCompound
  | _ => false

end OasisSyntax
