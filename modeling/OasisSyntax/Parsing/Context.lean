import OasisSyntax.Syntax.Tree

/-!
# Contexts of unfinished trees

While a tree is being read, everything that is still open around the current place
is kept as a context: which form surrounds the place, the parts of that form that
have been read already, and the context of the form itself.  A context ends at the
goal, a whole program or a single expression.
-/

namespace OasisSyntax

inductive Goal where
  | program | expression
deriving DecidableEq, Repr

abbrev Goal.Result : Goal → Type
  | .program => Program
  | .expression => Expr

mutual

/-- What an expression is being read for. -/
inductive ExprContext : Goal → Type where
  | whole : ExprContext .expression
  | unaryOperand {goal : Goal} (op : Kind) (outer : ExprContext goal) : ExprContext goal
  | rightOperand {goal : Goal} (left : Expr) (op : Kind) (outer : ExprContext goal) :
      ExprContext goal
  | group {goal : Goal} (outer : ExprContext goal) : ExprContext goal
  | argument {goal : Goal} (callee : Expr) (before : List Expr)
      (outer : ExprContext goal) : ExprContext goal
  | ifCondition {goal : Goal} (chain : ChainContext goal) : ExprContext goal
  | loopCondition {goal : Goal} (place : Place goal) : ExprContext goal
  | boundValue {goal : Goal} (name : String) (outer : SeqContext goal) :
      ExprContext goal
  | jumpValue {goal : Goal} (word : Jump) (outer : SeqContext goal) : ExprContext goal
  | statement {goal : Goal} (outer : SeqContext goal) : ExprContext goal

inductive Place : Goal → Type where
  | statement {goal : Goal} (outer : SeqContext goal) : Place goal
  | operand {goal : Goal} (outer : ExprContext goal) : Place goal

inductive ChainContext : Goal → Type where
  | first {goal : Goal} (place : Place goal) : ChainContext goal
  | next {goal : Goal} (condition : Expr) (body : List Stmt)
      (before : ChainContext goal) : ChainContext goal

inductive FuncContext : Goal → Type where
  | declaration {goal : Goal} (name : String) (outer : SeqContext goal) :
      FuncContext goal
  | literal {goal : Goal} (outer : ExprContext goal) : FuncContext goal

inductive SeqContext : Goal → Type where
  | program (done : List Stmt) : SeqContext .program
  | block {goal : Goal} (done : List Stmt) (owner : BlockContext goal) : SeqContext goal

inductive BlockContext : Goal → Type where
  | plain {goal : Goal} (place : Place goal) : BlockContext goal
  | thenBranch {goal : Goal} (condition : Expr) (chain : ChainContext goal) :
      BlockContext goal
  | elseBranch {goal : Goal} (condition : Expr) (body : List Stmt)
      (chain : ChainContext goal) : BlockContext goal
  | loopBody {goal : Goal} (condition : Expr) (place : Place goal) : BlockContext goal
  | funcBody {goal : Goal} (params : List String) (func : FuncContext goal) :
      BlockContext goal

end

variable {goal : Goal}

/-- An operator binds the expression read so far only if it is stronger than this. -/
def ExprContext.floor : ExprContext goal → Precedence
  | .unaryOperand .. => .unary
  | .rightOperand _ op _ => op.rightFloor
  | _ => .none

def SeqContext.push (stmt : Stmt) : SeqContext goal → SeqContext goal
  | .program done => .program (done ++ [stmt])
  | .block done owner => .block (done ++ [stmt]) owner

def SeqContext.isBlock : SeqContext goal → Bool
  | .program _ => false
  | .block .. => true

end OasisSyntax
