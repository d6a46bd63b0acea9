import OasisSyntax.Proofs.Grammar.Lead
import OasisSyntax.Proofs.Parsing.Settle

/-!
# What a state has read

`Reads` says that a row of tokens is what has to be taken to get into a context or a
state: the context is made of syntax trees, and the row of the yields of canonical
trees for them, with the tokens in between.  A state that is settled for a kind is held
to what may stand in front of that kind; one that has just been entered, to what may
stand in front of any.
-/

namespace OasisSyntax

open Concrete (parenthesised braced optionalToken)

namespace Concrete

/-- An operator that is stronger than this would take the last operand of the tree. -/
def Expr.floor : Expr → Precedence
  | .binary _ op _ => op.rightFloor
  | .unary .. => .unary
  | _ => .call

end Concrete

variable {goal : Goal}

def ExprContext.isStatement : ExprContext goal → Bool
  | .statement _ => true
  | _ => false

structure ExprContext.Admits (outer : ExprContext goal) (tree : Concrete.Expr) : Prop where
  canonical : tree.Canonical
  stronger : outer.floor < tree.level
  plain : outer.isStatement → ¬ tree.startsCompound

mutual

inductive ExprContext.Reads : {goal : Goal} → ExprContext goal → List Token → Prop where
  | whole : ExprContext.Reads .whole []
  | unaryOperand {goal : Goal} {op : Kind} {outer : ExprContext goal}
      {taken : List Token} (unary : op.isUnary) (outside : outer.Reads taken) :
      ExprContext.Reads (.unaryOperand op outer) (taken ++ [.ofKind op])
  | rightOperand {goal : Goal} {left : Concrete.Expr} {op : Kind}
      {outer : ExprContext goal} {taken : List Token} (binary : op.isBinary)
      (stronger : outer.floor < op.precedence) (admits : outer.Admits left)
      (fits : left.FitsLeftOf op) (outside : outer.Reads taken) :
      ExprContext.Reads (.rightOperand left.erase op outer)
        (taken ++ left.yield ++ [.ofKind op])
  | group {goal : Goal} {outer : ExprContext goal} {taken : List Token}
      (outside : outer.Reads taken) :
      ExprContext.Reads (.group outer) (taken ++ [.ofKind .lparen])
  | argument {goal : Goal} {callee : Concrete.Expr} {before : List Concrete.Expr}
      {outer : ExprContext goal} {taken : List Token} (admits : outer.Admits callee)
      (primary : ¬ callee.isOperation) (canonical : Concrete.Expr.AllCanonical before)
      (outside : outer.Reads taken) :
      ExprContext.Reads
        (.argument callee.erase (Concrete.Expr.eraseAll before) outer)
        (taken ++ callee.yield ++ .ofKind .lparen ::
          Concrete.Expr.argsYield true before)
  | ifCondition {goal : Goal} {chain : ChainContext goal} {taken : List Token}
      (outside : chain.Reads taken) :
      ExprContext.Reads (.ifCondition chain) (taken ++ [.ofKind .kwIf])
  | loopCondition {goal : Goal} {place : Place goal} {taken : List Token}
      (outside : place.Reads taken) :
      ExprContext.Reads (.loopCondition place) (taken ++ [.ofKind .kwWhile])
  | boundValue {goal : Goal} {name : String} {outer : SeqContext goal}
      {taken : List Token} (outside : outer.Reads taken) :
      ExprContext.Reads (.boundValue name outer)
        (taken ++ [.ofKind .kwLet, ⟨.ident, name⟩, .ofKind .assign])
  | jumpValue {goal : Goal} {word : Jump} {outer : SeqContext goal}
      {taken : List Token} (outside : outer.Reads taken) :
      ExprContext.Reads (.jumpValue word outer) (taken ++ [.ofKind word.kind])
  | statement {goal : Goal} {outer : SeqContext goal} {taken : List Token}
      (outside : outer.Reads taken) : ExprContext.Reads (.statement outer) taken

inductive Place.Reads : {goal : Goal} → Place goal → List Token → Prop where
  | statement {goal : Goal} {outer : SeqContext goal} {taken : List Token}
      (outside : outer.Reads taken) : Place.Reads (.statement outer) taken
  | operand {goal : Goal} {outer : ExprContext goal} {taken : List Token}
      (inside : ¬ outer.isStatement) (outside : outer.Reads taken) :
      Place.Reads (.operand outer) taken

inductive ChainContext.Reads : {goal : Goal} → ChainContext goal → List Token → Prop where
  | first {goal : Goal} {place : Place goal} {taken : List Token}
      (outside : place.Reads taken) : ChainContext.Reads (.first place) taken
  | next {goal : Goal} {condition : Concrete.Expr} {body : List Concrete.Stmt}
      {before : ChainContext goal} {taken : List Token}
      (canonical : condition.Canonical) (canonicals : Concrete.Stmt.AllCanonical body)
      (outside : before.Reads taken) :
      ChainContext.Reads
        (.next condition.erase (Concrete.Stmt.eraseAll body) before)
        (taken ++ .ofKind .kwIf :: condition.yield ++
          braced (Concrete.Stmt.allYield body) ++ [.ofKind .kwElse])

inductive FuncContext.Reads : {goal : Goal} → FuncContext goal → List Token → Prop where
  | declaration {goal : Goal} {name : String} {outer : SeqContext goal}
      {taken : List Token} (outside : outer.Reads taken) :
      FuncContext.Reads (.declaration name outer)
        (taken ++ [.ofKind .kwFunc, ⟨.ident, name⟩])
  | literal {goal : Goal} {outer : ExprContext goal} {taken : List Token}
      (outside : outer.Reads taken) :
      FuncContext.Reads (.literal outer) (taken ++ [.ofKind .kwFunc])

inductive SeqContext.Reads : {goal : Goal} → SeqContext goal → List Token → Prop where
  | program {done : List Concrete.Stmt} (canonicals : Concrete.Stmt.AllCanonical done) :
      SeqContext.Reads (.program (Concrete.Stmt.eraseAll done))
        (Concrete.Stmt.allYield done)
  | block {goal : Goal} {done : List Concrete.Stmt} {owner : BlockContext goal}
      {taken : List Token} (canonicals : Concrete.Stmt.AllCanonical done)
      (outside : owner.Reads taken) :
      SeqContext.Reads (.block (Concrete.Stmt.eraseAll done) owner)
        (taken ++ .ofKind .lbrace :: Concrete.Stmt.allYield done)

inductive BlockContext.Reads : {goal : Goal} → BlockContext goal → List Token → Prop where
  | plain {goal : Goal} {place : Place goal} {taken : List Token}
      (outside : place.Reads taken) : BlockContext.Reads (.plain place) taken
  | thenBranch {goal : Goal} {condition : Concrete.Expr} {chain : ChainContext goal}
      {taken : List Token} (canonical : condition.Canonical)
      (outside : chain.Reads taken) :
      BlockContext.Reads (.thenBranch condition.erase chain)
        (taken ++ .ofKind .kwIf :: condition.yield)
  | elseBranch {goal : Goal} {condition : Concrete.Expr} {body : List Concrete.Stmt}
      {chain : ChainContext goal} {taken : List Token}
      (canonical : condition.Canonical) (canonicals : Concrete.Stmt.AllCanonical body)
      (outside : chain.Reads taken) :
      BlockContext.Reads
        (.elseBranch condition.erase (Concrete.Stmt.eraseAll body) chain)
        (taken ++ .ofKind .kwIf :: condition.yield ++
          braced (Concrete.Stmt.allYield body) ++ [.ofKind .kwElse])
  | loopBody {goal : Goal} {condition : Concrete.Expr} {place : Place goal}
      {taken : List Token} (canonical : condition.Canonical)
      (outside : place.Reads taken) :
      BlockContext.Reads (.loopBody condition.erase place)
        (taken ++ .ofKind .kwWhile :: condition.yield)
  | funcBody {goal : Goal} {params : List String} (trailing : Bool)
      {func : FuncContext goal} {taken : List Token}
      (comma : trailing → params ≠ []) (outside : func.Reads taken) :
      BlockContext.Reads (.funcBody params func)
        (taken ++ parenthesised (Concrete.namesYield trailing params))

end

/-- Reading up to the state has taken these tokens, if the given kind comes next. -/
inductive State.Reads (next : Kind) : {goal : Goal} → State goal → List Token → Prop where
  | statement {goal : Goal} {outer : SeqContext goal} {taken : List Token}
      (outside : outer.Reads taken) : State.Reads next (.statement outer) taken
  | operand {goal : Goal} {outer : ExprContext goal} {taken : List Token}
      (inside : outer.isStatement → ¬ next.opensCompound)
      (outside : outer.Reads taken) : State.Reads next (.operand outer) taken
  | value {goal : Goal} {tree : Concrete.Expr} {outer : ExprContext goal}
      {taken : List Token} (admits : outer.Admits tree)
      (ends : ¬ tree.floor < next.precedence) (outside : outer.Reads taken) :
      State.Reads next (.value tree.erase outer) (taken ++ tree.yield)
  | groupEnd {goal : Goal} {inner : Concrete.Expr} {outer : ExprContext goal}
      {taken : List Token} (canonical : inner.Canonical) (outside : outer.Reads taken) :
      State.Reads next (.groupEnd inner.erase outer)
        (taken ++ .ofKind .lparen :: inner.yield)
  | argumentStart {goal : Goal} {callee : Concrete.Expr} {before : List Concrete.Expr}
      {outer : ExprContext goal} {taken : List Token} (admits : outer.Admits callee)
      (primary : ¬ callee.isOperation) (canonical : Concrete.Expr.AllCanonical before)
      (outside : outer.Reads taken) :
      State.Reads next
        (.argumentStart callee.erase (Concrete.Expr.eraseAll before) outer)
        (taken ++ callee.yield ++ .ofKind .lparen ::
          Concrete.Expr.argsYield true before)
  | argumentEnd {goal : Goal} {callee : Concrete.Expr} {args : List Concrete.Expr}
      (trailing : Bool) {outer : ExprContext goal} {taken : List Token}
      (admits : outer.Admits callee) (primary : ¬ callee.isOperation)
      (comma : trailing → args ≠ []) (canonical : Concrete.Expr.AllCanonical args)
      (more : next = .comma → args ≠ [] ∧ trailing = false)
      (outside : outer.Reads taken) :
      State.Reads next (.argumentEnd callee.erase (Concrete.Expr.eraseAll args) outer)
        (taken ++ callee.yield ++ .ofKind .lparen ::
          Concrete.Expr.argsYield trailing args)
  | statementEnd {goal : Goal} {stmt : Stmt} {required : Bool} {outer : SeqContext goal}
      {taken part : List Token}
      (closed : ∃ tree : Concrete.Stmt,
        tree.Canonical ∧ tree.erase = stmt ∧ tree.yield = part ++ [.ofKind .semi])
      (free : required = false → ∃ tree : Concrete.Stmt,
        tree.Canonical ∧ tree.erase = stmt ∧ tree.yield = part)
      (outside : outer.Reads taken) :
      State.Reads next (.statementEnd stmt required outer) (taken ++ part)
  | boundName {goal : Goal} {outer : SeqContext goal} {taken : List Token}
      (outside : outer.Reads taken) :
      State.Reads next (.boundName outer) (taken ++ [.ofKind .kwLet])
  | boundSign {goal : Goal} {name : String} {outer : SeqContext goal}
      {taken : List Token} (outside : outer.Reads taken) :
      State.Reads next (.boundSign name outer)
        (taken ++ [.ofKind .kwLet, ⟨.ident, name⟩])
  | jumpStart {goal : Goal} {word : Jump} {outer : SeqContext goal}
      {taken : List Token} (outside : outer.Reads taken) :
      State.Reads next (.jumpStart word outer) (taken ++ [.ofKind word.kind])
  | funcStart {goal : Goal} {outer : SeqContext goal} {taken : List Token}
      (outside : outer.Reads taken) :
      State.Reads next (.funcStart outer) (taken ++ [.ofKind .kwFunc])
  | paramsStart {goal : Goal} {func : FuncContext goal} {taken : List Token}
      (outside : func.Reads taken) : State.Reads next (.paramsStart func) taken
  | paramStart {goal : Goal} {before : List String} {func : FuncContext goal}
      {taken : List Token} (outside : func.Reads taken) :
      State.Reads next (.paramStart before func)
        (taken ++ .ofKind .lparen :: Concrete.namesYield true before)
  | paramEnd {goal : Goal} {params : List String} (trailing : Bool)
      {func : FuncContext goal} {taken : List Token} (comma : trailing → params ≠ [])
      (more : next = .comma → params ≠ [] ∧ trailing = false)
      (outside : func.Reads taken) :
      State.Reads next (.paramEnd params func)
        (taken ++ .ofKind .lparen :: Concrete.namesYield trailing params)
  | blockStart {goal : Goal} {owner : BlockContext goal} {taken : List Token}
      (outside : owner.Reads taken) : State.Reads next (.blockStart owner) taken
  | thenEnd {goal : Goal} {condition : Concrete.Expr} {body : List Concrete.Stmt}
      {chain : ChainContext goal} {taken : List Token}
      (canonical : condition.Canonical) (canonicals : Concrete.Stmt.AllCanonical body)
      (outside : chain.Reads taken) :
      State.Reads next
        (.thenEnd condition.erase (Concrete.Stmt.eraseAll body) chain)
        (taken ++ .ofKind .kwIf :: condition.yield ++
          braced (Concrete.Stmt.allYield body))
  | elseStart {goal : Goal} {condition : Concrete.Expr} {body : List Concrete.Stmt}
      {chain : ChainContext goal} {taken : List Token}
      (canonical : condition.Canonical) (canonicals : Concrete.Stmt.AllCanonical body)
      (outside : chain.Reads taken) :
      State.Reads next
        (.elseStart condition.erase (Concrete.Stmt.eraseAll body) chain)
        (taken ++ .ofKind .kwIf :: condition.yield ++
          braced (Concrete.Stmt.allYield body) ++ [.ofKind .kwElse])

end OasisSyntax
