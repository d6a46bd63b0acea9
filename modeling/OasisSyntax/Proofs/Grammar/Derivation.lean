import OasisSyntax.Proofs.Grammar.Concrete

/-!
# Derivations

The rules of the grammar, with one type for each nonterminal; a legal value of the type
is a derivation, and its yield is the row of tokens that is derived.

    stmt     := let ident = expr ; | (return | break) expr? ; | continue ;
              | func ident names block ;? | compound ;?
              | expr ;   where expr does not begin with a compound
    compound := block | if | while expr block
    if       := if expr block (else (if | block))?
    block    := { stmt* }
    names    := ( (ident (, ident)* ,?)? )
    args     := ( (expr (, expr)* ,?)? )
    expr     := unary (binop unary)*
    unary    := (- | ! | ~) unary | primary args*
    primary  := ident | int | ( expr ) | compound | func names block

Binary operators stand in a row here, whatever their precedences are.
-/

namespace OasisSyntax.Derivation

open Concrete (optionalToken parenthesised braced)

inductive Names where
  | none
  | listed (first : String) (more : List String) (trailing : Bool)

mutual

inductive Expr where
  | row (first : Unary) (more : List Operation)

inductive Operation where
  | mk (op : Kind) (operand : Unary)

inductive Unary where
  | prefixed (op : Kind) (operand : Unary)
  | applied (callee : Primary) (calls : List Args)

inductive Primary where
  | ident (name : String)
  | int (digits : String)
  | group (inner : Expr)
  | compound (form : Compound)
  | func (params : Names) (body : List Stmt)

inductive Args where
  | none
  | listed (first : Expr) (more : List Expr) (trailing : Bool)

inductive Compound where
  | block (body : List Stmt)
  | conditional (branches : Conditional)
  | loop (condition : Expr) (body : List Stmt)

inductive Conditional where
  | only (condition : Expr) (body : List Stmt)
  | orElse (condition : Expr) (body other : List Stmt)
  | elseIf (condition : Expr) (body : List Stmt) (next : Conditional)

inductive Stmt where
  | expr (value : Expr)
  | binding (name : String) (value : Expr)
  | jump (word : Jump) (value : Option Expr)
  | continueLoop
  | compound (form : Compound) (terminated : Bool)
  | funcDecl (name : String) (params : Names) (body : List Stmt) (terminated : Bool)

end

/-! ## What is derived -/

def Operation.op : Operation → Kind
  | .mk op _ => op

def Names.list : Names → List String
  | .none => []
  | .listed first more _ => first :: more

def Names.trailing : Names → Bool
  | .none => false
  | .listed _ _ trailing => trailing

def Names.yield (names : Names) : List Token :=
  Concrete.namesYield names.trailing names.list

mutual

def Expr.yield : Expr → List Token
  | .row first more => first.yield ++ Operation.allYield more
termination_by structural expr => expr

def Operation.yield : Operation → List Token
  | .mk op operand => .ofKind op :: operand.yield
termination_by structural operation => operation

def Unary.yield : Unary → List Token
  | .prefixed op operand => .ofKind op :: operand.yield
  | .applied callee calls => callee.yield ++ Args.allYield calls
termination_by structural unary => unary

def Primary.yield : Primary → List Token
  | .ident name => [⟨.ident, name⟩]
  | .int digits => [⟨.int, digits⟩]
  | .group inner => parenthesised inner.yield
  | .compound form => form.yield
  | .func params body =>
    .ofKind .kwFunc :: parenthesised params.yield ++ braced (Stmt.allYield body)
termination_by structural primary => primary

def Args.yield : Args → List Token
  | .none => []
  | .listed first more trailing => first.yield ++ Expr.moreYield trailing more
termination_by structural args => args

def Compound.yield : Compound → List Token
  | .block body => braced (Stmt.allYield body)
  | .conditional branches => branches.yield
  | .loop condition body =>
    .ofKind .kwWhile :: condition.yield ++ braced (Stmt.allYield body)
termination_by structural form => form

def Conditional.yield : Conditional → List Token
  | .only condition body =>
    .ofKind .kwIf :: condition.yield ++ braced (Stmt.allYield body)
  | .orElse condition body other =>
    .ofKind .kwIf :: condition.yield ++ braced (Stmt.allYield body) ++
      .ofKind .kwElse :: braced (Stmt.allYield other)
  | .elseIf condition body next =>
    .ofKind .kwIf :: condition.yield ++ braced (Stmt.allYield body) ++
      .ofKind .kwElse :: next.yield
termination_by structural branches => branches

def Stmt.yield : Stmt → List Token
  | .expr value => value.yield ++ [.ofKind .semi]
  | .binding name value =>
    .ofKind .kwLet :: ⟨.ident, name⟩ :: .ofKind .assign :: value.yield ++
      [.ofKind .semi]
  | .jump word none => [.ofKind word.kind, .ofKind .semi]
  | .jump word (some value) => .ofKind word.kind :: value.yield ++ [.ofKind .semi]
  | .continueLoop => [.ofKind .kwContinue, .ofKind .semi]
  | .compound form terminated => form.yield ++ optionalToken .semi terminated
  | .funcDecl name params body terminated =>
    .ofKind .kwFunc :: ⟨.ident, name⟩ :: parenthesised params.yield ++
      braced (Stmt.allYield body) ++ optionalToken .semi terminated
termination_by structural stmt => stmt

def Operation.allYield : List Operation → List Token
  | [] => []
  | operation :: rest => operation.yield ++ Operation.allYield rest
termination_by structural more => more

def Args.allYield : List Args → List Token
  | [] => []
  | args :: rest => parenthesised args.yield ++ Args.allYield rest
termination_by structural calls => calls

def Expr.moreYield (trailing : Bool) : List Expr → List Token
  | [] => optionalToken .comma trailing
  | value :: rest => .ofKind .comma :: value.yield ++ Expr.moreYield trailing rest
termination_by structural more => more

def Stmt.allYield : List Stmt → List Token
  | [] => []
  | stmt :: rest => stmt.yield ++ Stmt.allYield rest
termination_by structural body => body

end

/-! ## Legal derivations -/

def startsCompound (tokens : List Token) : Bool :=
  tokens.head?.any fun token => token.kind.opensCompound

mutual

/-- The operators are ones of the grammar, and a statement is an expression only if it
could not be a compound. -/
def Expr.Legal : Expr → Prop
  | .row first more => first.Legal ∧ Operation.AllLegal more
termination_by structural expr => expr

def Operation.Legal : Operation → Prop
  | .mk op operand => op.isBinary ∧ operand.Legal
termination_by structural operation => operation

def Unary.Legal : Unary → Prop
  | .prefixed op operand => op.isUnary ∧ operand.Legal
  | .applied callee calls => callee.Legal ∧ Args.AllLegal calls
termination_by structural unary => unary

def Primary.Legal : Primary → Prop
  | .ident _ | .int _ => True
  | .group inner => inner.Legal
  | .compound form => form.Legal
  | .func _ body => Stmt.AllLegal body
termination_by structural primary => primary

def Args.Legal : Args → Prop
  | .none => True
  | .listed first more _ => first.Legal ∧ Expr.AllLegal more
termination_by structural args => args

def Compound.Legal : Compound → Prop
  | .block body => Stmt.AllLegal body
  | .conditional branches => branches.Legal
  | .loop condition body => condition.Legal ∧ Stmt.AllLegal body
termination_by structural form => form

def Conditional.Legal : Conditional → Prop
  | .only condition body => condition.Legal ∧ Stmt.AllLegal body
  | .orElse condition body other =>
    condition.Legal ∧ Stmt.AllLegal body ∧ Stmt.AllLegal other
  | .elseIf condition body next => condition.Legal ∧ Stmt.AllLegal body ∧ next.Legal
termination_by structural branches => branches

def Stmt.Legal : Stmt → Prop
  | .expr value => ¬ startsCompound value.yield ∧ value.Legal
  | .binding _ value => value.Legal
  | .jump _ none => True
  | .jump _ (some value) => value.Legal
  | .continueLoop => True
  | .compound form _ => form.Legal
  | .funcDecl _ _ body _ => Stmt.AllLegal body
termination_by structural stmt => stmt

def Operation.AllLegal : List Operation → Prop
  | [] => True
  | operation :: rest => operation.Legal ∧ Operation.AllLegal rest
termination_by structural more => more

def Args.AllLegal : List Args → Prop
  | [] => True
  | args :: rest => args.Legal ∧ Args.AllLegal rest
termination_by structural calls => calls

def Expr.AllLegal : List Expr → Prop
  | [] => True
  | value :: rest => value.Legal ∧ Expr.AllLegal rest
termination_by structural more => more

def Stmt.AllLegal : List Stmt → Prop
  | [] => True
  | stmt :: rest => stmt.Legal ∧ Stmt.AllLegal rest
termination_by structural body => body

end

theorem Operation.isBinary_of_mem {more : List Operation} (legal : AllLegal more) :
    ∀ operation ∈ more, operation.op.isBinary := by
  induction more with
  | nil => nofun
  | cons operation rest ih =>
    rintro other (_ | ⟨_, later⟩)
    · cases operation
      exact legal.1.1
    · exact ih legal.2 other later

theorem Operation.allLegal_append {first second : List Operation}
    (legal : AllLegal first) (legal' : AllLegal second) :
    AllLegal (first ++ second) := by
  induction first with
  | nil => exact legal'
  | cons operation rest ih => exact ⟨legal.1, ih legal.2⟩

theorem Args.allLegal_snoc {calls : List Args} {args : Args}
    (legal : AllLegal calls) (legal' : args.Legal) : AllLegal (calls ++ [args]) := by
  induction calls with
  | nil => exact ⟨legal', trivial⟩
  | cons first rest ih => exact ⟨legal.1, ih legal.2⟩

end OasisSyntax.Derivation
