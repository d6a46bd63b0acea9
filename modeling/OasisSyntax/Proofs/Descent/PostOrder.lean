import OasisSyntax.Proofs.Descent.Procedures
import OasisSyntax.Proofs.Grammar.Concrete

/-!
# Statements in post-order

A walk over a tree visits every statement of every block in it: those inside of a
statement before the statement itself, and what stands to the left first.  Over a
concrete tree the walk goes along with the tokens that the tree is read from, and so it
knows at which token a statement begins.  Both walks visit the same statements.
-/

namespace OasisSyntax

/-! ## Syntax trees -/

mutual

def Expr.nested : Expr → List Stmt
  | .ident _ | .int _ => []
  | .unary _ operand => operand.nested
  | .binary left _ right => left.nested ++ right.nested
  | .call callee args => callee.nested ++ Expr.nestedAll args
  | .compound form => form.nested
  | .func _ body => Stmt.postOrder body
termination_by structural expr => expr

def Stmt.nested : Stmt → List Stmt
  | .expr value => value.nested
  | .binding _ value => value.nested
  | .jump _ none => []
  | .jump _ (some value) => value.nested
  | .continueLoop => []
  | .compound form => form.nested
  | .funcDecl _ _ body => Stmt.postOrder body
termination_by structural stmt => stmt

def Compound.nested : Compound → List Stmt
  | .block body => Stmt.postOrder body
  | .conditional branches => branches.nested
  | .loop condition body => condition.nested ++ Stmt.postOrder body
termination_by structural form => form

def Conditional.nested : Conditional → List Stmt
  | .only condition body => condition.nested ++ Stmt.postOrder body
  | .orElse condition body other =>
    condition.nested ++ Stmt.postOrder body ++ Stmt.postOrder other
  | .elseIf condition body next =>
    condition.nested ++ Stmt.postOrder body ++ next.nested
termination_by structural branches => branches

def Expr.nestedAll : List Expr → List Stmt
  | [] => []
  | value :: rest => value.nested ++ Expr.nestedAll rest
termination_by structural args => args

def Stmt.postOrder : List Stmt → List Stmt
  | [] => []
  | stmt :: rest => stmt.nested ++ stmt :: Stmt.postOrder rest
termination_by structural body => body

end

/-! ## Concrete trees -/

/-- The tokens behind a row that is as long as the front. -/
def behind (front : List Token) (tokens : List (Spanned Token)) : List (Spanned Token) :=
  tokens.drop front.length

namespace Concrete

open Descent (start)

mutual

/-- The events of the statements inside of a tree, which is read from the first of the
tokens. -/
def Expr.nested : Expr → List (Spanned Token) → List StatementEvent
  | .ident _, _ => []
  | .int _, _ => []
  | .unary op operand, tokens => operand.nested (behind [.ofKind op] tokens)
  | .binary left op right, tokens =>
    left.nested tokens ++ right.nested (behind (left.yield ++ [.ofKind op]) tokens)
  | .group inner, tokens => inner.nested (behind [.ofKind .lparen] tokens)
  | .call callee args _, tokens =>
    callee.nested tokens ++
      Expr.nestedAll args (behind (callee.yield ++ [.ofKind .lparen]) tokens)
  | .compound form, tokens => form.nested tokens
  | .func params trailing body, tokens =>
    Stmt.postOrder body (behind (.ofKind .kwFunc ::
      parenthesised (namesYield trailing params) ++ [.ofKind .lbrace]) tokens)
termination_by structural expr => expr

def Stmt.nested : Stmt → List (Spanned Token) → List StatementEvent
  | .expr value, tokens => value.nested tokens
  | .binding name value, tokens =>
    value.nested (behind [.ofKind .kwLet, ⟨.ident, name⟩, .ofKind .assign] tokens)
  | .jump _ none, _ => []
  | .jump word (some value), tokens => value.nested (behind [.ofKind word.kind] tokens)
  | .continueLoop, _ => []
  | .compound form _, tokens => form.nested tokens
  | .funcDecl name params trailing body _, tokens =>
    Stmt.postOrder body (behind (.ofKind .kwFunc :: ⟨.ident, name⟩ ::
      parenthesised (namesYield trailing params) ++ [.ofKind .lbrace]) tokens)
termination_by structural stmt => stmt

def Compound.nested : Compound → List (Spanned Token) → List StatementEvent
  | .block body, tokens => Stmt.postOrder body (behind [.ofKind .lbrace] tokens)
  | .conditional branches, tokens => branches.nested tokens
  | .loop condition body, tokens =>
    condition.nested (behind [.ofKind .kwWhile] tokens) ++
      Stmt.postOrder body
        (behind (.ofKind .kwWhile :: condition.yield ++ [.ofKind .lbrace]) tokens)
termination_by structural form => form

def Conditional.nested : Conditional → List (Spanned Token) → List StatementEvent
  | .only condition body, tokens =>
    condition.nested (behind [.ofKind .kwIf] tokens) ++
      Stmt.postOrder body
        (behind (.ofKind .kwIf :: condition.yield ++ [.ofKind .lbrace]) tokens)
  | .orElse condition body other, tokens =>
    condition.nested (behind [.ofKind .kwIf] tokens) ++
      Stmt.postOrder body
        (behind (.ofKind .kwIf :: condition.yield ++ [.ofKind .lbrace]) tokens) ++
      Stmt.postOrder other
        (behind (.ofKind .kwIf :: condition.yield ++ braced (Stmt.allYield body) ++
          [.ofKind .kwElse, .ofKind .lbrace]) tokens)
  | .elseIf condition body next, tokens =>
    condition.nested (behind [.ofKind .kwIf] tokens) ++
      Stmt.postOrder body
        (behind (.ofKind .kwIf :: condition.yield ++ [.ofKind .lbrace]) tokens) ++
      next.nested
        (behind (.ofKind .kwIf :: condition.yield ++ braced (Stmt.allYield body) ++
          [.ofKind .kwElse]) tokens)
termination_by structural branches => branches

def Expr.nestedAll : List Expr → List (Spanned Token) → List StatementEvent
  | [], _ => []
  | value :: rest, tokens =>
    value.nested tokens ++
      Expr.nestedAll rest (behind (value.yield ++ [.ofKind .comma]) tokens)
termination_by structural args => args

def Stmt.postOrder : List Stmt → List (Spanned Token) → List StatementEvent
  | [], _ => []
  | stmt :: rest, tokens =>
    stmt.nested tokens ++
      ⟨start tokens, stmt.erase⟩ :: Stmt.postOrder rest (behind stmt.yield tokens)
termination_by structural body => body

end

mutual

theorem Expr.stmts_nested (expr : Expr) (tokens : List (Spanned Token)) :
    (expr.nested tokens).map (·.stmt) = expr.erase.nested := by
  cases expr with
  | ident | int => rfl
  | unary op operand => exact operand.stmts_nested _
  | binary left op right =>
    simp only [Expr.nested, List.map_append, left.stmts_nested, right.stmts_nested,
      Expr.erase, OasisSyntax.Expr.nested]
  | group inner => exact inner.stmts_nested _
  | call callee args trailing =>
    simp only [Expr.nested, List.map_append, callee.stmts_nested, Expr.stmts_nestedAll args,
      Expr.erase, OasisSyntax.Expr.nested]
  | compound form => exact form.stmts_nested tokens
  | func params trailing body => exact Stmt.stmts_postOrder body _
termination_by structural expr

theorem Stmt.stmts_nested (stmt : Stmt) (tokens : List (Spanned Token)) :
    (stmt.nested tokens).map (·.stmt) = stmt.erase.nested := by
  cases stmt with
  | expr value => exact value.stmts_nested tokens
  | binding name value => exact value.stmts_nested _
  | jump word value =>
    cases value with
    | none => rfl
    | some value => exact value.stmts_nested _
  | continueLoop => rfl
  | compound form terminated => exact form.stmts_nested tokens
  | funcDecl name params trailing body terminated => exact Stmt.stmts_postOrder body _
termination_by structural stmt

theorem Compound.stmts_nested (form : Compound) (tokens : List (Spanned Token)) :
    (form.nested tokens).map (·.stmt) = form.erase.nested := by
  cases form with
  | block body => exact Stmt.stmts_postOrder body _
  | conditional branches => exact branches.stmts_nested tokens
  | loop condition body =>
    simp only [Compound.nested, List.map_append, condition.stmts_nested,
      Stmt.stmts_postOrder body, Compound.erase, OasisSyntax.Compound.nested]
termination_by structural form

theorem Conditional.stmts_nested (branches : Conditional) (tokens : List (Spanned Token)) :
    (branches.nested tokens).map (·.stmt) = branches.erase.nested := by
  cases branches with
  | only condition body =>
    simp only [Conditional.nested, List.map_append, condition.stmts_nested,
      Stmt.stmts_postOrder body, Conditional.erase, OasisSyntax.Conditional.nested]
  | orElse condition body other =>
    simp only [Conditional.nested, List.map_append, condition.stmts_nested,
      Stmt.stmts_postOrder body, Stmt.stmts_postOrder other, Conditional.erase,
      OasisSyntax.Conditional.nested]
  | elseIf condition body next =>
    simp only [Conditional.nested, List.map_append, condition.stmts_nested,
      Stmt.stmts_postOrder body, next.stmts_nested, Conditional.erase,
      OasisSyntax.Conditional.nested]
termination_by structural branches

theorem Expr.stmts_nestedAll (args : List Expr) (tokens : List (Spanned Token)) :
    (Expr.nestedAll args tokens).map (·.stmt) =
      OasisSyntax.Expr.nestedAll (Expr.eraseAll args) := by
  cases args with
  | nil => rfl
  | cons value rest =>
    simp only [Expr.nestedAll, List.map_append, value.stmts_nested, Expr.stmts_nestedAll rest,
      Expr.eraseAll, OasisSyntax.Expr.nestedAll]
termination_by structural args

theorem Stmt.stmts_postOrder (body : List Stmt) (tokens : List (Spanned Token)) :
    (Stmt.postOrder body tokens).map (·.stmt) =
      OasisSyntax.Stmt.postOrder (Stmt.eraseAll body) := by
  cases body with
  | nil => rfl
  | cons stmt rest =>
    simp only [Stmt.postOrder, List.map_append, List.map_cons, stmt.stmts_nested,
      Stmt.stmts_postOrder rest, Stmt.eraseAll, OasisSyntax.Stmt.postOrder]
termination_by structural body

end

end Concrete

/-! ## Rows of tokens -/

def Spells (yield : List Token) (tokens rest : List (Spanned Token)) : Prop :=
  ∃ own, tokens = own ++ rest ∧ own.map (·.node.plain) = yield

namespace Spells

variable {front yield : List Token} {tokens between rest : List (Spanned Token)}

theorem refl (tokens : List (Spanned Token)) : Spells [] tokens tokens := ⟨[], rfl, rfl⟩

theorem token (first : Spanned Token) (rest : List (Spanned Token)) :
    Spells [first.node.plain] (first :: rest) rest := ⟨[first], rfl, rfl⟩

theorem mark {first : Spanned Token} {kind : Kind} (same : first.node.kind = kind)
    (noName : kind ≠ .ident) (noInt : kind ≠ .int) (rest : List (Spanned Token)) :
    Spells [.ofKind kind] (first :: rest) rest :=
  Token.plain_of_kind same noName noInt ▸ token first rest

theorem append (first : Spells front tokens between) (second : Spells yield between rest) :
    Spells (front ++ yield) tokens rest := by
  obtain ⟨own, rfl, rfl⟩ := first
  obtain ⟨more, rfl, rfl⟩ := second
  exact ⟨own ++ more, (List.append_assoc ..).symm, List.map_append⟩

theorem behind_eq (spells : Spells front tokens rest) : behind front tokens = rest := by
  obtain ⟨own, rfl, rfl⟩ := spells
  rw [behind, List.length_map, List.drop_left]

theorem of_eq (spells : Spells front tokens rest) (same : front = yield) :
    Spells yield tokens rest := same ▸ spells

theorem exists_cons {token : Token} (spells : Spells (token :: yield) tokens rest) :
    ∃ first tail, tokens = first :: tail ∧ first.node.plain = token := by
  obtain ⟨own, rfl, same⟩ := spells
  cases own with
  | nil => contradiction
  | cons first own => exact ⟨first, own ++ rest, rfl, (List.cons.inj same).1⟩

theorem behind_append (spells : Spells front tokens between) (more : List Token) :
    behind (front ++ more) tokens = behind more between := by
  rw [← spells.behind_eq, behind, behind, behind, List.length_append, List.drop_drop]

theorem isSuffix (spells : Spells front tokens rest) : rest <:+ tokens := by
  obtain ⟨own, rfl, -⟩ := spells
  exact List.suffix_append own rest

end Spells

end OasisSyntax
