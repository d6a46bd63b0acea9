import OasisSyntax.Proofs.Descent.PostOrder
import OasisSyntax.Proofs.Printing.Layouts
import OasisSyntax.Proofs.Tokens.Boundaries

/-!
# Semicolons in layouts

A layout leaves no end of a statement to the reader: the tokens of a spaced row are all
written, and those of a tree hold as many semicolons as there are statements in the tree,
at whatever depth.  An expression has no semicolons but those of the statements in its
blocks, wherever in it these stand, and a statement has one more.
-/

namespace OasisSyntax

/-! ## Written tokens -/

private theorem Token.ReadsBefore.not_isImplicitSemi {token : Token} {after : List Char}
    (reads : token.ReadsBefore after) : ¬ token.isImplicitSemi := by
  intro implied
  obtain ⟨semi, other⟩ : token.kind = .semi ∧ token.literal ≠ ";" := by
    simpa [isImplicitSemi] using implied
  have symbol : Kind.semi ∈ Kind.symbols := by decide
  have spelled := @Lexeme.text_of_symbol (token.literal.toList ++ after)
  rw [reads.1, semi] at spelled
  exact other (String.toList_inj.1 (spelled symbol))

theorem Piece.Spaced.tokens_written {pieces : List Piece} {pending : Bool}
    (spaced : Spaced pending pieces) :
    ∀ token ∈ tokens pieces, token.kind ≠ .illegal ∧ ¬ token.isImplicitSemi := by
  induction pieces generalizing pending with
  | nil => simp
  | cons piece after ih =>
    cases piece with
    | token content =>
      obtain ⟨reads, -, behind⟩ := spaced
      exact List.forall_mem_cons.2 ⟨⟨reads.2.2, reads.not_isImplicitSemi⟩, ih behind⟩
    | space => exact ih spaced
    | newline => exact ih spaced.2

/-! ## Counting semicolons -/

namespace Token

/-- How many statements the tokens end. -/
def countEnds (tokens : List Token) : Nat := tokens.countP fun token => token.kind = .semi

@[simp] theorem countEnds_nil : countEnds [] = 0 := rfl

@[simp] theorem countEnds_cons (token : Token) (rest : List Token) :
    countEnds (token :: rest) = countEnds rest + if token.kind = .semi then 1 else 0 := by
  simp [countEnds, List.countP_cons]

@[simp] theorem countEnds_append (first second : List Token) :
    countEnds (first ++ second) = countEnds first + countEnds second :=
  List.countP_append

end Token

namespace Concrete

open Token (countEnds)

@[simp] theorem countEnds_parenthesised (inner : List Token) :
    countEnds (parenthesised inner) = countEnds inner := by
  simp [parenthesised]

@[simp] theorem countEnds_braced (inner : List Token) :
    countEnds (braced inner) = countEnds inner := by
  simp [braced]

private theorem countEnds_moreNamesYield (names : List String) :
    countEnds (moreNamesYield false names) = 0 := by
  induction names with
  | nil => rfl
  | cons name rest ih => simp [moreNamesYield, ih]

@[simp] theorem countEnds_namesYield (names : List String) :
    countEnds (namesYield false names) = 0 := by
  cases names with
  | nil => rfl
  | cons name rest => simp [namesYield, countEnds_moreNamesYield]

end Concrete

private theorem Kind.ne_semi_of_isUnary {kind : Kind} (unary : kind.isUnary) : kind ≠ .semi := by
  rintro rfl
  contradiction

private theorem Kind.ne_semi_of_isBinary {kind : Kind} (binary : kind.isBinary) :
    kind ≠ .semi := by
  rintro rfl
  contradiction

open Concrete (optionalToken)
open Token (countEnds)

-- A tree may hold the semicolon itself as an operator, so it has to be well-formed.
mutual

theorem Expr.countEnds_bracketed (expr : Expr) (wellFormed : expr.WellFormed) :
    countEnds expr.bracketed.yield = expr.nested.length := by
  cases expr with
  | ident | int => rfl
  | unary op operand =>
    simp [Expr.bracketed, Concrete.Expr.yield, Expr.nested,
      Kind.ne_semi_of_isUnary wellFormed.1, operand.countEnds_bracketed wellFormed.2]
  | binary left op right =>
    obtain ⟨binary, leftFormed, rightFormed⟩ := wellFormed
    simp [Expr.bracketed, Concrete.Expr.yield, Expr.nested,
      Kind.ne_semi_of_isBinary binary, left.countEnds_bracketed leftFormed,
      right.countEnds_bracketed rightFormed]
  | call callee args =>
    simp [Expr.bracketed, Concrete.Expr.yield, Expr.nested,
      callee.countEnds_bracketed wellFormed.1,
      Expr.countEnds_argsYield args wellFormed.2]
  | compound form => exact form.countEnds_bracketed wellFormed
  | func params body =>
    simp [Expr.bracketed, Concrete.Expr.yield, Expr.nested,
      Stmt.countEnds_allYield body wellFormed.2]
termination_by structural expr

theorem Stmt.countEnds_bracketed (stmt : Stmt) (wellFormed : stmt.WellFormed) :
    countEnds stmt.bracketed.yield = stmt.nested.length + 1 := by
  cases stmt with
  | expr value =>
    have inside := value.countEnds_bracketed wellFormed
    simp only [Stmt.bracketed, Concrete.Stmt.yield, Stmt.nested]
    split <;> simp [Concrete.Expr.yield, inside]
  | binding name value =>
    simp [Stmt.bracketed, Concrete.Stmt.yield, Stmt.nested,
      value.countEnds_bracketed wellFormed.2]
  | jump word value =>
    have keyword : word.kind ≠ .semi := by cases word <;> decide
    cases value with
    | none => simp [Stmt.bracketed, Concrete.Stmt.yield, Stmt.nested, keyword]
    | some value =>
      simp [Stmt.bracketed, Concrete.Stmt.yield, Stmt.nested, keyword,
        value.countEnds_bracketed wellFormed]
  | continueLoop => rfl
  | compound form =>
    simp [Stmt.bracketed, Concrete.Stmt.yield, Stmt.nested, optionalToken,
      form.countEnds_bracketed wellFormed]
  | funcDecl name params body =>
    simp [Stmt.bracketed, Concrete.Stmt.yield, Stmt.nested, optionalToken,
      Stmt.countEnds_allYield body wellFormed.2.2]
termination_by structural stmt

theorem Compound.countEnds_bracketed (form : Compound) (wellFormed : form.WellFormed) :
    countEnds form.bracketed.yield = form.nested.length := by
  cases form with
  | block body =>
    simp [Compound.bracketed, Concrete.Compound.yield, Compound.nested,
      Stmt.countEnds_allYield body wellFormed]
  | conditional branches => exact branches.countEnds_bracketed wellFormed
  | loop condition body =>
    simp [Compound.bracketed, Concrete.Compound.yield, Compound.nested,
      condition.countEnds_bracketed wellFormed.1,
      Stmt.countEnds_allYield body wellFormed.2]
termination_by structural form

theorem Conditional.countEnds_bracketed (branches : Conditional)
    (wellFormed : branches.WellFormed) :
    countEnds branches.bracketed.yield = branches.nested.length := by
  cases branches with
  | only condition body =>
    simp [Conditional.bracketed, Concrete.Conditional.yield, Conditional.nested,
      condition.countEnds_bracketed wellFormed.1,
      Stmt.countEnds_allYield body wellFormed.2]
  | orElse condition body other =>
    obtain ⟨conditionFormed, bodyFormed, otherFormed⟩ := wellFormed
    simp [Conditional.bracketed, Concrete.Conditional.yield, Conditional.nested,
      condition.countEnds_bracketed conditionFormed,
      Stmt.countEnds_allYield body bodyFormed, Stmt.countEnds_allYield other otherFormed]
  | elseIf condition body next =>
    obtain ⟨conditionFormed, bodyFormed, nextFormed⟩ := wellFormed
    simp [Conditional.bracketed, Concrete.Conditional.yield, Conditional.nested,
      condition.countEnds_bracketed conditionFormed,
      Stmt.countEnds_allYield body bodyFormed, next.countEnds_bracketed nextFormed]
termination_by structural branches

theorem Expr.countEnds_argsYield (args : List Expr)
    (wellFormed : Expr.AllWellFormed args) :
    countEnds (Concrete.Expr.argsYield false (Expr.bracketedAll args)) =
      (Expr.nestedAll args).length := by
  cases args with
  | nil => rfl
  | cons value rest =>
    simp [Expr.bracketedAll, Concrete.Expr.argsYield, Expr.nestedAll,
      value.countEnds_bracketed wellFormed.1,
      Expr.countEnds_moreArgsYield rest wellFormed.2]
termination_by structural args

theorem Expr.countEnds_moreArgsYield (args : List Expr)
    (wellFormed : Expr.AllWellFormed args) :
    countEnds (Concrete.Expr.moreArgsYield false (Expr.bracketedAll args)) =
      (Expr.nestedAll args).length := by
  cases args with
  | nil => rfl
  | cons value rest =>
    simp [Expr.bracketedAll, Concrete.Expr.moreArgsYield, Expr.nestedAll,
      value.countEnds_bracketed wellFormed.1,
      Expr.countEnds_moreArgsYield rest wellFormed.2]
termination_by structural args

theorem Stmt.countEnds_allYield (body : List Stmt)
    (wellFormed : Stmt.AllWellFormed body) :
    countEnds (Concrete.Stmt.allYield (Stmt.bracketedAll body)) =
      (Stmt.postOrder body).length := by
  cases body with
  | nil => rfl
  | cons stmt rest =>
    have first := stmt.countEnds_bracketed wellFormed.1
    have more := Stmt.countEnds_allYield rest wellFormed.2
    simp only [Stmt.bracketedAll, Concrete.Stmt.allYield, Stmt.postOrder,
      Token.countEnds_append, first, more, List.length_append, List.length_cons]
    omega
termination_by structural body

end

end OasisSyntax
