import OasisSyntax.Proofs.Grammar.Concrete
import OasisSyntax.Proofs.Printing.WellFormed
import OasisSyntax.Syntax.Layout

/-!
# The concrete tree of a layout

A layout writes down one concrete tree of a syntax tree.  In that tree every operation
stands in parentheses, a semicolon ends every statement, and no list has a trailing
comma.
-/

namespace OasisSyntax

mutual

def Expr.bracketed : Expr → Concrete.Expr
  | .ident name => .ident name
  | .int digits => .int digits
  | .unary op operand => .group (.unary op operand.bracketed)
  | .binary left op right => .group (.binary left.bracketed op right.bracketed)
  | .call callee args => .call callee.bracketed (Expr.bracketedAll args) false
  | .compound form => .compound form.bracketed
  | .func params body => .func params false (Stmt.bracketedAll body)
termination_by structural expr => expr

def Stmt.bracketed : Stmt → Concrete.Stmt
  | .expr value =>
    .expr (if value.startsCompound then .group value.bracketed else value.bracketed)
  | .binding name value => .binding name value.bracketed
  | .jump word none => .jump word none
  | .jump word (some value) => .jump word (some value.bracketed)
  | .continueLoop => .continueLoop
  | .compound form => .compound form.bracketed true
  | .funcDecl name params body =>
    .funcDecl name params false (Stmt.bracketedAll body) true
termination_by structural stmt => stmt

def Compound.bracketed : Compound → Concrete.Compound
  | .block body => .block (Stmt.bracketedAll body)
  | .conditional branches => .conditional branches.bracketed
  | .loop condition body => .loop condition.bracketed (Stmt.bracketedAll body)
termination_by structural form => form

def Conditional.bracketed : Conditional → Concrete.Conditional
  | .only condition body => .only condition.bracketed (Stmt.bracketedAll body)
  | .orElse condition body other =>
    .orElse condition.bracketed (Stmt.bracketedAll body) (Stmt.bracketedAll other)
  | .elseIf condition body next =>
    .elseIf condition.bracketed (Stmt.bracketedAll body) next.bracketed
termination_by structural branches => branches

def Expr.bracketedAll : List Expr → List Concrete.Expr
  | [] => []
  | value :: rest => value.bracketed :: Expr.bracketedAll rest
termination_by structural args => args

def Stmt.bracketedAll : List Stmt → List Concrete.Stmt
  | [] => []
  | stmt :: rest => stmt.bracketed :: Stmt.bracketedAll rest
termination_by structural body => body

end

/-! ## Nothing but marks is added -/

mutual

theorem Expr.erase_bracketed (expr : Expr) : expr.bracketed.erase = expr := by
  cases expr with
  | ident | int => rfl
  | unary op operand =>
    simp only [Expr.bracketed, Concrete.Expr.erase, operand.erase_bracketed]
  | binary left op right =>
    simp only [Expr.bracketed, Concrete.Expr.erase, left.erase_bracketed,
      right.erase_bracketed]
  | call callee args =>
    simp only [Expr.bracketed, Concrete.Expr.erase, callee.erase_bracketed,
      Expr.eraseAll_bracketedAll args]
  | compound form =>
    simp only [Expr.bracketed, Concrete.Expr.erase, form.erase_bracketed]
  | func params body =>
    simp only [Expr.bracketed, Concrete.Expr.erase, Stmt.eraseAll_bracketedAll body]
termination_by structural expr

theorem Stmt.erase_bracketed (stmt : Stmt) : stmt.bracketed.erase = stmt := by
  cases stmt with
  | expr value =>
    have erases := value.erase_bracketed
    simp only [Stmt.bracketed, Concrete.Stmt.erase]
    split <;> simp only [Concrete.Expr.erase, erases]
  | binding name value =>
    simp only [Stmt.bracketed, Concrete.Stmt.erase, value.erase_bracketed]
  | jump word value =>
    cases value with
    | none => rfl
    | some value =>
      simp only [Stmt.bracketed, Concrete.Stmt.erase, value.erase_bracketed]
  | continueLoop => rfl
  | compound form =>
    simp only [Stmt.bracketed, Concrete.Stmt.erase, form.erase_bracketed]
  | funcDecl name params body =>
    simp only [Stmt.bracketed, Concrete.Stmt.erase, Stmt.eraseAll_bracketedAll body]
termination_by structural stmt

theorem Compound.erase_bracketed (form : Compound) : form.bracketed.erase = form := by
  cases form with
  | block body =>
    simp only [Compound.bracketed, Concrete.Compound.erase,
      Stmt.eraseAll_bracketedAll body]
  | conditional branches =>
    simp only [Compound.bracketed, Concrete.Compound.erase, branches.erase_bracketed]
  | loop condition body =>
    simp only [Compound.bracketed, Concrete.Compound.erase, condition.erase_bracketed,
      Stmt.eraseAll_bracketedAll body]
termination_by structural form

theorem Conditional.erase_bracketed (branches : Conditional) :
    branches.bracketed.erase = branches := by
  cases branches with
  | only condition body =>
    simp only [Conditional.bracketed, Concrete.Conditional.erase,
      condition.erase_bracketed, Stmt.eraseAll_bracketedAll body]
  | orElse condition body other =>
    simp only [Conditional.bracketed, Concrete.Conditional.erase,
      condition.erase_bracketed, Stmt.eraseAll_bracketedAll body,
      Stmt.eraseAll_bracketedAll other]
  | elseIf condition body next =>
    simp only [Conditional.bracketed, Concrete.Conditional.erase,
      condition.erase_bracketed, Stmt.eraseAll_bracketedAll body, next.erase_bracketed]
termination_by structural branches

theorem Expr.eraseAll_bracketedAll (args : List Expr) :
    Concrete.Expr.eraseAll (Expr.bracketedAll args) = args := by
  cases args with
  | nil => rfl
  | cons value rest =>
    simp only [Expr.bracketedAll, Concrete.Expr.eraseAll, value.erase_bracketed,
      Expr.eraseAll_bracketedAll rest]
termination_by structural args

theorem Stmt.eraseAll_bracketedAll (body : List Stmt) :
    Concrete.Stmt.eraseAll (Stmt.bracketedAll body) = body := by
  cases body with
  | nil => rfl
  | cons stmt rest =>
    simp only [Stmt.bracketedAll, Concrete.Stmt.eraseAll, stmt.erase_bracketed,
      Stmt.eraseAll_bracketedAll rest]
termination_by structural body

end

/-! ## The tree is canonical -/

namespace Expr

@[simp] theorem isOperation_bracketed (expr : Expr) :
    expr.bracketed.isOperation = false := by
  cases expr <;> rfl

@[simp] theorem isBinary_bracketed (expr : Expr) : expr.bracketed.isBinary = false := by
  cases expr <;> rfl

theorem fitsLeftOf_bracketed (op : Kind) (expr : Expr) :
    expr.bracketed.FitsLeftOf op := by
  cases expr <;> trivial

theorem fitsRightOf_bracketed (op : Kind) (expr : Expr) :
    expr.bracketed.FitsRightOf op := by
  cases expr <;> trivial

theorem startsCompound_bracketed (expr : Expr) :
    expr.bracketed.startsCompound = expr.startsCompound := by
  cases expr with
  | call callee args => exact callee.startsCompound_bracketed
  | _ => rfl

end Expr

mutual

theorem Expr.bracketed_canonical (expr : Expr) (wellFormed : expr.WellFormed) :
    expr.bracketed.Canonical := by
  cases expr with
  | ident | int => trivial
  | unary op operand =>
    obtain ⟨unary, wellFormed⟩ := wellFormed
    have canonical := operand.bracketed_canonical wellFormed
    simp only [Expr.bracketed, Concrete.Expr.Canonical, Expr.isBinary_bracketed]
    exact ⟨unary, Bool.false_ne_true, canonical⟩
  | binary left op right =>
    obtain ⟨binary, leftFormed, rightFormed⟩ := wellFormed
    have leftCanonical := left.bracketed_canonical leftFormed
    have rightCanonical := right.bracketed_canonical rightFormed
    simp only [Expr.bracketed, Concrete.Expr.Canonical]
    exact ⟨binary, left.fitsLeftOf_bracketed op, right.fitsRightOf_bracketed op,
      leftCanonical, rightCanonical⟩
  | call callee args =>
    obtain ⟨calleeFormed, argsFormed⟩ := wellFormed
    have canonical := callee.bracketed_canonical calleeFormed
    have canonicals := Expr.bracketedAll_canonical args argsFormed
    simp only [Expr.bracketed, Concrete.Expr.Canonical, Expr.isOperation_bracketed]
    exact ⟨Bool.false_ne_true, nofun, canonical, canonicals⟩
  | compound form => exact form.bracketed_canonical wellFormed
  | func params body => exact ⟨nofun, Stmt.bracketedAll_canonical body wellFormed.2⟩
termination_by structural expr

theorem Stmt.bracketed_canonical (stmt : Stmt) (wellFormed : stmt.WellFormed) :
    stmt.bracketed.Canonical := by
  cases stmt with
  | expr value =>
    have canonical := value.bracketed_canonical wellFormed
    simp only [Stmt.bracketed, Concrete.Stmt.Canonical]
    split
    · exact ⟨Bool.false_ne_true, canonical⟩
    · rename_i plain
      rw [value.startsCompound_bracketed]
      exact ⟨plain, canonical⟩
  | binding name value => exact value.bracketed_canonical wellFormed.2
  | jump word value =>
    cases value with
    | none => trivial
    | some value => exact value.bracketed_canonical wellFormed
  | continueLoop => trivial
  | compound form => exact form.bracketed_canonical wellFormed
  | funcDecl name params body =>
    exact ⟨nofun, Stmt.bracketedAll_canonical body wellFormed.2.2⟩
termination_by structural stmt

theorem Compound.bracketed_canonical (form : Compound) (wellFormed : form.WellFormed) :
    form.bracketed.Canonical := by
  cases form with
  | block body => exact Stmt.bracketedAll_canonical body wellFormed
  | conditional branches => exact branches.bracketed_canonical wellFormed
  | loop condition body =>
    exact ⟨condition.bracketed_canonical wellFormed.1,
      Stmt.bracketedAll_canonical body wellFormed.2⟩
termination_by structural form

theorem Conditional.bracketed_canonical (branches : Conditional)
    (wellFormed : branches.WellFormed) : branches.bracketed.Canonical := by
  cases branches with
  | only condition body =>
    exact ⟨condition.bracketed_canonical wellFormed.1,
      Stmt.bracketedAll_canonical body wellFormed.2⟩
  | orElse condition body other =>
    exact ⟨condition.bracketed_canonical wellFormed.1,
      Stmt.bracketedAll_canonical body wellFormed.2.1,
      Stmt.bracketedAll_canonical other wellFormed.2.2⟩
  | elseIf condition body next =>
    exact ⟨condition.bracketed_canonical wellFormed.1,
      Stmt.bracketedAll_canonical body wellFormed.2.1,
      next.bracketed_canonical wellFormed.2.2⟩
termination_by structural branches

theorem Expr.bracketedAll_canonical (args : List Expr)
    (wellFormed : Expr.AllWellFormed args) :
    Concrete.Expr.AllCanonical (Expr.bracketedAll args) := by
  cases args with
  | nil => trivial
  | cons value rest =>
    exact ⟨value.bracketed_canonical wellFormed.1,
      Expr.bracketedAll_canonical rest wellFormed.2⟩
termination_by structural args

theorem Stmt.bracketedAll_canonical (body : List Stmt)
    (wellFormed : Stmt.AllWellFormed body) :
    Concrete.Stmt.AllCanonical (Stmt.bracketedAll body) := by
  cases body with
  | nil => trivial
  | cons stmt rest =>
    exact ⟨stmt.bracketed_canonical wellFormed.1,
      Stmt.bracketedAll_canonical rest wellFormed.2⟩
termination_by structural body

end

/-! ## The layout has its tokens -/

namespace Piece

def tokens (pieces : List Piece) : List Token := pieces.filterMap token?

@[simp] theorem tokens_nil : tokens [] = [] := rfl

@[simp] theorem tokens_mark (kind : Kind) (after : List Piece) :
    tokens (mark kind :: after) = .ofKind kind :: tokens after := rfl

@[simp] theorem tokens_name (text : String) (after : List Piece) :
    tokens (.name text :: after) = ⟨.ident, text⟩ :: tokens after := rfl

@[simp] theorem tokens_digits (text : String) (after : List Piece) :
    tokens (.digits text :: after) = ⟨.int, text⟩ :: tokens after := rfl

@[simp] theorem tokens_space (after : List Piece) :
    tokens (.space :: after) = tokens after := rfl

theorem tokens_blank {blank : Piece} (noToken : blank.token? = none)
    (after : List Piece) : tokens (blank :: after) = tokens after :=
  List.filterMap_cons_none noToken

end Piece

open Concrete (moreNamesYield namesYield parenthesised braced optionalToken)
open Piece

@[simp] theorem tokens_moreNamesLayout (names : List String) (after : List Piece) :
    tokens (moreNamesLayout names after) =
      moreNamesYield false names ++ tokens after := by
  induction names with
  | nil => rfl
  | cons name rest ih => simp [moreNamesLayout, moreNamesYield, ih]

@[simp] theorem tokens_paramsLayout (params : List String) (after : List Piece) :
    tokens (paramsLayout params after) =
      parenthesised (namesYield false params) ++ tokens after := by
  cases params with
  | nil => rfl
  | cons name rest => simp [paramsLayout, namesYield, parenthesised]

mutual

theorem Expr.tokens_layout (expr : Expr) (after : List Piece) :
    tokens (expr.layout after) = expr.bracketed.yield ++ tokens after := by
  cases expr with
  | ident | int => rfl
  | unary op operand =>
    simp [Expr.layout, Expr.bracketed, Concrete.Expr.yield, parenthesised,
      operand.tokens_layout]
  | binary left op right =>
    simp [Expr.layout, Expr.bracketed, Concrete.Expr.yield, parenthesised,
      left.tokens_layout, right.tokens_layout]
  | call callee args =>
    simp [Expr.layout, Expr.bracketed, Concrete.Expr.yield, parenthesised,
      callee.tokens_layout, Expr.tokens_argsLayout args]
  | compound form => exact form.tokens_layout after
  | func params body =>
    simp [Expr.layout, Expr.bracketed, Concrete.Expr.yield,
      Stmt.tokens_blockLayout body]
termination_by structural expr

theorem Stmt.tokens_layout (stmt : Stmt) (after : List Piece) :
    tokens (stmt.layout after) = stmt.bracketed.yield ++ tokens after := by
  cases stmt with
  | expr value =>
    have ends (behind : List Piece) := value.tokens_layout behind
    simp only [Stmt.layout, Stmt.bracketed, Concrete.Stmt.yield]
    split <;> simp [Concrete.Expr.yield, parenthesised, ends]
  | binding name value =>
    simp [Stmt.layout, Stmt.bracketed, Concrete.Stmt.yield, value.tokens_layout]
  | jump word value =>
    cases value with
    | none => rfl
    | some value =>
      simp [Stmt.layout, Stmt.bracketed, Concrete.Stmt.yield, value.tokens_layout]
  | continueLoop => rfl
  | compound form =>
    simp [Stmt.layout, Stmt.bracketed, Concrete.Stmt.yield, optionalToken,
      form.tokens_layout]
  | funcDecl name params body =>
    simp [Stmt.layout, Stmt.bracketed, Concrete.Stmt.yield, optionalToken,
      Stmt.tokens_blockLayout body]
termination_by structural stmt

theorem Compound.tokens_layout (form : Compound) (after : List Piece) :
    tokens (form.layout after) = form.bracketed.yield ++ tokens after := by
  cases form with
  | block body => exact Stmt.tokens_blockLayout body after
  | conditional branches => exact branches.tokens_layout after
  | loop condition body =>
    simp [Compound.layout, Compound.bracketed, Concrete.Compound.yield,
      condition.tokens_layout, Stmt.tokens_blockLayout body]
termination_by structural form

theorem Conditional.tokens_layout (branches : Conditional) (after : List Piece) :
    tokens (branches.layout after) = branches.bracketed.yield ++ tokens after := by
  cases branches with
  | only condition body =>
    simp [Conditional.layout, Conditional.bracketed, Concrete.Conditional.yield,
      condition.tokens_layout, Stmt.tokens_blockLayout body]
  | orElse condition body other =>
    simp [Conditional.layout, Conditional.bracketed, Concrete.Conditional.yield,
      condition.tokens_layout, Stmt.tokens_blockLayout body,
      Stmt.tokens_blockLayout other]
  | elseIf condition body next =>
    simp [Conditional.layout, Conditional.bracketed, Concrete.Conditional.yield,
      condition.tokens_layout, Stmt.tokens_blockLayout body, next.tokens_layout]
termination_by structural branches

theorem Expr.tokens_argsLayout (args : List Expr) (after : List Piece) :
    tokens (Expr.argsLayout args after) =
      Concrete.Expr.argsYield false (Expr.bracketedAll args) ++ tokens after := by
  cases args with
  | nil => rfl
  | cons value rest =>
    simp [Expr.argsLayout, Expr.bracketedAll, Concrete.Expr.argsYield,
      value.tokens_layout, Expr.tokens_moreArgsLayout rest]
termination_by structural args

theorem Expr.tokens_moreArgsLayout (args : List Expr) (after : List Piece) :
    tokens (Expr.moreArgsLayout args after) =
      Concrete.Expr.moreArgsYield false (Expr.bracketedAll args) ++ tokens after := by
  cases args with
  | nil => rfl
  | cons value rest =>
    simp [Expr.moreArgsLayout, Expr.bracketedAll, Concrete.Expr.moreArgsYield,
      value.tokens_layout, Expr.tokens_moreArgsLayout rest]
termination_by structural args

theorem Stmt.tokens_blockLayout (body : List Stmt) (after : List Piece) :
    tokens (Stmt.blockLayout body after) =
      braced (Concrete.Stmt.allYield (Stmt.bracketedAll body)) ++ tokens after := by
  cases body with
  | nil => rfl
  | cons stmt rest =>
    simp [Stmt.blockLayout, Stmt.bracketedAll, Concrete.Stmt.allYield, braced,
      stmt.tokens_layout, Stmt.tokens_moreLayout rest space rfl]
termination_by structural body

theorem Stmt.tokens_moreLayout (body : List Stmt) (blank : Piece)
    (noToken : blank.token? = none) (after : List Piece) :
    tokens (Stmt.moreLayout blank body after) =
      Concrete.Stmt.allYield (Stmt.bracketedAll body) ++ tokens after := by
  cases body with
  | nil => rfl
  | cons stmt rest =>
    simp [Stmt.moreLayout, Stmt.bracketedAll, Concrete.Stmt.allYield,
      tokens_blank noToken, stmt.tokens_layout,
      Stmt.tokens_moreLayout rest blank noToken]
termination_by structural body

end

theorem Program.tokens_layout (program : Program) :
    tokens (Program.layout program []) =
      Concrete.Stmt.allYield (Stmt.bracketedAll program) := by
  cases program with
  | nil => rfl
  | cons stmt rest =>
    rw [Program.layout, stmt.tokens_layout, Stmt.tokens_moreLayout rest newline rfl,
      tokens_nil, List.append_nil]
    rfl

end OasisSyntax
