import OasisSyntax.Syntax.Tree
import OasisSyntax.Token

/-!
# Layout of programs

The canonical text of a tree, as a row of tokens and the blanks between them.  All
operators are parenthesised, every statement ends with a semicolon, and a program
has one statement on each line.  An expression statement that would begin with a
compound is put into parentheses, since it would end behind the compound otherwise.
-/

namespace OasisSyntax

inductive Piece where
  | token (content : Token)
  | space
  | newline
deriving DecidableEq, Repr

namespace Piece

def mark (kind : Kind) : Piece := .token (Token.ofKind kind)

def name (text : String) : Piece := .token ⟨.ident, text⟩

def digits (text : String) : Piece := .token ⟨.int, text⟩

def text : Piece → String
  | .token content => content.literal
  | .space => " "
  | .newline => "\n"

def token? : Piece → Option Token
  | .token content => some content
  | .space | .newline => none

def concat (pieces : List Piece) : String := String.join (pieces.map text)

end Piece

open Piece

/-! Each layout is written in front of the pieces that follow it. -/

def moreNamesLayout : List String → List Piece → List Piece
  | [], after => after
  | name :: rest, after =>
    mark .comma :: space :: .name name :: moreNamesLayout rest after

def paramsLayout : List String → List Piece → List Piece
  | [], after => mark .lparen :: mark .rparen :: after
  | name :: rest, after =>
    mark .lparen :: .name name :: moreNamesLayout rest (mark .rparen :: after)

mutual

def Expr.layout : Expr → List Piece → List Piece
  | .ident name, after => .name name :: after
  | .int digits, after => .digits digits :: after
  | .unary op operand, after =>
    mark .lparen :: mark op :: operand.layout (mark .rparen :: after)
  | .binary left op right, after =>
    mark .lparen :: left.layout (space :: mark op :: space ::
      right.layout (mark .rparen :: after))
  | .call callee args, after =>
    callee.layout (mark .lparen :: Expr.argsLayout args (mark .rparen :: after))
  | .compound form, after => form.layout after
  | .func params body, after =>
    mark .kwFunc :: paramsLayout params (space :: Stmt.blockLayout body after)

def Stmt.layout : Stmt → List Piece → List Piece
  | .expr value, after =>
    if value.startsCompound then
      mark .lparen :: value.layout (mark .rparen :: mark .semi :: after)
    else value.layout (mark .semi :: after)
  | .binding name value, after =>
    mark .kwLet :: space :: .name name :: space :: mark .assign :: space ::
      value.layout (mark .semi :: after)
  | .jump word none, after => mark word.kind :: mark .semi :: after
  | .jump word (some value), after =>
    mark word.kind :: space :: value.layout (mark .semi :: after)
  | .continueLoop, after => mark .kwContinue :: mark .semi :: after
  | .compound form, after => form.layout (mark .semi :: after)
  | .funcDecl name params body, after =>
    mark .kwFunc :: space :: .name name ::
      paramsLayout params (space :: Stmt.blockLayout body (mark .semi :: after))

def Compound.layout : Compound → List Piece → List Piece
  | .block body, after => Stmt.blockLayout body after
  | .conditional branches, after => branches.layout after
  | .loop condition body, after =>
    mark .kwWhile :: space :: condition.layout (space :: Stmt.blockLayout body after)

def Conditional.layout : Conditional → List Piece → List Piece
  | .only condition body, after =>
    mark .kwIf :: space :: condition.layout (space :: Stmt.blockLayout body after)
  | .orElse condition body other, after =>
    mark .kwIf :: space :: condition.layout (space ::
      Stmt.blockLayout body (space :: mark .kwElse :: space ::
        Stmt.blockLayout other after))
  | .elseIf condition body next, after =>
    mark .kwIf :: space :: condition.layout (space ::
      Stmt.blockLayout body (space :: mark .kwElse :: space :: next.layout after))

def Expr.argsLayout : List Expr → List Piece → List Piece
  | [], after => after
  | value :: rest, after => value.layout (Expr.moreArgsLayout rest after)

def Expr.moreArgsLayout : List Expr → List Piece → List Piece
  | [], after => after
  | value :: rest, after =>
    mark .comma :: space :: value.layout (Expr.moreArgsLayout rest after)

def Stmt.blockLayout : List Stmt → List Piece → List Piece
  | [], after => mark .lbrace :: space :: mark .rbrace :: after
  | stmt :: rest, after =>
    mark .lbrace :: space ::
      stmt.layout (Stmt.moreLayout space rest (space :: mark .rbrace :: after))

def Stmt.moreLayout (blank : Piece) : List Stmt → List Piece → List Piece
  | [], after => after
  | stmt :: rest, after => blank :: stmt.layout (Stmt.moreLayout blank rest after)

end

def Program.layout : Program → List Piece → List Piece
  | [], after => after
  | stmt :: rest, after => stmt.layout (Stmt.moreLayout newline rest after)

def Expr.render (expr : Expr) : String := concat (expr.layout [])

def Stmt.render (stmt : Stmt) : String := concat (stmt.layout [])

def Compound.render (form : Compound) : String := concat (form.layout [])

def renderBlock (body : List Stmt) : String := concat (Stmt.blockLayout body [])

def renderParams (params : List String) : String := concat (paramsLayout params [])

def Program.render (program : Program) : String := concat (Program.layout program [])

theorem moreNamesLayout_append (names : List String) (after : List Piece) :
    moreNamesLayout names after = moreNamesLayout names [] ++ after := by
  induction names with
  | nil => rfl
  | cons name rest ih =>
    rw [moreNamesLayout, ih]
    rfl

theorem paramsLayout_append (params : List String) (after : List Piece) :
    paramsLayout params after = paramsLayout params [] ++ after := by
  cases params with
  | nil => rfl
  | cons name rest =>
    rw [paramsLayout, moreNamesLayout_append, paramsLayout,
      moreNamesLayout_append rest [mark .rparen]]
    simp

mutual

theorem Expr.layout_append (expr : Expr) (after : List Piece) :
    expr.layout after = expr.layout [] ++ after := by
  cases expr with
  | ident name => rfl
  | int digits => rfl
  | unary op operand =>
    rw [Expr.layout, operand.layout_append, Expr.layout, operand.layout_append [_]]
    simp
  | binary left op right =>
    rw [Expr.layout, left.layout_append, right.layout_append, Expr.layout,
      left.layout_append (_ :: _), right.layout_append [_]]
    simp
  | call callee args =>
    rw [Expr.layout, callee.layout_append, Expr.argsLayout_append, Expr.layout,
      callee.layout_append (_ :: _), Expr.argsLayout_append args [_]]
    simp
  | compound form => exact form.layout_append after
  | func params body =>
    rw [Expr.layout, paramsLayout_append, Stmt.blockLayout_append, Expr.layout,
      paramsLayout_append params (_ :: _)]
    simp

theorem Stmt.layout_append (stmt : Stmt) (after : List Piece) :
    stmt.layout after = stmt.layout [] ++ after := by
  cases stmt with
  | expr value =>
    rw [Stmt.layout, Stmt.layout, value.layout_append (_ :: _ :: after),
      value.layout_append (_ :: after), value.layout_append [_, _],
      value.layout_append [_]]
    split <;> simp
  | binding name value =>
    rw [Stmt.layout, value.layout_append, Stmt.layout, value.layout_append [_]]
    simp
  | jump word value =>
    cases value with
    | none => rfl
    | some value =>
      rw [Stmt.layout, value.layout_append, Stmt.layout, value.layout_append [_]]
      simp
  | continueLoop => rfl
  | compound form =>
    rw [Stmt.layout, form.layout_append, Stmt.layout, form.layout_append [_]]
    simp
  | funcDecl name params body =>
    rw [Stmt.layout, paramsLayout_append, Stmt.blockLayout_append, Stmt.layout,
      paramsLayout_append params (_ :: _), Stmt.blockLayout_append body [_]]
    simp

theorem Compound.layout_append (form : Compound) (after : List Piece) :
    form.layout after = form.layout [] ++ after := by
  cases form with
  | block body => exact Stmt.blockLayout_append body after
  | conditional branches => exact branches.layout_append after
  | loop condition body =>
    rw [Compound.layout, condition.layout_append, Stmt.blockLayout_append,
      Compound.layout, condition.layout_append (_ :: _)]
    simp

theorem Conditional.layout_append (branches : Conditional) (after : List Piece) :
    branches.layout after = branches.layout [] ++ after := by
  cases branches with
  | only condition body =>
    rw [Conditional.layout, condition.layout_append, Stmt.blockLayout_append,
      Conditional.layout, condition.layout_append (_ :: _)]
    simp
  | orElse condition body other =>
    rw [Conditional.layout, condition.layout_append, Stmt.blockLayout_append,
      Stmt.blockLayout_append other, Conditional.layout,
      condition.layout_append (_ :: _), Stmt.blockLayout_append body (_ :: _)]
    simp
  | elseIf condition body next =>
    rw [Conditional.layout, condition.layout_append, Stmt.blockLayout_append,
      next.layout_append, Conditional.layout, condition.layout_append (_ :: _),
      Stmt.blockLayout_append body (_ :: _)]
    simp

theorem Expr.argsLayout_append (args : List Expr) (after : List Piece) :
    Expr.argsLayout args after = Expr.argsLayout args [] ++ after := by
  cases args with
  | nil => rfl
  | cons value rest =>
    rw [Expr.argsLayout, value.layout_append, Expr.moreArgsLayout_append,
      Expr.argsLayout, value.layout_append (Expr.moreArgsLayout _ [])]
    simp

theorem Expr.moreArgsLayout_append (args : List Expr) (after : List Piece) :
    Expr.moreArgsLayout args after = Expr.moreArgsLayout args [] ++ after := by
  cases args with
  | nil => rfl
  | cons value rest =>
    rw [Expr.moreArgsLayout, value.layout_append, Expr.moreArgsLayout_append,
      Expr.moreArgsLayout, value.layout_append (Expr.moreArgsLayout _ [])]
    simp

theorem Stmt.blockLayout_append (body : List Stmt) (after : List Piece) :
    Stmt.blockLayout body after = Stmt.blockLayout body [] ++ after := by
  cases body with
  | nil => rfl
  | cons stmt rest =>
    rw [Stmt.blockLayout, stmt.layout_append, Stmt.moreLayout_append,
      Stmt.blockLayout, stmt.layout_append (Stmt.moreLayout _ _ _),
      Stmt.moreLayout_append space rest [_, _]]
    simp

theorem Stmt.moreLayout_append (blank : Piece) (body : List Stmt) (after : List Piece) :
    Stmt.moreLayout blank body after = Stmt.moreLayout blank body [] ++ after := by
  cases body with
  | nil => rfl
  | cons stmt rest =>
    rw [Stmt.moreLayout, stmt.layout_append, Stmt.moreLayout_append blank rest,
      Stmt.moreLayout, stmt.layout_append (Stmt.moreLayout _ _ [])]
    simp

end

end OasisSyntax
