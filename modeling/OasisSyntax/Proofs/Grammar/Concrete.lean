import OasisSyntax.Proofs.Grammar.Operators
import OasisSyntax.Syntax.Tree
import OasisSyntax.Token

/-!
# Concrete trees

A syntax tree does not say where parentheses, trailing commas and optional statement
ends were written.  A concrete tree does: it has a node for every pair of parentheses
and a mark wherever the grammar leaves a comma or a statement end to the writer.  Its
`yield` is the row of tokens it stands for, and `erase` is the syntax tree in it.  In a
canonical tree every operand could stand without parentheses where it stands, and no
comma follows an empty list.
-/

namespace OasisSyntax

/-- The token as far as the grammar looks at it: the literals of names and integers
are kept, any other token is as good as the spelling of its kind. -/
def Token.plain (token : Token) : Token :=
  match token.kind with
  | .ident | .int => token
  | kind => .ofKind kind

namespace Token

@[simp] theorem plain_kind (token : Token) : token.plain.kind = token.kind := by
  obtain ⟨kind, literal⟩ := token
  cases kind <;> rfl

theorem plain_of_kind {token : Token} {kind : Kind} (same : token.kind = kind)
    (noName : kind ≠ .ident) (noInt : kind ≠ .int) : token.plain = .ofKind kind := by
  subst same
  simp only [plain]

theorem plain_of_ident {token : Token} (same : token.kind = .ident) :
    token.plain = ⟨.ident, token.literal⟩ := by
  obtain ⟨kind, literal⟩ := token
  cases same
  rfl

theorem plain_of_int {token : Token} (same : token.kind = .int) :
    token.plain = ⟨.int, token.literal⟩ := by
  obtain ⟨kind, literal⟩ := token
  cases same
  rfl

@[simp] theorem kind_ofKind (kind : Kind) : (ofKind kind).kind = kind := rfl

end Token

namespace Concrete

mutual

inductive Expr where
  | ident (name : String)
  | int (digits : String)
  | unary (op : Kind) (operand : Expr)
  | binary (left : Expr) (op : Kind) (right : Expr)
  /-- An expression in parentheses. -/
  | group (inner : Expr)
  | call (callee : Expr) (args : List Expr) (trailing : Bool)
  | compound (form : Compound)
  | func (params : List String) (trailing : Bool) (body : List Stmt)

inductive Stmt where
  | expr (value : Expr)
  | binding (name : String) (value : Expr)
  | jump (word : Jump) (value : Option Expr)
  | continueLoop
  | compound (form : Compound) (terminated : Bool)
  | funcDecl (name : String) (params : List String) (trailing : Bool)
      (body : List Stmt) (terminated : Bool)

inductive Compound where
  | block (body : List Stmt)
  | conditional (branches : Conditional)
  | loop (condition : Expr) (body : List Stmt)

inductive Conditional where
  | only (condition : Expr) (body : List Stmt)
  | orElse (condition : Expr) (body other : List Stmt)
  | elseIf (condition : Expr) (body : List Stmt) (next : Conditional)

end

/-! ## The tokens of a tree -/

def optionalToken (kind : Kind) (written : Bool) : List Token :=
  if written then [.ofKind kind] else []

def parenthesised (inner : List Token) : List Token :=
  .ofKind .lparen :: inner ++ [.ofKind .rparen]

def braced (inner : List Token) : List Token :=
  .ofKind .lbrace :: inner ++ [.ofKind .rbrace]

def moreNamesYield (trailing : Bool) : List String → List Token
  | [] => optionalToken .comma trailing
  | name :: rest => .ofKind .comma :: ⟨.ident, name⟩ :: moreNamesYield trailing rest

def namesYield (trailing : Bool) : List String → List Token
  | [] => []
  | name :: rest => ⟨.ident, name⟩ :: moreNamesYield trailing rest

mutual

def Expr.yield : Expr → List Token
  | .ident name => [⟨.ident, name⟩]
  | .int digits => [⟨.int, digits⟩]
  | .unary op operand => .ofKind op :: operand.yield
  | .binary left op right => left.yield ++ .ofKind op :: right.yield
  | .group inner => parenthesised inner.yield
  | .call callee args trailing =>
    callee.yield ++ parenthesised (Expr.argsYield trailing args)
  | .compound form => form.yield
  | .func params trailing body =>
    .ofKind .kwFunc :: parenthesised (namesYield trailing params) ++
      braced (Stmt.allYield body)
termination_by structural expr => expr

def Stmt.yield : Stmt → List Token
  | .expr value => value.yield ++ [.ofKind .semi]
  | .binding name value =>
    .ofKind .kwLet :: ⟨.ident, name⟩ :: .ofKind .assign :: value.yield ++
      [.ofKind .semi]
  | .jump word none => [.ofKind word.kind, .ofKind .semi]
  | .jump word (some value) => .ofKind word.kind :: value.yield ++ [.ofKind .semi]
  | .continueLoop => [.ofKind .kwContinue, .ofKind .semi]
  | .compound form terminated => form.yield ++ optionalToken .semi terminated
  | .funcDecl name params trailing body terminated =>
    .ofKind .kwFunc :: ⟨.ident, name⟩ :: parenthesised (namesYield trailing params) ++
      braced (Stmt.allYield body) ++ optionalToken .semi terminated
termination_by structural stmt => stmt

def Compound.yield : Compound → List Token
  | .block body => braced (Stmt.allYield body)
  | .conditional branches => branches.yield
  | .loop condition body =>
    .ofKind .kwWhile :: condition.yield ++ braced (Stmt.allYield body)
termination_by structural form => form

def Conditional.yield : Conditional → List Token
  | .only condition body =>
    .ofKind .kwIf :: condition.yield ++ braced (Stmt.allYield body)
  | .orElse condition body other =>
    .ofKind .kwIf :: condition.yield ++ braced (Stmt.allYield body) ++
      .ofKind .kwElse :: braced (Stmt.allYield other)
  | .elseIf condition body next =>
    .ofKind .kwIf :: condition.yield ++ braced (Stmt.allYield body) ++
      .ofKind .kwElse :: next.yield
termination_by structural branches => branches

def Expr.argsYield (trailing : Bool) : List Expr → List Token
  | [] => []
  | value :: rest => value.yield ++ Expr.moreArgsYield trailing rest
termination_by structural args => args

def Expr.moreArgsYield (trailing : Bool) : List Expr → List Token
  | [] => optionalToken .comma trailing
  | value :: rest =>
    .ofKind .comma :: value.yield ++ Expr.moreArgsYield trailing rest
termination_by structural args => args

def Stmt.allYield : List Stmt → List Token
  | [] => []
  | stmt :: rest => stmt.yield ++ Stmt.allYield rest
termination_by structural body => body

end

/-! ## The syntax tree in a concrete tree -/

mutual

def Expr.erase : Expr → OasisSyntax.Expr
  | .ident name => .ident name
  | .int digits => .int digits
  | .unary op operand => .unary op operand.erase
  | .binary left op right => .binary left.erase op right.erase
  | .group inner => inner.erase
  | .call callee args _ => .call callee.erase (Expr.eraseAll args)
  | .compound form => .compound form.erase
  | .func params _ body => .func params (Stmt.eraseAll body)
termination_by structural expr => expr

def Stmt.erase : Stmt → OasisSyntax.Stmt
  | .expr value => .expr value.erase
  | .binding name value => .binding name value.erase
  | .jump word none => .jump word none
  | .jump word (some value) => .jump word (some value.erase)
  | .continueLoop => .continueLoop
  | .compound form _ => .compound form.erase
  | .funcDecl name params _ body _ => .funcDecl name params (Stmt.eraseAll body)
termination_by structural stmt => stmt

def Compound.erase : Compound → OasisSyntax.Compound
  | .block body => .block (Stmt.eraseAll body)
  | .conditional branches => .conditional branches.erase
  | .loop condition body => .loop condition.erase (Stmt.eraseAll body)
termination_by structural form => form

def Conditional.erase : Conditional → OasisSyntax.Conditional
  | .only condition body => .only condition.erase (Stmt.eraseAll body)
  | .orElse condition body other =>
    .orElse condition.erase (Stmt.eraseAll body) (Stmt.eraseAll other)
  | .elseIf condition body next =>
    .elseIf condition.erase (Stmt.eraseAll body) next.erase
termination_by structural branches => branches

def Expr.eraseAll : List Expr → List OasisSyntax.Expr
  | [] => []
  | value :: rest => value.erase :: Expr.eraseAll rest
termination_by structural args => args

def Stmt.eraseAll : List Stmt → List OasisSyntax.Stmt
  | [] => []
  | stmt :: rest => stmt.erase :: Stmt.eraseAll rest
termination_by structural body => body

end

/-! ## Growing lists -/

private theorem moreNamesYield_snoc (trailing : Bool) (names : List String) (name : String) :
    moreNamesYield trailing (names ++ [name]) =
      moreNamesYield true names ++ ⟨.ident, name⟩ :: optionalToken .comma trailing := by
  induction names with
  | nil => rfl
  | cons first names ih => simp only [List.cons_append, moreNamesYield, ih]

theorem namesYield_snoc (trailing : Bool) (names : List String) (name : String) :
    namesYield trailing (names ++ [name]) =
      namesYield true names ++ ⟨.ident, name⟩ :: optionalToken .comma trailing := by
  cases names with
  | nil => rfl
  | cons first names => simp only [List.cons_append, namesYield, moreNamesYield_snoc]

private theorem moreNamesYield_true (names : List String) :
    moreNamesYield true names = moreNamesYield false names ++ [.ofKind .comma] := by
  induction names with
  | nil => rfl
  | cons first names ih => simp only [moreNamesYield, ih, List.cons_append]

theorem namesYield_true {names : List String} (some : names ≠ []) :
    namesYield true names = namesYield false names ++ [.ofKind .comma] := by
  cases names with
  | nil => exact absurd rfl some
  | cons first names => simp only [namesYield, moreNamesYield_true, List.cons_append]

theorem exists_namesYield (names : List String) :
    ∃ trailing : Bool, (trailing → names ≠ []) ∧
      namesYield trailing names = namesYield true names := by
  cases names with
  | nil => exact ⟨false, nofun, rfl⟩
  | cons first names => exact ⟨true, fun _ => nofun, rfl⟩

private theorem Expr.moreArgsYield_snoc (trailing : Bool) (args : List Expr) (value : Expr) :
    moreArgsYield trailing (args ++ [value]) =
      moreArgsYield true args ++ value.yield ++ optionalToken .comma trailing := by
  induction args with
  | nil =>
    simp only [List.nil_append, moreArgsYield, optionalToken, if_true, List.cons_append]
  | cons first args ih =>
    simp only [List.cons_append, moreArgsYield, ih, List.append_assoc]

theorem Expr.argsYield_snoc (trailing : Bool) (args : List Expr) (value : Expr) :
    argsYield trailing (args ++ [value]) =
      argsYield true args ++ value.yield ++ optionalToken .comma trailing := by
  cases args with
  | nil => simp only [List.nil_append, argsYield, moreArgsYield]
  | cons first args =>
    simp only [List.cons_append, argsYield, moreArgsYield_snoc, List.append_assoc]

private theorem Expr.moreArgsYield_true (args : List Expr) :
    moreArgsYield true args = moreArgsYield false args ++ [.ofKind .comma] := by
  induction args with
  | nil => rfl
  | cons first args ih =>
    simp only [moreArgsYield, ih, List.cons_append, List.append_assoc]

theorem Expr.argsYield_true {args : List Expr} (some : args ≠ []) :
    argsYield true args = argsYield false args ++ [.ofKind .comma] := by
  cases args with
  | nil => exact absurd rfl some
  | cons first args =>
    simp only [argsYield, moreArgsYield_true, List.append_assoc]

theorem Expr.exists_argsYield (args : List Expr) :
    ∃ trailing : Bool, (trailing → args ≠ []) ∧
      argsYield trailing args = argsYield true args := by
  cases args with
  | nil => exact ⟨false, nofun, rfl⟩
  | cons first args => exact ⟨true, fun _ => nofun, rfl⟩

theorem Expr.eraseAll_snoc (args : List Expr) (value : Expr) :
    eraseAll (args ++ [value]) = eraseAll args ++ [value.erase] := by
  induction args with
  | nil => rfl
  | cons first args ih => simp only [List.cons_append, eraseAll, ih]

theorem Stmt.allYield_snoc (body : List Stmt) (stmt : Stmt) :
    allYield (body ++ [stmt]) = allYield body ++ stmt.yield := by
  induction body with
  | nil => simp only [List.nil_append, allYield, List.append_nil]
  | cons first body ih => simp only [List.cons_append, allYield, ih, List.append_assoc]

theorem Stmt.eraseAll_snoc (body : List Stmt) (stmt : Stmt) :
    eraseAll (body ++ [stmt]) = eraseAll body ++ [stmt.erase] := by
  induction body with
  | nil => rfl
  | cons first body ih => simp only [List.cons_append, eraseAll, ih]

/-! ## Canonical trees -/

def Expr.isBinary : Expr → Bool
  | .binary .. => true
  | _ => false

/-- A binary or a unary expression without parentheses around it. -/
def Expr.isOperation : Expr → Bool
  | .unary .. | .binary .. => true
  | _ => false

def Expr.startsCompound : Expr → Bool
  | .binary left _ _ => left.startsCompound
  | .call callee _ _ => callee.startsCompound
  | .compound _ => true
  | _ => false

/-- A left operand is no assignment, and no operator in it is weaker than the one
behind it. -/
def Expr.FitsLeftOf (op : Kind) : Expr → Prop
  | .binary _ inner _ => ¬ inner.groupsRight ∧ ¬ inner.precedence < op.precedence
  | _ => True

/-- A right operand is stronger than the operator in front of it, unless that is an
assignment. -/
def Expr.FitsRightOf (op : Kind) : Expr → Prop
  | .binary _ inner _ => op.groupsRight ∨ op.precedence < inner.precedence
  | _ => True

mutual

def Expr.Canonical : Expr → Prop
  | .ident _ | .int _ => True
  | .unary op operand => op.isUnary ∧ ¬ operand.isBinary ∧ operand.Canonical
  | .binary left op right =>
    op.isBinary ∧ left.FitsLeftOf op ∧ right.FitsRightOf op ∧
      left.Canonical ∧ right.Canonical
  | .group inner => inner.Canonical
  | .call callee args trailing =>
    ¬ callee.isOperation ∧ (trailing → args ≠ []) ∧ callee.Canonical ∧
      Expr.AllCanonical args
  | .compound form => form.Canonical
  | .func params trailing body => (trailing → params ≠ []) ∧ Stmt.AllCanonical body
termination_by structural expr => expr

def Stmt.Canonical : Stmt → Prop
  | .expr value => ¬ value.startsCompound ∧ value.Canonical
  | .binding _ value => value.Canonical
  | .jump _ none => True
  | .jump _ (some value) => value.Canonical
  | .continueLoop => True
  | .compound form _ => form.Canonical
  | .funcDecl _ params trailing body _ =>
    (trailing → params ≠ []) ∧ Stmt.AllCanonical body
termination_by structural stmt => stmt

def Compound.Canonical : Compound → Prop
  | .block body => Stmt.AllCanonical body
  | .conditional branches => branches.Canonical
  | .loop condition body => condition.Canonical ∧ Stmt.AllCanonical body
termination_by structural form => form

def Conditional.Canonical : Conditional → Prop
  | .only condition body => condition.Canonical ∧ Stmt.AllCanonical body
  | .orElse condition body other =>
    condition.Canonical ∧ Stmt.AllCanonical body ∧ Stmt.AllCanonical other
  | .elseIf condition body next =>
    condition.Canonical ∧ Stmt.AllCanonical body ∧ next.Canonical
termination_by structural branches => branches

def Expr.AllCanonical : List Expr → Prop
  | [] => True
  | value :: rest => value.Canonical ∧ Expr.AllCanonical rest
termination_by structural args => args

def Stmt.AllCanonical : List Stmt → Prop
  | [] => True
  | stmt :: rest => stmt.Canonical ∧ Stmt.AllCanonical rest
termination_by structural body => body

end

theorem Expr.allCanonical_snoc {args : List Expr} {value : Expr}
    (canonicals : AllCanonical args) (canonical : value.Canonical) :
    AllCanonical (args ++ [value]) := by
  induction args with
  | nil => exact ⟨canonical, trivial⟩
  | cons first args ih => exact ⟨canonicals.1, ih canonicals.2⟩

theorem Stmt.allCanonical_snoc {body : List Stmt} {stmt : Stmt}
    (canonicals : AllCanonical body) (canonical : stmt.Canonical) :
    AllCanonical (body ++ [stmt]) := by
  induction body with
  | nil => exact ⟨canonical, trivial⟩
  | cons first body ih => exact ⟨canonicals.1, ih canonicals.2⟩

end Concrete

end OasisSyntax
