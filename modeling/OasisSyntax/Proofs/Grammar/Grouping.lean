import OasisSyntax.Proofs.Grammar.Derivation
import OasisSyntax.Proofs.Grammar.Lead

/-!
# Grouping by precedence

From a derivation to its concrete tree.  An operator with its right operand is attached
to the tree on the left of it: it takes the whole tree or, if it is stronger, only the
last operand.  The result is canonical and has the same tokens, and every canonical
tree comes from a derivation in this way.
-/

namespace OasisSyntax

open Concrete (optionalToken parenthesised braced)

/-- The tree with one more operator and its operand behind it. -/
def Concrete.Expr.attach :
    Concrete.Expr → Kind → Concrete.Expr → Concrete.Expr
  | .binary left inner right, op, operand =>
    if inner.rightFloor < op.precedence then
      .binary left inner (right.attach op operand)
    else .binary (.binary left inner right) op operand
  | tree, op, operand => .binary tree op operand
termination_by structural tree => tree

namespace Derivation

mutual

def Expr.tree : Expr → Concrete.Expr
  | .row first more => Operation.attachAll first.tree more
termination_by structural expr => expr

def Operation.attachAll (tree : Concrete.Expr) : List Operation → Concrete.Expr
  | [] => tree
  | .mk op operand :: rest => Operation.attachAll (tree.attach op operand.tree) rest
termination_by structural more => more

def Unary.tree : Unary → Concrete.Expr
  | .prefixed op operand => .unary op operand.tree
  | .applied callee calls => Args.callAll callee.tree calls
termination_by structural unary => unary

def Args.callAll (callee : Concrete.Expr) : List Args → Concrete.Expr
  | [] => callee
  | .none :: rest => Args.callAll (.call callee [] false) rest
  | .listed first more trailing :: rest =>
    Args.callAll (.call callee (first.tree :: Expr.treeAll more) trailing) rest
termination_by structural calls => calls

def Primary.tree : Primary → Concrete.Expr
  | .ident name => .ident name
  | .int digits => .int digits
  | .group inner => .group inner.tree
  | .compound form => .compound form.tree
  | .func params body => .func params.list params.trailing (Stmt.treeAll body)
termination_by structural primary => primary

def Compound.tree : Compound → Concrete.Compound
  | .block body => .block (Stmt.treeAll body)
  | .conditional branches => .conditional branches.tree
  | .loop condition body => .loop condition.tree (Stmt.treeAll body)
termination_by structural form => form

def Conditional.tree : Conditional → Concrete.Conditional
  | .only condition body => .only condition.tree (Stmt.treeAll body)
  | .orElse condition body other =>
    .orElse condition.tree (Stmt.treeAll body) (Stmt.treeAll other)
  | .elseIf condition body next =>
    .elseIf condition.tree (Stmt.treeAll body) next.tree
termination_by structural branches => branches

def Stmt.tree : Stmt → Concrete.Stmt
  | .expr value => .expr value.tree
  | .binding name value => .binding name value.tree
  | .jump word none => .jump word none
  | .jump word (some value) => .jump word (some value.tree)
  | .continueLoop => .continueLoop
  | .compound form terminated => .compound form.tree terminated
  | .funcDecl name params body terminated =>
    .funcDecl name params.list params.trailing (Stmt.treeAll body) terminated
termination_by structural stmt => stmt

def Expr.treeAll : List Expr → List Concrete.Expr
  | [] => []
  | value :: rest => value.tree :: Expr.treeAll rest
termination_by structural more => more

def Stmt.treeAll : List Stmt → List Concrete.Stmt
  | [] => []
  | stmt :: rest => stmt.tree :: Stmt.treeAll rest
termination_by structural body => body

end

end Derivation

/-! ## Tokens -/

theorem Concrete.Expr.attach_yield (tree : Concrete.Expr) (op : Kind)
    (operand : Concrete.Expr) :
    (tree.attach op operand).yield = tree.yield ++ .ofKind op :: operand.yield := by
  cases tree with
  | binary left inner right =>
    have later := right.attach_yield op operand
    simp only [attach]
    split <;> simp [yield, later]
  | _ => rfl
termination_by structural tree

namespace Derivation

mutual

theorem Expr.tree_yield (expr : Expr) : expr.tree.yield = expr.yield := by
  cases expr with
  | row first more =>
    simp only [Expr.tree, Expr.yield, Operation.attachAll_yield more, first.tree_yield]
termination_by structural expr

theorem Operation.attachAll_yield (more : List Operation) (tree : Concrete.Expr) :
    (Operation.attachAll tree more).yield = tree.yield ++ Operation.allYield more := by
  cases more with
  | nil => simp [Operation.attachAll, Operation.allYield]
  | cons operation rest =>
    cases operation with
    | mk op operand =>
      simp [Operation.attachAll, Operation.allYield, Operation.yield,
        Operation.attachAll_yield rest,
        Concrete.Expr.attach_yield, operand.tree_yield]
termination_by structural more

theorem Unary.tree_yield (unary : Unary) : unary.tree.yield = unary.yield := by
  cases unary with
  | prefixed op operand =>
    simp only [Unary.tree, Concrete.Expr.yield, Unary.yield, operand.tree_yield]
  | applied callee calls =>
    simp only [Unary.tree, Unary.yield, Args.callAll_yield calls, callee.tree_yield]
termination_by structural unary

theorem Args.callAll_yield (calls : List Args) (callee : Concrete.Expr) :
    (Args.callAll callee calls).yield = callee.yield ++ Args.allYield calls := by
  cases calls with
  | nil => simp [Args.callAll, Args.allYield]
  | cons args rest =>
    cases args with
    | none =>
      simp [Args.callAll, Args.allYield, Args.yield, Args.callAll_yield rest,
        Concrete.Expr.yield,
        Concrete.Expr.argsYield]
    | listed first more trailing =>
      simp [Args.callAll, Args.allYield, Args.yield, Args.callAll_yield rest,
        Concrete.Expr.yield,
        Concrete.Expr.argsYield, first.tree_yield, Expr.treeAll_yield more]
termination_by structural calls

theorem Primary.tree_yield (primary : Primary) :
    primary.tree.yield = primary.yield := by
  cases primary with
  | ident | int => rfl
  | group inner =>
    simp only [Primary.tree, Concrete.Expr.yield, Primary.yield, inner.tree_yield]
  | compound form =>
    simp only [Primary.tree, Concrete.Expr.yield, Primary.yield, form.tree_yield]
  | func params body =>
    simp only [Primary.tree, Concrete.Expr.yield, Primary.yield, Names.yield,
      Stmt.treeAll_yield body]
termination_by structural primary

theorem Compound.tree_yield (form : Compound) : form.tree.yield = form.yield := by
  cases form with
  | block body =>
    simp only [Compound.tree, Concrete.Compound.yield, Compound.yield,
      Stmt.treeAll_yield body]
  | conditional branches =>
    simp only [Compound.tree, Concrete.Compound.yield, Compound.yield,
      branches.tree_yield]
  | loop condition body =>
    simp only [Compound.tree, Concrete.Compound.yield, Compound.yield,
      condition.tree_yield,
      Stmt.treeAll_yield body]
termination_by structural form

theorem Conditional.tree_yield (branches : Conditional) :
    branches.tree.yield = branches.yield := by
  cases branches with
  | only condition body =>
    simp only [Conditional.tree, Concrete.Conditional.yield, Conditional.yield,
      condition.tree_yield,
      Stmt.treeAll_yield body]
  | orElse condition body other =>
    simp only [Conditional.tree, Concrete.Conditional.yield, Conditional.yield,
      condition.tree_yield,
      Stmt.treeAll_yield body, Stmt.treeAll_yield other]
  | elseIf condition body next =>
    simp only [Conditional.tree, Concrete.Conditional.yield, Conditional.yield,
      condition.tree_yield,
      Stmt.treeAll_yield body, next.tree_yield]
termination_by structural branches

theorem Stmt.tree_yield (stmt : Stmt) : stmt.tree.yield = stmt.yield := by
  cases stmt with
  | expr value | binding name value =>
    simp only [Stmt.tree, Concrete.Stmt.yield, Stmt.yield, value.tree_yield]
  | jump word value =>
    cases value with
    | none => rfl
    | some value =>
      simp only [Stmt.tree, Concrete.Stmt.yield, Stmt.yield, value.tree_yield]
  | continueLoop => rfl
  | compound form terminated =>
    simp only [Stmt.tree, Concrete.Stmt.yield, Stmt.yield, form.tree_yield]
  | funcDecl name params body terminated =>
    simp only [Stmt.tree, Concrete.Stmt.yield, Stmt.yield, Names.yield,
      Stmt.treeAll_yield body]
termination_by structural stmt

theorem Expr.treeAll_yield (more : List Expr) (trailing : Bool) :
    Concrete.Expr.moreArgsYield trailing (Expr.treeAll more) =
      Expr.moreYield trailing more := by
  cases more with
  | nil => rfl
  | cons value rest =>
    simp only [Expr.treeAll, Concrete.Expr.moreArgsYield, Expr.moreYield,
      value.tree_yield,
      Expr.treeAll_yield rest]
termination_by structural more

theorem Stmt.treeAll_yield (body : List Stmt) :
    Concrete.Stmt.allYield (Stmt.treeAll body) = Stmt.allYield body := by
  cases body with
  | nil => rfl
  | cons stmt rest =>
    simp only [Stmt.treeAll, Concrete.Stmt.allYield, Stmt.allYield, stmt.tree_yield,
      Stmt.treeAll_yield rest]
termination_by structural body

end

end Derivation

/-! ## Canonical trees -/

namespace Concrete.Expr

private theorem fitsRightOf_of_not_isBinary {op : Kind} {tree : Concrete.Expr}
    (noBinary : ¬ tree.isBinary) : tree.FitsRightOf op := by
  cases tree with
  | binary => exact absurd rfl noBinary
  | _ => trivial

private theorem attach_fitsRightOf {op outer : Kind} (binary : op.isBinary)
    (stronger : outer.rightFloor < op.precedence) {tree operand : Concrete.Expr}
    (fits : tree.FitsRightOf outer) : (tree.attach op operand).FitsRightOf outer := by
  have taken := (Kind.rightFloor_lt_iff binary).1 stronger
  cases tree with
  | binary left inner right =>
    simp only [attach]
    split
    · exact fits
    · exact taken
  | _ => exact taken

theorem attach_canonical (tree : Concrete.Expr) (canonical' : tree.Canonical) {op : Kind}
    (binary : op.isBinary) {operand : Concrete.Expr} (canonical : operand.Canonical)
    (noBinary : ¬ operand.isBinary) : (tree.attach op operand).Canonical := by
  have fits : operand.FitsRightOf op := fitsRightOf_of_not_isBinary noBinary
  cases tree with
  | binary left inner right =>
    obtain ⟨binary', fitsLeft, fitsRight, canonicalLeft, canonicalRight⟩ := canonical'
    simp only [attach]
    split
    · rename_i stronger
      exact ⟨binary', fitsLeft, attach_fitsRightOf binary stronger fitsRight,
        canonicalLeft, right.attach_canonical canonicalRight binary canonical noBinary⟩
    · rename_i weaker
      rw [Kind.rightFloor_lt_iff binary, not_or] at weaker
      exact ⟨binary, weaker, fits,
        ⟨binary', fitsLeft, fitsRight, canonicalLeft, canonicalRight⟩, canonical⟩
  | _ => exact ⟨binary, trivial, fits, canonical', canonical⟩
termination_by structural tree

theorem attach_of_fitsLeftOf {op : Kind} (binary : op.isBinary)
    {tree operand : Concrete.Expr} (fits : tree.FitsLeftOf op) :
    tree.attach op operand = .binary tree op operand := by
  cases tree with
  | binary left inner right =>
    have weaker : ¬ inner.rightFloor < op.precedence := by
      rw [Kind.rightFloor_lt_iff binary, not_or]
      exact fits
    simp only [attach, weaker, if_false]
  | _ => rfl

end Concrete.Expr

namespace Derivation

theorem Names.comma (names : Names) : names.trailing → names.list ≠ [] := by
  cases names <;> exact nofun

theorem Names.exists_of_comma {params : List String} {trailing : Bool}
    (comma : trailing → params ≠ []) :
    ∃ names : Names, names.list = params ∧ names.trailing = trailing := by
  cases params with
  | nil =>
    cases trailing with
    | false => exact ⟨.none, rfl, rfl⟩
    | true => exact absurd rfl (comma rfl)
  | cons first more => exact ⟨.listed first more trailing, rfl, rfl⟩

theorem Operation.attachAll_binary {op : Kind} {more : List Operation}
    (stronger : ∀ operation ∈ more, op.rightFloor < operation.op.precedence)
    (left right : Concrete.Expr) :
    attachAll (.binary left op right) more = .binary left op (attachAll right more) := by
  induction more generalizing right with
  | nil => rfl
  | cons operation rest ih =>
    cases operation with
    | mk next operand =>
      have first : op.rightFloor < next.precedence :=
        stronger (.mk next operand) (.head _)
      simp only [attachAll, Concrete.Expr.attach, first, if_true]
      exact ih (fun other later => stronger other (.tail _ later)) _

end Derivation

end OasisSyntax
