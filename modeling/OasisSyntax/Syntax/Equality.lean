import OasisSyntax.Syntax.Tree

/-!
# Equality of syntax trees

Two trees are equal when they have the same nodes, names, digits and operators at
the same places.  The comparison `same` decides this, so equality of trees can be
tested.
-/

namespace OasisSyntax

mutual

def Expr.same : Expr → Expr → Bool
  | .ident first, .ident second => first == second
  | .int first, .int second => first == second
  | .unary op operand, .unary op' operand' => op == op' && operand.same operand'
  | .binary left op right, .binary left' op' right' =>
    left.same left' && op == op' && right.same right'
  | .call callee args, .call callee' args' =>
    callee.same callee' && Expr.sameAll args args'
  | .compound form, .compound form' => form.same form'
  | .func params body, .func params' body' =>
    params == params' && Stmt.sameAll body body'
  | _, _ => false
termination_by structural first => first

def Stmt.same : Stmt → Stmt → Bool
  | .expr value, .expr value' => value.same value'
  | .binding name value, .binding name' value' => name == name' && value.same value'
  | .jump word none, .jump word' none => word == word'
  | .jump word (some value), .jump word' (some value') =>
    word == word' && value.same value'
  | .continueLoop, .continueLoop => true
  | .compound form, .compound form' => form.same form'
  | .funcDecl name params body, .funcDecl name' params' body' =>
    name == name' && params == params' && Stmt.sameAll body body'
  | _, _ => false
termination_by structural first => first

def Compound.same : Compound → Compound → Bool
  | .block body, .block body' => Stmt.sameAll body body'
  | .conditional branches, .conditional branches' => branches.same branches'
  | .loop condition body, .loop condition' body' =>
    condition.same condition' && Stmt.sameAll body body'
  | _, _ => false
termination_by structural first => first

def Conditional.same : Conditional → Conditional → Bool
  | .only condition body, .only condition' body' =>
    condition.same condition' && Stmt.sameAll body body'
  | .orElse condition body other, .orElse condition' body' other' =>
    condition.same condition' && Stmt.sameAll body body' && Stmt.sameAll other other'
  | .elseIf condition body next, .elseIf condition' body' next' =>
    condition.same condition' && Stmt.sameAll body body' && next.same next'
  | _, _ => false
termination_by structural first => first

def Expr.sameAll : List Expr → List Expr → Bool
  | [], [] => true
  | first :: rest, first' :: rest' => first.same first' && Expr.sameAll rest rest'
  | _, _ => false
termination_by structural first => first

def Stmt.sameAll : List Stmt → List Stmt → Bool
  | [], [] => true
  | first :: rest, first' :: rest' => first.same first' && Stmt.sameAll rest rest'
  | _, _ => false
termination_by structural first => first

end

mutual

theorem Expr.same_iff (first second : Expr) :
    first.same second = true ↔ first = second := by
  cases first with
  | ident name => cases second <;> simp [Expr.same]
  | int digits => cases second <;> simp [Expr.same]
  | unary op operand =>
    have := operand.same_iff
    cases second <;> simp_all [Expr.same]
  | binary left op right =>
    have := left.same_iff
    have := right.same_iff
    cases second <;> simp_all [Expr.same, and_assoc]
  | call callee args =>
    have := callee.same_iff
    have := Expr.sameAll_iff args
    cases second <;> simp_all [Expr.same]
  | compound form =>
    have := form.same_iff
    cases second <;> simp_all [Expr.same]
  | func params body =>
    have := Stmt.sameAll_iff body
    cases second <;> simp_all [Expr.same]

theorem Stmt.same_iff (first second : Stmt) :
    first.same second = true ↔ first = second := by
  cases first with
  | expr value =>
    have := value.same_iff
    cases second <;> simp_all [Stmt.same]
  | binding name value =>
    have := value.same_iff
    cases second <;> simp_all [Stmt.same]
  | jump word value =>
    cases value with
    | none =>
      cases second with
      | jump word' value' => cases value' <;> simp [Stmt.same]
      | _ => simp [Stmt.same]
    | some value =>
      have := value.same_iff
      cases second with
      | jump word' value' => cases value' <;> simp_all [Stmt.same]
      | _ => simp [Stmt.same]
  | continueLoop => cases second <;> simp [Stmt.same]
  | compound form =>
    have := form.same_iff
    cases second <;> simp_all [Stmt.same]
  | funcDecl name params body =>
    have := Stmt.sameAll_iff body
    cases second <;> simp_all [Stmt.same, and_assoc]

theorem Compound.same_iff (first second : Compound) :
    first.same second = true ↔ first = second := by
  cases first with
  | block body =>
    have := Stmt.sameAll_iff body
    cases second <;> simp_all [Compound.same]
  | conditional branches =>
    have := branches.same_iff
    cases second <;> simp_all [Compound.same]
  | loop condition body =>
    have := condition.same_iff
    have := Stmt.sameAll_iff body
    cases second <;> simp_all [Compound.same]

theorem Conditional.same_iff (first second : Conditional) :
    first.same second = true ↔ first = second := by
  cases first with
  | only condition body =>
    have := condition.same_iff
    have := Stmt.sameAll_iff body
    cases second <;> simp_all [Conditional.same]
  | orElse condition body other =>
    have := condition.same_iff
    have := Stmt.sameAll_iff body
    have := Stmt.sameAll_iff other
    cases second <;> simp_all [Conditional.same, and_assoc]
  | elseIf condition body next =>
    have := condition.same_iff
    have := Stmt.sameAll_iff body
    have := next.same_iff
    cases second <;> simp_all [Conditional.same, and_assoc]

theorem Expr.sameAll_iff (first second : List Expr) :
    Expr.sameAll first second = true ↔ first = second := by
  cases first with
  | nil => cases second <;> simp [Expr.sameAll]
  | cons head rest =>
    have := head.same_iff
    have := Expr.sameAll_iff rest
    cases second <;> simp_all [Expr.sameAll]

theorem Stmt.sameAll_iff (first second : List Stmt) :
    Stmt.sameAll first second = true ↔ first = second := by
  cases first with
  | nil => cases second <;> simp [Stmt.sameAll]
  | cons head rest =>
    have := head.same_iff
    have := Stmt.sameAll_iff rest
    cases second <;> simp_all [Stmt.sameAll]

end

instance : DecidableEq Expr := fun first second =>
  decidable_of_iff _ (first.same_iff second)

instance : DecidableEq Stmt := fun first second =>
  decidable_of_iff _ (first.same_iff second)

instance : DecidableEq Compound := fun first second =>
  decidable_of_iff _ (first.same_iff second)

instance : DecidableEq Conditional := fun first second =>
  decidable_of_iff _ (first.same_iff second)

end OasisSyntax
