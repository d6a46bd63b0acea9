import OasisSyntax.Proofs.Grammar.Concrete

/-!
# First tokens and last operands

Which token a concrete tree begins with, and in front of which kinds it ends.  A tree
that does not end in front of a kind would be gone on with there: its last operand
would take the operator, or its last condition the alternative.
-/

namespace OasisSyntax.Concrete

/-! ## First tokens -/

def Compound.lead : Compound → Kind
  | .block _ => .lbrace
  | .conditional _ => .kwIf
  | .loop .. => .kwWhile

def Expr.lead : Expr → Kind
  | .ident _ => .ident
  | .int _ => .int
  | .unary op _ => op
  | .binary left _ _ => left.lead
  | .group _ => .lparen
  | .call callee _ _ => callee.lead
  | .compound form => form.lead
  | .func .. => .kwFunc
termination_by structural expr => expr

def Stmt.lead : Stmt → Kind
  | .expr value => value.lead
  | .binding .. => .kwLet
  | .jump word _ => word.kind
  | .continueLoop => .kwContinue
  | .compound form _ => form.lead
  | .funcDecl .. => .kwFunc

theorem Compound.yield_eq (form : Compound) :
    ∃ tail, form.yield = .ofKind form.lead :: tail := by
  cases form with
  | block body => exact ⟨_, rfl⟩
  | conditional branches => cases branches <;> exact ⟨_, rfl⟩
  | loop condition body => exact ⟨_, rfl⟩

theorem Expr.yield_eq (expr : Expr) :
    ∃ literal tail, expr.yield = ⟨expr.lead, literal⟩ :: tail := by
  cases expr with
  | ident | int | unary | group | func => exact ⟨_, _, rfl⟩
  | binary left op right =>
    obtain ⟨literal, tail, same⟩ := left.yield_eq
    exact ⟨literal, tail ++ .ofKind op :: right.yield, by
      simp only [yield, lead, same, List.cons_append]⟩
  | call callee args trailing =>
    obtain ⟨literal, tail, same⟩ := callee.yield_eq
    exact ⟨literal, tail ++ parenthesised (argsYield trailing args), by
      simp only [yield, lead, same, List.cons_append]⟩
  | compound form =>
    obtain ⟨tail, same⟩ := form.yield_eq
    exact ⟨_, tail, same⟩
termination_by structural expr

theorem Stmt.yield_eq (stmt : Stmt) :
    ∃ literal tail, stmt.yield = ⟨stmt.lead, literal⟩ :: tail := by
  cases stmt with
  | expr value =>
    obtain ⟨literal, tail, same⟩ := value.yield_eq
    exact ⟨literal, tail ++ [.ofKind .semi], by
      simp only [yield, lead, same, List.cons_append]⟩
  | jump word value => cases value <;> exact ⟨_, _, rfl⟩
  | compound form terminated =>
    obtain ⟨tail, same⟩ := form.yield_eq
    exact ⟨_, tail ++ optionalToken .semi terminated, by
      simp only [yield, same, List.cons_append]; rfl⟩
  | binding | continueLoop | funcDecl => exact ⟨_, _, rfl⟩

theorem Compound.lead_opensCompound (form : Compound) : form.lead.opensCompound := by
  cases form <;> rfl

theorem Expr.lead_mem (expr : Expr) (canonical : expr.Canonical) :
    expr.lead ∈ Kind.operandStarts := by
  cases expr with
  | ident | int | group | func => simp [lead, Kind.operandStarts]
  | unary op operand =>
    have unary := canonical.1
    simp only [lead]
    revert unary
    cases op <;> decide
  | binary left op right => exact left.lead_mem canonical.2.2.2.1
  | call callee args trailing => exact callee.lead_mem canonical.2.2.1
  | compound form =>
    cases form <;> simp [lead, Compound.lead, Kind.operandStarts]
termination_by structural expr

theorem Expr.startsCompound_eq (expr : Expr) (canonical : expr.Canonical) :
    expr.startsCompound = expr.lead.opensCompound := by
  cases expr with
  | ident | int | group | func => rfl
  | unary op operand =>
    have unary := canonical.1
    simp only [startsCompound, lead]
    revert unary
    cases op <;> decide
  | binary left op right => exact left.startsCompound_eq canonical.2.2.2.1
  | call callee args trailing => exact callee.startsCompound_eq canonical.2.2.1
  | compound form => exact form.lead_opensCompound.symm
termination_by structural expr

theorem Expr.yield_of_func (expr : Expr) (canonical : expr.Canonical)
    (func : expr.lead = .kwFunc) :
    ∃ tail, expr.yield = .ofKind .kwFunc :: .ofKind .lparen :: tail := by
  cases expr with
  | ident | int | group => cases func
  | unary op operand =>
    have unary := canonical.1
    simp only [lead] at func
    simp [func, Kind.isUnary] at unary
  | binary left op right =>
    obtain ⟨tail, same⟩ := left.yield_of_func canonical.2.2.2.1 func
    exact ⟨tail ++ .ofKind op :: right.yield, by
      simp only [yield, same, List.cons_append]⟩
  | call callee args trailing =>
    obtain ⟨tail, same⟩ := callee.yield_of_func canonical.2.2.1 func
    exact ⟨tail ++ parenthesised (argsYield trailing args), by
      simp only [yield, same, List.cons_append]⟩
  | compound form => cases form <;> cases func
  | func params trailing body => exact ⟨_, rfl⟩
termination_by structural expr

theorem Stmt.lead_mem {stmt : Stmt} (canonical : stmt.Canonical) :
    stmt.lead ∈ Kind.statementStarts := by
  cases stmt with
  | expr value => exact List.mem_append_right _ (value.lead_mem canonical.2)
  | jump word value => cases word <;> simp [lead, Jump.kind, Kind.statementStarts]
  | compound form terminated =>
    cases form <;> simp [lead, Compound.lead, Kind.statementStarts, Kind.operandStarts]
  | binding | continueLoop | funcDecl =>
    simp [lead, Kind.statementStarts, Kind.operandStarts]

theorem Stmt.lead_ne {stmt : Stmt} (canonical : stmt.Canonical) :
    stmt.lead ≠ .semi ∧ stmt.lead ≠ .kwElse := by
  have starts := lead_mem canonical
  constructor <;> intro same <;> rw [same] at starts <;> contradiction

/-! ## Last operands -/

/-- The strength of what holds the expression together at the top. -/
def Expr.level : Expr → Precedence
  | .binary _ op _ => op.precedence
  | _ => .call

theorem level_of_fitsRightOf {op : Kind} (binary : op.isBinary) {right : Expr}
    (canonical : right.Canonical) (fits : right.FitsRightOf op) :
    op.rightFloor < right.level := by
  cases right with
  | binary left inner right => exact (Kind.rightFloor_lt_iff canonical.1).2 fits
  | _ =>
    have range := Kind.level_of_isBinary binary
    have floor := Kind.rightFloor_le op
    simp only [Expr.level, Precedence.lt_iff, Precedence.level_unary,
      Precedence.level_call] at *
    omega

theorem level_of_fitsLeftOf {op : Kind} {floor : Precedence} (binary : op.isBinary)
    (stronger : floor < op.precedence) {left : Expr} (fits : left.FitsLeftOf op) :
    floor < left.level := by
  have range := Kind.level_of_isBinary binary
  cases left with
  | binary left inner right =>
    have notBelow := fits.2
    simp only [Expr.level, Precedence.lt_iff] at *
    omega
  | _ =>
    simp only [Expr.level, Precedence.lt_iff, Precedence.level_unary,
      Precedence.level_call] at *
    omega

theorem none_lt_level {expr : Expr} (canonical : expr.Canonical) :
    Precedence.none < expr.level := by
  cases expr with
  | binary left op right => exact (Kind.level_of_isBinary canonical.1).1
  | _ => simp [Expr.level, Precedence.lt_iff]

theorem unary_lt_level {expr : Expr} (noBinary : ¬ expr.isBinary) :
    Precedence.unary < expr.level := by
  cases expr with
  | binary left op right => exact absurd rfl noBinary
  | _ => simp [Expr.level, Precedence.lt_iff]

def Conditional.EndsBefore (next : Kind) : Conditional → Prop
  | .only .. => next ≠ .kwElse
  | .orElse .. => True
  | .elseIf _ _ rest => rest.EndsBefore next
termination_by structural branches => branches

def Compound.EndsBefore (next : Kind) : Compound → Prop
  | .conditional branches => branches.EndsBefore next
  | _ => True

def Expr.EndsBefore (next : Kind) : Expr → Prop
  | .unary _ operand => ¬ Precedence.unary < next.precedence ∧ operand.EndsBefore next
  | .binary _ op right => ¬ op.rightFloor < next.precedence ∧ right.EndsBefore next
  | .compound form => form.EndsBefore next
  | _ => True
termination_by structural expr => expr

theorem Conditional.endsBefore_of_ne {next : Kind} (noElse : next ≠ .kwElse)
    (branches : Conditional) : branches.EndsBefore next := by
  cases branches with
  | only condition body => exact noElse
  | orElse condition body other => trivial
  | elseIf condition body rest => exact rest.endsBefore_of_ne noElse
termination_by structural branches

theorem Compound.endsBefore_of_ne {next : Kind} (noElse : next ≠ .kwElse)
    (form : Compound) : form.EndsBefore next := by
  cases form with
  | conditional branches => exact branches.endsBefore_of_ne noElse
  | block | loop => trivial

theorem Expr.endsBefore_of_weak {next : Kind} (weak : next.isWeak)
    (noElse : next ≠ .kwElse) (expr : Expr) : expr.EndsBefore next := by
  have none : next.precedence = .none := by simpa [Kind.isWeak] using weak
  cases expr with
  | unary op operand =>
    exact ⟨none ▸ Precedence.none_le _, operand.endsBefore_of_weak weak noElse⟩
  | binary left op right =>
    exact ⟨none ▸ Precedence.none_le _, right.endsBefore_of_weak weak noElse⟩
  | compound form => exact form.endsBefore_of_ne noElse
  | ident | int | group | call | func => trivial
termination_by structural expr

theorem Expr.endsBefore_of_not_isOperation {next : Kind} (noElse : next ≠ .kwElse)
    {expr : Expr} (primary : ¬ expr.isOperation) : expr.EndsBefore next := by
  cases expr with
  | unary | binary => exact absurd rfl primary
  | compound form => exact form.endsBefore_of_ne noElse
  | ident | int | group | call | func => trivial

/-- A tree that is strong enough at the top ends before every operator that is not
stronger than it is. -/
theorem Expr.endsBefore_of_strong {next : Kind} (binary : next.isBinary) (expr : Expr)
    (canonical : expr.Canonical) (strong : expr.FitsLeftOf next) :
    expr.EndsBefore next := by
  have range := Kind.level_of_isBinary binary
  have noElse : next ≠ .kwElse := by rintro rfl; cases binary
  cases expr with
  | unary op operand =>
    have ended : operand.FitsLeftOf next := by
      cases operand <;> first | trivial | exact absurd rfl canonical.2.1
    refine ⟨?_, operand.endsBefore_of_strong binary canonical.2.2 ended⟩
    simp only [Precedence.lt_iff] at *
    omega
  | binary left op right =>
    obtain ⟨binary', -, fits, -, canonical'⟩ := canonical
    obtain ⟨noRight, notBelow⟩ := strong
    have above : ¬ op.rightFloor < next.precedence := by
      rw [Kind.rightFloor_lt_iff binary]
      simp [noRight, notBelow]
    have ended : right.FitsLeftOf next := by
      cases right with
      | binary _ inner _ =>
        have stronger := fits.resolve_left noRight
        simp only [Precedence.lt_iff] at stronger notBelow
        constructor
        · intro right
          have := Kind.level_of_groupsRight right
          have := Kind.level_of_isBinary binary'
          omega
        · simp only [Precedence.lt_iff]
          omega
      | _ => trivial
    exact ⟨above, right.endsBefore_of_strong binary canonical' ended⟩
  | compound form => exact form.endsBefore_of_ne noElse
  | ident | int | group | call | func => trivial
termination_by structural expr

end OasisSyntax.Concrete
