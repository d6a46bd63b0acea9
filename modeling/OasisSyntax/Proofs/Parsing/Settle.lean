import OasisSyntax.Parsing.State
import OasisSyntax.Proofs.Grammar.Operators

/-!
# Settling

What `settle` does in front of a kind of token, form by form.  An operand goes into
the operation around it unless the next operator is stronger than that operation; a
condition without an alternative is finished; a statement that needs no terminator
ends.  What a form is finished to waits for nothing but the next token.
-/

namespace OasisSyntax

variable {goal : Goal} {next : Kind}

namespace ExprContext

theorem finish_of_lt {expr : Expr} {outer : ExprContext goal}
    (stronger : outer.floor < next.precedence) :
    outer.finish next expr = .value expr outer := by
  cases outer <;> simp only [finish, Kind.goesOn_iff, stronger, if_true]

theorem finish_unaryOperand {op : Kind} {operand : Expr} {outer : ExprContext goal}
    (weaker : ¬ Precedence.unary < next.precedence) :
    (unaryOperand op outer).finish next operand =
      outer.finish next (.unary op operand) := by
  simp only [finish, Kind.goesOn_iff, floor, weaker, if_false]

theorem finish_rightOperand {left right : Expr} {op : Kind} {outer : ExprContext goal}
    (weaker : ¬ op.rightFloor < next.precedence) :
    (rightOperand left op outer).finish next right =
      outer.finish next (.binary left op right) := by
  simp only [finish, Kind.goesOn_iff, floor, weaker, if_false]

end ExprContext

namespace State

@[simp] theorem finishForm_place (place : Place goal) (form : Compound) :
    (place.finish form).finishForm next = place.finish form := by
  cases place <;> rfl

@[simp] theorem finishForm_chain : ∀ (chain : ChainContext goal) (branches : Conditional),
    (chain.finish branches).finishForm next = chain.finish branches
  | .first place, _ => finishForm_place place _
  | .next _ _ before, _ => finishForm_chain before _
termination_by structural chain => chain

theorem settle_value_congr {first second : Expr} {inner outer : ExprContext goal}
    (same : inner.finish next first = outer.finish next second) :
    (State.value first inner).settle next = (State.value second outer).settle next := by
  simp only [settle, finishForm, finishExpr, same]

theorem settle_thenEnd {condition : Expr} {body : List Stmt}
    {chain : ChainContext goal} (noElse : next ≠ .kwElse) :
    (State.thenEnd condition body chain).settle next =
      (chain.finish (.only condition body)).settle next := by
  simp only [settle, finishForm_chain]
  simp only [finishForm, noElse, if_false]

theorem settle_statementEnd {stmt : Stmt} {outer : SeqContext goal}
    (noSemi : next ≠ .semi) :
    (State.statementEnd stmt false outer).settle next =
      (State.statement (outer.push stmt)).settle next := by
  simp only [settle, finishForm, finishExpr, finishStmt, noSemi, if_false]

theorem settle_jumpStart {word : Jump} {outer : SeqContext goal}
    (noSemi : next ≠ .semi) :
    (State.jumpStart word outer).settle next =
      (State.operand (.jumpValue word outer)).settle next := by
  simp only [settle, finishForm, finishExpr, noSemi, if_false]

theorem settle_argumentStart {callee : Expr} {before : List Expr}
    {outer : ExprContext goal} (noEnd : next ≠ .rparen) :
    (State.argumentStart callee before outer).settle next =
      (State.operand (.argument callee before outer)).settle next := by
  simp only [settle, finishForm, finishExpr, finishStmt, openForm, noEnd, if_false]

theorem settle_statement {outer : SeqContext goal}
    (expression : isStatementKind outer next = false) :
    (State.statement outer).settle next =
      (State.operand (.statement outer)).settle next := by
  simp only [settle, finishForm, finishExpr, finishStmt, openForm, expression,
    Bool.false_eq_true, if_false]

end State

def ExprContext.isWhole : ExprContext goal → Bool
  | .whole => true
  | _ => false

/-- An expression that is not put into its context stands in front of an operator for
it, or has no context to go into. -/
theorem ExprContext.finish_eq_value : ∀ {goal : Goal} (context : ExprContext goal)
    {outer : ExprContext goal} {expr value : Expr},
    context.finish next expr = .value value outer →
      outer.floor < next.precedence ∨ outer.isWhole
  | _, context, outer, expr, value, kept => by
    by_cases stronger : context.floor < next.precedence
    · rw [finish_of_lt stronger] at kept
      cases kept
      exact .inl stronger
    · cases context with
      | whole =>
        simp only [finish, Kind.goesOn_iff, stronger, if_false] at kept
        cases kept
        exact .inr rfl
      | unaryOperand op context =>
        rw [finish_unaryOperand stronger] at kept
        exact finish_eq_value context kept
      | rightOperand left op context =>
        rw [finish_rightOperand stronger] at kept
        exact finish_eq_value context kept
      | _ =>
        simp only [finish, Kind.goesOn_iff, stronger, if_false] at kept
        contradiction

namespace State

variable {state : State goal} {value : Expr} {outer : ExprContext goal}

private theorem openForm_eq_value (opened : state.openForm next = .value value outer) :
    state = .value value outer := by
  cases state with
  | statement | argumentStart | funcStart | paramStart | elseStart =>
    simp only [openForm] at opened
    split at opened <;> contradiction
  | _ => exact opened

private theorem finishStmt_eq_value (finished : state.finishStmt next = .value value outer) :
    state = .value value outer := by
  cases state with
  | statementEnd stmt required outer =>
    cases required with
    | true => contradiction
    | false =>
      simp only [finishStmt] at finished
      split at finished <;> contradiction
  | _ => exact finished

theorem settle_eq_value (settled : state.settle next = .value value outer) :
    outer.floor < next.precedence ∨ outer.isWhole := by
  have finished := finishStmt_eq_value (openForm_eq_value settled)
  generalize state.finishForm next = formed at finished
  cases formed with
  | value expr context => exact context.finish_eq_value finished
  | _ => contradiction

end State

end OasisSyntax
