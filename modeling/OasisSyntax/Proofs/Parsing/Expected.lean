import OasisSyntax.Proofs.Parsing.Complete
import OasisSyntax.Proofs.Parsing.Completion

/-!
# Expectations of syntax errors

A state that is settled for a token that does not fit complains about this token, and
each kind that it expects would have fitted.  The state has been settled for the other
token, so what is expected must not depend on that: the kinds that a complaint names are
such that the state settles for them as it did.
-/

namespace OasisSyntax

namespace State

variable {goal : Goal} {state other : State goal} {actual token : Token}
  {kinds kinds' : Kind → Prop}

/-- If the token does not fit, the complaint is about it, and expects only kinds that
fit. -/
def Explains (kinds : Kind → Prop) (state : State goal) (actual : Token) : Prop :=
  (state.settle actual.kind).shift? actual = none →
    (state.settle actual.kind).result? = none →
      ((state.settle actual.kind).complaint actual).actual? = some actual ∧
        ∀ token : Token,
          token.kind ∈ ((state.settle actual.kind).complaint actual).expected →
            kinds token.kind ∧ ∃ after, state.step? token = some after

theorem Explains.mono (explains : state.Explains kinds actual)
    (weaker : ∀ kind, kinds kind → kinds' kind) : state.Explains kinds' actual := by
  intro stuck result
  obtain ⟨names, expects⟩ := explains stuck result
  refine ⟨names, fun token expected => ?_⟩
  obtain ⟨fits, steps⟩ := expects token expected
  exact ⟨weaker _ fits, steps⟩

theorem Explains.of_settle (explains : other.Explains kinds actual)
    (same : state.settle actual.kind = other.settle actual.kind)
    (alike : ∀ kind, kinds kind → state.settle kind = other.settle kind) :
    state.Explains kinds actual := by
  intro stuck result
  rw [same] at stuck result ⊢
  obtain ⟨names, expects⟩ := explains stuck result
  refine ⟨names, fun token expected => ?_⟩
  obtain ⟨fits, after, steps⟩ := expects token expected
  exact ⟨fits, after, (step?_congr (alike _ fits)).trans steps⟩

theorem explains_of_step {kind : Kind} (same : actual.kind = kind)
    (steps : ∀ literal, ∃ after, state.step? ⟨kind, literal⟩ = some after) :
    state.Explains kinds actual := by
  intro stuck
  subst same
  obtain ⟨after, fits⟩ := steps actual.literal
  rw [step?, stuck] at fits
  contradiction

theorem explains_of_missing (kind : Kind) (fit : kinds kind)
    (complains : (state.settle actual.kind).complaint actual = .missing kind actual)
    (steps : ∀ literal, ∃ after, state.step? ⟨kind, literal⟩ = some after) :
    state.Explains kinds actual := by
  intro _ _
  rw [complains]
  refine ⟨rfl, fun token expected => ?_⟩
  obtain rfl := List.mem_singleton.1 expected
  exact ⟨fit, steps token.literal⟩

theorem explains_of_noOperand (fit : ∀ kind ∈ Kind.operandStarts, kinds kind)
    (complains : (state.settle actual.kind).complaint actual = .noOperand actual)
    (steps : ∀ token : Token, token.kind ∈ Kind.operandStarts →
      ∃ after, state.step? token = some after) :
    state.Explains kinds actual := by
  intro _ _
  rw [complains]
  exact ⟨rfl, fun token expected => ⟨fit _ expected, steps token expected⟩⟩

/-! ## Statements -/

theorem exists_step?_operand (outer : ExprContext goal) {token : Token}
    (starts : token.kind ∈ Kind.operandStarts) :
    ∃ after, (State.operand outer).step? token = some after := by
  obtain ⟨kind, literal⟩ := token
  cases kind <;> first | exact ⟨_, rfl⟩ | simp [Kind.operandStarts] at starts

private theorem exists_step?_statement (outer : SeqContext goal) {token : Token}
    (starts : token.kind ∈ Kind.operandStarts) :
    ∃ after, (State.statement outer).step? token = some after := by
  obtain ⟨kind, literal⟩ := token
  cases kind <;> first | exact ⟨_, rfl⟩ | simp [Kind.operandStarts] at starts

theorem separates_of_mem {kind : Kind} (starts : kind ∈ Kind.operandStarts) :
    Separates kind := by
  constructor <;> rintro rfl <;> simp [Kind.operandStarts] at starts

theorem explains_statement (outer : SeqContext goal) (actual : Token) :
    (State.statement outer).Explains Separates actual := by
  cases decided : isStatementKind outer actual.kind with
  | false =>
    have settled : (State.statement outer).settle actual.kind =
        .operand (.statement outer) := settle_statement decided
    exact explains_of_noOperand (fun _ => separates_of_mem) (by rw [settled]; rfl)
      fun token => exists_step?_statement outer
  | true =>
    have settled : (State.statement outer).settle actual.kind = .statement outer := by
      simp only [settle, finishForm, finishExpr, finishStmt, openForm, decided, if_true]
    cases outer with
    | program done =>
      intro _ result
      rw [settled] at result
      contradiction
    | block done owner =>
      exact explains_of_missing .rbrace ⟨by decide, by decide⟩ (by rw [settled]; rfl)
        fun _ => ⟨_, rfl⟩

theorem explains_statementEnd (stmt : Stmt) (outer : SeqContext goal) (actual : Token) :
    (State.statementEnd stmt false outer).Explains Separates actual := by
  by_cases semi : actual.kind = .semi
  · exact explains_of_step semi fun _ => ⟨_, rfl⟩
  · exact (explains_statement (outer.push stmt) actual).of_settle
      (settle_statementEnd semi)
      fun kind separates => settle_statementEnd separates.1

/-! ## Expressions -/

theorem shiftValue?_ne_none {kind : Kind} (operator : kind.precedence ≠ .none)
    (expr : Expr) (outer : ExprContext goal) : shiftValue? expr outer kind ≠ none := by
  simp only [shiftValue?]
  split
  · exact Option.some_ne_none _
  · rename_i noCall
    rw [if_pos (Kind.isBinary_iff.2 ⟨operator, noCall⟩)]
    exact Option.some_ne_none _

theorem explains_of_lt {expr : Expr} {outer : ExprContext goal}
    (stronger : outer.floor < actual.kind.precedence) :
    (State.value expr outer).Explains kinds actual := by
  have operator : actual.kind.precedence ≠ .none := by
    intro none
    rw [none] at stronger
    exact Precedence.none_le _ stronger
  have settled : (State.value expr outer).settle actual.kind = .value expr outer := by
    simp only [settle, finishForm, finishExpr, ExprContext.finish_of_lt stronger,
      finishStmt, openForm]
  intro stuck
  rw [settled] at stuck
  exact absurd stuck (shiftValue?_ne_none operator expr outer)

theorem explains_of_closed {expr : Expr} {outer : ExprContext goal} (kind : Kind)
    (closed : State goal) (closes : kind.closesExpr) (floor : outer.floor = .none)
    (finishes : ∀ next : Kind, outer.finish next expr =
      if next.goesOn .none then .value expr outer else closed)
    (rests : ∀ next, openForm next (finishStmt next closed) = closed)
    (complains : closed.complaint actual = .missing kind actual)
    (steps : ∀ literal, ∃ after, closed.shift? ⟨kind, literal⟩ = some after) :
    (State.value expr outer).Explains (·.closesExpr) actual := by
  have settled (next : Kind) (weaker : ¬ Precedence.none < next.precedence) :
      (State.value expr outer).settle next = closed := by
    simp only [settle, finishForm, finishExpr, finishes, Kind.goesOn_iff, weaker, if_false,
      rests]
  by_cases stronger : Precedence.none < actual.kind.precedence
  · exact explains_of_lt (floor ▸ stronger)
  · refine explains_of_missing kind closes (by rw [settled _ stronger, complains])
      fun literal => ?_
    obtain ⟨after, fits⟩ := steps literal
    have weaker := Kind.not_lt_of_closesExpr closes .none
    exact ⟨after, by rw [step?, settled _ weaker, fits]⟩

end State

open State

theorem ExprContext.explains : ∀ {goal : Goal} (outer : ExprContext goal) (expr : Expr)
    (actual : Token), (State.value expr outer).Explains (·.closesExpr) actual
  | _, .whole, expr, actual => by
    by_cases stronger : Precedence.none < actual.kind.precedence
    · exact explains_of_lt stronger
    · intro _ result
      have settled :
          (State.value expr .whole).settle actual.kind = .value expr .whole := by
        simp only [settle, finishForm, finishExpr, finish, ite_self, finishStmt,
          openForm]
      rw [settled] at result
      contradiction
  | _, .unaryOperand op outer, expr, actual => by
    by_cases stronger : Precedence.unary < actual.kind.precedence
    · exact explains_of_lt stronger
    · refine (outer.explains (.unary op expr) actual).of_settle
        (settle_value_congr (finish_unaryOperand stronger)) fun kind closes => ?_
      exact settle_value_congr (finish_unaryOperand (Kind.not_lt_of_closesExpr closes _))
  | _, .rightOperand left op outer, expr, actual => by
    by_cases stronger : op.rightFloor < actual.kind.precedence
    · exact explains_of_lt stronger
    · refine (outer.explains (.binary left op expr) actual).of_settle
        (settle_value_congr (finish_rightOperand stronger)) fun kind closes => ?_
      exact settle_value_congr (finish_rightOperand (Kind.not_lt_of_closesExpr closes _))
  | _, .group outer, expr, actual =>
    explains_of_closed .rparen (.groupEnd expr outer) rfl rfl
      (fun _ => rfl) (fun _ => rfl) rfl fun _ => ⟨_, rfl⟩
  | _, .argument callee before outer, expr, actual =>
    explains_of_closed .rparen (.argumentEnd callee (before ++ [expr]) outer) rfl rfl
      (fun _ => rfl) (fun _ => rfl) rfl fun _ => ⟨_, rfl⟩
  | _, .ifCondition chain, expr, actual =>
    explains_of_closed .lbrace (.blockStart (.thenBranch expr chain)) rfl rfl
      (fun _ => rfl) (fun _ => rfl) rfl fun _ => ⟨_, rfl⟩
  | _, .loopCondition place, expr, actual =>
    explains_of_closed .lbrace (.blockStart (.loopBody expr place)) rfl rfl
      (fun _ => rfl) (fun _ => rfl) rfl fun _ => ⟨_, rfl⟩
  | _, .boundValue name outer, expr, actual =>
    explains_of_closed .semi (.statementEnd (.binding name expr) true outer) rfl rfl
      (fun _ => rfl) (fun _ => rfl) rfl fun _ => ⟨_, rfl⟩
  | _, .jumpValue word outer, expr, actual =>
    explains_of_closed .semi (.statementEnd (.jump word (some expr)) true outer) rfl rfl
      (fun _ => rfl) (fun _ => rfl) rfl fun _ => ⟨_, rfl⟩
  | _, .statement outer, expr, actual =>
    explains_of_closed .semi (.statementEnd (.expr expr) true outer) rfl rfl
      (fun _ => rfl) (fun _ => rfl) rfl fun _ => ⟨_, rfl⟩

theorem Place.explains (place : Place goal) (form : Compound) (actual : Token) :
    (place.finish form).Explains (· ≠ .kwElse) actual := by
  cases place with
  | statement outer =>
    exact (explains_statementEnd _ outer actual).mono fun _ => And.right
  | operand outer =>
    exact (outer.explains (.compound form) actual).mono fun _ =>
      Kind.ne_kwElse_of_closesExpr

theorem ChainContext.explains : ∀ {goal : Goal} (chain : ChainContext goal)
    (branches : Conditional) (actual : Token),
    (chain.finish branches).Explains (· ≠ .kwElse) actual
  | _, .first place, branches, actual => place.explains (.conditional branches) actual
  | _, .next condition body before, branches, actual =>
    before.explains (.elseIf condition body branches) actual

/-- In whatever state a token does not fit, the complaint is about this token, and each
kind that it expects fits. -/
theorem State.explains (state : State goal) (actual : Token) :
    state.Explains (fun _ => True) actual := by
  cases state with
  | statement outer => exact (explains_statement outer actual).mono fun _ _ => trivial
  | operand outer =>
    exact explains_of_noOperand (fun _ _ => trivial) rfl fun _ =>
      exists_step?_operand outer
  | value expr outer => exact (outer.explains expr actual).mono fun _ _ => trivial
  | groupEnd | argumentEnd | paramEnd =>
    exact explains_of_missing .rparen trivial rfl fun _ => ⟨_, rfl⟩
  | boundSign =>
    exact explains_of_missing .assign trivial rfl fun _ => ⟨_, rfl⟩
  | boundName =>
    exact explains_of_missing .ident trivial rfl fun _ => ⟨_, rfl⟩
  | paramsStart =>
    exact explains_of_missing .lparen trivial rfl fun _ => ⟨_, rfl⟩
  | blockStart =>
    exact explains_of_missing .lbrace trivial rfl fun _ => ⟨_, rfl⟩
  | statementEnd stmt required outer =>
    cases required with
    | false => exact (explains_statementEnd stmt outer actual).mono fun _ _ => trivial
    | true => exact explains_of_missing .semi trivial rfl fun _ => ⟨_, rfl⟩
  | argumentStart callee before outer =>
    by_cases close : actual.kind = .rparen
    · exact explains_of_step close fun _ => ⟨_, rfl⟩
    · refine explains_of_noOperand (fun _ _ => trivial)
        (by rw [settle_argumentStart close]; rfl) fun token starts => ?_
      have noEnd : token.kind ≠ .rparen := by
        intro close
        simp [close, Kind.operandStarts] at starts
      rw [step?_congr (settle_argumentStart noEnd)]
      exact exists_step?_operand _ starts
  | jumpStart word outer =>
    by_cases semi : actual.kind = .semi
    · exact explains_of_step semi fun _ => ⟨_, rfl⟩
    · refine explains_of_noOperand (fun _ _ => trivial)
        (by rw [settle_jumpStart semi]; rfl) fun token starts => ?_
      rw [step?_congr (settle_jumpStart (separates_of_mem starts).1)]
      exact exists_step?_operand _ starts
  | funcStart outer =>
    by_cases opens : actual.kind = .lparen
    · exact explains_of_step opens fun _ => ⟨_, rfl⟩
    · refine explains_of_missing .ident trivial ?_ fun _ => ⟨_, rfl⟩
      simp only [settle, finishForm, finishExpr, finishStmt, openForm, opens, if_false]
      rfl
  | paramStart before func =>
    by_cases close : actual.kind = .rparen
    · exact explains_of_step close fun _ => ⟨_, rfl⟩
    · refine explains_of_missing .ident trivial ?_ fun _ => ⟨_, rfl⟩
      simp only [settle, finishForm, finishExpr, finishStmt, openForm, close, if_false]
      rfl
  | thenEnd condition body chain =>
    by_cases alternative : actual.kind = .kwElse
    · exact explains_of_step alternative fun _ => ⟨_, rfl⟩
    · have explains := (chain.explains (.only condition body) actual).of_settle
        (settle_thenEnd alternative) fun _ => settle_thenEnd
      exact explains.mono fun _ _ => trivial
  | elseStart condition body chain =>
    by_cases opens : actual.kind = .kwIf
    · exact explains_of_step opens fun _ => ⟨_, rfl⟩
    · refine explains_of_missing .lbrace trivial ?_ fun _ => ⟨_, rfl⟩
      simp only [settle, finishForm, finishExpr, finishStmt, openForm, opens, if_false]
      rfl

end OasisSyntax
