import OasisSyntax.Proofs.Parsing.Reach
import OasisSyntax.Proofs.Parsing.Settle

/-!
# Statements in front of a program

What has been read of a program is looked at by nobody until the program ends.  So
statements can be put in front of those that have been read, in any state: the same
tokens fit, the same errors arise, and a result has the statements in front.
-/

namespace OasisSyntax

variable (earlier : List Stmt)

mutual

def ExprContext.prepend : {goal : Goal} → ExprContext goal → ExprContext goal
  | _, .whole => .whole
  | _, .unaryOperand op outer => .unaryOperand op outer.prepend
  | _, .rightOperand left op outer => .rightOperand left op outer.prepend
  | _, .group outer => .group outer.prepend
  | _, .argument callee before outer => .argument callee before outer.prepend
  | _, .ifCondition chain => .ifCondition chain.prepend
  | _, .loopCondition place => .loopCondition place.prepend
  | _, .boundValue name outer => .boundValue name outer.prepend
  | _, .jumpValue word outer => .jumpValue word outer.prepend
  | _, .statement outer => .statement outer.prepend

def Place.prepend : {goal : Goal} → Place goal → Place goal
  | _, .statement outer => .statement outer.prepend
  | _, .operand outer => .operand outer.prepend

def ChainContext.prepend : {goal : Goal} → ChainContext goal → ChainContext goal
  | _, .first place => .first place.prepend
  | _, .next condition body before => .next condition body before.prepend

def FuncContext.prepend : {goal : Goal} → FuncContext goal → FuncContext goal
  | _, .declaration name outer => .declaration name outer.prepend
  | _, .literal outer => .literal outer.prepend

def SeqContext.prepend : {goal : Goal} → SeqContext goal → SeqContext goal
  | _, .program done => .program (earlier ++ done)
  | _, .block done owner => .block done owner.prepend

def BlockContext.prepend : {goal : Goal} → BlockContext goal → BlockContext goal
  | _, .plain place => .plain place.prepend
  | _, .thenBranch condition chain => .thenBranch condition chain.prepend
  | _, .elseBranch condition body chain => .elseBranch condition body chain.prepend
  | _, .loopBody condition place => .loopBody condition place.prepend
  | _, .funcBody params func => .funcBody params func.prepend

end

variable {goal : Goal} {next : Kind}

/-- Trees that are being read stay as they are, only the program around them grows. -/
def State.prepend : State goal → State goal
  | .statement outer => .statement (outer.prepend earlier)
  | .operand outer => .operand (outer.prepend earlier)
  | .value expr outer => .value expr (outer.prepend earlier)
  | .groupEnd inner outer => .groupEnd inner (outer.prepend earlier)
  | .argumentStart callee before outer =>
    .argumentStart callee before (outer.prepend earlier)
  | .argumentEnd callee args outer => .argumentEnd callee args (outer.prepend earlier)
  | .statementEnd stmt required outer =>
    .statementEnd stmt required (outer.prepend earlier)
  | .boundName outer => .boundName (outer.prepend earlier)
  | .boundSign name outer => .boundSign name (outer.prepend earlier)
  | .jumpStart word outer => .jumpStart word (outer.prepend earlier)
  | .funcStart outer => .funcStart (outer.prepend earlier)
  | .paramsStart func => .paramsStart (func.prepend earlier)
  | .paramStart before func => .paramStart before (func.prepend earlier)
  | .paramEnd params func => .paramEnd params (func.prepend earlier)
  | .blockStart owner => .blockStart (owner.prepend earlier)
  | .thenEnd condition body chain => .thenEnd condition body (chain.prepend earlier)
  | .elseStart condition body chain => .elseStart condition body (chain.prepend earlier)

/-! ## Finishing -/

@[simp] theorem SeqContext.push_prepend (outer : SeqContext goal) (stmt : Stmt) :
    (outer.prepend earlier).push stmt = (outer.push stmt).prepend earlier := by
  cases outer <;> simp [prepend, push]

@[simp] theorem SeqContext.isBlock_prepend (outer : SeqContext goal) :
    (outer.prepend earlier).isBlock = outer.isBlock := by
  cases outer <;> rfl

@[simp] theorem ExprContext.floor_prepend (outer : ExprContext goal) :
    (outer.prepend earlier).floor = outer.floor := by
  cases outer <;> rfl

@[simp] theorem Place.finish_prepend (place : Place goal) (form : Compound) :
    (place.prepend earlier).finish form = (place.finish form).prepend earlier := by
  cases place <;> rfl

@[simp] theorem ChainContext.finish_prepend (chain : ChainContext goal)
    (branches : Conditional) :
    (chain.prepend earlier).finish branches =
      (chain.finish branches).prepend earlier := by
  induction branches, chain using ChainContext.finish.induct with
  | case1 _ branches place => exact place.finish_prepend earlier (.conditional branches)
  | case2 _ branches condition body before ih => exact ih

@[simp] theorem FuncContext.finish_prepend (func : FuncContext goal)
    (params : List String) (body : List Stmt) :
    (func.prepend earlier).finish params body =
      (func.finish params body).prepend earlier := by
  cases func <;> rfl

@[simp] theorem BlockContext.finish_prepend (owner : BlockContext goal)
    (body : List Stmt) :
    (owner.prepend earlier).finish body = (owner.finish body).prepend earlier := by
  cases owner <;> simp [prepend, finish, State.prepend]

@[simp] theorem ExprContext.finish_prepend : ∀ {goal : Goal} (outer : ExprContext goal)
    (expr : Expr),
    (outer.prepend earlier).finish next expr = (outer.finish next expr).prepend earlier
  | _, .unaryOperand op outer, expr => by
    by_cases stronger : (unaryOperand op outer).floor < next.precedence
    · rw [finish_of_lt stronger]
      exact finish_of_lt stronger
    · rw [finish_unaryOperand stronger, ← finish_prepend outer]
      exact finish_unaryOperand stronger
  | _, .rightOperand left op outer, expr => by
    by_cases stronger : (rightOperand left op outer).floor < next.precedence
    · rw [finish_of_lt stronger]
      exact finish_of_lt stronger
    · rw [finish_rightOperand stronger, ← finish_prepend outer]
      exact finish_rightOperand stronger
  | _, .whole, _ | _, .group _, _ | _, .argument .., _ | _, .ifCondition _, _
  | _, .loopCondition _, _ | _, .boundValue .., _ | _, .jumpValue .., _
  | _, .statement _, _ => by
    by_cases stronger : Precedence.none < next.precedence <;>
      simp only [prepend, finish, Kind.goesOn_iff, floor, stronger, if_true, if_false,
        State.prepend, BlockContext.prepend]

namespace State

variable (state : State goal)

@[simp] theorem finishForm_prepend :
    (state.prepend earlier).finishForm next =
      (state.finishForm next).prepend earlier := by
  cases state with
  | thenEnd | jumpStart =>
    simp only [prepend, finishForm]
    split <;> simp [prepend, ExprContext.prepend]
  | _ => rfl

@[simp] theorem finishExpr_prepend :
    (state.prepend earlier).finishExpr next =
      (state.finishExpr next).prepend earlier := by
  cases state with
  | value expr outer => exact outer.finish_prepend earlier expr
  | _ => rfl

@[simp] theorem finishStmt_prepend :
    (state.prepend earlier).finishStmt next =
      (state.finishStmt next).prepend earlier := by
  cases state with
  | statementEnd stmt required outer =>
    cases required with
    | true => rfl
    | false =>
      simp only [prepend, finishStmt]
      split <;> simp
  | _ => rfl

private theorem isStatementKind_prepend (outer : SeqContext goal) (kind : Kind) :
    isStatementKind (outer.prepend earlier) kind = isStatementKind outer kind := by
  cases kind <;> simp [isStatementKind]

@[simp] theorem openForm_prepend :
    (state.prepend earlier).openForm next = (state.openForm next).prepend earlier := by
  cases state with
  | statement outer =>
    simp only [prepend, openForm, isStatementKind_prepend]
    split <;> rfl
  | argumentStart | funcStart | paramStart | elseStart =>
    simp only [prepend, openForm]
    split <;> rfl
  | _ => rfl

@[simp] theorem settle_prepend :
    (state.prepend earlier).settle next = (state.settle next).prepend earlier := by
  simp [settle]

/-! ## Taking a token -/

@[simp] theorem map_onKind_prepend (kind : Kind) (token : Token) (after : State goal) :
    (onKind kind token after).map (prepend earlier) =
      onKind kind token (after.prepend earlier) := by
  by_cases fits : token.kind = kind <;> simp [onKind, fits]

theorem shift?_prepend (token : Token) :
    (state.prepend earlier).shift? token =
      (state.shift? token).map (prepend earlier) := by
  obtain ⟨kind, literal⟩ := token
  cases state with
  | statement outer =>
    cases kind with
    | rbrace =>
      cases outer with
      | program done => rfl
      | block done owner => exact congrArg some (owner.finish_prepend earlier done)
    | _ => rfl
  | operand outer => cases kind <;> rfl
  | value expr outer =>
    simp only [prepend, shift?, shiftValue?]
    split
    · rfl
    · split <;> rfl
  | argumentEnd | paramEnd =>
    simp only [prepend, shift?]
    split
    · rfl
    · simp [prepend, BlockContext.prepend]
  | argumentStart | jumpStart => rfl
  | _ =>
    simp [prepend, shift?, ExprContext.prepend, SeqContext.prepend, FuncContext.prepend,
      ChainContext.prepend]

theorem step?_prepend (token : Token) :
    (state.prepend earlier).step? token =
      (state.step? token).map (prepend earlier) := by
  simp only [step?, settle_prepend, shift?_prepend]

theorem reach?_prepend (tokens : List Token) :
    (state.prepend earlier).reach? next tokens =
      (state.reach? next tokens).map (prepend earlier) := by
  induction tokens generalizing state with
  | nil => simp [reach?]
  | cons token rest ih =>
    simp only [reach?, step?_prepend]
    cases state.step? token with
    | none => rfl
    | some after => exact ih after

theorem complaint_prepend (actual : Token) :
    (state.prepend earlier).complaint actual = state.complaint actual := by
  cases state <;> rfl

theorem result?_prepend (state : State .program) :
    (state.prepend earlier).result? = state.result?.map (earlier ++ ·) := by
  cases state with
  | statement outer => cases outer <;> rfl
  | value expr outer => cases outer <;> rfl
  | _ => rfl

end State

end OasisSyntax
