import OasisSyntax.Proofs.Parsing.Reach
import OasisSyntax.Proofs.Parsing.Settle

/-!
# Only kinds steer the parser

A function on texts is applied to all literals of a row of tokens.  The parser then goes
through the same states, with the function applied to the names and integers in their
trees; so whether and where a row of tokens is accepted depends on the kinds in it
alone.
-/

namespace OasisSyntax

/-! ## Trees -/

mutual

def Expr.rename (apply : String → String) : Expr → Expr
  | .ident name => .ident (apply name)
  | .int digits => .int (apply digits)
  | .unary op operand => .unary op (operand.rename apply)
  | .binary left op right => .binary (left.rename apply) op (right.rename apply)
  | .call callee args => .call (callee.rename apply) (Expr.renameAll apply args)
  | .compound form => .compound (form.rename apply)
  | .func params body => .func (params.map apply) (Stmt.renameAll apply body)
termination_by structural expr => expr

def Stmt.rename (apply : String → String) : Stmt → Stmt
  | .expr value => .expr (value.rename apply)
  | .binding name value => .binding (apply name) (value.rename apply)
  | .jump word none => .jump word none
  | .jump word (some value) => .jump word (some (value.rename apply))
  | .continueLoop => .continueLoop
  | .compound form => .compound (form.rename apply)
  | .funcDecl name params body =>
    .funcDecl (apply name) (params.map apply) (Stmt.renameAll apply body)
termination_by structural stmt => stmt

def Compound.rename (apply : String → String) : Compound → Compound
  | .block body => .block (Stmt.renameAll apply body)
  | .conditional branches => .conditional (branches.rename apply)
  | .loop condition body =>
    .loop (condition.rename apply) (Stmt.renameAll apply body)
termination_by structural form => form

def Conditional.rename (apply : String → String) : Conditional → Conditional
  | .only condition body =>
    .only (condition.rename apply) (Stmt.renameAll apply body)
  | .orElse condition body other =>
    .orElse (condition.rename apply) (Stmt.renameAll apply body)
      (Stmt.renameAll apply other)
  | .elseIf condition body next =>
    .elseIf (condition.rename apply) (Stmt.renameAll apply body) (next.rename apply)
termination_by structural branches => branches

def Expr.renameAll (apply : String → String) : List Expr → List Expr
  | [] => []
  | value :: rest => value.rename apply :: Expr.renameAll apply rest
termination_by structural args => args

def Stmt.renameAll (apply : String → String) : List Stmt → List Stmt
  | [] => []
  | stmt :: rest => stmt.rename apply :: Stmt.renameAll apply rest
termination_by structural body => body

end

variable (apply : String → String)

theorem Expr.renameAll_snoc (args : List Expr) (value : Expr) :
    renameAll apply (args ++ [value]) = renameAll apply args ++ [value.rename apply] := by
  induction args with
  | nil => rfl
  | cons first args ih => simp only [List.cons_append, renameAll, ih]

theorem Stmt.renameAll_snoc (body : List Stmt) (stmt : Stmt) :
    renameAll apply (body ++ [stmt]) = renameAll apply body ++ [stmt.rename apply] := by
  induction body with
  | nil => rfl
  | cons first body ih => simp only [List.cons_append, renameAll, ih]

mutual

theorem Expr.rename_id : ∀ expr : Expr, expr.rename id = expr
  | .ident _ | .int _ => rfl
  | .unary op operand => congrArg (Expr.unary op) operand.rename_id
  | .binary left op right => by
    simp only [Expr.rename, left.rename_id, right.rename_id]
  | .call callee args => by
    simp only [Expr.rename, callee.rename_id, Expr.renameAll_id]
  | .compound form => congrArg Expr.compound form.rename_id
  | .func params body => by
    simp only [Expr.rename, List.map_id, Stmt.renameAll_id]

theorem Stmt.rename_id : ∀ stmt : Stmt, stmt.rename id = stmt
  | .expr value => congrArg Stmt.expr value.rename_id
  | .binding name value => congrArg (Stmt.binding name) value.rename_id
  | .jump _ none | .continueLoop => rfl
  | .jump word (some value) => congrArg (Stmt.jump word ∘ some) value.rename_id
  | .compound form => congrArg Stmt.compound form.rename_id
  | .funcDecl name params body => by
    simp only [Stmt.rename, id, List.map_id, Stmt.renameAll_id]

theorem Compound.rename_id : ∀ form : Compound, form.rename id = form
  | .block body => congrArg Compound.block (Stmt.renameAll_id body)
  | .conditional branches => congrArg Compound.conditional branches.rename_id
  | .loop condition body => by
    simp only [Compound.rename, condition.rename_id, Stmt.renameAll_id]

theorem Conditional.rename_id : ∀ branches : Conditional, branches.rename id = branches
  | .only condition body => by
    simp only [Conditional.rename, condition.rename_id, Stmt.renameAll_id]
  | .orElse condition body other => by
    simp only [Conditional.rename, condition.rename_id, Stmt.renameAll_id]
  | .elseIf condition body next => by
    simp only [Conditional.rename, condition.rename_id, Stmt.renameAll_id,
      next.rename_id]

theorem Expr.renameAll_id : ∀ args : List Expr, Expr.renameAll id args = args
  | [] => rfl
  | value :: rest => by
    simp only [Expr.renameAll, value.rename_id, Expr.renameAll_id rest]

theorem Stmt.renameAll_id : ∀ body : List Stmt, Stmt.renameAll id body = body
  | [] => rfl
  | stmt :: rest => by
    simp only [Stmt.renameAll, stmt.rename_id, Stmt.renameAll_id rest]

end

/-! ## Contexts -/

mutual

def ExprContext.rename : {goal : Goal} → ExprContext goal → ExprContext goal
  | _, .whole => .whole
  | _, .unaryOperand op outer => .unaryOperand op outer.rename
  | _, .rightOperand left op outer =>
    .rightOperand (left.rename apply) op outer.rename
  | _, .group outer => .group outer.rename
  | _, .argument callee before outer =>
    .argument (callee.rename apply) (Expr.renameAll apply before) outer.rename
  | _, .ifCondition chain => .ifCondition chain.rename
  | _, .loopCondition place => .loopCondition place.rename
  | _, .boundValue name outer => .boundValue (apply name) outer.rename
  | _, .jumpValue word outer => .jumpValue word outer.rename
  | _, .statement outer => .statement outer.rename

def Place.rename : {goal : Goal} → Place goal → Place goal
  | _, .statement outer => .statement outer.rename
  | _, .operand outer => .operand outer.rename

def ChainContext.rename : {goal : Goal} → ChainContext goal → ChainContext goal
  | _, .first place => .first place.rename
  | _, .next condition body before =>
    .next (condition.rename apply) (Stmt.renameAll apply body) before.rename

def FuncContext.rename : {goal : Goal} → FuncContext goal → FuncContext goal
  | _, .declaration name outer => .declaration (apply name) outer.rename
  | _, .literal outer => .literal outer.rename

def SeqContext.rename : {goal : Goal} → SeqContext goal → SeqContext goal
  | _, .program done => .program (Stmt.renameAll apply done)
  | _, .block done owner => .block (Stmt.renameAll apply done) owner.rename

def BlockContext.rename : {goal : Goal} → BlockContext goal → BlockContext goal
  | _, .plain place => .plain place.rename
  | _, .thenBranch condition chain => .thenBranch (condition.rename apply) chain.rename
  | _, .elseBranch condition body chain =>
    .elseBranch (condition.rename apply) (Stmt.renameAll apply body) chain.rename
  | _, .loopBody condition place => .loopBody (condition.rename apply) place.rename
  | _, .funcBody params func => .funcBody (params.map apply) func.rename

end

variable {goal : Goal} {next : Kind}

def State.rename : State goal → State goal
  | .statement outer => .statement (outer.rename apply)
  | .operand outer => .operand (outer.rename apply)
  | .value expr outer => .value (expr.rename apply) (outer.rename apply)
  | .groupEnd inner outer => .groupEnd (inner.rename apply) (outer.rename apply)
  | .argumentStart callee before outer =>
    .argumentStart (callee.rename apply) (Expr.renameAll apply before)
      (outer.rename apply)
  | .argumentEnd callee args outer =>
    .argumentEnd (callee.rename apply) (Expr.renameAll apply args) (outer.rename apply)
  | .statementEnd stmt required outer =>
    .statementEnd (stmt.rename apply) required (outer.rename apply)
  | .boundName outer => .boundName (outer.rename apply)
  | .boundSign name outer => .boundSign (apply name) (outer.rename apply)
  | .jumpStart word outer => .jumpStart word (outer.rename apply)
  | .funcStart outer => .funcStart (outer.rename apply)
  | .paramsStart func => .paramsStart (func.rename apply)
  | .paramStart before func => .paramStart (before.map apply) (func.rename apply)
  | .paramEnd params func => .paramEnd (params.map apply) (func.rename apply)
  | .blockStart owner => .blockStart (owner.rename apply)
  | .thenEnd condition body chain =>
    .thenEnd (condition.rename apply) (Stmt.renameAll apply body) (chain.rename apply)
  | .elseStart condition body chain =>
    .elseStart (condition.rename apply) (Stmt.renameAll apply body) (chain.rename apply)

def Token.rename (token : Token) : Token := ⟨token.kind, apply token.literal⟩

/-! ## Finishing -/

theorem SeqContext.push_rename (outer : SeqContext goal) (stmt : Stmt) :
    (outer.rename apply).push (stmt.rename apply) = (outer.push stmt).rename apply := by
  cases outer <;> simp only [rename, push, Stmt.renameAll_snoc]

@[simp] theorem SeqContext.isBlock_rename (outer : SeqContext goal) :
    (outer.rename apply).isBlock = outer.isBlock := by
  cases outer <;> rfl

theorem Place.finish_rename (place : Place goal) (form : Compound) :
    (place.rename apply).finish (form.rename apply) =
      (place.finish form).rename apply := by
  cases place <;> rfl

theorem ChainContext.finish_rename (branches : Conditional) :
    ∀ {goal : Goal} (chain : ChainContext goal),
      (chain.rename apply).finish (branches.rename apply) =
        (chain.finish branches).rename apply
  | _, .first place => place.finish_rename apply (.conditional branches)
  | _, .next condition body before =>
    before.finish_rename (.elseIf condition body branches)

theorem FuncContext.finish_rename (func : FuncContext goal) (params : List String)
    (body : List Stmt) :
    (func.rename apply).finish (params.map apply) (Stmt.renameAll apply body) =
      (func.finish params body).rename apply := by
  cases func <;> rfl

theorem BlockContext.finish_rename (owner : BlockContext goal) (body : List Stmt) :
    (owner.rename apply).finish (Stmt.renameAll apply body) =
      (owner.finish body).rename apply := by
  cases owner with
  | plain place => exact place.finish_rename apply (.block body)
  | thenBranch condition chain => rfl
  | elseBranch condition first chain =>
    exact chain.finish_rename apply (.orElse condition first body)
  | loopBody condition place => exact place.finish_rename apply (.loop condition body)
  | funcBody params func => exact func.finish_rename apply params body

theorem ExprContext.finish_rename : ∀ {goal : Goal} (outer : ExprContext goal)
    (expr : Expr),
    (outer.rename apply).finish next (expr.rename apply) =
      (outer.finish next expr).rename apply
  | _, .unaryOperand op outer, expr => by
    by_cases stronger : (unaryOperand op outer).floor < next.precedence
    · rw [finish_of_lt stronger]
      exact finish_of_lt stronger
    · rw [finish_unaryOperand stronger]
      exact (finish_unaryOperand stronger).trans (finish_rename outer (.unary op expr))
  | _, .rightOperand left op outer, expr => by
    by_cases stronger : (rightOperand left op outer).floor < next.precedence
    · rw [finish_of_lt stronger]
      exact finish_of_lt stronger
    · rw [finish_rightOperand stronger]
      exact (finish_rightOperand stronger).trans
        (finish_rename outer (.binary left op expr))
  | _, .argument callee before outer, expr => by
    by_cases stronger : Precedence.none < next.precedence <;>
      simp only [rename, finish, Kind.goesOn_iff, floor, stronger, if_true, if_false,
        State.rename, Expr.renameAll_snoc]
  | _, .whole, _ | _, .group _, _ | _, .ifCondition _, _ | _, .loopCondition _, _
  | _, .boundValue .., _ | _, .jumpValue .., _ | _, .statement _, _ => by
    by_cases stronger : Precedence.none < next.precedence <;>
      simp only [rename, finish, Kind.goesOn_iff, floor, stronger, if_true, if_false] <;> rfl

namespace State

variable (state : State goal)

private theorem finishForm_rename :
    (state.rename apply).finishForm next = (state.finishForm next).rename apply := by
  cases state with
  | thenEnd condition body chain =>
    simp only [rename, finishForm]
    split
    · rfl
    · exact chain.finish_rename apply (.only condition body)
  | jumpStart word outer =>
    simp only [rename, finishForm]
    split <;> rfl
  | _ => rfl

private theorem finishExpr_rename :
    (state.rename apply).finishExpr next = (state.finishExpr next).rename apply := by
  cases state with
  | value expr outer => exact outer.finish_rename apply expr
  | _ => rfl

private theorem finishStmt_rename :
    (state.rename apply).finishStmt next = (state.finishStmt next).rename apply := by
  cases state with
  | statementEnd stmt required outer =>
    cases required with
    | true => rfl
    | false =>
      simp only [rename, finishStmt]
      split
      · rfl
      · exact congrArg statement (outer.push_rename apply stmt)
  | _ => rfl

private theorem isStatementKind_rename (outer : SeqContext goal) (kind : Kind) :
    isStatementKind (outer.rename apply) kind = isStatementKind outer kind := by
  cases kind <;> first | rfl | exact outer.isBlock_rename apply

private theorem openForm_rename :
    (state.rename apply).openForm next = (state.openForm next).rename apply := by
  cases state with
  | statement outer =>
    simp only [rename, openForm, isStatementKind_rename]
    split <;> rfl
  | argumentStart | funcStart | paramStart | elseStart =>
    simp only [rename, openForm]
    split <;> rfl
  | _ => rfl

theorem settle_rename :
    (state.rename apply).settle next = (state.settle next).rename apply := by
  simp only [settle, finishForm_rename, finishExpr_rename, finishStmt_rename,
    openForm_rename]

/-! ## Taking a token -/

theorem map_onKind (kind : Kind) (token : Token) (after : State goal) :
    (onKind kind token after).map (rename apply) =
      onKind kind token (after.rename apply) := by
  by_cases fits : token.kind = kind <;> simp [onKind, fits]

theorem shift?_rename (token : Token) :
    (state.rename apply).shift? (token.rename apply) =
      (state.shift? token).map (rename apply) := by
  obtain ⟨kind, literal⟩ := token
  cases state with
  | statement outer =>
    cases kind with
    | rbrace =>
      cases outer with
      | program done => rfl
      | block done owner => exact congrArg some (owner.finish_rename apply done)
    | _ => rfl
  | operand outer => cases kind <;> rfl
  | value expr outer =>
    by_cases call : kind = .lparen
    · subst call
      rfl
    · cases binary : kind.isBinary <;>
        simp [rename, shift?, shiftValue?, Token.rename, call, binary]
      rfl
  | argumentEnd | paramEnd =>
    by_cases comma : kind = .comma
    · subst comma
      rfl
    · simp only [rename, shift?, Token.rename, comma, if_false, map_onKind]
      rfl
  | statementEnd stmt required outer =>
    simp only [rename, shift?, map_onKind, outer.push_rename]
    rfl
  | paramStart before func =>
    simp only [rename, shift?, map_onKind, List.map_append]
    rfl
  | argumentStart | jumpStart => rfl
  | groupEnd | boundName | boundSign | funcStart | paramsStart | blockStart | thenEnd
  | elseStart =>
    simp only [rename, shift?, map_onKind]
    rfl

theorem step?_rename (token : Token) :
    (state.rename apply).step? (token.rename apply) =
      (state.step? token).map (rename apply) := by
  have settled : (state.rename apply).settle (token.rename apply).kind =
      (state.settle token.kind).rename apply := state.settle_rename apply
  simp only [step?, settled, shift?_rename]

theorem reach?_rename (next : Kind) (tokens : List Token) :
    (state.rename apply).reach? next (tokens.map (Token.rename apply)) =
      (state.reach? next tokens).map (rename apply) := by
  induction tokens generalizing state with
  | nil => exact congrArg some (state.settle_rename apply)
  | cons token rest ih =>
    simp only [List.map_cons, reach?, step?_rename]
    cases state.step? token with
    | none => rfl
    | some after => exact ih after

end State

/-! ## The verdict -/

def Goal.rename : (goal : Goal) → goal.Result → goal.Result
  | .program, stmts => Stmt.renameAll apply stmts
  | .expression, expr => expr.rename apply

theorem Goal.rename_id (goal : Goal) (result : goal.Result) :
    goal.rename id result = result := by
  cases goal with
  | program => exact Stmt.renameAll_id result
  | expression => exact Expr.rename_id result

def SyntaxError.rename : SyntaxError → SyntaxError
  | .noOperand actual => .noOperand (actual.rename apply)
  | .missing kind actual => .missing kind (actual.rename apply)
  | .internal cause => .internal cause

namespace State

variable (state : State goal)

theorem start_rename : (start goal).rename apply = start goal := by
  cases goal <;> rfl

theorem result?_rename :
    (state.rename apply).result? = state.result?.map (goal.rename apply) := by
  cases state with
  | statement outer => cases outer <;> rfl
  | value expr outer => cases outer <;> rfl
  | _ => rfl

theorem complaint_rename (actual : Token) :
    (state.rename apply).complaint (actual.rename apply) =
      (state.complaint actual).rename apply := by
  cases state <;> rfl

end State

end OasisSyntax
