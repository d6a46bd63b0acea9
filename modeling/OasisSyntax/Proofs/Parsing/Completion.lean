import OasisSyntax.Proofs.Parsing.Reach
import OasisSyntax.Proofs.Parsing.Settle

/-!
# Every state can be completed

From every state of the parser some row of tokens leads to a result.  The row closes
what is open, from the inside to the outside, with an empty block where one has still to
come.  It begins with a kind that no expression and no chain of conditions goes on with,
so that what has been read so far is finished in front of it.
-/

namespace OasisSyntax

namespace Kind

def closesExpr (kind : Kind) : Bool := kind.isWeak && kind ≠ kwElse

def closesSeq (kind : Kind) : Bool := kind = rbrace || kind = eof

private theorem closesExpr_of_closesSeq {kind : Kind} (closes : kind.closesSeq) :
    kind.closesExpr := by
  revert closes
  cases kind <;> decide

theorem not_lt_of_closesExpr {kind : Kind} (closes : kind.closesExpr)
    (floor : Precedence) : ¬ floor < kind.precedence := by
  simp only [closesExpr, isWeak, Bool.and_eq_true, decide_eq_true_eq] at closes
  rw [closes.1]
  exact Precedence.none_le floor

theorem ne_kwElse_of_closesExpr {kind : Kind} (closes : kind.closesExpr) :
    kind ≠ .kwElse := by
  rintro rfl
  contradiction

private theorem ne_semi_of_closesSeq {kind : Kind} (closes : kind.closesSeq) :
    kind ≠ .semi := by
  rintro rfl
  contradiction

end Kind

namespace State

variable {goal : Goal} {state other : State goal} {starts starts' : Kind → Bool}

/-- Some tokens, of which the first one starts in this way, lead to a result. -/
def Completes (starts : Kind → Bool) (state : State goal) : Prop :=
  ∃ tokens settled, starts (leadKind .eof tokens) ∧
    state.reach? .eof tokens = some settled ∧ settled.result?.isSome

theorem Completes.mono (completes : state.Completes starts)
    (weaker : ∀ kind, starts kind → starts' kind) : state.Completes starts' := by
  obtain ⟨tokens, settled, fits, reached, result⟩ := completes
  exact ⟨tokens, settled, weaker _ fits, reached, result⟩

theorem Completes.of_step {token : Token} (fits : state.step? token = some other)
    (completes : other.Completes starts) (first : starts' token.kind) :
    state.Completes starts' := by
  obtain ⟨tokens, settled, -, reached, result⟩ := completes
  exact ⟨token :: tokens, settled, first, (reach?_cons fits).trans reached, result⟩

theorem Completes.of_settle (completes : other.Completes starts)
    (same : ∀ next, starts next → state.settle next = other.settle next) :
    state.Completes starts := by
  obtain ⟨tokens, settled, fits, reached, result⟩ := completes
  exact ⟨tokens, settled, fits, (reach?_congr (same _ fits)).trans reached, result⟩

theorem Completes.thenEnd {condition : Expr} {body : List Stmt}
    {chain : ChainContext goal}
    (completes : (chain.finish (.only condition body)).Completes Kind.closesExpr) :
    (State.thenEnd condition body chain).Completes Kind.closesExpr :=
  completes.of_settle fun _ closes =>
    settle_thenEnd (Kind.ne_kwElse_of_closesExpr closes)

theorem Completes.statementEnd {stmt : Stmt} {outer : SeqContext goal}
    (completes : (State.statement (outer.push stmt)).Completes Kind.closesSeq) :
    (State.statementEnd stmt false outer).Completes Kind.closesExpr := by
  have ended : (State.statementEnd stmt false outer).Completes Kind.closesSeq :=
    completes.of_settle fun _ closes =>
      settle_statementEnd (Kind.ne_semi_of_closesSeq closes)
  exact ended.mono fun _ => Kind.closesExpr_of_closesSeq

theorem Completes.emptyBlock (owner : BlockContext goal)
    (completes : (owner.finish []).Completes Kind.closesExpr) :
    (State.statement (.block [] owner)).Completes Kind.closesSeq := by
  have fits : (State.statement (.block [] owner)).step? (.ofKind .rbrace) =
      some (owner.finish []) := rfl
  exact completes.of_step fits rfl

end State

open State

/-! ## Contexts -/

mutual

theorem ExprContext.completes : ∀ {goal : Goal} (outer : ExprContext goal) (expr : Expr),
    (State.value expr outer).Completes Kind.closesExpr
  | _, .whole, expr => ⟨[], .value expr .whole, rfl, rfl, rfl⟩
  | _, .unaryOperand op outer, expr => by
    refine (outer.completes (.unary op expr)).of_settle fun next closes => ?_
    exact settle_value_congr
      (ExprContext.finish_unaryOperand (Kind.not_lt_of_closesExpr closes _))
  | _, .rightOperand left op outer, expr => by
    refine (outer.completes (.binary left op expr)).of_settle fun next closes => ?_
    exact settle_value_congr
      (ExprContext.finish_rightOperand (Kind.not_lt_of_closesExpr closes _))
  | _, .group outer, expr => by
    have fits : (State.value expr (.group outer)).step? (.ofKind .rparen) =
        some (.value expr outer) := rfl
    exact (outer.completes expr).of_step fits rfl
  | _, .argument callee before outer, expr => by
    have fits : (State.value expr (.argument callee before outer)).step?
        (.ofKind .rparen) = some (.value (.call callee (before ++ [expr])) outer) := rfl
    exact (outer.completes (.call callee (before ++ [expr]))).of_step fits rfl
  | _, .ifCondition chain, expr => by
    have fits : (State.value expr (.ifCondition chain)).step? (.ofKind .lbrace) =
        some (.statement (.block [] (.thenBranch expr chain))) := rfl
    have block := Completes.emptyBlock (.thenBranch expr chain)
      (chain.completes (.only expr [])).thenEnd
    exact block.of_step fits rfl
  | _, .loopCondition place, expr => by
    have fits : (State.value expr (.loopCondition place)).step? (.ofKind .lbrace) =
        some (.statement (.block [] (.loopBody expr place))) := rfl
    have block := Completes.emptyBlock (.loopBody expr place)
      (place.completes (.loop expr []))
    exact block.of_step fits rfl
  | _, .boundValue name outer, expr => by
    have fits : (State.value expr (.boundValue name outer)).step? (.ofKind .semi) =
        some (.statement (outer.push (.binding name expr))) := rfl
    exact (outer.completes (.binding name expr)).of_step fits rfl
  | _, .jumpValue word outer, expr => by
    have fits : (State.value expr (.jumpValue word outer)).step? (.ofKind .semi) =
        some (.statement (outer.push (.jump word (some expr)))) := rfl
    exact (outer.completes (.jump word (some expr))).of_step fits rfl
  | _, .statement outer, expr => by
    have fits : (State.value expr (.statement outer)).step? (.ofKind .semi) =
        some (.statement (outer.push (.expr expr))) := rfl
    exact (outer.completes (.expr expr)).of_step fits rfl

theorem Place.completes : ∀ {goal : Goal} (place : Place goal) (form : Compound),
    (place.finish form).Completes Kind.closesExpr
  | _, .statement outer, form => (outer.completes (.compound form)).statementEnd
  | _, .operand outer, form => outer.completes (.compound form)

theorem ChainContext.completes : ∀ {goal : Goal} (chain : ChainContext goal)
    (branches : Conditional), (chain.finish branches).Completes Kind.closesExpr
  | _, .first place, branches => place.completes (.conditional branches)
  | _, .next condition body before, branches =>
    before.completes (.elseIf condition body branches)

theorem FuncContext.completes : ∀ {goal : Goal} (func : FuncContext goal)
    (params : List String) (body : List Stmt),
    (func.finish params body).Completes Kind.closesExpr
  | _, .declaration name outer, params, body =>
    (outer.completes (.funcDecl name params body)).statementEnd
  | _, .literal outer, params, body => outer.completes (.func params body)

theorem SeqContext.completes : ∀ {goal : Goal} (outer : SeqContext goal) (stmt : Stmt),
    (State.statement (outer.push stmt)).Completes Kind.closesSeq
  | _, .program done, stmt =>
    ⟨[], .statement (.program (done ++ [stmt])), rfl, rfl, rfl⟩
  | _, .block done owner, stmt => by
    have fits : (State.statement ((SeqContext.block done owner).push stmt)).step?
        (.ofKind .rbrace) = some (owner.finish (done ++ [stmt])) := rfl
    exact (owner.completes (done ++ [stmt])).of_step fits rfl

theorem BlockContext.completes : ∀ {goal : Goal} (owner : BlockContext goal)
    (body : List Stmt), (owner.finish body).Completes Kind.closesExpr
  | _, .plain place, body => place.completes (.block body)
  | _, .thenBranch condition chain, body =>
    (chain.completes (.only condition body)).thenEnd
  | _, .elseBranch condition first chain, body =>
    chain.completes (.orElse condition first body)
  | _, .loopBody condition place, body => place.completes (.loop condition body)
  | _, .funcBody params func, body => func.completes params body

end

/-! ## States -/

namespace State

variable {goal : Goal}

def always : Kind → Bool := fun _ => true

theorem completes_statement (outer : SeqContext goal) :
    (State.statement outer).Completes always := by
  cases outer with
  | program done => exact ⟨[], .statement (.program done), rfl, rfl, rfl⟩
  | block done owner =>
    have fits : (State.statement (.block done owner)).step? (.ofKind .rbrace) =
        some (owner.finish done) := rfl
    exact (owner.completes done).of_step fits rfl

theorem completes_operand (outer : ExprContext goal) :
    (State.operand outer).Completes always := by
  have fits : (State.operand outer).step? ⟨.ident, "x"⟩ =
      some (.value (.ident "x") outer) := rfl
  exact (outer.completes (.ident "x")).of_step fits rfl

theorem completes_blockStart (owner : BlockContext goal) :
    (State.blockStart owner).Completes always := by
  have fits : (State.blockStart owner).step? (.ofKind .lbrace) =
      some (.statement (.block [] owner)) := rfl
  exact (completes_statement _).of_step fits rfl

theorem completes_paramsStart (func : FuncContext goal) :
    (State.paramsStart func).Completes always := by
  have opens : (State.paramsStart func).step? (.ofKind .lparen) =
      some (.paramStart [] func) := rfl
  have closes : (State.paramStart [] func).step? (.ofKind .rparen) =
      some (.blockStart (.funcBody [] func)) := rfl
  have closed : (State.paramStart [] func).Completes always :=
    (completes_blockStart _).of_step closes rfl
  exact closed.of_step opens rfl

theorem completes_boundSign (name : String) (outer : SeqContext goal) :
    (State.boundSign name outer).Completes always := by
  have fits : (State.boundSign name outer).step? (.ofKind .assign) =
      some (.operand (.boundValue name outer)) := rfl
  exact (completes_operand _).of_step fits rfl

/-- Whatever has been read can be gone on with up to a result. -/
theorem completes (state : State goal) : state.Completes always := by
  cases state with
  | statement outer => exact completes_statement outer
  | operand outer => exact completes_operand outer
  | value expr outer => exact (outer.completes expr).mono fun _ _ => rfl
  | groupEnd inner outer =>
    have fits : (State.groupEnd inner outer).step? (.ofKind .rparen) =
        some (.value inner outer) := rfl
    exact (outer.completes inner).of_step fits rfl
  | argumentStart callee args outer =>
    have fits : (State.argumentStart callee args outer).step? (.ofKind .rparen) =
        some (.value (.call callee args) outer) := rfl
    exact (outer.completes (.call callee args)).of_step fits rfl
  | argumentEnd callee args outer =>
    have fits : (State.argumentEnd callee args outer).step? (.ofKind .rparen) =
        some (.value (.call callee args) outer) := rfl
    exact (outer.completes (.call callee args)).of_step fits rfl
  | statementEnd stmt required outer =>
    have fits : (State.statementEnd stmt required outer).step? (.ofKind .semi) =
        some (.statement (outer.push stmt)) := by
      cases required <;> rfl
    exact (outer.completes stmt).of_step fits rfl
  | boundName outer =>
    have fits : (State.boundName outer).step? ⟨.ident, "x"⟩ =
        some (.boundSign "x" outer) := rfl
    exact (completes_boundSign "x" outer).of_step fits rfl
  | boundSign name outer => exact completes_boundSign name outer
  | jumpStart word outer =>
    have fits : (State.jumpStart word outer).step? (.ofKind .semi) =
        some (.statement (outer.push (.jump word none))) := rfl
    exact (outer.completes (.jump word none)).of_step fits rfl
  | funcStart outer =>
    have fits : (State.funcStart outer).step? ⟨.ident, "x"⟩ =
        some (.paramsStart (.declaration "x" outer)) := rfl
    exact (completes_paramsStart _).of_step fits rfl
  | paramsStart func => exact completes_paramsStart func
  | paramStart params func =>
    have fits : (State.paramStart params func).step? (.ofKind .rparen) =
        some (.blockStart (.funcBody params func)) := rfl
    exact (completes_blockStart _).of_step fits rfl
  | paramEnd params func =>
    have fits : (State.paramEnd params func).step? (.ofKind .rparen) =
        some (.blockStart (.funcBody params func)) := rfl
    exact (completes_blockStart _).of_step fits rfl
  | blockStart owner => exact completes_blockStart owner
  | thenEnd condition body chain =>
    exact (chain.completes (.only condition body)).thenEnd.mono fun _ _ => rfl
  | elseStart condition body chain =>
    have fits : (State.elseStart condition body chain).step? (.ofKind .lbrace) =
        some (.statement (.block [] (.elseBranch condition body chain))) := rfl
    exact (completes_statement _).of_step fits rfl

end State

end OasisSyntax
