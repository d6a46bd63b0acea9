import OasisSyntax.Proofs.Descent.Mirrors

/-!
# What comes next

In front of some kinds of tokens a state is no different from another one that comes
closer to its context: an expression goes into its context in front of every operator
that is not stronger, a chain of conditions ends in front of everything but an
alternative.  Other states wait for tokens of a single kind.
-/

namespace OasisSyntax

open Descent Outcome

variable {goal : Goal} {next : Kind} {tokens : List (Spanned Token)}

def ExprContext.receive (expr : Expr) : ExprContext goal → State goal
  | .whole => .value expr .whole
  | .unaryOperand op outer => .value (.unary op expr) outer
  | .rightOperand left op outer => .value (.binary left op expr) outer
  | .group outer => .groupEnd expr outer
  | .argument callee before outer => .argumentEnd callee (before ++ [expr]) outer
  | .ifCondition chain => .blockStart (.thenBranch expr chain)
  | .loopCondition place => .blockStart (.loopBody expr place)
  | .boundValue name outer => .statementEnd (.binding name expr) true outer
  | .jumpValue word outer => .statementEnd (.jump word (some expr)) true outer
  | .statement outer => .statementEnd (.expr expr) true outer

namespace State

theorem alike_receive {outer : ExprContext goal} (weaker : ¬ outer.floor < next.precedence)
    (expr : Expr) : Alike next (.value expr outer) (outer.receive expr) := by
  apply Alike.of_finish
  cases outer <;> simp only [ExprContext.receive, finishForm, finishExpr, ExprContext.finish,
    Kind.goesOn_iff, weaker, if_false]

theorem alike_thenEnd (noElse : next ≠ .kwElse) (condition : Expr) (body : List Stmt)
    (chain : ChainContext goal) :
    Alike next (.thenEnd condition body chain) (chain.finish (.only condition body)) := by
  apply Alike.of_finish
  rw [finishForm_chain, finishForm, if_neg noElse]

theorem alike_jumpStart (noSemi : next ≠ .semi) (word : Jump) (outer : SeqContext goal) :
    Alike next (.jumpStart word outer) (.operand (.jumpValue word outer)) := by
  apply Alike.of_finish
  rw [finishForm, if_neg noSemi]
  rfl

theorem alike_jumpStart_semi (word : Jump) (outer : SeqContext goal) :
    Alike .semi (.jumpStart word outer) (.statementEnd (.jump word none) true outer) :=
  .of_finish rfl

theorem alike_argumentStart (noEnd : next ≠ .rparen) (callee : Expr) (before : List Expr)
    (outer : ExprContext goal) :
    Alike next (.argumentStart callee before outer)
      (.operand (.argument callee before outer)) :=
  ⟨settle_argumentStart noEnd, rfl, rfl⟩

theorem alike_argumentStart_end (callee : Expr) (before : List Expr)
    (outer : ExprContext goal) :
    Alike .rparen (.argumentStart callee before outer) (.argumentEnd callee before outer) :=
  ⟨rfl, rfl, rfl⟩

theorem alike_paramStart_end (before : List String) (func : FuncContext goal) :
    Alike .rparen (.paramStart before func) (.paramEnd before func) :=
  ⟨rfl, rfl, rfl⟩

theorem alike_funcStart (outer : SeqContext goal) :
    Alike .lparen (.funcStart outer) (.paramsStart (.literal (.statement outer))) :=
  ⟨rfl, rfl, rfl⟩

theorem alike_elseStart (noIf : next ≠ .kwIf) (condition : Expr) (body : List Stmt)
    (chain : ChainContext goal) :
    Alike next (.elseStart condition body chain)
      (.blockStart (.elseBranch condition body chain)) := by
  refine ⟨?_, rfl, rfl⟩
  simp only [settle, finishForm, finishExpr, finishStmt, openForm, noIf, if_false]

/-! ### Single steps -/

theorem step?_statement {outer : SeqContext goal} {token : Token} {kind : Kind}
    (leads : token.kind = kind) (decided : isStatementKind outer kind) :
    (State.statement outer).step? token = shiftStatement? outer kind := by
  subst leads
  simp only [step?, settle, finishForm, finishExpr, finishStmt, openForm, decided, if_true,
    shift?]

private theorem step?_value {outer : ExprContext goal} {token : Token}
    (stronger : outer.floor < token.kind.precedence) (expr : Expr) :
    (State.value expr outer).step? token = shiftValue? expr outer token.kind := by
  simp only [step?, settle, finishForm, finishExpr, ExprContext.finish_of_lt stronger,
    finishStmt, openForm, shift?]

theorem take_value {outer : ExprContext goal} {token : Spanned Token}
    (stronger : outer.floor < token.node.kind.precedence) {expr : Expr}
    {after : State goal} (fits : shiftValue? expr outer token.node.kind = some after)
    (opened : List Nat) (rest : List (Spanned Token)) :
    Leads ⟨.value expr outer, opened⟩ (token :: rest) [] ⟨after, opened⟩ rest := by
  have kept : (State.value expr outer).finishForm token.node.kind =
      .value expr outer := rfl
  refine .take ((step?_value stronger expr).trans fits) ?_ ?_ opened rest
  · rw [ended?, kept, finishExpr, ExprContext.finish_of_lt stronger]
  · rw [beginsStmt, kept, finishExpr, ExprContext.finish_of_lt stronger]
    rfl

theorem take_operand {outer : ExprContext goal} {token : Spanned Token}
    {after : State goal} (fits : shiftOperand? outer token.node = some after)
    (opened : List Nat) (rest : List (Spanned Token)) :
    Leads ⟨.operand outer, opened⟩ (token :: rest) [] ⟨after, opened⟩ rest :=
  .take ((step?_operand outer token.node).trans fits) rfl rfl opened rest

/-! ### Tokens that have to come -/

theorem awaits_groupEnd (inner : Expr) (outer : ExprContext goal) :
    Awaits next (.groupEnd inner outer) .rparen fun _ => .value inner outer :=
  ⟨rfl, rfl, rfl, fun _ _ => rfl, rfl, fun _ => rfl⟩

theorem awaits_boundName (outer : SeqContext goal) :
    Awaits next (.boundName outer) .ident fun token => .boundSign token.literal outer :=
  ⟨rfl, rfl, rfl, fun _ _ => rfl, rfl, fun _ => rfl⟩

theorem awaits_boundSign (name : String) (outer : SeqContext goal) :
    Awaits next (.boundSign name outer) .assign fun _ =>
      .operand (.boundValue name outer) :=
  ⟨rfl, rfl, rfl, fun _ _ => rfl, rfl, fun _ => rfl⟩

theorem awaits_paramsStart (func : FuncContext goal) :
    Awaits next (.paramsStart func) .lparen fun _ => .paramStart [] func :=
  ⟨rfl, rfl, rfl, fun _ _ => rfl, rfl, fun _ => rfl⟩

theorem awaits_blockStart (owner : BlockContext goal) :
    Awaits next (.blockStart owner) .lbrace fun _ => .statement (.block [] owner) :=
  ⟨rfl, rfl, rfl, fun _ _ => rfl, rfl, fun _ => rfl⟩

theorem awaits_funcStart (noParams : next ≠ .lparen) (outer : SeqContext goal) :
    Awaits next (.funcStart outer) .ident fun token =>
      .paramsStart (.declaration token.literal outer) := by
  refine ⟨?_, rfl, rfl, fun _ _ => rfl, rfl, fun _ => rfl⟩
  simp only [settle, finishForm, finishExpr, finishStmt, openForm, noParams, if_false]

theorem awaits_paramStart (noEnd : next ≠ .rparen) (before : List String)
    (func : FuncContext goal) :
    Awaits next (.paramStart before func) .ident fun token =>
      .paramEnd (before ++ [token.literal]) func := by
  refine ⟨?_, rfl, rfl, fun _ _ => rfl, rfl, fun _ => rfl⟩
  simp only [settle, finishForm, finishExpr, finishStmt, openForm, noEnd, if_false]

theorem awaits_paramEnd (noComma : next ≠ .comma) (params : List String)
    (func : FuncContext goal) :
    Awaits next (.paramEnd params func) .rparen fun _ =>
      .blockStart (.funcBody params func) := by
  refine ⟨rfl, rfl, rfl, ?_, rfl, fun _ => rfl⟩
  rintro token rfl
  rw [shift?, if_neg noComma]

theorem awaits_argumentEnd (noComma : next ≠ .comma) (callee : Expr) (args : List Expr)
    (outer : ExprContext goal) :
    Awaits next (.argumentEnd callee args outer) .rparen fun _ =>
      .value (.call callee args) outer := by
  refine ⟨rfl, rfl, rfl, ?_, rfl, fun _ => rfl⟩
  rintro token rfl
  rw [shift?, if_neg noComma]

end State

namespace Point.Expects

variable {state after : State goal} {kind : Kind} {outer : SeqContext goal}

theorem of_step (leads : lead tokens = kind)
    (fits : ∀ token : Token, token.kind = kind → state.step? token = some after)
    (running : state.ended? kind = none) (inside : state.beginsStmt kind = false)
    (opened : List Nat) :
    Point.Expects ⟨state, opened⟩ tokens kind fun _ => ⟨after, opened⟩ where
  accepts := by
    rintro token rest rfl same
    exact .take (fits token.node same) (same ▸ running) (same ▸ inside) opened rest
  refuses := fun other => absurd leads other

theorem of_begin (leads : lead tokens = kind)
    (fits : ∀ token : Token, token.kind = kind →
      (State.statement outer).step? token = some after)
    (opens : kind ≠ .rbrace) (opened : List Nat) :
    Point.Expects ⟨.statement outer, opened⟩ tokens kind fun _ =>
      ⟨after, start tokens :: opened⟩ where
  accepts := by
    rintro token rest rfl first
    exact .begin_statement (fits token.node first) (first ▸ opens) opened rest
  refuses := fun other => absurd leads other

end Point.Expects

end OasisSyntax
