import OasisSyntax.Proofs.Grammar.Lead
import OasisSyntax.Proofs.Parsing.Reach
import OasisSyntax.Proofs.Parsing.Settle

/-!
# Canonical trees are read back

Started in front of the yield of a canonical tree, the parser gets to where it would be
with the syntax tree of it already read.  The induction runs over the concrete tree,
for any context around it and any tokens behind it; what stands behind must not be a
token that the tree would go on with.
-/

namespace OasisSyntax

variable {goal : Goal} {next : Kind}

namespace SeqContext

def pushAll (outer : SeqContext goal) (stmts : List Stmt) : SeqContext goal :=
  stmts.foldl (fun outer stmt => outer.push stmt) outer

private theorem pushAll_block (done stmts : List Stmt) (owner : BlockContext goal) :
    (block done owner).pushAll stmts = block (done ++ stmts) owner := by
  induction stmts generalizing done with
  | nil => simp [pushAll]
  | cons stmt rest ih =>
    change (block (done ++ [stmt]) owner).pushAll rest = _
    rw [ih]
    simp

theorem pushAll_program (done stmts : List Stmt) :
    (program done).pushAll stmts = program (done ++ stmts) := by
  induction stmts generalizing done with
  | nil => simp [pushAll]
  | cons stmt rest ih =>
    change (program (done ++ [stmt])).pushAll rest = _
    rw [ih]
    simp

end SeqContext

def Place.entry : Place goal → State goal
  | .statement outer => .statement outer
  | .operand outer => .operand outer

namespace State

theorem step?_entry (place : Place goal) {kind : Kind} (opens : kind.opensCompound)
    (literal : String) :
    place.entry.step? ⟨kind, literal⟩ = openCompound? place kind := by
  cases place <;> cases kind <;> first | rfl | cases opens

private theorem step?_unary (outer : ExprContext goal) {op : Kind} (unary : op.isUnary) :
    (State.operand outer).step? (.ofKind op) =
      some (.operand (.unaryOperand op outer)) := by
  cases op <;> first | rfl | cases unary

private theorem step?_binary {expr : Expr} {outer : ExprContext goal} {op : Kind}
    (binary : op.isBinary) (stronger : outer.floor < op.precedence) :
    (State.value expr outer).step? (.ofKind op) =
      some (.operand (.rightOperand expr op outer)) := by
  have noCall : op ≠ .lparen := by
    rintro rfl
    cases binary
  simp only [step?, settle, finishForm, finishExpr, Token.kind_ofKind,
    ExprContext.finish_of_lt stronger, finishStmt, openForm, shift?, shiftValue?,
    noCall, if_false, binary, if_true]

private theorem step?_call {expr : Expr} {outer : ExprContext goal}
    (weaker : outer.floor < .call) :
    (State.value expr outer).step? (.ofKind .lparen) =
      some (.argumentStart expr [] outer) := by
  have stronger : outer.floor < Kind.lparen.precedence := weaker
  simp only [step?, settle, finishForm, finishExpr, Token.kind_ofKind,
    ExprContext.finish_of_lt stronger, finishStmt, openForm, shift?, shiftValue?,
    if_true]

private theorem reach?_moreNames (trailing : Bool) (before names : List String)
    (func : FuncContext goal) (rest : List Token) :
    (State.paramEnd before func).reach? next
        (Concrete.moreNamesYield trailing names ++ .ofKind .rparen :: rest) =
      (State.blockStart (.funcBody (before ++ names) func)).reach? next rest := by
  induction names generalizing before with
  | nil =>
    rw [List.append_nil]
    cases trailing <;> rfl
  | cons name names ih =>
    have later := ih (before ++ [name])
    rw [List.append_assoc] at later
    exact later

theorem reach?_params (trailing : Bool) (params : List String)
    (func : FuncContext goal) (rest : List Token) :
    (State.paramsStart func).reach? next
        (Concrete.parenthesised (Concrete.namesYield trailing params) ++ rest) =
      (State.blockStart (.funcBody params func)).reach? next rest := by
  simp only [Concrete.parenthesised, List.append_assoc, List.cons_append,
    List.nil_append]
  cases params with
  | nil => rfl
  | cons name names => exact reach?_moreNames trailing [name] names func rest

private theorem isStatementKind_of_mem {outer : SeqContext goal} {kind : Kind}
    (starts : kind ∈ Kind.operandStarts) (plain : ¬ kind.opensCompound)
    (noFunc : kind ≠ .kwFunc) : isStatementKind outer kind = false := by
  simp only [Kind.operandStarts, List.mem_cons, List.not_mem_nil, or_false] at starts
  rcases starts with rfl | rfl | rfl | rfl | rfl | rfl | rfl | rfl | rfl | rfl <;>
    first | rfl | contradiction

/-- No statement begins with what may stand behind the one before it. -/
def Separates (kind : Kind) : Prop := kind ≠ .semi ∧ kind ≠ .kwElse

theorem reach?_optional_semi (stmt : Stmt) (terminated : Bool) (outer : SeqContext goal)
    {rest : List Token} (noSemi : leadKind next rest ≠ .semi) :
    (State.statementEnd stmt false outer).reach? next
        (Concrete.optionalToken .semi terminated ++ rest) =
      (State.statement (outer.push stmt)).reach? next rest := by
  cases terminated with
  | false => exact reach?_congr (settle_statementEnd noSemi)
  | true => rfl

end State

open State

namespace Concrete

theorem leadKind_expr (expr : Expr) (rest : List Token) :
    leadKind next (expr.yield ++ rest) = expr.lead := by
  obtain ⟨literal, tail, same⟩ := expr.yield_eq
  rw [same]
  rfl

private theorem leadKind_stmt (stmt : Stmt) (rest : List Token) :
    leadKind next (stmt.yield ++ rest) = stmt.lead := by
  obtain ⟨literal, tail, same⟩ := stmt.yield_eq
  rw [same]
  rfl

private theorem separates_allYield {body : List Stmt} (canonical : Stmt.AllCanonical body)
    {rest : List Token} (follows : Separates (leadKind next rest)) :
    Separates (leadKind next (Stmt.allYield body ++ rest)) := by
  cases body with
  | nil => exact follows
  | cons stmt body =>
    rw [Stmt.allYield, List.append_assoc, leadKind_stmt]
    exact Stmt.lead_ne canonical.1

private theorem reach?_statement_expr {expr : Expr} (canonical : expr.Canonical)
    (plain : ¬ expr.startsCompound) (outer : SeqContext goal) (rest : List Token) :
    (State.statement outer).reach? next (expr.yield ++ rest) =
      (State.operand (.statement outer)).reach? next (expr.yield ++ rest) := by
  by_cases func : expr.lead = .kwFunc
  · obtain ⟨tail, same⟩ := expr.yield_of_func canonical func
    rw [same]
    rfl
  · apply reach?_congr
    apply settle_statement
    rw [leadKind_expr]
    rw [expr.startsCompound_eq canonical] at plain
    exact isStatementKind_of_mem (expr.lead_mem canonical) plain func

theorem endsBefore_moreArgs (value : Expr) (args : List Expr) {trailing : Bool}
    {rest : List Token} :
    value.EndsBefore (leadKind next
      (Expr.moreArgsYield trailing args ++ ([.ofKind .rparen] ++ rest))) := by
  cases args with
  | nil =>
    cases trailing with
    | false =>
      change value.EndsBefore .rparen
      exact value.endsBefore_of_weak rfl (by decide)
    | true =>
      change value.EndsBefore .comma
      exact value.endsBefore_of_weak rfl (by decide)
  | cons following args =>
    change value.EndsBefore .comma
    exact value.endsBefore_of_weak rfl (by decide)

theorem reach?_argumentStart {value : Expr} (canonical : value.Canonical)
    {callee : OasisSyntax.Expr} {before : List OasisSyntax.Expr}
    {outer : ExprContext goal} {rest : List Token} :
    (State.argumentStart callee before outer).reach? next (value.yield ++ rest) =
      (State.operand (.argument callee before outer)).reach? next
        (value.yield ++ rest) := by
  apply reach?_congr
  apply settle_argumentStart
  rw [leadKind_expr]
  intro same
  have starts := value.lead_mem canonical
  rw [same] at starts
  revert starts
  decide

theorem reach?_block {state : State goal} (owner : BlockContext goal) {body : List Stmt}
    (opens : state.step? (.ofKind .lbrace) = some (.statement (.block [] owner)))
    (reachAll : ∀ (outer : SeqContext goal) (rest : List Token),
      Separates (leadKind next rest) →
        (State.statement outer).reach? next (Stmt.allYield body ++ rest) =
          (State.statement (outer.pushAll (Stmt.eraseAll body))).reach? next rest)
    (rest : List Token) :
    state.reach? next (braced (Stmt.allYield body) ++ rest) =
      (owner.finish (Stmt.eraseAll body)).reach? next rest := by
  have close : Separates (leadKind next (.ofKind .rbrace :: rest)) := ⟨nofun, nofun⟩
  rw [braced, List.append_assoc, List.cons_append, reach?_cons opens]
  calc (State.statement (.block [] owner)).reach? next
        (Stmt.allYield body ++ .ofKind .rbrace :: rest)
    _ = (State.statement ((SeqContext.block [] owner).pushAll
          (Stmt.eraseAll body))).reach? next (.ofKind .rbrace :: rest) :=
      reachAll _ _ close
    _ = (owner.finish (Stmt.eraseAll body)).reach? next rest := by
      rw [SeqContext.pushAll_block]
      rfl

theorem reach?_guarded {state : State goal} {condition : Expr} {body : List Stmt}
    {chain : ChainContext goal}
    (opens : state.step? (.ofKind .kwIf) = some (.operand (.ifCondition chain)))
    (reach : ∀ rest : List Token, condition.EndsBefore (leadKind next rest) →
      (State.operand (.ifCondition chain)).reach? next (condition.yield ++ rest) =
        (State.value condition.erase (.ifCondition chain)).reach? next rest)
    (reachAll : ∀ (outer : SeqContext goal) (rest : List Token),
      Separates (leadKind next rest) →
        (State.statement outer).reach? next (Stmt.allYield body ++ rest) =
          (State.statement (outer.pushAll (Stmt.eraseAll body))).reach? next rest)
    (rest : List Token) :
    state.reach? next
        (.ofKind .kwIf :: (condition.yield ++ (braced (Stmt.allYield body) ++ rest))) =
      (State.thenEnd condition.erase (Stmt.eraseAll body) chain).reach? next rest := by
  have ends : condition.EndsBefore .lbrace :=
    condition.endsBefore_of_weak rfl (by decide)
  rw [reach?_cons opens]
  exact (reach (braced (Stmt.allYield body) ++ rest) ends).trans
    (reach?_block (.thenBranch condition.erase chain) rfl reachAll rest)

mutual

-- The induction is on the trees, with what is still open around them and the tokens
-- behind them left free: a part of a tree is read with the rest of the tree behind it.
theorem Expr.reach (expr : Expr) (canonical : expr.Canonical)
    (outer : ExprContext goal) (stronger : outer.floor < expr.level)
    (rest : List Token) (ends : expr.EndsBefore (leadKind next rest)) :
    (State.operand outer).reach? next (expr.yield ++ rest) =
      (State.value expr.erase outer).reach? next rest := by
  cases expr with
  | ident name => rfl
  | int digits => rfl
  | unary op operand =>
    obtain ⟨unary, noBinary, canonical⟩ := canonical
    calc (State.operand outer).reach? next (.ofKind op :: (operand.yield ++ rest))
      _ = (State.operand (.unaryOperand op outer)).reach? next (operand.yield ++ rest) :=
        reach?_cons (step?_unary outer unary)
      _ = (State.value operand.erase (.unaryOperand op outer)).reach? next rest :=
        operand.reach canonical (.unaryOperand op outer) (unary_lt_level noBinary) rest
          ends.2
      _ = (State.value (.unary op operand.erase) outer).reach? next rest :=
        reach?_congr (settle_value_congr (ExprContext.finish_unaryOperand ends.1))
  | binary left op right =>
    obtain ⟨binary, fitsLeft, fitsRight, canonical, canonical'⟩ := canonical
    have endsLeft := left.endsBefore_of_strong binary canonical fitsLeft
    rw [Expr.yield, List.append_assoc, List.cons_append]
    calc (State.operand outer).reach? next
          (left.yield ++ .ofKind op :: (right.yield ++ rest))
      _ = (State.value left.erase outer).reach? next
          (.ofKind op :: (right.yield ++ rest)) :=
        left.reach canonical outer (level_of_fitsLeftOf binary stronger fitsLeft)
          (.ofKind op :: (right.yield ++ rest)) endsLeft
      _ = (State.operand (.rightOperand left.erase op outer)).reach? next
          (right.yield ++ rest) :=
        reach?_cons (step?_binary binary stronger)
      _ = (State.value right.erase (.rightOperand left.erase op outer)).reach? next rest :=
        right.reach canonical' (.rightOperand left.erase op outer)
          (level_of_fitsRightOf binary canonical' fitsRight) rest ends.2
      _ = (State.value (.binary left.erase op right.erase) outer).reach? next rest :=
        reach?_congr (settle_value_congr (ExprContext.finish_rightOperand ends.1))
  | group inner =>
    have closes : inner.EndsBefore .rparen := inner.endsBefore_of_weak rfl (by decide)
    rw [Expr.yield, parenthesised, List.append_assoc, List.cons_append]
    exact inner.reach canonical (.group outer) (none_lt_level canonical)
      (.ofKind .rparen :: rest) closes
  | call callee args trailing =>
    obtain ⟨primary, -, canonical, canonicals⟩ := canonical
    have level : callee.level = .call := by
      cases callee <;> first | rfl | exact absurd rfl primary
    have ends : callee.EndsBefore .lparen :=
      Expr.endsBefore_of_not_isOperation (by decide) primary
    rw [Expr.yield, parenthesised, List.append_assoc, List.append_assoc,
      List.cons_append]
    calc (State.operand outer).reach? next (callee.yield ++ .ofKind .lparen ::
          (Expr.argsYield trailing args ++ ([.ofKind .rparen] ++ rest)))
      _ = (State.value callee.erase outer).reach? next (.ofKind .lparen ::
          (Expr.argsYield trailing args ++ ([.ofKind .rparen] ++ rest))) :=
        callee.reach canonical outer (level ▸ stronger) (.ofKind .lparen :: _) ends
      _ = (State.argumentStart callee.erase [] outer).reach? next
          (Expr.argsYield trailing args ++ ([.ofKind .rparen] ++ rest)) :=
        reach?_cons (step?_call stronger)
      _ = (State.value (.call callee.erase (Expr.eraseAll args)) outer).reach? next
          rest :=
        Expr.reachArgs args canonicals trailing callee.erase outer rest
  | compound form => exact form.reach canonical (.operand outer) rest ends
  | func params trailing body =>
    rw [Expr.yield, List.append_assoc, List.cons_append]
    change (State.paramsStart (.literal outer)).reach? next _ = _
    rw [reach?_params]
    exact reach?_block (.funcBody params (.literal outer)) rfl
      (Stmt.reachAll body canonical.2) rest
termination_by structural expr

theorem Stmt.reach (stmt : Stmt) (canonical : stmt.Canonical)
    (outer : SeqContext goal) (rest : List Token)
    (separates : Separates (leadKind next rest)) :
    (State.statement outer).reach? next (stmt.yield ++ rest) =
      (State.statement (outer.push stmt.erase)).reach? next rest := by
  cases stmt with
  | expr value =>
    have ends : value.EndsBefore .semi := value.endsBefore_of_weak rfl (by decide)
    rw [Stmt.yield, List.append_assoc, reach?_statement_expr canonical.2 canonical.1]
    exact value.reach canonical.2 (.statement outer) (none_lt_level canonical.2)
      (.ofKind .semi :: rest) ends
  | binding name value =>
    have ends : value.EndsBefore .semi := value.endsBefore_of_weak rfl (by decide)
    rw [Stmt.yield, List.append_assoc]
    exact value.reach canonical (.boundValue name outer) (none_lt_level canonical)
      (.ofKind .semi :: rest) ends
  | jump word value =>
    cases value with
    | none => cases word <;> rfl
    | some value =>
      have ends : value.EndsBefore .semi := value.endsBefore_of_weak rfl (by decide)
      have noSemi : value.lead ≠ .semi := by
        intro same
        have starts := value.lead_mem canonical
        rw [same] at starts
        revert starts
        decide
      have opens : (State.statement outer).step? (.ofKind word.kind) =
          some (.jumpStart word outer) := by
        cases word <;> rfl
      rw [Stmt.yield, List.append_assoc, List.cons_append, reach?_cons opens]
      calc (State.jumpStart word outer).reach? next
            (value.yield ++ (.ofKind .semi :: rest))
        _ = (State.operand (.jumpValue word outer)).reach? next
            (value.yield ++ (.ofKind .semi :: rest)) :=
          reach?_congr (settle_jumpStart (by rwa [leadKind_expr]))
        _ = (State.value value.erase (.jumpValue word outer)).reach? next
            (.ofKind .semi :: rest) :=
          value.reach canonical (.jumpValue word outer) (none_lt_level canonical)
            (.ofKind .semi :: rest) ends
  | continueLoop => rfl
  | compound form terminated =>
    have ends : form.EndsBefore
        (leadKind next (optionalToken .semi terminated ++ rest)) := by
      cases terminated with
      | false => exact form.endsBefore_of_ne separates.2
      | true =>
        change form.EndsBefore .semi
        exact form.endsBefore_of_ne (by decide)
    rw [Stmt.yield, List.append_assoc]
    exact (form.reach canonical (.statement outer) _ ends).trans
      (reach?_optional_semi _ terminated outer separates.1)
  | funcDecl name params trailing body terminated =>
    rw [Stmt.yield, List.append_assoc, List.append_assoc, List.cons_append,
      List.cons_append]
    change (State.paramsStart (.declaration name outer)).reach? next _ = _
    rw [reach?_params]
    exact (reach?_block (.funcBody params (.declaration name outer)) rfl
      (Stmt.reachAll body canonical.2) _).trans
        (reach?_optional_semi _ terminated outer separates.1)
termination_by structural stmt

theorem Compound.reach (form : Compound) (canonical : form.Canonical)
    (place : Place goal) (rest : List Token)
    (ends : form.EndsBefore (leadKind next rest)) :
    place.entry.reach? next (form.yield ++ rest) =
      (place.finish form.erase).reach? next rest := by
  cases form with
  | block body =>
    exact reach?_block (.plain place) (step?_entry place rfl _)
      (Stmt.reachAll body canonical) rest
  | conditional branches =>
    exact branches.reach canonical (.first place) _ (step?_entry place rfl _) rest ends
  | loop condition body =>
    have ends : condition.EndsBefore .lbrace :=
      condition.endsBefore_of_weak rfl (by decide)
    rw [Compound.yield, List.append_assoc, List.cons_append,
      reach?_cons (step?_entry place rfl _)]
    calc (State.operand (.loopCondition place)).reach? next
          (condition.yield ++ (braced (Stmt.allYield body) ++ rest))
      _ = (State.value condition.erase (.loopCondition place)).reach? next
          (braced (Stmt.allYield body) ++ rest) :=
        condition.reach canonical.1 (.loopCondition place) (none_lt_level canonical.1)
          (braced (Stmt.allYield body) ++ rest) ends
      _ = (place.finish (.loop condition.erase (Stmt.eraseAll body))).reach? next rest :=
        reach?_block (.loopBody condition.erase place) rfl
          (Stmt.reachAll body canonical.2) rest
termination_by structural form

theorem Conditional.reach (branches : Conditional) (canonical : branches.Canonical)
    (chain : ChainContext goal) (state : State goal)
    (opens : state.step? (.ofKind .kwIf) = some (.operand (.ifCondition chain)))
    (rest : List Token) (ends : branches.EndsBefore (leadKind next rest)) :
    state.reach? next (branches.yield ++ rest) =
      (chain.finish branches.erase).reach? next rest := by
  cases branches with
  | only condition body =>
    obtain ⟨canonical, canonicals⟩ := canonical
    have guarded := reach?_guarded opens
      (condition.reach canonical (.ifCondition chain) (none_lt_level canonical))
      (Stmt.reachAll body canonicals)
    rw [Conditional.yield, List.append_assoc, List.cons_append, guarded]
    exact reach?_congr (settle_thenEnd ends)
  | orElse condition body other =>
    obtain ⟨canonical, canonicals, canonicals'⟩ := canonical
    have guarded := reach?_guarded opens
      (condition.reach canonical (.ifCondition chain) (none_lt_level canonical))
      (Stmt.reachAll body canonicals)
    rw [Conditional.yield, List.append_assoc, List.append_assoc, List.cons_append,
      guarded]
    change (State.elseStart condition.erase (Stmt.eraseAll body) chain).reach? next
      (braced (Stmt.allYield other) ++ rest) = _
    exact reach?_block (.elseBranch condition.erase (Stmt.eraseAll body) chain) rfl
      (Stmt.reachAll other canonicals') rest
  | elseIf condition body following =>
    obtain ⟨canonical, canonicals, canonical'⟩ := canonical
    have guarded := reach?_guarded opens
      (condition.reach canonical (.ifCondition chain) (none_lt_level canonical))
      (Stmt.reachAll body canonicals)
    rw [Conditional.yield, List.append_assoc, List.append_assoc, List.cons_append,
      guarded]
    exact following.reach canonical'
      (.next condition.erase (Stmt.eraseAll body) chain)
      (State.elseStart condition.erase (Stmt.eraseAll body) chain) rfl rest ends
termination_by structural branches

theorem Expr.reachArgs (args : List Expr) (canonical : Expr.AllCanonical args)
    (trailing : Bool) (callee : OasisSyntax.Expr) (outer : ExprContext goal)
    (rest : List Token) :
    (State.argumentStart callee [] outer).reach? next
        (Expr.argsYield trailing args ++ ([.ofKind .rparen] ++ rest)) =
      (State.value (.call callee (Expr.eraseAll args)) outer).reach? next rest := by
  cases args with
  | nil => rfl
  | cons value args =>
    obtain ⟨canonical, canonicals⟩ := canonical
    rw [Expr.argsYield, List.append_assoc, reach?_argumentStart canonical]
    exact (value.reach canonical (.argument callee [] outer) (none_lt_level canonical) _
      (endsBefore_moreArgs value args)).trans
        (Expr.reachMoreArgs args canonicals trailing callee [] value.erase outer rest)
termination_by structural args

theorem Expr.reachMoreArgs (args : List Expr) (canonical : Expr.AllCanonical args)
    (trailing : Bool) (callee : OasisSyntax.Expr) (before : List OasisSyntax.Expr)
    (value : OasisSyntax.Expr) (outer : ExprContext goal) (rest : List Token) :
    (State.value value (.argument callee before outer)).reach? next
        (Expr.moreArgsYield trailing args ++ ([.ofKind .rparen] ++ rest)) =
      (State.value (.call callee (before ++ value :: Expr.eraseAll args)) outer).reach?
        next rest := by
  cases args with
  | nil => cases trailing <;> rfl
  | cons following args =>
    obtain ⟨canonical, canonicals⟩ := canonical
    rw [Expr.moreArgsYield, List.append_assoc, List.cons_append]
    change (State.argumentStart callee (before ++ [value]) outer).reach? next _ = _
    rw [reach?_argumentStart canonical]
    have later := Expr.reachMoreArgs args canonicals trailing callee (before ++ [value])
      following.erase outer rest
    rw [List.append_assoc] at later
    exact (following.reach canonical (.argument callee (before ++ [value]) outer)
      (none_lt_level canonical) _ (endsBefore_moreArgs following args)).trans later
termination_by structural args

theorem Stmt.reachAll (body : List Stmt) (canonical : Stmt.AllCanonical body)
    (outer : SeqContext goal) (rest : List Token)
    (separates : Separates (leadKind next rest)) :
    (State.statement outer).reach? next (Stmt.allYield body ++ rest) =
      (State.statement (outer.pushAll (Stmt.eraseAll body))).reach? next rest := by
  cases body with
  | nil => rfl
  | cons stmt body =>
    rw [Stmt.allYield, List.append_assoc]
    exact (stmt.reach canonical.1 outer _
      (separates_allYield canonical.2 separates)).trans
      (Stmt.reachAll body canonical.2 (outer.push stmt.erase) rest separates)
termination_by structural body

end

end Concrete

end OasisSyntax
