import OasisSyntax.Proofs.Descent.Procedures
import OasisSyntax.Proofs.Parsing.Complete

/-!
# Moves of the parser

A point of a parse is a state with the offsets of the statements that are open in it.
One point leads to another one over some tokens if reading from the first one takes these
tokens, leaves the events in between, and goes on as from the second one.  Taking a token
is such a move; so is exchanging a state for one that the next token finds no different.
A point rejects the tokens that come next if the first one of them does not fit.
-/

namespace OasisSyntax

open Descent (lead start)

variable {goal : Goal} {next : Kind}

namespace State

structure Alike (next : Kind) (first second : State goal) : Prop where
  settles : first.settle next = second.settle next
  ends : first.ended? next = second.ended? next
  begins : first.beginsStmt next = second.beginsStmt next

theorem Alike.of_finish {first second : State goal}
    (same : finishExpr next (finishForm next first) =
      finishExpr next (finishForm next second)) : Alike next first second := by
  constructor <;> simp only [settle, ended?, beginsStmt, same]

theorem step?_operand (outer : ExprContext goal) (token : Token) :
    (State.operand outer).step? token = shiftOperand? outer token := rfl

private theorem trace_congr {first second : State goal} {tokens : List (Spanned Token)}
    (alike : Alike (lead tokens) first second) (opened : List Nat) {final : Spanned Token}
    (ends : final.node.kind = .eof) :
    first.trace final opened tokens = second.trace final opened tokens := by
  cases tokens with
  | nil =>
    rw [trace, trace, ends]
    exact congrArg (fun stmt => (endStmt opened stmt).1) alike.ends
  | cons token rest =>
    have same : first.step? token.node = second.step? token.node :=
      step?_congr alike.settles
    have ended : first.ended? token.node.kind = second.ended? token.node.kind := alike.ends
    have begun : first.beginsStmt token.node.kind = second.beginsStmt token.node.kind :=
      alike.begins
    simp only [trace, same, ended, begun]

end State

private theorem leadKind_lead (own rest : List (Spanned Token)) :
    leadKind (lead rest) (own.map (·.node)) = lead (own ++ rest) := by
  cases own <;> rfl

structure Point (goal : Goal) where
  state : State goal
  opened : List Nat

/-- Reading from the one point takes the tokens in front of the rest and leaves the
events, and goes on as from the other point. -/
structure Leads (entry : Point goal) (tokens : List (Spanned Token))
    (events : List StatementEvent) (exit : Point goal) (rest : List (Spanned Token)) :
    Prop where
  reaches : ∃ own, tokens = own ++ rest ∧
    entry.state.reach? (lead rest) (own.map (·.node)) = some (exit.state.settle (lead rest))
  traces : ∀ final : Spanned Token, final.node.kind = .eof →
    entry.state.trace final entry.opened tokens =
      events ++ exit.state.trace final exit.opened rest

namespace Leads

variable {entry middle exit : Point goal} {tokens between rest : List (Spanned Token)}
  {events later : List StatementEvent} {state after other : State goal}
  {token : Spanned Token} {opened : List Nat} {outer : SeqContext goal} {stmt : Stmt}

theorem refl (point : Point goal) (tokens : List (Spanned Token)) :
    Leads point tokens [] point tokens :=
  ⟨⟨[], rfl, rfl⟩, fun _ _ => rfl⟩

theorem trans (first : Leads entry tokens events middle between)
    (second : Leads middle between later exit rest) :
    Leads entry tokens (events ++ later) exit rest := by
  obtain ⟨own, rfl, reached⟩ := first.reaches
  obtain ⟨more, rfl, reached'⟩ := second.reaches
  refine ⟨⟨own ++ more, (List.append_assoc ..).symm, ?_⟩, fun final ends => ?_⟩
  · obtain ⟨before, settles, onward⟩ := State.exists_of_reach? reached
    rw [List.map_append, onward, ← reached']
    apply State.reach?_congr
    rw [leadKind_lead, settles]
  · rw [first.traces final ends, second.traces final ends, List.append_assoc]

theorem exchange (alike : State.Alike (lead tokens) state other) (opened : List Nat) :
    Leads ⟨state, opened⟩ tokens [] ⟨other, opened⟩ tokens :=
  ⟨⟨[], rfl, congrArg some alike.settles⟩,
    fun _ ends => State.trace_congr alike opened ends⟩

theorem take (fits : state.step? token.node = some after)
    (running : state.ended? token.node.kind = none)
    (inside : state.beginsStmt token.node.kind = false)
    (opened : List Nat) (rest : List (Spanned Token)) :
    Leads ⟨state, opened⟩ (token :: rest) [] ⟨after, opened⟩ rest := by
  refine ⟨⟨[token], rfl, State.reach?_cons fits⟩, fun final ends => ?_⟩
  simp [State.trace, running, inside, fits, State.endStmt]

theorem begin_statement (fits : (State.statement outer).step? token.node = some after)
    (opens : token.node.kind ≠ .rbrace) (opened : List Nat)
    (rest : List (Spanned Token)) :
    Leads ⟨.statement outer, opened⟩ (token :: rest) []
      ⟨after, token.span.start :: opened⟩ rest := by
  refine ⟨⟨[token], rfl, State.reach?_cons fits⟩, fun final ends => ?_⟩
  have begins : (State.statement outer).beginsStmt token.node.kind = true :=
    bne_iff_ne.2 opens
  have running : (State.statement outer).ended? token.node.kind = none := rfl
  simp [State.trace, running, begins, fits, State.endStmt]

theorem begin_expression {tokens : List (Spanned Token)}
    (expression : State.isStatementKind outer (lead tokens) = false) (opened : List Nat) :
    Leads ⟨.statement outer, opened⟩ tokens []
      ⟨.operand (.statement outer), start tokens :: opened⟩ tokens := by
  cases tokens with
  | nil => contradiction
  | cons token rest =>
    have settles := State.settle_statement expression
    refine ⟨⟨[], rfl, congrArg some settles⟩, fun final ends => ?_⟩
    have same : (State.statement outer).step? token.node =
        (State.operand (.statement outer)).step? token.node := State.step?_congr settles
    have running : (State.statement outer).ended? token.node.kind = none := rfl
    have running' : (State.operand (.statement outer)).ended? token.node.kind = none := rfl
    have inside : (State.operand (.statement outer)).beginsStmt token.node.kind = false :=
      rfl
    cases fits : (State.operand (.statement outer)).step? token.node with
    | none => simp [State.trace, running, running', same, fits, State.endStmt]
    | some after =>
      have opens : token.node.kind ≠ .rbrace := by
        intro brace
        have misfit : (State.operand (.statement outer)).step? token.node =
            State.openCompound? (.operand (.statement outer)) .rbrace := by
          simp only [State.step?_operand, State.shiftOperand?, brace]
        cases misfit.symm.trans fits
      have begins : (State.statement outer).beginsStmt token.node.kind = true :=
        bne_iff_ne.2 opens
      simp [State.trace, running, running', inside, begins, same, fits, State.endStmt, start]

theorem end_statement (terminator : token.node.kind = .semi) (stmt : Stmt)
    (required : Bool) (outer : SeqContext goal) (start : Nat) (opened : List Nat)
    (rest : List (Spanned Token)) :
    Leads ⟨.statementEnd stmt required outer, start :: opened⟩ (token :: rest)
      [⟨start, stmt⟩] ⟨.statement (outer.push stmt), opened⟩ rest := by
  have fits : (State.statementEnd stmt required outer).step? token.node =
      some (.statement (outer.push stmt)) := by
    cases required <;> simp [State.step?, State.settle, State.finishForm, State.finishExpr,
      State.finishStmt, State.openForm, State.shift?, State.onKind, terminator]
  have ends : (State.statementEnd stmt required outer).ended? token.node.kind =
      some stmt := by
    simp [State.ended?, State.finishForm, State.finishExpr, terminator]
  have inside : (State.statementEnd stmt required outer).beginsStmt token.node.kind =
      false := by
    cases required <;> simp [State.beginsStmt, State.finishForm, State.finishExpr,
      State.finishStmt, terminator]
  refine ⟨⟨[token], rfl, State.reach?_cons fits⟩, fun final _ => ?_⟩
  simp [State.trace, ends, inside, fits, State.endStmt]

theorem end_free_statement {tokens : List (Spanned Token)} (free : lead tokens ≠ .semi)
    (stmt : Stmt) (outer : SeqContext goal) (start : Nat) (opened : List Nat) :
    Leads ⟨.statementEnd stmt false outer, start :: opened⟩ tokens [⟨start, stmt⟩]
      ⟨.statement (outer.push stmt), opened⟩ tokens := by
  have settles : (State.statementEnd stmt false outer).settle (lead tokens) =
      (State.statement (outer.push stmt)).settle (lead tokens) :=
    State.settle_statementEnd free
  refine ⟨⟨[], rfl, congrArg some settles⟩, fun final ends => ?_⟩
  cases tokens with
  | nil =>
    rw [State.trace, State.trace, ends]
    rfl
  | cons token rest =>
    have same : (State.statementEnd stmt false outer).step? token.node =
        (State.statement (outer.push stmt)).step? token.node := State.step?_congr settles
    have other : token.node.kind ≠ .semi := free
    have ended : (State.statementEnd stmt false outer).ended? token.node.kind =
        some stmt := by simp [State.ended?, State.finishForm, State.finishExpr]
    have begins : (State.statementEnd stmt false outer).beginsStmt token.node.kind =
        (State.statement (outer.push stmt)).beginsStmt token.node.kind := by
      simp [State.beginsStmt, State.finishForm, State.finishExpr, State.finishStmt, other]
    have running : (State.statement (outer.push stmt)).ended? token.node.kind = none := rfl
    cases fits : (State.statement (outer.push stmt)).step? token.node with
    | none => simp [State.trace, ended, running, same, fits, State.endStmt]
    | some after => simp [State.trace, ended, begins, running, same, fits, State.endStmt]

end Leads

end OasisSyntax
