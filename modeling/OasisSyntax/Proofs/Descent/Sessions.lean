import OasisSyntax.Proofs.Descent.Agreement
import OasisSyntax.Proofs.Parsing.Accounting

/-!
# Sessions of procedures

A program is read by the procedure for statements, and an expression by the one for
expressions.  A session that reads either one comes to what the procedure comes to, and
the trace of a program is the row of events that the procedure leaves.
-/

namespace OasisSyntax

open Descent

variable {goal : Goal} {entry point : Point goal}
  {tokens rest : List (Spanned Token)} {events : List StatementEvent}
  {final : Spanned Token}

theorem kind_headD (ends : final.node.kind = .eof) (tokens : List (Spanned Token)) :
    (tokens.headD final).node.kind = lead tokens := by
  cases tokens with
  | nil => exact ends
  | cons token rest => rfl

namespace Leads

theorem trace_eq (leads : Leads entry tokens events point rest) (halts : point.Halts rest)
    (ends : final.node.kind = .eof) :
    entry.state.trace final entry.opened tokens = events := by
  have quiet : point.state.trace final point.opened rest = [] := by
    cases rest with
    | nil =>
      have silent : point.state.ended? final.node.kind = none := ends ▸ halts.silent
      rw [State.trace, silent]
      rfl
    | cons token rest =>
      have silent : point.state.ended? token.node.kind = none := halts.silent
      simp [State.trace, silent, halts.stuck token rfl, State.endStmt]
  rw [leads.traces final ends, quiet, List.append_nil]

theorem exists_stops (leads : Leads entry tokens events point rest)
    (halts : point.Halts rest) (ends : final.node.kind = .eof) :
    ∃ own, tokens = own ++ rest ∧
      entry.state.Stops final own rest (point.state.settle (lead rest)) := by
  obtain ⟨own, split, reached⟩ := leads.reaches
  refine ⟨own, split, ⟨?_, fun token first => ?_⟩⟩
  · rw [kind_headD ends]
    exact reached
  · cases rest with
    | nil => contradiction
    | cons head rest =>
      obtain rfl := Option.some.inj first
      exact halts.stuck head rfl

end Leads

/-! ## Goals -/

def Goal.exit : (goal : Goal) → goal.Result → State goal
  | .program, stmts => .statement (.program stmts)
  | .expression, expr => .value expr .whole

structure Point.Finishes (point : Point goal) (result : goal.Result)
    (tokens : List (Spanned Token)) : Prop extends point.Halts tokens where
  yields : (point.state.settle (lead tokens)).result? = some result

namespace Descent

private theorem finishes_program (program : Program) (ends : lead tokens = .eof) :
    Point.Finishes ⟨.statement (.program program), []⟩ program tokens := by
  refine ⟨⟨fun token first => ?_, rfl⟩, ?_⟩
  · cases tokens with
    | nil => contradiction
    | cons head rest =>
      obtain rfl := Option.some.inj first
      exact State.step?_statement ends rfl
  · rw [ends]
    rfl

private theorem finishes_expression (expr : Expr)
    (weak : ¬ Precedence.none < (lead tokens).precedence) :
    Point.Finishes ⟨.value expr .whole, []⟩ expr tokens := by
  have kept (next : Kind) : State.finishExpr next (State.finishForm next
      (.value expr .whole)) = .value expr .whole := by
    simp only [State.finishForm, State.finishExpr, ExprContext.finish, ite_self]
  have settled (next : Kind) :
      (State.value expr .whole).settle next = .value expr .whole := by
    rw [State.settle, kept]
    rfl
  have weakest : (lead tokens).precedence = .none := by
    revert weak
    cases (lead tokens).precedence <;> decide
  refine ⟨⟨fun token first => ?_, ?_⟩, congrArg State.result? (settled _)⟩
  · cases tokens with
    | nil => contradiction
    | cons head rest =>
      obtain rfl := Option.some.inj first
      have weakest : head.node.kind.precedence = .none := weakest
      have noCall : head.node.kind ≠ .lparen := by
        intro call
        rw [call] at weakest
        contradiction
      have noOperator : ¬ head.node.kind.isBinary := by simp [Kind.isBinary_iff, weakest]
      simp only [State.step?, settled, State.shift?, State.shiftValue?, noCall, noOperator,
        Bool.false_eq_true, if_false]
  · simp only [State.ended?, kept]

private theorem read_finishes (goal : Goal) (tokens : List (Spanned Token)) :
    (read goal tokens).Ensures fun result rest =>
      Point.Finishes ⟨goal.exit result, []⟩ result rest := by
  cases goal with
  | program =>
    intro program rest fewer done
    have ends := statements_end _ _ _ _ _ _ done
    exact finishes_program program (ends.resolve_right (by simp))
  | expression =>
    rw [read]
    refine .upTo fun expr rest fewer done => finishes_expression expr ?_
    exact expression_end .none tokens expr rest fewer done

private theorem read_mirrors (goal : Goal) (tokens : List (Spanned Token)) :
    (read goal tokens).Mirrors ⟨.start goal, []⟩ tokens
      fun result => ⟨goal.exit result, []⟩ := by
  cases goal with
  | program =>
    exact statements_mirrors false .program (fun _ _ => rfl) (fun _ => rfl) [] [] tokens
  | expression =>
    rw [read]
    exact .upTo (expression_mirrors .whole [] tokens)

theorem exists_point (goal : Goal) (tokens : List (Spanned Token)) :
    let outcome := read goal tokens
    ∃ point : Point goal,
      Leads ⟨.start goal, []⟩ tokens outcome.events point outcome.rest ∧
      point.Halts outcome.rest ∧
      ∀ final : Spanned Token, final.node.kind = .eof →
        (point.state.settle (lead outcome.rest)).judgement (outcome.rest.headD final) =
          outcome.answer final := by
  intro outcome
  have mirrors := read_mirrors goal tokens
  have finishes := read_finishes goal tokens
  change outcome.Mirrors _ _ _ at mirrors
  change outcome.Ensures _ at finishes
  generalize outcome = outcome at mirrors finishes ⊢
  obtain ⟨ending, events, turns⟩ := outcome
  cases ending with
  | done result rest fewer =>
    have finishes := finishes result rest fewer rfl
    exact ⟨_, mirrors, finishes.toHalts, fun final _ =>
      State.judgement_of_result finishes.yields⟩
  | stuck complaint rest =>
    obtain ⟨point, leads, rejects⟩ := mirrors
    refine ⟨point, leads, rejects.toHalts, fun final ends => ?_⟩
    have said := rejects.reports (rest.headD final).node (kind_headD ends rest)
    rw [State.judgement]
    change ((point.state.settle (lead rest)).verdict (rest.headD final).node).mapError _ = _
    rw [said]
    rfl

end Descent

/-- A session reads what the procedure for its goal reads, and goes on behind that. -/
theorem Session.read_eq (session : Session) (ends : session.stream.final.node.kind = .eof)
    (goal : Goal) :
    let outcome := Descent.read goal session.stream.upcoming
    (session.read goal).1 = outcome.answer session.stream.final ∧
      (session.read goal).2.stream = ⟨outcome.rest, session.stream.final⟩ := by
  intro outcome
  obtain ⟨point, leads, halts, judges⟩ := Descent.exists_point goal session.stream.upcoming
  obtain ⟨own, split, stops⟩ := leads.exists_stops halts ends
  rw [Session.read_of_stops split stops]
  exact ⟨judges _ ends, rfl⟩

theorem Descent.trace_eq (goal : Goal) (tokens : List (Spanned Token))
    (ends : final.node.kind = .eof) :
    (State.start goal).trace final [] tokens = (Descent.read goal tokens).events := by
  obtain ⟨point, leads, halts, -⟩ := Descent.exists_point goal tokens
  exact leads.trace_eq halts ends

end OasisSyntax
