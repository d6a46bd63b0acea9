import OasisSyntax.Parsing.Session
import OasisSyntax.Proofs.Grammar.Concrete

/-!
# Where tokens lead

`reach?` takes a row of tokens, all of which have to fit, and settles the state for
the kind that comes next.  Two states that settle alike for that kind can be exchanged
for each other, and only the plain tokens matter.  A run of the parser takes tokens in
this way up to the first one that does not fit.
-/

namespace OasisSyntax

variable {goal : Goal}

/-- The kind of the first token, or the kind that comes after an empty row. -/
def leadKind (next : Kind) : List Token → Kind
  | [] => next
  | token :: _ => token.kind

@[simp] theorem leadKind_nil (next : Kind) : leadKind next [] = next := rfl

@[simp] theorem leadKind_cons (next : Kind) (token : Token) (rest : List Token) :
    leadKind next (token :: rest) = token.kind := rfl

namespace State

/-- The state that is settled for the next kind after all of the tokens. -/
def reach? (next : Kind) (state : State goal) : List Token → Option (State goal)
  | [] => some (state.settle next)
  | token :: rest =>
    match state.step? token with
    | some after => after.reach? next rest
    | none => none

variable {next : Kind} {state other : State goal} {token : Token} {rest : List Token}

@[simp] theorem reach?_nil : state.reach? next [] = some (state.settle next) := rfl

theorem reach?_cons {after : State goal} (fits : state.step? token = some after) :
    state.reach? next (token :: rest) = after.reach? next rest := by
  simp only [reach?, fits]

theorem step?_congr (same : state.settle token.kind = other.settle token.kind) :
    state.step? token = other.step? token := by
  simp only [step?, same]

theorem reach?_congr
    (same : state.settle (leadKind next rest) = other.settle (leadKind next rest)) :
    state.reach? next rest = other.reach? next rest := by
  cases rest with
  | nil => exact congrArg some same
  | cons token rest => simp only [reach?, step?_congr same]

/-- A row that has been taken leads to a state from which everything goes on. -/
theorem exists_of_reach? {tokens : List Token} {settled : State goal}
    (reached : state.reach? next tokens = some settled) :
    ∃ before : State goal, before.settle next = settled ∧
      ∀ next' rest, state.reach? next' (tokens ++ rest) = before.reach? next' rest := by
  induction tokens generalizing state with
  | nil => exact ⟨state, Option.some.inj reached, fun _ _ => rfl⟩
  | cons token tokens ih =>
    simp only [reach?] at reached
    split at reached
    · rename_i fits
      obtain ⟨before, settles, same⟩ := ih reached
      refine ⟨before, settles, fun next' rest => ?_⟩
      exact (reach?_cons fits).trans (same next' rest)
    · contradiction

theorem shift?_literal {kind : Kind} (noName : kind ≠ .ident) (noInt : kind ≠ .int)
    (state : State goal) (first second : String) :
    state.shift? ⟨kind, first⟩ = state.shift? ⟨kind, second⟩ := by
  cases state with
  | operand outer =>
    simp only [shift?, shiftOperand?]
    split <;> first | rfl | contradiction
  | boundName outer | funcStart outer | paramStart before func =>
    simp [shift?, onKind, noName]
  | _ => rfl

theorem shift?_plain (state : State goal) (token : Token) :
    state.shift? token.plain = state.shift? token := by
  obtain ⟨kind, literal⟩ := token
  by_cases name : kind = .ident
  · subst name
    rfl
  · by_cases int : kind = .int
    · subst int
      rfl
    · rw [Token.plain_of_kind rfl name int]
      exact shift?_literal name int state _ _

private theorem step?_plain (state : State goal) (token : Token) :
    state.step? token.plain = state.step? token := by
  simp only [step?, Token.plain_kind, shift?_plain]

theorem reach?_plain (next : Kind) (state : State goal) (tokens : List Token) :
    state.reach? next (tokens.map Token.plain) = state.reach? next tokens := by
  induction tokens generalizing state with
  | nil => rfl
  | cons token rest ih => simp only [List.map_cons, reach?, step?_plain, ih]

/-! ## Runs -/

/-- The run takes the first tokens, and the one after them does not fit. -/
structure Stops (state : State goal) (final : Spanned Token)
    (taken rest : List (Spanned Token)) (settled : State goal) : Prop where
  reached : state.reach? (rest.headD final).node.kind (taken.map (·.node)) = some settled
  stuck : ∀ token ∈ rest.head?, settled.shift? token.node = none

def judgement (settled : State goal) (current : Spanned Token) :
    Except (Spanned SyntaxError) goal.Result :=
  (settled.verdict current.node).mapError fun error => ⟨current.span, error⟩

variable {final : Spanned Token} {taken upcoming : List (Spanned Token)}
  {settled : State goal}

private theorem run_of_stops (stops : Stops state final taken upcoming settled) :
    state.run final (taken ++ upcoming) =
      (settled.judgement (upcoming.headD final), upcoming) := by
  obtain ⟨reached, stuck⟩ := stops
  induction taken generalizing state with
  | nil =>
    obtain rfl := Option.some.inj reached
    cases upcoming with
    | nil => rfl
    | cons token rest =>
      have misfit : state.step? token.node = none := stuck token rfl
      simp only [List.nil_append, run, misfit]
      rfl
  | cons token taken ih =>
    simp only [List.map_cons, reach?] at reached
    split at reached
    · rename_i fits
      simp only [List.cons_append, run, fits]
      exact ih reached
    · contradiction

theorem exists_stops (final : Spanned Token) (state : State goal)
    (tokens : List (Spanned Token)) :
    ∃ taken upcoming settled,
      tokens = taken ++ upcoming ∧ Stops state final taken upcoming settled := by
  induction tokens generalizing state with
  | nil => exact ⟨[], [], _, rfl, rfl, by simp⟩
  | cons token rest ih =>
    cases fits : state.step? token.node with
    | none =>
      refine ⟨[], token :: rest, _, rfl, rfl, ?_⟩
      intro current head
      obtain rfl := Option.some.inj head
      exact fits
    | some after =>
      obtain ⟨taken, upcoming, settled, rfl, reached, stuck⟩ := ih after
      exact ⟨token :: taken, upcoming, settled, rfl,
        (reach?_cons fits).trans reached, stuck⟩

theorem judgement_eq_ok {current : Spanned Token} {result : goal.Result}
    (said : settled.judgement current = .ok result) :
    settled.result? = some result := by
  unfold judgement verdict at said
  split at said
  · rename_i found
    cases said
    exact found
  · cases said

theorem judgement_of_result {current : Spanned Token} {result : goal.Result}
    (found : settled.result? = some result) :
    settled.judgement current = .ok result := by
  simp only [judgement, verdict, found]
  rfl

end State

theorem Session.read_of_stops {goal : Goal} {session : Session}
    {taken rest : List (Spanned Token)} {settled : State goal}
    (split : session.stream.upcoming = taken ++ rest)
    (stops : (State.start goal).Stops session.stream.final taken rest settled) :
    session.read goal =
      (settled.judgement (rest.headD session.stream.final),
        ⟨⟨rest, session.stream.final⟩, session.taken + taken.length⟩) := by
  simp only [read, split, State.run_of_stops stops, List.length_append,
    Nat.add_sub_cancel]

end OasisSyntax
