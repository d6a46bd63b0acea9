import OasisSyntax.Proofs.Parsing.EarliestError

/-!
# Sessions take tokens in order

A session reads programs and expressions one after another and goes on after errors.
All that it has taken from its stream is what it has passed and the current token, and
it passes neither an end of the text nor an illegal character.  An error is about the
current token, so the next reading begins with the token that did not fit.

A reading that returns has looked at finitely many tokens.  So a stream can stand for
any source of tokens: it lists those that are looked at, and what comes behind them has
no part in the reading.  Fewer are enough if an end of the text is repeated behind them.
-/

namespace OasisSyntax

/-- The kinds of the token that is current after a reading with a result. -/
def Goal.EndsAt : Goal → Kind → Prop
  | .program, kind => kind = .eof
  | .expression, kind => kind.precedence = .none

/-- The stream lists as many tokens, or it ends as a text does and repeats its end. -/
def TokenStream.Covers (stream : TokenStream) (count : Nat) : Prop :=
  count ≤ stream.upcoming.length ∨ stream.final.node.kind = .eof

namespace Session

def after (session : Session) : List Goal → Session
  | [] => session
  | goal :: goals => ((session.read goal).2).after goals

/-- The session has passed these tokens of the stream, and is at the one behind them. -/
structure Follows (stream : TokenStream) (passed : List (Spanned Token))
    (session : Session) : Prop where
  upcoming : stream.upcoming = passed ++ session.stream.upcoming
  final : session.stream.final = stream.final
  taken : session.taken = passed.length + 1
  legal : ∀ token ∈ passed, token.node.kind ≠ .eof ∧ token.node.kind ≠ .illegal

variable {goal : Goal} {stream : TokenStream} {session : Session}
  {passed : List (Spanned Token)}

theorem follows_start (stream : TokenStream) : (start stream).Follows stream [] :=
  ⟨rfl, rfl, rfl, by simp⟩

theorem Follows.first_add (follows : session.Follows stream passed) (count : Nat) :
    stream.first (passed.length + count) = passed ++ session.stream.first count := by
  have whole : stream = ⟨passed ++ session.stream.upcoming, session.stream.final⟩ := by
    rw [← follows.upcoming, follows.final]
  rw [whole]
  exact TokenStream.first_append count

theorem Follows.first (follows : session.Follows stream passed) :
    stream.first session.taken = passed ++ [session.stream.current] := by
  rw [follows.taken]
  exact follows.first_add 1

theorem Follows.read (follows : session.Follows stream passed) (goal : Goal) :
    ∃ (later : List (Spanned Token)) (settled : State goal),
      (session.read goal).2.Follows stream (passed ++ later) ∧
      (session.read goal).1 =
        settled.judgement (session.read goal).2.stream.current ∧
      (State.start goal).reach? (session.read goal).2.stream.current.node.kind
        (later.map (·.node)) = some settled ∧
      (stream.Covers (session.read goal).2.taken →
        settled.shift? (session.read goal).2.stream.current.node = none) := by
  obtain ⟨later, rest, settled, split, stops⟩ :=
    State.exists_stops session.stream.final (State.start goal) session.stream.upcoming
  have whole : stream.upcoming = passed ++ later ++ rest := by
    rw [follows.upcoming, split, List.append_assoc]
  have count : session.taken + later.length = (passed ++ later).length + 1 := by
    rw [follows.taken, List.length_append]
    omega
  have legal := State.legal_of_reach? stops.reached
  rw [List.forall_mem_map] at legal
  rw [read_of_stops split stops]
  refine ⟨later, settled, ⟨whole, follows.final, count, ?_⟩, rfl, stops.reached, ?_⟩
  · exact List.forall_mem_append.2 ⟨follows.legal, legal⟩
  · intro covers
    cases rest with
    | cons token rest => exact stops.stuck token rfl
    | nil =>
      -- The session has come to the final token of the stream.
      refine settled.shift?_of_stop (.inl ?_)
      rcases covers with listed | ends
      · have listed : session.taken + later.length ≤ stream.upcoming.length := listed
        rw [whole, List.append_nil] at listed
        omega
      · exact follows.final ▸ ends

theorem Follows.after (follows : session.Follows stream passed) (goals : List Goal) :
    ∃ passed, (session.after goals).Follows stream passed := by
  induction goals generalizing session passed with
  | nil => exact ⟨passed, follows⟩
  | cons goal goals ih =>
    obtain ⟨later, settled, next, -⟩ := follows.read goal
    exact ih next

end Session

namespace State

variable {tokens : List Token} {current : Spanned Token}

private theorem error_of_judgement {state settled : State goal}
    (reached : state.reach? current.node.kind tokens = some settled)
    (stuck : settled.shift? current.node = none) {error : Spanned SyntaxError}
    (said : settled.judgement current = .error error) :
    error.span = current.span ∧ error.node.actual? = some current.node := by
  obtain ⟨result, rfl⟩ := judgement_eq_error said
  obtain ⟨before, rfl, -⟩ := exists_of_reach? reached
  exact ⟨rfl, (before.explains current.node stuck result).1⟩

private theorem endsAt_of_judgement {settled : State goal}
    (reached : (start goal).reach? current.node.kind tokens = some settled)
    (stuck : settled.shift? current.node = none) {result : goal.Result}
    (said : settled.judgement current = .ok result) :
    goal.EndsAt current.node.kind := by
  have found := judgement_eq_ok said
  cases goal with
  | program =>
    obtain rfl := result?_eq_some.1 found
    exact kind_eq_eof reached stuck
  | expression =>
    cases settled with
    | value expr outer =>
      change current.node.kind.precedence = .none
      exact Decidable.byContradiction fun operator =>
        shiftValue?_ne_none operator expr outer stuck
    | statement outer =>
      cases outer
      contradiction
    | _ => contradiction

end State

/-- Whatever a session has read before and whatever came of it, the tokens that it has
taken are the first ones of its stream, in order, and the current one is the last of
them.  None of those in front of it ends the text or is illegal.  An error is about the
current token, and a result ends at one that its goal can end at. -/
theorem Session.taken_in_order (stream : TokenStream) (goals : List Goal) (goal : Goal) :
    let session := (start stream).after goals
    let after := (session.read goal).2
    stream.Covers after.taken →
      ∃ passed later : List (Spanned Token),
        stream.first session.taken = passed ++ [session.stream.current] ∧
        stream.first after.taken = passed ++ later ++ [after.stream.current] ∧
        (∀ token ∈ passed ++ later,
          token.node.kind ≠ .eof ∧ token.node.kind ≠ .illegal) ∧
        (∀ error, (session.read goal).1 = .error error →
          error.span = after.stream.current.span ∧
            error.node.actual? = some after.stream.current.node) ∧
        ∀ result, (session.read goal).1 = .ok result →
          goal.EndsAt after.stream.current.node.kind := by
  intro session after covers
  obtain ⟨passed, follows⟩ := (follows_start stream).after goals
  obtain ⟨later, settled, follows', said, reached, stuck⟩ := follows.read goal
  refine ⟨passed, later, follows.first, follows'.first, follows'.legal, ?_, ?_⟩
  · intro error fails
    exact State.error_of_judgement reached (stuck covers) (said.symm.trans fails)
  · intro result reads
    exact State.endsAt_of_judgement reached (stuck covers) (said.symm.trans reads)

/-- A binding without its sign, then the integer on its own, then an illegal character
that nothing goes past. -/
theorem Session.taken_in_order_illegal :
    let front : List (Spanned Token) :=
      [⟨⟨0, 3⟩, .ofKind .kwLet⟩, ⟨⟨4, 5⟩, ⟨.ident, "x"⟩⟩, ⟨⟨6, 7⟩, ⟨.int, "1"⟩⟩]
    let illegal : Spanned Token := ⟨⟨8, 9⟩, ⟨.illegal, "$"⟩⟩
    let stream : TokenStream := .ofTokens (front ++ [illegal, ⟨⟨10, 11⟩, ⟨.int, "2"⟩⟩]) 11
    let session := (start stream).after [.program, .expression]
    let error : Spanned SyntaxError := ⟨⟨8, 9⟩, .noOperand ⟨.illegal, "$"⟩⟩
    stream.Covers (session.read .program).2.taken ∧
      (session.read .program).1 = .error error ∧
      error.node.actual? = some (session.read .program).2.stream.current.node ∧
      ∃ passed later, stream.first 4 = passed ++ later ++ [illegal] ∧
        ∀ token ∈ passed ++ later,
          token.node.kind ≠ .eof ∧ token.node.kind ≠ .illegal := by
  intro front illegal stream session error
  have covers : stream.Covers (session.read .program).2.taken := .inr rfl
  have fails : (session.read .program).1 = .error error := rfl
  obtain ⟨passed, later, -, first, legal, errors, -⟩ :=
    taken_in_order stream [.program, .expression] .program covers
  exact ⟨covers, fails, (errors error fails).2, passed, later, first, legal⟩

end OasisSyntax
