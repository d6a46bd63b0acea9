import OasisSyntax.Proofs.Descent.Sessions

/-!
# Progress

Every procedure that succeeds has taken a token, apart from the loops; the limit of its
outcome says so.  A loop that begins a turn still has a token to take in that turn or has
taken an opening parenthesis in front of its turns.  So there are no more turns than there
are tokens, whether reading succeeds or not.
-/

namespace OasisSyntax

namespace Descent

variable {limit within bound : Nat} {α β : Type} {tokens : List (Spanned Token)}

namespace Outcome

/-- The outcome has taken the first of the tokens, in at most so many turns of a loop. -/
structure Within (outcome : Outcome limit α) (tokens : List (Spanned Token))
    (bound : Nat) : Prop where
  takes : outcome.rest <:+ tokens
  turns : outcome.turns ≤ bound

def Advances (outcome : Outcome limit α) (tokens : List (Spanned Token)) : Prop :=
  ∀ value rest fewer, outcome.ending = .done value rest fewer →
    ∃ taken, taken ≠ [] ∧ tokens = taken ++ rest

namespace Within

variable {outcome : Outcome limit α} {rest : List (Spanned Token)} {token : Spanned Token}

theorem value {result : α} {fewer : rest.length < limit} :
    (Outcome.value result rest fewer).Within rest bound :=
  ⟨List.suffix_rfl, Nat.zero_le _⟩

theorem stuck {complaint : Token → SyntaxError} :
    (Outcome.stuck complaint rest : Outcome limit α).Within rest bound :=
  ⟨List.suffix_rfl, Nat.zero_le _⟩

theorem behind (later : outcome.Within rest bound) (token : Spanned Token) :
    outcome.Within (token :: rest) bound :=
  ⟨later.takes.trans (List.suffix_cons token rest), later.turns⟩

theorem andThen
    {next : α → (rest : List (Spanned Token)) → rest.length < limit → Outcome within β}
    (first : outcome.Within tokens bound)
    (second : ∀ value rest fewer, (next value rest fewer).Within rest bound) :
    (outcome.andThen next).Within tokens bound := by
  obtain ⟨ending, events, turns⟩ := outcome
  cases ending with
  | stuck complaint rest => exact ⟨first.takes, first.turns⟩
  | done value rest fewer =>
    have later := second value rest fewer
    exact ⟨later.takes.trans first.takes, Nat.max_le.2 ⟨first.turns, later.turns⟩⟩

theorem upTo {larger : limit ≤ within} (held : outcome.Within tokens bound) :
    (outcome.upTo larger).Within tokens bound :=
  held.andThen fun _ _ _ => value

theorem turn {number : Nat} (counted : number ≤ bound)
    (held : outcome.Within tokens bound) : (outcome.turn number).Within tokens bound :=
  ⟨held.takes, Nat.max_le.2 ⟨counted, held.turns⟩⟩

theorem advances {outcome : Outcome tokens.length α} (held : outcome.Within tokens bound) :
    outcome.Advances tokens := by
  intro value rest fewer done
  obtain ⟨taken, split⟩ : rest <:+ tokens := by
    have takes := held.takes
    rwa [Outcome.rest, done] at takes
  refine ⟨taken, ?_, split.symm⟩
  rintro rfl
  rw [← split, List.nil_append] at fewer
  exact Nat.lt_irrefl _ fewer

end Within

end Outcome

theorem length_pos_of_lead (more : lead tokens ≠ .eof) : 0 < tokens.length := by
  cases tokens with
  | nil => exact absurd rfl more
  | cons token rest => exact Nat.succ_pos _

theorem expect_within (kind : Kind) (tokens : List (Spanned Token)) (bound : Nat) :
    (expect kind tokens).Within tokens bound := by
  cases tokens with
  | nil => exact .stuck
  | cons token rest =>
    rw [expect]
    split
    · exact .behind .value token
    · exact .stuck

private theorem close_within (start : Nat) (stmt : Stmt) (required : Bool)
    (tokens : List (Spanned Token)) (bound : Nat) :
    (close start stmt required tokens).Within tokens bound := by
  rw [close]
  split
  · exact ⟨List.tail_suffix tokens, Nat.zero_le _⟩
  · split
    · exact .stuck
    · exact ⟨List.suffix_rfl, Nat.zero_le _⟩

theorem names_within (before : List String) (tokens : List (Spanned Token))
    (enough : before.length + tokens.length + 1 ≤ bound) :
    (names before tokens).Within tokens bound := by
  rw [names]
  split
  · exact .value
  · refine .turn (by omega) (.andThen (expect_within ..) fun name rest fewer => ?_)
    split
    · refine .andThen (expect_within ..) fun _ rest fewer => .upTo (names_within _ _ ?_)
      rw [List.length_append, List.length_singleton]
      omega
    · exact .value
termination_by tokens.length

private theorem params_within (tokens : List (Spanned Token)) (enough : tokens.length ≤ bound) :
    (params tokens).Within tokens bound := by
  rw [params]
  refine .andThen (expect_within ..) fun _ rest fewer => ?_
  refine .andThen (names_within _ rest (by rw [List.length_nil]; omega))
    fun params rest fewer => ?_
  exact .andThen (expect_within ..) fun _ rest fewer => .value

-- Every turn of a loop takes a token, so the turns that are over and the tokens that are
-- left stay below the bound.
mutual

theorem statements_within (inBlock : Bool) (done : List Stmt)
    (tokens : List (Spanned Token)) (enough : done.length + tokens.length ≤ bound) :
    (statements inBlock done tokens).Within tokens bound := by
  rw [statements]
  split
  · exact .value
  · rename_i more
    have present := length_pos_of_lead (not_or.1 more).1
    refine .turn (by omega) (.andThen (statement_within tokens (by omega))
      fun stmt rest fewer => .upTo (statements_within inBlock _ rest ?_))
    rw [List.length_append, List.length_singleton]
    omega
termination_by (tokens.length, 7)

theorem statement_within (tokens : List (Spanned Token)) (enough : tokens.length ≤ bound) :
    (statement tokens).Within tokens bound := by
  rw [statement]
  exact .andThen (form_within tokens enough) fun (stmt, required) rest fewer =>
    .upTo (close_within ..)
termination_by (tokens.length, 6)

theorem form_within (tokens : List (Spanned Token)) (enough : tokens.length ≤ bound) :
    (form tokens).Within tokens bound := by
  rw [form]
  split
  case h_1 =>
    refine .andThen (expect_within ..) fun _ rest fewer => ?_
    refine .andThen (expect_within ..) fun name rest fewer => ?_
    refine .andThen (expect_within ..) fun _ rest fewer => ?_
    exact .andThen (expression_within .none rest (by omega)) fun _ _ _ => .value
  case h_2 => exact jump_within .ret tokens enough
  case h_3 => exact jump_within .brk tokens enough
  case h_4 => exact .andThen (expect_within ..) fun _ _ _ => .value
  case h_5 =>
    refine .andThen (expect_within ..) fun _ rest fewer => ?_
    split
    · refine .andThen (function_within rest (by omega)) fun (params, body) rest fewer => ?_
      exact .andThen (operations_within 0 _ .none rest (by omega)) fun _ _ _ => .value
    · refine .andThen (expect_within ..) fun name rest fewer => ?_
      exact .andThen (function_within rest (by omega)) fun (params, body) _ _ => .value
  case h_9 => exact .andThen (expression_within .none tokens enough) fun _ _ _ => .value
  all_goals exact .andThen (compound_within tokens enough) fun _ _ _ => .value
termination_by (tokens.length, 5)

theorem jump_within (word : Jump) (tokens : List (Spanned Token))
    (enough : tokens.length ≤ bound) : (jump word tokens).Within tokens bound := by
  rw [jump]
  refine .andThen (expect_within ..) fun _ rest fewer => ?_
  split
  · exact .value
  · exact .andThen (expression_within .none rest (by omega)) fun _ _ _ => .value
termination_by (tokens.length, 0)

theorem function_within (tokens : List (Spanned Token)) (enough : tokens.length ≤ bound) :
    (function tokens).Within tokens bound := by
  rw [function]
  refine .andThen (params_within tokens enough) fun params rest fewer => ?_
  exact .andThen (block_within rest (by omega)) fun _ _ _ => .value
termination_by (tokens.length, 0)

theorem block_within (tokens : List (Spanned Token)) (enough : tokens.length ≤ bound) :
    (block tokens).Within tokens bound := by
  rw [block]
  refine .andThen (expect_within ..) fun _ rest fewer => ?_
  refine .andThen (statements_within true [] rest (by rw [List.length_nil]; omega))
    fun body rest fewer => ?_
  exact .andThen (expect_within ..) fun _ _ _ => .value
termination_by (tokens.length, 0)

theorem conditional_within (tokens : List (Spanned Token))
    (enough : tokens.length ≤ bound) : (conditional tokens).Within tokens bound := by
  rw [conditional]
  refine .andThen (expect_within ..) fun _ rest fewer => ?_
  refine .andThen (expression_within .none rest (by omega)) fun condition rest fewer => ?_
  refine .andThen (block_within rest (by omega)) fun body rest fewer => ?_
  split
  · refine .andThen (expect_within ..) fun _ rest fewer => ?_
    split
    · exact .andThen (conditional_within rest (by omega)) fun _ _ _ => .value
    · exact .andThen (block_within rest (by omega)) fun _ _ _ => .value
  · exact .value
termination_by (tokens.length, 0)

theorem loop_within (tokens : List (Spanned Token)) (enough : tokens.length ≤ bound) :
    (loop tokens).Within tokens bound := by
  rw [loop]
  refine .andThen (expect_within ..) fun _ rest fewer => ?_
  refine .andThen (expression_within .none rest (by omega)) fun condition rest fewer => ?_
  exact .andThen (block_within rest (by omega)) fun _ _ _ => .value
termination_by (tokens.length, 0)

theorem compound_within (tokens : List (Spanned Token)) (enough : tokens.length ≤ bound) :
    (compound tokens).Within tokens bound := by
  rw [compound]
  split
  · exact .andThen (conditional_within tokens enough) fun _ _ _ => .value
  · exact .andThen (loop_within tokens enough) fun (condition, body) _ _ => .value
  · exact .andThen (block_within tokens enough) fun _ _ _ => .value
termination_by (tokens.length, 1)

theorem expression_within (floor : Precedence) (tokens : List (Spanned Token))
    (enough : tokens.length ≤ bound) : (expression floor tokens).Within tokens bound := by
  rw [expression]
  exact .andThen (operand_within tokens enough) fun left rest fewer =>
    .upTo (operations_within 0 left floor rest (by omega))
termination_by (tokens.length, 3)

theorem operations_within (count : Nat) (left : Expr) (floor : Precedence)
    (tokens : List (Spanned Token)) (enough : count + tokens.length ≤ bound) :
    (operations count left floor tokens).Within tokens bound := by
  rw [operations]
  simp only [Kind.goesOn_iff]
  split
  · rename_i stronger
    have more : lead tokens ≠ .eof := by
      intro ends
      rw [ends] at stronger
      exact Precedence.none_le _ stronger
    have present := length_pos_of_lead more
    exact .turn (by omega) (.andThen (operation_within left tokens (by omega))
      fun value rest fewer => .upTo (operations_within _ value floor rest (by omega)))
  · exact .value
termination_by (tokens.length, 1)

theorem operand_within : ∀ tokens : List (Spanned Token), tokens.length ≤ bound →
    (operand tokens).Within tokens bound
  | [], _ => by
    rw [operand]
    exact .stuck
  | token :: rest, enough => by
    rw [List.length_cons] at enough
    rw [operand]
    split
    case h_1 | h_2 => exact .behind .value token
    case h_6 =>
      refine .behind (.andThen (expression_within .none rest (by omega))
        fun inner rest fewer => ?_) token
      exact .andThen (expect_within ..) fun _ _ _ => .value
    case h_7 =>
      refine .behind (.andThen (function_within rest (by omega))
        fun (params, body) _ _ => ?_) token
      exact .value
    case h_11 => exact .stuck
    case h_3 | h_4 | h_5 =>
      exact .behind (.andThen (expression_within .unary rest (by omega))
        fun _ _ _ => .value) token
    all_goals exact .andThen (compound_within (token :: rest) enough) fun _ _ _ => .value
termination_by tokens => (tokens.length, 2)

theorem operation_within (left : Expr) : ∀ tokens : List (Spanned Token),
    tokens.length ≤ bound → (operation left tokens).Within tokens bound
  | [], _ => by
    rw [operation]
    exact .stuck
  | token :: rest, enough => by
    rw [List.length_cons] at enough
    rw [operation]
    split
    · refine .behind (.andThen (arguments_within [] rest (by rw [List.length_nil]; omega))
        fun args rest fewer => ?_) token
      exact .andThen (expect_within ..) fun _ _ _ => .value
    · split
      · exact .behind (.andThen (expression_within _ rest (by omega))
          fun _ _ _ => .value) token
      · exact .stuck
termination_by tokens => (tokens.length, 0)

theorem arguments_within (before : List Expr) (tokens : List (Spanned Token))
    (enough : before.length + tokens.length + 1 ≤ bound) :
    (arguments before tokens).Within tokens bound := by
  rw [arguments]
  split
  · exact .value
  · refine .turn (by omega) (.andThen (expression_within .none tokens (by omega))
      fun value rest fewer => ?_)
    split
    · refine .andThen (expect_within ..) fun _ rest fewer => .upTo (arguments_within _ _ ?_)
      rw [List.length_append, List.length_singleton]
      omega
    · exact .value
termination_by (tokens.length, 4)

end

/-! ## Reading -/

private theorem read_within (goal : Goal) (tokens : List (Spanned Token))
    (enough : tokens.length ≤ bound) : (read goal tokens).Within tokens bound := by
  cases goal with
  | program => exact statements_within false [] tokens (by rwa [List.length_nil, Nat.zero_add])
  | expression =>
    rw [read]
    exact .upTo (expression_within .none tokens enough)

/-- Reading ends on every row of tokens with the end of the text behind it, whatever has
been read before.  A session reads what the procedure for its goal reads, which goes down
from form to form and round its loops with fewer tokens or a smaller rank every time.  The
session takes each token once at most, and the current one.  Whatever succeeds among the
procedures takes a token, and no loop begins more turns than there are tokens. -/
theorem reading_terminates (stream : TokenStream) (ends : stream.final.node.kind = .eof) :
    (∀ goals goal,
      let session := (Session.start stream).after goals
      let outcome := read goal session.stream.upcoming
      (session.read goal).1 = outcome.answer stream.final ∧
        (session.read goal).2.stream = ⟨outcome.rest, stream.final⟩ ∧
        (session.read goal).2.taken ≤ stream.upcoming.length + 1 ∧
        outcome.turns ≤ stream.upcoming.length) ∧
    ∀ tokens : List (Spanned Token),
      (statement tokens).Advances tokens ∧ (operand tokens).Advances tokens ∧
      (∀ floor, (expression floor tokens).Advances tokens) ∧
      (block tokens).Advances tokens ∧ (conditional tokens).Advances tokens ∧
      (loop tokens).Advances tokens ∧
      ∀ left, (operation left tokens).Advances tokens := by
  refine ⟨fun goals goal => ?_, fun tokens => ?_⟩
  · intro session outcome
    obtain ⟨passed, follows⟩ := (Session.follows_start stream).after goals
    obtain ⟨later, settled, follows', -⟩ := follows.read goal
    have same : session.stream.final = stream.final := follows.final
    obtain ⟨answer, rest⟩ := session.read_eq (same ▸ ends) goal
    have fewer : session.stream.upcoming.length ≤ stream.upcoming.length := by
      rw [follows.upcoming, List.length_append]
      exact Nat.le_add_left _ _
    refine ⟨same ▸ answer, same ▸ rest, ?_, (read_within goal _ fewer).turns⟩
    have whole := congrArg List.length follows'.upcoming
    rw [List.length_append] at whole
    rw [follows'.taken]
    omega
  · have bound := Nat.le_refl tokens.length
    exact ⟨(statement_within tokens bound).advances, (operand_within tokens bound).advances,
      fun floor => (expression_within floor tokens bound).advances,
      (block_within tokens bound).advances, (conditional_within tokens bound).advances,
      (loop_within tokens bound).advances,
      fun left => (operation_within left tokens bound).advances⟩

/-- An illegal character in a block, and an end of the text in the middle of the row. -/
theorem reading_terminates_illegal :
    let upcoming : List (Spanned Token) :=
      [⟨⟨0, 1⟩, .ofKind .lbrace⟩, ⟨⟨1, 2⟩, ⟨.illegal, "$"⟩⟩, ⟨⟨2, 2⟩, ⟨.eof, ""⟩⟩]
    let stream : TokenStream := .ofTokens upcoming 3
    let session := (Session.start stream).after [.program]
    let error : Spanned SyntaxError := ⟨⟨1, 2⟩, .noOperand ⟨.illegal, "$"⟩⟩
    stream.final.node.kind = .eof ∧
      (read .expression session.stream.upcoming).answer stream.final = .error error ∧
      (session.read .expression).2.taken ≤ 4 ∧
      (read .expression session.stream.upcoming).turns ≤ 3 := by
  intro upcoming stream session error
  have ends : stream.final.node.kind = .eof := rfl
  obtain ⟨answer, -, taken, turns⟩ :=
    (reading_terminates stream ends).1 [.program] .expression
  have fails : (session.read .expression).1 = .error error := rfl
  exact ⟨ends, answer.symm.trans fails, taken, turns⟩

end Descent

end OasisSyntax
