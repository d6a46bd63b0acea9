import OasisSyntax.Proofs.Parsing.Expected
import OasisSyntax.Proofs.Parsing.Programs

/-!
# Errors come as early as possible

A row of tokens is viable if some accepted stream begins with it.  When a program cannot
be read, the tokens in front of the one that is complained about are viable; with that
token they are not, and the rest of the stream has no part in the error.  With a token
of any kind that the error expects in its place they are viable again.
-/

namespace OasisSyntax

namespace TokenStream

/-- The tokens that the stream hands out first, the final one over and over. -/
def first : Nat → TokenStream → List (Spanned Token)
  | 0, _ => []
  | count + 1, stream =>
    stream.current :: first count { stream with upcoming := stream.upcoming.tail }

/-- The stream ends as a scanner's does, and is a program. -/
def Accepted (stream : TokenStream) : Prop :=
  stream.final.node.kind = .eof ∧
    ∃ program, ((Session.start stream).read .program).1 = .ok program

def Viable (tokens : List (Spanned Token)) : Prop :=
  ∃ stream : TokenStream, stream.first tokens.length = tokens ∧ stream.Accepted

variable {final : Spanned Token} {taken rest : List (Spanned Token)}

theorem first_append (count : Nat) :
    first (taken.length + count) ⟨taken ++ rest, final⟩ =
      taken ++ first count ⟨rest, final⟩ := by
  induction taken with
  | nil => rw [List.length_nil, Nat.zero_add, List.nil_append, List.nil_append]
  | cons token taken ih =>
    rw [List.length_cons, Nat.add_right_comm]
    exact congrArg (token :: ·) ih

/-- A stream that hands out these tokens first has them at its front, unless it has come
to its end before. -/
private theorem exists_rest_of_first {stream : TokenStream} {offender : Spanned Token}
    (listed : taken.length + 1 ≤ stream.upcoming.length ∨ stream.final.node.kind = .eof)
    (noEof : ∀ token ∈ taken, token.node.kind ≠ .eof)
    (same : stream.first (taken.length + 1) = taken ++ [offender]) :
    ∃ rest, stream.upcoming = taken ++ rest ∧ rest.headD stream.final = offender := by
  induction taken generalizing stream with
  | nil => exact ⟨stream.upcoming, rfl, (List.cons.inj same).1⟩
  | cons token taken ih =>
    obtain ⟨upcoming, final⟩ := stream
    obtain ⟨head, tail⟩ := List.cons.inj same
    cases upcoming with
    | nil =>
      obtain rfl : final = token := head
      have ends := listed.resolve_left (Nat.not_succ_le_zero _)
      exact absurd ends (noEof final (.head taken))
    | cons current upcoming =>
      obtain rfl : current = token := head
      have noEof' : ∀ token ∈ taken, token.node.kind ≠ .eof :=
        fun other later => noEof other (.tail _ later)
      have listed' := listed.imp_left Nat.le_of_succ_le_succ
      obtain ⟨rest, split, last⟩ := @ih ⟨upcoming, final⟩ listed' noEof' tail
      exact ⟨rest, congrArg (current :: ·) split, last⟩

end TokenStream

namespace State

variable {goal : Goal}

theorem shift?_of_stop (state : State goal) {token : Token}
    (stop : token.kind = .eof ∨ token.kind = .illegal) : state.shift? token = none := by
  obtain ⟨kind, literal⟩ := token
  rcases stop with eof | illegal
  · subst eof
    cases state <;> rfl
  · subst illegal
    cases state <;> rfl

theorem legal_of_reach? {next : Kind} {state settled : State goal} {tokens : List Token}
    (reached : state.reach? next tokens = some settled) :
    ∀ token ∈ tokens, token.kind ≠ .eof ∧ token.kind ≠ .illegal := by
  induction tokens generalizing state with
  | nil => nofun
  | cons token rest ih =>
    simp only [reach?] at reached
    split at reached
    · rename_i fits
      refine List.forall_mem_cons.2 ⟨not_or.1 fun stop => ?_, ih reached⟩
      rw [step?, shift?_of_stop _ stop] at fits
      contradiction
    · contradiction

theorem judgement_eq_error {settled : State goal} {current : Spanned Token}
    {error : Spanned SyntaxError} (said : settled.judgement current = .error error) :
    settled.result? = none ∧ error = ⟨current.span, settled.complaint current.node⟩ := by
  unfold judgement verdict at said
  split at said
  · cases said
  · rename_i none
    exact ⟨none, (Except.error.inj said).symm⟩

end State

theorem TokenStream.viable_of_reach? {taken : List (Spanned Token)}
    {before : State .program}
    (leads : ∀ next rest, (State.start .program).reach? next
      (taken.map (·.node) ++ rest) = before.reach? next rest) : Viable taken := by
  obtain ⟨tokens, settled, -, reached, result⟩ := before.completes
  obtain ⟨program, result⟩ := Option.isSome_iff_exists.1 result
  obtain rfl := State.result?_eq_some.1 result
  let more : List (Spanned Token) := tokens.map fun token => ⟨⟨0, 0⟩, token⟩
  have nodes : (taken ++ more).map (·.node) = taken.map (·.node) ++ tokens := by
    simp [more, Function.comp_def]
  have read : ((Session.start ⟨taken ++ more, endToken 0⟩).read .program).1 =
      .ok program := by
    apply Session.read_program_of_reach?
    exact (congrArg _ nodes).trans ((leads .eof tokens).trans reached)
  refine ⟨⟨taken ++ more, endToken 0⟩, ?_, rfl, program, read⟩
  exact (first_append 0).trans (List.append_nil taken)

/-- A session that comes to these tokens first takes and judges them alone. -/
theorem Session.read_of_first {goal : Goal} {session : Session}
    {taken : List (Spanned Token)} {offender : Spanned Token} {settled : State goal}
    (reached : (State.start goal).reach? offender.node.kind (taken.map (·.node)) =
      some settled)
    (stuck : settled.shift? offender.node = none)
    (listed : taken.length + 1 ≤ session.stream.upcoming.length ∨
      session.stream.final.node.kind = .eof)
    (first : session.stream.first (taken.length + 1) = taken ++ [offender]) :
    ∃ rest, session.stream.upcoming = taken ++ rest ∧
      rest.headD session.stream.final = offender ∧
      session.read goal = (settled.judgement offender,
        ⟨⟨rest, session.stream.final⟩, session.taken + taken.length⟩) := by
  have noEof : ∀ token ∈ taken, token.node.kind ≠ .eof := fun token member =>
    (State.legal_of_reach? reached token.node (List.mem_map_of_mem member)).1
  obtain ⟨rest, split, rfl⟩ := TokenStream.exists_rest_of_first listed noEof first
  have stops : (State.start goal).Stops session.stream.final taken rest settled := by
    refine ⟨reached, fun token first => ?_⟩
    cases rest with
    | nil => contradiction
    | cons current rest =>
      obtain rfl : current = token := Option.some.inj first
      exact stuck
  exact ⟨rest, split, rfl, read_of_stops split stops⟩

/-- A failed reading of a program complains about the first token that cannot follow the
ones before it, whatever comes later, and expects nothing that could not follow them. -/
theorem Session.read_program_error {stream : TokenStream}
    (ends : stream.final.node.kind = .eof) {error : Spanned SyntaxError}
    (fails : ((Session.start stream).read .program).1 = .error error) :
    ∃ (taken : List (Spanned Token)) (offender : Spanned Token),
      stream.first (taken.length + 1) = taken ++ [offender] ∧
      ((Session.start stream).read .program).2.taken = taken.length + 1 ∧
      error.span = offender.span ∧ error.node.actual? = some offender.node ∧
      TokenStream.Viable taken ∧ ¬ TokenStream.Viable (taken ++ [offender]) ∧
      (∀ other : TokenStream, other.final.node.kind = .eof →
        other.first (taken.length + 1) = taken ++ [offender] →
          ((Session.start other).read .program).1 = .error error) ∧
      ∀ token : Spanned Token, token.node.kind ∈ error.node.expected →
        TokenStream.Viable (taken ++ [token]) := by
  obtain ⟨taken, rest, settled, split, stops⟩ :=
    State.exists_stops stream.final (State.start .program) stream.upcoming
  have read : (Session.start stream).read .program =
      (settled.judgement (rest.headD stream.final),
        ⟨⟨rest, stream.final⟩, 1 + taken.length⟩) := Session.read_of_stops split stops
  have first : stream.first (taken.length + 1) =
      taken ++ [rest.headD stream.final] := by
    have whole : stream = ⟨taken ++ rest, stream.final⟩ := by rw [← split]
    rw [whole]
    exact TokenStream.first_append 1
  have stuck : settled.shift? (rest.headD stream.final).node = none := by
    cases rest with
    | nil => exact settled.shift?_of_stop (.inl ends)
    | cons token rest => exact stops.stuck token rfl
  have reached := stops.reached
  generalize rest.headD stream.final = offender at read first stuck reached
  rw [read] at fails ⊢
  have same (other : TokenStream) (ends' : other.final.node.kind = .eof)
      (first' : other.first (taken.length + 1) = taken ++ [offender]) :
      ((Session.start other).read .program).1 = .error error := by
    obtain ⟨rest, -, -, read'⟩ := @read_of_first _ (start other) _ _ _ reached stuck
      (.inr ends') first'
    rw [read']
    exact fails
  obtain ⟨result, rfl⟩ := State.judgement_eq_error fails
  -- The state is settled for the offender, the one before it is not: other tokens are
  -- tried from there.
  obtain ⟨before, rfl, leads⟩ := State.exists_of_reach? reached
  obtain ⟨names, expects⟩ := before.explains offender.node stuck result
  refine ⟨taken, offender, first, Nat.add_comm 1 _, rfl, names,
    TokenStream.viable_of_reach? leads, ?_, same, ?_⟩
  · rintro ⟨other, first', ends', program, accepts⟩
    rw [List.length_append] at first'
    exact nomatch accepts.symm.trans (same other ends' first')
  · intro token expected
    obtain ⟨-, after, steps⟩ := expects token.node expected
    apply TokenStream.viable_of_reach?
    intro next rest
    rw [List.map_append, List.append_assoc]
    exact (leads next (token.node :: rest)).trans (State.reach?_cons steps)

/-- A binding without its sign. -/
theorem Session.read_program_error_missing_sign :
    let bound : List (Spanned Token) :=
      [⟨⟨0, 3⟩, .ofKind .kwLet⟩, ⟨⟨4, 5⟩, ⟨.ident, "x"⟩⟩]
    let digit : Spanned Token := ⟨⟨6, 7⟩, ⟨.int, "1"⟩⟩
    let stream : TokenStream := .ofTokens (bound ++ [digit]) 7
    ((Session.start stream).read .program).1 =
        .error ⟨⟨6, 7⟩, .missing .assign ⟨.int, "1"⟩⟩ ∧
      TokenStream.Viable bound ∧ ¬ TokenStream.Viable (bound ++ [digit]) ∧
      TokenStream.Viable (bound ++ [⟨⟨6, 7⟩, .ofKind .assign⟩]) := by
  intro bound digit stream
  have ends : stream.final.node.kind = .eof := rfl
  have fails : ((Session.start stream).read .program).1 =
      .error ⟨⟨6, 7⟩, .missing .assign ⟨.int, "1"⟩⟩ := rfl
  obtain ⟨taken, offender, first, count, -, -, viable, notViable, -, expects⟩ :=
    Session.read_program_error ends fails
  have length : taken.length = 2 := Nat.succ.inj count.symm
  rw [length] at first
  obtain ⟨rfl, same⟩ :=
    List.append_inj (show bound ++ [digit] = _ from first) length.symm
  obtain rfl := List.singleton_inj.1 same
  exact ⟨fails, viable, notViable, expects _ (by decide)⟩

end OasisSyntax
