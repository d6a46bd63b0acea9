import OasisSyntax.Proofs.Descent.Sessions
import OasisSyntax.Proofs.Descent.Trees
import OasisSyntax.Proofs.Parsing.Texts
import OasisSyntax.Proofs.Tokens.Spans
import OasisSyntax.Report.Log

/-!
# Statements in the log

The log of a source that is a program names the statements of the program in post-order,
each with the place of its first token.  Where parsing fails, the log still is a row of
such events: every one stands directly behind those of the statements inside of its own,
and all tokens of the statement are in front of the error.
-/

namespace OasisSyntax

open Descent (start)

variable {text : List Char} {program : Program}
  {tokens front own next rest : List (Spanned Token)}

private theorem Concrete.Stmt.isWritten_first {tree : Concrete.Stmt} (canonical : tree.Canonical)
    {token : Token} (leads : token.kind = tree.lead) : token.isWritten := by
  refine Decidable.byContradiction fun implied => ?_
  have starts := lead_mem canonical
  rw [← leads] at starts
  rcases Token.kind_of_not_isWritten implied with same | same <;> rw [same] at starts <;>
    contradiction

namespace Concrete.Stmt.Leaves

variable {tree : Concrete.Stmt} {event inner : StatementEvent}

private theorem exists_own (leaves : tree.Leaves tokens next event) :
    ∃ own, tokens = own ++ next ∧ tree.yield = own.map (·.node.plain) ∧
      event = ⟨start own, tree.erase⟩ := by
  obtain ⟨own, rfl, yields⟩ := leaves.spells
  refine ⟨own, rfl, yields.symm, ?_⟩
  rw [leaves.tells]
  cases own with
  | nil =>
    obtain ⟨literal, tail, begins⟩ := tree.yield_eq
    cases begins.symm.trans yields.symm
  | cons first own => rfl

private theorem start_lt (leaves : tree.Leaves own next event) (member : inner ∈ tree.nested own)
    (apart : own.Pairwise fun token later => token.span.stop ≤ later.span.start)
    (lies : ∀ token ∈ own, token.LiesIn text) : event.start < inner.start := by
  obtain ⟨token, place, starts⟩ := leaves.inside inner member
  obtain ⟨literal, tail, begins⟩ := tree.yield_eq
  obtain ⟨first, more, rfl, same⟩ := (begins ▸ leaves.spells).exists_cons
  have leads : first.node.kind = tree.lead := by rw [← first.node.plain_kind, same]
  have visible := (lies first (.head _)).written (isWritten_first leaves.canonical leads)
  have behind := (List.pairwise_cons.1 apart).1 token place
  rw [leaves.tells, starts]
  exact Nat.lt_of_lt_of_le visible.1 behind

end Concrete.Stmt.Leaves

private theorem Reader.stop_le_current (text : List Char)
    (split : (Reader.ofText text).tokens = front ++ rest) :
    ∀ token ∈ front, token.span.stop ≤
      (rest.headD (TokenStream.endToken (Text.byteLength text))).span.start := by
  intro token member
  obtain ⟨apart, lies, -⟩ := tokens_cover_text text
  cases rest with
  | nil => exact (lies token (by rw [split]; exact List.mem_append_left _ member)).inside
  | cons current rest =>
    rw [split] at apart
    exact (List.pairwise_append.1 apart).2.2 token member current (.head rest)

private theorem upcoming_of_parse_ok (parsed : parse text = .ok program) :
    ((Session.start (.ofText text)).read .program).2.stream.upcoming =
      [TokenStream.endToken (Text.byteLength text)] := by
  have walk := Reader.walk_ofText text
  obtain ⟨init, whole, -⟩ := walk.exists_init
  rw [Nat.zero_add] at whole
  have reached := (parse_eq_ok_iff (whole ▸ walk)).1 parsed
  have stops : (State.start .program).Stops (TokenStream.endToken (Text.byteLength text))
      init [TokenStream.endToken (Text.byteLength text)]
      (.statement (.program program)) := by
    refine ⟨reached, fun token first => ?_⟩
    obtain rfl := Option.some.inj first
    rfl
  have session : (Session.start (.ofText text)).stream.upcoming =
    init ++ [TokenStream.endToken (Text.byteLength text)] := whole
  rw [Session.read_of_stops session stops]

/-! ## What the procedures read in a text -/

namespace Descent.Outcome

variable {limit : Nat} {α : Type} {outcome : Outcome limit α} {final : Spanned Token}

private theorem exists_done {value : α} (answers : outcome.answer final = .ok value) :
    ∃ fewer, outcome.ending = .done value outcome.rest fewer := by
  obtain ⟨ending, events, turns⟩ := outcome
  cases ending with
  | stuck complaint rest => contradiction
  | done result rest fewer =>
    obtain rfl : result = value := Except.ok.inj answers
    exact ⟨fewer, rfl⟩

theorem span_of_error {error : Spanned SyntaxError}
    (answers : outcome.answer final = .error error) :
    error.span = (outcome.rest.headD final).span := by
  obtain ⟨ending, events, turns⟩ := outcome
  cases ending with
  | stuck complaint rest =>
    obtain rfl := Except.error.inj answers
    rfl
  | done result rest fewer => contradiction

end Descent.Outcome

theorem read_ofText (text : List Char) :
    let outcome := Descent.read .program (Reader.ofText text).tokens
    let final := TokenStream.endToken (Text.byteLength text)
    parse text = outcome.answer final ∧ traceProgram text = outcome.events ∧
      ((Session.start (.ofText text)).read .program).2.stream = ⟨outcome.rest, final⟩ := by
  intro outcome final
  obtain ⟨answer, stream⟩ := (Session.start (.ofText text)).read_eq rfl .program
  exact ⟨answer, Descent.trace_eq .program _ rfl, stream⟩

private theorem trace_logged (text : List Char) :
    Logged 0 (Reader.ofText text).tokens
      ((Session.start (.ofText text)).read .program).2.stream.upcoming
      (traceProgram text) := by
  obtain ⟨-, events, stream⟩ := read_ofText text
  rw [events, stream]
  exact (Descent.statements_shows false [] (Reader.ofText text).tokens).logged

/-- The tokens of a program are the yield of a tree, and its trace is that of a walk over
this tree. -/
private theorem exists_walk_of_parse_ok (parsed : parse text = .ok program) :
    ∃ trees, Concrete.Stmt.AllCanonical trees ∧ Concrete.Stmt.eraseAll trees = program ∧
      Spells (Concrete.Stmt.allYield trees) (Reader.ofText text).tokens
        [TokenStream.endToken (Text.byteLength text)] ∧
      traceProgram text = Concrete.Stmt.postOrder trees (Reader.ofText text).tokens := by
  obtain ⟨answer, events, stream⟩ := read_ofText text
  obtain ⟨fewer, done⟩ := Descent.Outcome.exists_done (answer.symm.trans parsed)
  have shows := Descent.statements_shows false [] (Reader.ofText text).tokens
  obtain ⟨trees, erases, canonical, spells, same⟩ := shows.done _ _ _ done
  have rest := upcoming_of_parse_ok parsed
  rw [stream] at rest
  exact ⟨trees, canonical, erases.symm, rest ▸ spells, events.trans same.symm⟩

private theorem span_of_parse_error {error : Spanned SyntaxError}
    (fails : parse text = .error error) : error.span =
      ((Session.start (.ofText text)).read .program).2.stream.current.span := by
  obtain ⟨answer, -, stream⟩ := read_ofText text
  rw [stream]
  exact Descent.Outcome.span_of_error (answer.symm.trans fails)

/-- The log of a source names its statements in post-order.  If the source is a program,
these are the statements of a walk over the tree that its tokens are the yield of.
Whatever the outcome, each event is that of a statement at its first token, directly behind
those of the statements inside of it, which all start later; and a statement that is named
is over in front of the token that an error is about. -/
theorem statements_logged_in_post_order (source : Source) :
    let tokens := (Reader.ofText source.text).tokens
    let events := traceProgram source.text
    let after := ((Session.start (.ofText source.text)).read .program).2
    (∃ outcome, parseLog source = events.map (fun event =>
        ⟨.trace, "oasis::parse::parser",
          s!"statement at {event.start}: {event.stmt.render}"⟩) ++ [outcome]) ∧
    (∀ program, parse source.text = .ok program →
      events.map (·.stmt) = Stmt.postOrder program ∧
      ∃ trees, Concrete.Stmt.AllCanonical trees ∧
        Concrete.Stmt.eraseAll trees = program ∧
        Spells (Concrete.Stmt.allYield trees) tokens
          [TokenStream.endToken (Text.byteLength source.text)] ∧
        events = Concrete.Stmt.postOrder trees tokens) ∧
    ∀ before event later, events = before ++ event :: later →
      ∃ earlier front own next, ∃ tree : Concrete.Stmt,
        tokens = front ++ (own ++ next) ∧ after.stream.upcoming <:+ next ∧
        tree.Canonical ∧ tree.yield = own.map (·.node.plain) ∧
        event = ⟨start own, tree.erase⟩ ∧
        before = earlier ++ tree.nested (own ++ next) ∧
        (tree.nested (own ++ next)).map (·.stmt) = event.stmt.nested ∧
        (∀ inner ∈ tree.nested (own ++ next), event.start < inner.start) ∧
        ∀ error, parse source.text = .error error →
          error.span = after.stream.current.span ∧
          ∀ token ∈ own, token.span.stop ≤ error.span.start := by
  intro tokens events after
  refine ⟨⟨_, rfl⟩, fun program parsed => ?_, fun before event later split => ?_⟩
  · obtain ⟨trees, canonical, erases, spells, same⟩ := exists_walk_of_parse_ok parsed
    refine ⟨?_, trees, canonical, erases, spells, same⟩
    rw [← erases, ← Concrete.Stmt.stmts_postOrder, ← same]
  · obtain ⟨apart, lies, -⟩ := Reader.tokens_cover_text source.text
    obtain ⟨earlier, tree, row, next, place, ahead, leaves, same⟩ :=
      (trace_logged source.text).each before event later split
    have increases (inner : StatementEvent) (member : inner ∈ tree.nested row) :
        event.start < inner.start :=
      leaves.start_lt member (apart.sublist place.sublist)
        fun token member => lies token (place.subset member)
    obtain ⟨own, rfl, yields, tells⟩ := leaves.exists_own
    obtain ⟨front, whole⟩ : own ++ next <:+ tokens := place
    refine ⟨earlier, front, own, next, tree, whole.symm, ahead, leaves.canonical, yields,
      tells, same, ?_, increases, fun error fails => ?_⟩
    · rw [tree.stmts_nested, tells]
    · obtain ⟨-, -, stream⟩ := read_ofText source.text
      have span : error.span = after.stream.current.span := span_of_parse_error fails
      obtain ⟨more, rfl⟩ := ahead
      have split : tokens = (front ++ own ++ more) ++ after.stream.upcoming := by
        rw [List.append_assoc, List.append_assoc]
        exact whole.symm
      refine ⟨span, fun token member => ?_⟩
      rw [span, TokenStream.current, stream]
      rw [stream] at split
      exact Reader.stop_le_current source.text split token (by simp [member])

/-- A block among the arguments of a call, with and without the end of the call. -/
theorem statements_logged_in_post_order_argument :
    let whole : Source := ⟨"", "f(\x7b a; \x7d)"⟩
    let broken : Source := ⟨"", "f(\x7b a; \x7d"⟩
    let inner : Stmt := .expr (.ident "a")
    let outer : Stmt := .expr (.call (.ident "f") [.compound (.block [inner])])
    let error : Spanned SyntaxError := ⟨⟨8, 8⟩, .missing .rparen ⟨.semi, ""⟩⟩
    parse whole.text = .ok [outer] ∧ Stmt.postOrder [outer] = [inner, outer] ∧
      (traceProgram whole.text).map (·.stmt) = Stmt.postOrder [outer] ∧
      parse broken.text = .error error ∧ traceProgram broken.text = [⟨4, inner⟩] ∧
      ∃ own : List (Spanned Token), start own = 4 ∧
        ∀ token ∈ own, token.span.stop ≤ error.span.start := by
  intro whole broken inner outer error
  have parsed : parse whole.text = .ok [outer] := by decide +kernel
  have fails : parse broken.text = .error error := by decide +kernel
  have logged : traceProgram broken.text = [⟨4, inner⟩] := by decide +kernel
  obtain ⟨-, walks, -⟩ := statements_logged_in_post_order whole
  obtain ⟨-, -, each⟩ := statements_logged_in_post_order broken
  obtain ⟨earlier, front, own, next, tree, -, -, -, -, tells, -, -, -, ahead⟩ :=
    each [] ⟨4, inner⟩ [] logged
  have starts : 4 = start own := congrArg StatementEvent.start tells
  exact ⟨parsed, rfl, (walks [outer] parsed).1, fails, logged, own, starts.symm,
    (ahead error fails).2⟩

end OasisSyntax
