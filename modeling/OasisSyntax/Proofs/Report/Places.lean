import OasisSyntax.FrontEnd
import OasisSyntax.Proofs.Parsing.Accounting
import OasisSyntax.Proofs.Tokens.Spans

/-!
# Places in a source

A span fits in a text if it can be cut out of it: its ends are in order, and both of
them are boundaries of characters in the text.  Then everything that a diagnostic shows
about the span is there.  All tokens of a text have such spans.  So has every syntax
error, because its span is the one of a token.
-/

namespace OasisSyntax

structure Span.FitsIn (text : List Char) (span : Span) : Prop where
  ordered : span.start ≤ span.stop
  inside : span.stop ≤ Text.byteLength text
  startsAtChar : (Text.splitAtByte? span.start text).isSome
  stopsAtChar : (Text.splitAtByte? span.stop text).isSome

theorem Spanned.LiesIn.fitsIn {text : List Char} {token : Spanned Token}
    (liesIn : token.LiesIn text) : token.span.FitsIn text :=
  ⟨liesIn.ordered, liesIn.inside, liesIn.startsAtChar, liesIn.stopsAtChar⟩

namespace Span.FitsIn

variable {source : Source} {span : Span}

/-! ## What is shown about a span -/

theorem position?_isSome (fits : span.FitsIn source.text) :
    (source.position? span.start).isSome := by
  rw [Source.position?, Option.isSome_map]
  exact fits.startsAtChar

theorem slice?_isSome (fits : span.FitsIn source.text) : (source.slice? span).isSome := by
  obtain ⟨before, slice, after, whole, start, stop⟩ :=
    Text.exists_slice fits.ordered fits.startsAtChar fits.stopsAtChar
  rw [Source.slice?, whole, ← stop, ← start, Text.sliceBytes?_append]
  rfl

private theorem excerpt_isSome (fits : span.FitsIn source.text) (terminal : Terminal)
    (lineNumber : Nat) :
    (Excerpt.ofSpan? terminal source span lineNumber).isSome := by
  obtain ⟨⟨before, after⟩, split⟩ := Option.isSome_iff_exists.1 fits.startsAtChar
  have sliced := fits.slice?_isSome
  rw [Source.slice?, Option.isSome_map] at sliced
  obtain ⟨slice, sliced⟩ := Option.isSome_iff_exists.1 sliced
  simp only [Excerpt.ofSpan?, split, sliced]
  rfl

theorem diagnostic_isSome (fits : span.FitsIn source.text) (terminal : Terminal)
    (message : String) :
    (Diagnostic.ofSpan? terminal source span message).isSome := by
  obtain ⟨position, found⟩ := Option.isSome_iff_exists.1 fits.position?_isSome
  obtain ⟨excerpt, shown⟩ :=
    Option.isSome_iff_exists.1 (fits.excerpt_isSome terminal position.line)
  simp only [Diagnostic.ofSpan?, found, Option.bind_eq_bind, Option.bind_some, shown]
  rfl

theorem reportError?_isSome {terminal : Terminal} {error : Spanned SyntaxError}
    (fits : error.span.FitsIn source.text) (color : Bool) (sink : Sink) :
    (reportError? terminal source error color sink).isSome := by
  rw [reportError?, Option.isSome_map]
  exact fits.diagnostic_isSome terminal _

end Span.FitsIn

/-! ## Spans of errors -/

theorem TokenStream.current_mem (stream : TokenStream) :
    stream.current ∈ stream.upcoming ∨ stream.current = stream.final := by
  obtain ⟨upcoming, final⟩ := stream
  cases upcoming with
  | nil => exact .inr rfl
  | cons token rest => exact .inl (.head rest)

namespace Session

variable {goal : Goal} {stream : TokenStream}

theorem Follows.current_mem {session : Session} {passed : List (Spanned Token)}
    (follows : session.Follows stream passed) :
    session.stream.current ∈ stream.upcoming ∨ session.stream.current = stream.final := by
  rw [follows.upcoming, ← follows.final]
  exact session.stream.current_mem.imp_left (List.mem_append_right passed)

theorem span_of_error {goals : List Goal} {error : Spanned SyntaxError}
    (fails : (((start stream).after goals).read goal).1 = .error error) :
    ∃ token, (token ∈ stream.upcoming ∨ token = stream.final) ∧
      error.span = token.span := by
  obtain ⟨passed, follows⟩ := (follows_start stream).after goals
  obtain ⟨later, settled, next, said, -⟩ := follows.read goal
  obtain ⟨-, rfl⟩ := State.judgement_eq_error (said.symm.trans fails)
  exact ⟨_, next.current_mem, rfl⟩

end Session

theorem Session.exists_token_of_error {text : List Char} {goals : List Goal} {goal : Goal}
    {error : Spanned SyntaxError}
    (fails : (((start (.ofText text)).after goals).read goal).1 = .error error) :
    ∃ token ∈ (Reader.ofText text).tokens, error.span = token.span := by
  obtain ⟨token, listed | rfl, span⟩ := span_of_error fails
  · exact ⟨token, listed, span⟩
  · obtain ⟨init, same, -⟩ := (Reader.walk_ofText text).exists_init
    rw [Nat.zero_add] at same
    exact ⟨_, by rw [same]; exact List.mem_append_right init (.head []), span⟩

theorem Session.fitsIn_of_error {text : List Char} {goals : List Goal} {goal : Goal}
    {error : Spanned SyntaxError}
    (fails : (((start (.ofText text)).after goals).read goal).1 = .error error) :
    error.span.FitsIn text := by
  obtain ⟨token, member, span⟩ := exists_token_of_error fails
  rw [span]
  exact ((Reader.walk_ofText text).tiles.liesIn token member).fitsIn

theorem fitsIn_of_parse_error {text : List Char} {error : Spanned SyntaxError}
    (fails : parse text = .error error) : error.span.FitsIn text :=
  @Session.fitsIn_of_error text [] .program error fails

/-! ## The front end -/

private theorem Reader.Tiles.slice?_eq {source : Source} {tokens : List (Spanned Token)}
    (tiles : Tiles 0 source.text tokens) :
    ∀ token ∈ tokens,
      source.slice? token.span = some (String.ofList token.node.covered) := by
  intro token member
  obtain ⟨before, after, whole, start, stop, -⟩ := tiles.exists_split token member
  rw [Nat.zero_add] at start
  rw [Source.slice?, whole, stop, start, Text.sliceBytes?_append]
  rfl

private theorem Sink.writeAll_unlimited (texts : List String) (bytes : List UInt8) :
    ((⟨bytes, none⟩ : Sink).writeAll texts).1 = true := by
  induction texts generalizing bytes with
  | nil => rfl
  | cons text rest ih => exact ih _

theorem Sink.emit_unlimited (texts : List String) : (unlimited.emit texts).1 = .ok () := by
  have taken := writeAll_unlimited texts []
  rw [emit]
  split
  · rfl
  · rename_i full
    rw [unlimited] at full
    rw [full] at taken
    contradiction

private theorem parseSource?_isSome {terminal : Terminal} {source : Source} {color : Bool}
    {sink : Sink}
    (reports : ∀ error, parse source.text = .error error →
      (reportError? terminal source error color sink).isSome) :
    (parseSource? terminal source color sink).isSome := by
  rw [parseSource?]
  split
  · rfl
  · rename_i fails
    rw [Option.isSome_map]
    exact reports _ fails

theorem parseSource?_unlimited {terminal : Terminal} {source : Source} {color : Bool}
    (reports : ∀ error, parse source.text = .error error →
      (reportError? terminal source error color .unlimited).isSome) :
    ∃ after, parseSource? terminal source color .unlimited =
      some ((parse source.text).mapError fun _ => .syntaxError, after) := by
  rw [parseSource?]
  split
  · rename_i parsed
    exact ⟨_, by rw [parsed]; rfl⟩
  · rename_i error fails
    obtain ⟨⟨answer, after⟩, reported⟩ := Option.isSome_iff_exists.1 (reports error fails)
    have ok : answer = .ok () := by
      obtain ⟨diagnostic, -, same⟩ := Option.map_eq_some_iff.1 reported
      exact (congrArg Prod.fst same).symm.trans (Sink.emit_unlimited _)
    exact ⟨after, by rw [reported, fails, ok]; rfl⟩

/-- Nothing that the front end does with a source looks for a text at a place where
there is none.  All tokens and all errors have spans in the source, and the token is what
stands there.  So the tokens can be listed, and the outcome of parsing can be reported,
with or without colors, on any terminal and to any sink. -/
theorem frontEnd_stays_in_source (terminal : Terminal) (source : Source) :
    (∀ token ∈ (Reader.ofText source.text).tokens, token.span.FitsIn source.text ∧
      source.slice? token.span = some (String.ofList token.node.covered)) ∧
    (∀ goals goal error,
      (((Session.start (.ofText source.text)).after goals).read goal).1 = .error error →
        error.span.FitsIn source.text ∧ (source.slice? error.span).isSome ∧
          (source.position? error.span.start).isSome ∧
          ∀ color sink, (reportError? terminal source error color sink).isSome) ∧
    (dumpTokens source .unlimited).1 = .ok () ∧
    ∀ color, (∀ sink, (parseSource? terminal source color sink).isSome) ∧
      ∃ after, parseSource? terminal source color .unlimited =
        some ((parse source.text).mapError fun _ => .syntaxError, after) := by
  have tiles := (Reader.walk_ofText source.text).tiles
  have reports (color : Bool) (sink : Sink) (error : Spanned SyntaxError)
      (fails : parse source.text = .error error) :
      (reportError? terminal source error color sink).isSome :=
    (fitsIn_of_parse_error fails).reportError?_isSome color sink
  refine ⟨fun token member => ?_, fun goals goal error fails => ?_,
    Sink.emit_unlimited _, fun color => ⟨fun sink => ?_, ?_⟩⟩
  · exact ⟨(tiles.liesIn token member).fitsIn, tiles.slice?_eq token member⟩
  · have fits := Session.fitsIn_of_error fails
    exact ⟨fits, fits.slice?_isSome, fits.position?_isSome, fits.reportError?_isSome⟩
  · exact parseSource?_isSome (reports color sink)
  · exact parseSource?_unlimited (reports color .unlimited)

end OasisSyntax
