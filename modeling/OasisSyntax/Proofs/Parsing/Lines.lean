import OasisSyntax.Proofs.Parsing.Prepending
import OasisSyntax.Proofs.Parsing.Texts
import OasisSyntax.Proofs.Tokens.Spans
import OasisSyntax.Source
import OasisSyntax.Syntax.Equality

/-!
# Programs on lines of their own

When a line break stands between two texts, a program in the first one is read to its
end there, and the second one is then read as if it stood alone.  An error in one of
the texts is the error of the whole, at the same place in that text.
-/

namespace OasisSyntax

variable {goal : Goal} {next : Kind}

/-! ## Between statements -/

/-- Whether the end of the text, coming next, is met between statements. -/
def State.mayEnd : State goal → Bool
  | .statement _ | .statementEnd _ false _ | .thenEnd .. => true
  | _ => false

theorem ExprContext.finish_mayEnd : ∀ {goal : Goal} (outer : ExprContext goal)
    (expr : Expr), (outer.finish next expr).mayEnd = false
  | _, .unaryOperand op outer, expr => by
    simp only [finish]
    split
    · rfl
    · exact finish_mayEnd outer (.unary op expr)
  | _, .rightOperand left op outer, expr => by
    simp only [finish]
    split
    · rfl
    · exact finish_mayEnd outer (.binary left op expr)
  | _, .whole, _ | _, .group _, _ | _, .argument .., _ | _, .ifCondition _, _
  | _, .loopCondition _, _ | _, .boundValue .., _ | _, .jumpValue .., _
  | _, .statement _, _ => by
    simp only [finish]
    split <;> rfl

namespace State

variable {state after : State goal} {outer : SeqContext goal} {token : Token}

private theorem eq_statement_of_openForm (opened : state.openForm next = .statement outer) :
    state = .statement outer := by
  cases state with
  | statement | argumentStart | funcStart | paramStart | elseStart =>
    simp only [openForm] at opened
    split at opened <;> simp_all
  | _ => exact opened

private theorem mayEnd_of_finishStmt (finished : (state.finishStmt next).mayEnd) :
    state.mayEnd := by
  cases state with
  | statementEnd stmt required outer => cases required <;> simp_all [finishStmt, mayEnd]
  | _ => exact finished

private theorem mayEnd_of_finishExpr (finished : (state.finishExpr next).mayEnd) :
    state.mayEnd := by
  cases state with
  | value expr outer =>
    rw [finishExpr, outer.finish_mayEnd] at finished
    contradiction
  | _ => exact finished

private theorem mayEnd_of_finishForm (finished : (state.finishForm next).mayEnd) :
    state.mayEnd := by
  cases state with
  | thenEnd => rfl
  | jumpStart =>
    simp only [finishForm] at finished
    split at finished <;> contradiction
  | _ => exact finished

private theorem mayEnd_of_settle (settled : state.settle next = .statement outer) :
    state.mayEnd := by
  have finished := eq_statement_of_openForm settled
  apply mayEnd_of_finishForm
  apply mayEnd_of_finishExpr
  apply mayEnd_of_finishStmt
  rw [finished]
  rfl

theorem eq_statement_of_openCompound? {place : Place goal} {kind : Kind}
    (opened : openCompound? place kind = some after) (ends : after.mayEnd) :
    ∃ outer, after = .statement outer := by
  unfold openCompound? at opened
  split at opened <;> cases opened <;> first | exact ⟨_, rfl⟩ | contradiction

private theorem eq_statement_of_shift? (taken : state.shift? token = some after)
    (noBrace : token.kind ≠ .rbrace) (ends : after.mayEnd) :
    ∃ outer, after = .statement outer := by
  obtain ⟨kind, literal⟩ := token
  cases state with
  | statement outer =>
    simp only [shift?, shiftStatement?] at taken
    split at taken
    -- The closing brace is left out; a compound begins with a place for statements.
    case h_6 => contradiction
    case h_7 => exact eq_statement_of_openCompound? taken ends
    all_goals
      cases taken
      contradiction
  | operand outer =>
    simp only [shift?, shiftOperand?] at taken
    split at taken
    case h_8 => exact eq_statement_of_openCompound? taken ends
    all_goals
      cases taken
      contradiction
  | value expr outer =>
    simp only [shift?, shiftValue?] at taken
    split at taken
    · cases taken
      contradiction
    · split at taken <;> cases taken
      contradiction
  | argumentEnd | paramEnd =>
    simp only [shift?, onKind] at taken
    split at taken
    · cases taken
      contradiction
    · split at taken <;> cases taken
      contradiction
  | argumentStart | jumpStart => contradiction
  | _ =>
    simp only [shift?, onKind] at taken
    split at taken <;> cases taken
    first | exact ⟨_, rfl⟩ | contradiction

/-- Behind tokens of which the last one closes no brace, and where the text may end, the
next statement has to begin. -/
theorem reach?_append_of_statement {tokens : List Token}
    (reached : state.reach? .eof tokens = some (.statement outer))
    (begins : tokens = [] → state.mayEnd → ∃ outer, state = .statement outer)
    (noBrace : ∀ last ∈ tokens.getLast?, last.kind ≠ .rbrace) (rest : List Token) :
    state.reach? next (tokens ++ rest) = (State.statement outer).reach? next rest := by
  induction tokens generalizing state with
  | nil =>
    have settled := Option.some.inj reached
    obtain ⟨outer, rfl⟩ := begins rfl (mayEnd_of_settle settled)
    cases settled
    rfl
  | cons token tokens ih =>
    simp only [reach?] at reached
    split at reached
    · rename_i after fits
      refine (reach?_cons fits).trans (ih reached ?_ ?_)
      · rintro rfl
        exact eq_statement_of_shift? fits (noBrace token rfl)
      · intro last member
        apply noBrace last
        simp_all [List.getLast?_cons]
    · contradiction

end State

/-! ## Two texts -/

variable {first second : List Char} {program : Program} {error : Spanned SyntaxError}

private theorem State.judgement_prepend (earlier : List Stmt) (settled : State .program)
    (current : Spanned Token) (distance : Nat) :
    (settled.prepend earlier).judgement (current.shift distance) =
      ((settled.judgement current).map (earlier ++ ·)).mapError
        (Spanned.shift distance) := by
  simp only [judgement, verdict, result?_prepend, complaint_prepend, Spanned.shift]
  cases settled.result? <;> rfl

/-- The text does not end right behind a brace: an end of a statement is implied in
between. -/
private theorem Reader.Walk.getLast_ne_rbrace {init : List (Spanned Token)} {length : Nat}
    (walk : Walk 0 false first (init ++ [TokenStream.endToken length])) :
    ∀ last ∈ (init.map (·.node)).getLast?, last.kind ≠ .rbrace := by
  obtain ⟨same, whole, -, last, -⟩ := walk.exists_init
  obtain ⟨rfl, -⟩ := List.append_inj' whole rfl
  rw [List.getLast?_map]
  intro _ found brace
  obtain ⟨token, member, rfl⟩ := Option.map_eq_some_iff.1 found
  exact last token member (by rw [brace]; rfl)

private theorem plain_lineEnd (front : List (Spanned Token)) (ends : Bool)
    (literal literal' : String) (place : Nat) :
    ((front ++ Reader.lineEnd ends literal place).map (·.node)).map Token.plain =
      ((front ++ Reader.lineEnd ends literal' place).map (·.node)).map Token.plain := by
  cases ends <;> simp [Reader.lineEnd, Reader.impliedEnd, Token.plain]

/-- Behind the tokens of a program, the parser stops where it stops without them. -/
theorem StopsAt.behind {init front others taken : List (Spanned Token)}
    {current : Spanned Token} {settled : State .program}
    (stops : StopsAt others taken current settled)
    (reached : (State.start .program).reach? .eof (init.map (·.node)) =
      some (.statement (.program program)))
    (noBrace : ∀ last ∈ (init.map (·.node)).getLast?, last.kind ≠ .rbrace)
    (same : (front.map (·.node)).map Token.plain = (init.map (·.node)).map Token.plain)
    (distance : Nat) :
    StopsAt (front ++ others.map (Spanned.shift distance))
      (front ++ taken.map (Spanned.shift distance)) (current.shift distance)
      (settled.prepend program) := by
  refine ⟨?_, ?_, ?_⟩
  · obtain ⟨rest, rfl⟩ := stops.begins
    simp
  · have start : State.statement (.program program) =
        (State.start .program).prepend program := by
      simp [State.start, State.prepend, SeqContext.prepend]
    rw [List.map_append, map_node_shift, ← State.reach?_plain, List.map_append, same,
      ← List.map_append, State.reach?_plain,
      State.reach?_append_of_statement reached (fun _ _ => ⟨_, rfl⟩) noBrace, start,
      State.reach?_prepend]
    exact congrArg (Option.map _) stops.reached
  · rw [State.shift?_prepend]
    exact congrArg (Option.map _) stops.stuck

theorem parse_append_of_ok (parsed : parse first = .ok program) (second : List Char) :
    parse (first ++ '\n' :: second) =
      ((parse second).map (program ++ ·)).mapError
        (Spanned.shift (Text.byteLength first + 1)) := by
  obtain ⟨tokens, walk⟩ := Reader.exists_walk 0 false first
  obtain ⟨others, walk'⟩ := Reader.exists_walk 0 false second
  obtain ⟨front, ends, rfl, -, both⟩ := walk.append_line
  have later := walk'.shift (Text.byteLength first + 1)
  simp only [Nat.zero_add] at walk both later
  obtain ⟨taken, current, settled, stops⟩ := walk'.exists_stopsAt
  have stops' := stops.behind ((parse_eq_ok_iff walk).1 parsed) walk.getLast_ne_rbrace
    (plain_lineEnd front ends "\n" "" (Text.byteLength first))
    (Text.byteLength first + 1)
  rw [parse_of_stopsAt (both later) stops', parse_of_stopsAt walk' stops,
    State.judgement_prepend]

private theorem parse_append_of_error (fails : parse first = .error error)
    (inside : error.span.start < Text.byteLength first) (second : List Char) :
    parse (first ++ '\n' :: second) = .error error := by
  obtain ⟨tokens, walk⟩ := Reader.exists_walk 0 false first
  obtain ⟨others, walk'⟩ := Reader.exists_walk (Text.byteLength first + 1) false second
  obtain ⟨front, ends, rfl, -, both⟩ := walk.append_line
  simp only [Nat.zero_add] at walk both
  obtain ⟨taken, current, settled, stops⟩ := walk.exists_stopsAt
  obtain ⟨-, rfl⟩ := parse_eq_error walk stops fails
  -- What is due to the end of the text starts there, the offender starts in front of it.
  have outside : current ∉ Reader.lineEnd ends "" (Text.byteLength first) ++
      [TokenStream.endToken (Text.byteLength first)] := by
    intro member
    apply Nat.ne_of_lt inside
    rcases List.mem_append.1 member with due | last
    · exact Reader.start_of_mem_lineEnd due
    · obtain rfl := List.mem_singleton.1 last
      rfl
  have said := parse_of_stopsAt walk stops
  rw [List.append_assoc] at stops
  have stops' := stops.exchange outside
    (Reader.lineEnd ends "\n" (Text.byteLength first) ++ others)
  rw [← List.append_assoc] at stops'
  rw [parse_of_stopsAt (both walk') stops', ← said, fails]

/-! ## Places -/

theorem Text.lastPiece_append_line (before after : List Char) :
    lastPiece (before ++ '\n' :: after) = lastPiece after := by
  have stops : ¬ decide ('\n' ≠ '\n') := by simp
  simp only [lastPiece, List.reverse_append, List.reverse_cons, List.append_assoc,
    List.singleton_append]
  rw [Lexeme.takeWhile_append_separator stops]

namespace Source

variable {name : String} {offset : Nat} {position : Position}

theorem position?_of_append {source : Source} {before after : List Char}
    (text : source.text = before ++ after) :
    source.position? (Text.byteLength before) =
      some ⟨before.count '\n' + 1, (Text.lastPiece before).length + 1⟩ := by
  simp only [position?, text, Text.splitAtByte?_append]
  rfl

private theorem position?_append_line {first second : String}
    (found : position? ⟨name, second⟩ offset = some position) :
    position? ⟨name, first ++ "\n" ++ second⟩
        (offset + (Text.byteLength first.toList + 1)) =
      some ⟨position.line + (first.toList.count '\n' + 1), position.column⟩ := by
  obtain ⟨⟨before, after⟩, split, rfl⟩ := Option.map_eq_some_iff.1 found
  obtain ⟨text, rfl⟩ := Text.eq_append_of_splitAtByte? split
  have whole : Source.text ⟨name, first ++ "\n" ++ second⟩ =
      (first.toList ++ '\n' :: before) ++ after := by
    have code : second.toList = before ++ after := text
    simp [Source.text, code]
  have length : Text.byteLength (first.toList ++ '\n' :: before) =
      Text.byteLength before + (Text.byteLength first.toList + 1) := by
    have newline : Char.utf8Size '\n' = 1 := by decide
    rw [Text.byteLength_append, Text.byteLength, newline]
    omega
  have lines : (first.toList ++ '\n' :: before).count '\n' =
      before.count '\n' + (first.toList.count '\n' + 1) := by
    rw [List.count_append, List.count_cons_self]
    omega
  rw [← length, position?_of_append whole, Text.lastPiece_append_line, lines,
    Nat.add_right_comm]

private theorem exists_position_of_error {source : Source} {error : Spanned SyntaxError}
    (fails : parse source.text = .error error) :
    ∃ position, source.position? error.span.start = some position := by
  obtain ⟨tokens, walk⟩ := Reader.exists_walk 0 false source.text
  obtain ⟨taken, current, settled, stops⟩ := walk.exists_stopsAt
  obtain ⟨-, rfl⟩ := parse_eq_error walk stops fails
  obtain ⟨before, after, text, start, -⟩ :=
    walk.tiles.exists_split current (stops.begins.subset (by simp))
  rw [Nat.zero_add] at start
  exact ⟨_, start ▸ position?_of_append text⟩

end Source

/-- A line break splits the parsing of a text.  A program in front of it is followed by
what comes of the rest on its own, and errors in the rest are shown further down.  An
error that lies in front of it is the only one. -/
theorem parse_append_line (name first second : String) :
    let whole : Source := ⟨name, first ++ "\n" ++ second⟩
    let distance := Text.byteLength first.toList + 1
    (∀ program, parse first.toList = .ok program →
      (∀ program', parse second.toList = .ok program' →
        parse whole.text = .ok (program ++ program')) ∧
      ∀ error, parse second.toList = .error error →
        parse whole.text = .error (error.shift distance) ∧
        ∃ position, Source.position? ⟨name, second⟩ error.span.start = some position ∧
          whole.position? (error.shift distance).span.start =
            some ⟨position.line + (first.toList.count '\n' + 1), position.column⟩) ∧
    ∀ error, parse first.toList = .error error →
      error.span.start < Text.byteLength first.toList →
        parse whole.text = .error error := by
  intro whole distance
  have text : whole.text = first.toList ++ '\n' :: second.toList := by
    simp [whole, Source.text]
  rw [text]
  refine ⟨fun program parsed => ⟨fun program' parsed' => ?_, fun error fails => ?_⟩, ?_⟩
  · rw [parse_append_of_ok parsed, parsed']
    rfl
  · obtain ⟨position, found⟩ := @Source.exists_position_of_error ⟨name, second⟩ _ fails
    refine ⟨?_, position, found, Source.position?_append_line found⟩
    rw [parse_append_of_ok parsed, fails]
    rfl
  · intro error fails inside
    exact parse_append_of_error fails inside second.toList

/-- An alternative in the next line comes too late. -/
theorem parse_append_line_condition :
    let chain := "if a \x7b\x7d"
    let program : Program := [.compound (.conditional (.only (.ident "a") []))]
    let call : Stmt := .expr (.call (.ident "f") [])
    parse (Source.text ⟨"main", chain ++ "\n" ++ "f()"⟩) = .ok (program ++ [call]) ∧
      parse (Source.text ⟨"main", chain ++ "\n" ++ "else"⟩) =
        .error ⟨⟨8, 12⟩, .noOperand (.ofKind .kwElse)⟩ ∧
      parse (Source.text ⟨"main", "let =" ++ "\n" ++ "f()"⟩) =
        .error ⟨⟨4, 5⟩, .missing .ident (.ofKind .assign)⟩ := by
  intro chain program call
  have parsed : parse chain.toList = .ok program := by decide +kernel
  have parsed' : parse "f()".toList = .ok [call] := by decide +kernel
  have fails : parse "else".toList =
      .error ⟨⟨0, 4⟩, .noOperand (.ofKind .kwElse)⟩ := by decide +kernel
  have fails' : parse "let =".toList =
      .error ⟨⟨4, 5⟩, .missing .ident (.ofKind .assign)⟩ := by decide +kernel
  refine ⟨?_, ?_, ?_⟩
  · exact ((parse_append_line "main" chain "f()").1 program parsed).1 [call] parsed'
  · have distance : Text.byteLength chain.toList = 7 := by decide
    rw [(((parse_append_line "main" chain "else").1 program parsed).2 _ fails).1, distance]
    rfl
  · exact (parse_append_line "main" "let =" "f()").2 _ fails' (by decide)

end OasisSyntax
