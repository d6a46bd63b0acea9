import OasisSyntax.Proofs.Report.Columns
import OasisSyntax.Proofs.Report.Positions

/-!
# Carets under a line

On a terminal that draws every character by itself, the carets of a syntax error stand
under the line that is shown above them: the line begins with all that stands in front of
the error behind the last line feed, and it goes on with what stands under the error.  There
is one exception: the line does not show a carriage return in front of its line feed, but a
caret for the line feed is placed behind it.
-/

namespace OasisSyntax

/-! ## The text under an error -/

def Text.IsVisible (text : List Char) : Prop :=
  ∀ char ∈ text, 0x20 < char.toNat ∧ char.toNat < 0x80

private theorem Lexeme.text_cases (text : List Char) :
    Text.IsVisible (head text).text ∨
      ∃ char, head text = ⟨.illegal, [char]⟩ := by
  have word {char : Char} (part : isWordPart char) :
      0x20 < char.toNat ∧ char.toNat < 0x80 := by
    rw [isWordPart_iff, isWordStart_iff, isDigit_iff] at part
    omega
  have symbols : ∀ kind ∈ Kind.symbols, ∀ char ∈ kind.spelling.toList,
      0x20 < char.toNat ∧ char.toNat < 0x80 := by
    simp [Kind.symbols, Kind.spelling]
  cases text with
  | nil => exact .inl fun char member => absurd member List.not_mem_nil
  | cons char rest =>
    rcases head_cons char rest with ⟨start, named⟩ | ⟨start, int⟩ | ⟨kind, listed, symbol⟩ |
      illegal
    · rw [named]
      refine .inl (List.forall_mem_cons.2 ⟨word (isWordPart_iff.2 (.inl start)), ?_⟩)
      exact fun other member => word (List.mem_takeWhile_imp member)
    · rw [int]
      refine .inl (List.forall_mem_cons.2 ⟨word (isWordPart_iff.2 (.inr start)), ?_⟩)
      exact fun other member =>
        word (isWordPart_iff.2 (.inr (List.mem_takeWhile_imp member)))
    · rw [symbol]
      exact .inl (symbols kind listed)
    · exact .inr ⟨char, illegal⟩

private theorem Token.covered_cases {token : Token} {after : List Char}
    (read : token.isWritten → token = (Lexeme.head (token.covered ++ after)).token) :
    Text.IsVisible token.covered ∨
      ∃ char, token = ⟨.illegal, String.ofList [char]⟩ ∧ token.covered = [char] := by
  by_cases written : token.isWritten
  · have same := read written
    have lexeme : token.covered = (Lexeme.head (token.covered ++ after)).text := calc
      token.covered = token.literal.toList := by rw [covered, if_pos written]
      _ = (Lexeme.head (token.covered ++ after)).token.literal.toList :=
        congrArg (fun token => token.literal.toList) same
      _ = (Lexeme.head (token.covered ++ after)).text := String.toList_ofList
    rcases Lexeme.text_cases (token.covered ++ after) with legal | ⟨char, illegal⟩
    · rw [← lexeme] at legal
      exact .inl legal
    · rw [illegal] at same lexeme
      exact .inr ⟨char, same, lexeme⟩
  · left
    rw [covered, if_neg written]
    exact fun char member => absurd member List.not_mem_nil

/-! ## The line that is shown -/

namespace Text

private theorem length_splitOn (text : List Char) :
    (text.splitOn '\n').length = text.count '\n' + 1 := by
  induction text using induction_on_pieces with
  | final piece whole =>
    rw [List.splitOn_eq_singleton whole, List.count_eq_zero.2 whole]
    rfl
  | line piece rest whole ih =>
    rw [List.splitOn_append_cons_self_of_not_mem whole, List.length_cons, ih,
      count_line whole]

def shownLine (before after : List Char) : List Char :=
  (lines (before ++ after))[before.count '\n']?.getD []

theorem lines_around (before after : List Char) :
    shownLine before after =
      if '\n' ∈ after then dropFinalReturn (lastPiece before ++ after.takeWhile (· ≠ '\n'))
      else lastPiece before ++ after.takeWhile (· ≠ '\n') := by
  rw [shownLine, lines_getD (piece_around before after), length_splitOn, List.count_append]
  by_cases breaks : '\n' ∈ after
  · have behind := List.count_pos_iff.2 breaks
    rw [if_pos breaks, if_pos (by omega)]
  · have behind := List.count_eq_zero.2 breaks
    rw [if_neg breaks, if_neg (by omega)]

/-- A place between a carriage return and its line feed. -/
def IsInBreak (before after : List Char) : Prop :=
  before.getLast? = some '\r' ∧ after.head? = some '\n'

instance (before after : List Char) : Decidable (IsInBreak before after) :=
  inferInstanceAs (Decidable (_ ∧ _))

theorem lastPiece_isSuffix (text : List Char) : lastPiece text <:+ text := by
  have front := List.takeWhile_prefix (l := text.reverse) (· ≠ '\n')
  rw [← List.reverse_suffix, List.reverse_reverse] at front
  exact front

theorem newline_notMem_takeWhile (text : List Char) :
    '\n' ∉ text.takeWhile (· ≠ '\n') := fun member =>
  absurd (List.mem_takeWhile_imp member) (by decide)

theorem newline_notMem_lastPiece (text : List Char) : '\n' ∉ lastPiece text := fun member =>
  newline_notMem_takeWhile text.reverse (List.mem_reverse.1 member)

theorem dropFinalReturn_of_ne {line : List Char} (other : line.getLast? ≠ some '\r') :
    dropFinalReturn line = line := if_neg other

theorem dropFinalReturn_concat (line : List Char) :
    dropFinalReturn (line ++ ['\r']) = line := by
  rw [dropFinalReturn, if_pos List.getLast?_concat, List.dropLast_concat]

private theorem head?_of_takeWhile_eq_nil {text : List Char} (breaks : '\n' ∈ text)
    (nothing : text.takeWhile (· ≠ '\n') = []) : text.head? = some '\n' := by
  obtain ⟨front, rest, rfl, whole⟩ := List.eq_append_cons_of_mem breaks
  rw [List.takeWhile_append_of_pos (passed_of_notMem whole)] at nothing
  obtain rfl := (List.append_eq_nil_iff.1 nothing).1
  rfl

/-- In front of a line feed there is a carriage return only if the place is between them. -/
private theorem getLast?_ne_return {before slice after : List Char}
    (visible : ∀ char ∈ slice, char ≠ '\n' ∧ char ≠ '\r')
    (outside : ¬ IsInBreak before (slice ++ after)) (breaks : after.head? = some '\n') :
    (lastPiece before ++ slice).getLast? ≠ some '\r' := by
  rcases List.eq_nil_or_concat slice with rfl | ⟨init, last, rfl⟩
  · intro return'
    obtain ⟨front, whole⟩ := lastPiece_isSuffix before
    rw [List.append_nil] at return'
    refine outside ⟨?_, breaks⟩
    rw [← whole, List.getLast?_append, return', Option.some_or]
  · rw [List.concat_eq_append] at visible ⊢
    rw [← List.append_assoc, List.getLast?_concat]
    exact fun same => (visible last (by simp)).2 (Option.some.inj same)

/-- At most a carriage return at its end is missing from the line that is shown. -/
private theorem exists_shown {before slice after : List Char}
    (visible : ∀ char ∈ slice, char ≠ '\n' ∧ char ≠ '\r')
    (outside : ¬ IsInBreak before (slice ++ after)) :
    ∃ rest, rest <+: after ∧ '\n' ∉ rest ∧
      shownLine before (slice ++ after) = lastPiece before ++ (slice ++ rest) := by
  have passed : ∀ char ∈ slice, decide (char ≠ '\n') = true :=
    fun char member => decide_eq_true (visible char member).1
  have noBreak := newline_notMem_takeWhile after
  have front : after.takeWhile (· ≠ '\n') <+: after := List.takeWhile_prefix _
  rw [lines_around, List.takeWhile_append_of_pos passed]
  by_cases breaks : '\n' ∈ slice ++ after
  · rw [if_pos breaks]
    rcases List.eq_nil_or_concat (after.takeWhile (· ≠ '\n')) with nothing | ⟨init, last, more⟩
    · refine ⟨[], List.nil_prefix, List.not_mem_nil, ?_⟩
      have breaks' : '\n' ∈ after := (List.mem_append.1 breaks).resolve_left
        fun member => (visible _ member).1 rfl
      rw [nothing, List.append_nil]
      exact dropFinalReturn_of_ne
        (getLast?_ne_return visible outside (head?_of_takeWhile_eq_nil breaks' nothing))
    · rw [List.concat_eq_append] at more
      rw [more] at noBreak front ⊢
      by_cases return' : last = '\r'
      · refine ⟨init, (List.prefix_append init [last]).trans front,
          fun member => noBreak (List.mem_append_left _ member), ?_⟩
        rw [return', ← List.append_assoc, ← List.append_assoc, dropFinalReturn_concat,
          List.append_assoc]
      · refine ⟨_, front, noBreak, dropFinalReturn_of_ne ?_⟩
        rw [← List.append_assoc, ← List.append_assoc, List.getLast?_concat]
        exact fun same => return' (Option.some.inj same)
  · exact ⟨_, front, noBreak, if_neg breaks⟩

private theorem shown_in_break (init more : List Char) :
    shownLine (init ++ ['\r']) ('\n' :: more) = lastPiece init := by
  rw [lines_around, if_pos (.head more), List.takeWhile_cons_of_neg (by decide),
    List.append_nil, lastPiece_append (by decide), dropFinalReturn_concat]

/-! ## Columns under the line -/

private theorem ne_break_of_visible {char : Char} (visible : 0x20 < char.toNat) :
    char ≠ '\n' ∧ char ≠ '\r' :=
  ⟨fun same => absurd (same ▸ visible) (by decide),
    fun same => absurd (same ▸ visible) (by decide)⟩

private theorem single_of_break {slice after : List Char}
    (spelled : IsVisible slice ∨ ∃ char, slice = [char])
    (breaks : (slice ++ after).head? = some '\n') : slice = [] ∨ slice = ['\n'] := by
  cases slice with
  | nil => exact .inl rfl
  | cons char rest =>
    obtain rfl : char = '\n' := Option.some.inj breaks
    rcases spelled with visible | ⟨char, single⟩
    · exact absurd (visible '\n' (.head rest)).1 (by decide)
    · exact .inr (by rw [single, ← (List.cons.inj single).1])

end Text

namespace Terminal.DrawsApart

open Text

variable {terminal : Terminal} {width : Char → Nat} {before slice after : List Char}

theorem columns_lastPiece (apart : terminal.DrawsApart width (before ++ after)) :
    terminal.columns (lastPiece before).reverse = ((lastPiece before).map width).sum := by
  have inside : (lastPiece before).reverse ⊆ before ++ after := fun char member =>
    List.mem_append_left _ ((lastPiece_isSuffix before).subset (List.mem_reverse.1 member))
  have whole : '\n' ∉ (lastPiece before).reverse := fun member =>
    newline_notMem_lastPiece before (List.mem_reverse.1 member)
  rw [apart.columns_line inside whole, List.map_reverse, List.sum_reverse]

theorem marks_under_line (apart : terminal.DrawsApart width (before ++ (slice ++ after)))
    (inLine : ∀ char ∈ slice, char ≠ '\n' ∧ char ≠ '\r')
    (outside : ¬ IsInBreak before (slice ++ after)) :
    terminal.columns (lastPiece before).reverse + terminal.columns slice ≤
      terminal.columns (shownLine before (slice ++ after)) := by
  obtain ⟨rest, begins, noBreak, line⟩ := exists_shown inLine outside
  have noBreak' : '\n' ∉ slice := fun member => (inLine _ member).1 rfl
  have under : slice ⊆ before ++ (slice ++ after) := fun char member =>
    List.mem_append_right _ (List.mem_append_left _ member)
  have inside : lastPiece before ++ (slice ++ rest) ⊆ before ++ (slice ++ after) := by
    intro char member
    simp only [List.mem_append] at member ⊢
    exact member.imp (fun inPiece => (lastPiece_isSuffix before).subset inPiece)
      (Or.imp_right fun behind => begins.subset behind)
  have whole : '\n' ∉ lastPiece before ++ (slice ++ rest) := by
    simp only [List.mem_append, newline_notMem_lastPiece, noBreak', noBreak, or_self,
      not_false_eq_true]
  rw [line, apart.columns_lastPiece, apart.columns_line under noBreak',
    apart.columns_line inside whole]
  simp only [List.map_append, List.sum_append]
  omega

theorem columns_break_le {char : Char}
    (apart : terminal.DrawsApart width (before ++ ([char] ++ after)))
    (breaks : ¬ (char ≠ '\n' ∧ char ≠ '\r')) : terminal.columns [char] ≤ 1 := by
  have under : [char] ⊆ before ++ ([char] ++ after) := fun other member =>
    List.mem_append_right _ (List.mem_append_left _ member)
  have alone : sumColumns width [char] = width char := by simp [sumColumns]
  rw [apart.columns_eq _ under, alone]
  by_cases feed : char = '\n'
  · rw [feed, apart.lineFeed]
    exact Nat.zero_le 1
  · obtain rfl : char = '\r' := Decidable.of_not_not fun other => breaks ⟨feed, other⟩
    exact Nat.le_of_eq apart.carriageReturn

/-- Outside of line breaks the marks are under the line that is shown, or one column behind
it. -/
private theorem marks_fit (apart : terminal.DrawsApart width (before ++ (slice ++ after)))
    (spelled : IsVisible slice ∨ ∃ char, slice = [char])
    (outside : ¬ IsInBreak before (slice ++ after)) :
    let indent := terminal.columns (lastPiece before).reverse
    let width := terminal.columns (shownLine before (slice ++ after))
    indent ≤ width ∧ indent + max (terminal.columns slice) 1 ≤ width + 1 := by
  dsimp only
  rcases spelled with visible | ⟨char, rfl⟩
  · have covered := apart.marks_under_line
      (fun char member => ne_break_of_visible (visible char member).1) outside
    omega
  · by_cases inLine : char ≠ '\n' ∧ char ≠ '\r'
    · have covered := apart.marks_under_line (List.forall_mem_singleton.2 inLine) outside
      omega
    -- The line may stop in front of a line break.
    · have narrow := apart.columns_break_le inLine
      have covered := @marks_under_line terminal width before [] ([char] ++ after) apart
        (by simp) outside
      rw [List.nil_append] at covered
      omega

/-- Behind a carriage return one caret marks the line feed, but the line that is shown has
ended in front of both. -/
theorem marks_in_break (apart : terminal.DrawsApart width (before ++ (slice ++ after)))
    (spelled : IsVisible slice ∨ ∃ char, slice = [char])
    (inBreak : IsInBreak before (slice ++ after)) :
    terminal.columns (lastPiece before).reverse =
        terminal.columns (shownLine before (slice ++ after)) + 1 ∧
      max (terminal.columns slice) 1 = 1 := by
  obtain ⟨return', breaks⟩ := inBreak
  obtain ⟨init, rfl⟩ := List.getLast?_eq_some_iff.1 return'
  obtain ⟨more, behind⟩ := List.head?_eq_some_iff.1 breaks
  constructor
  · have inside : lastPiece init ⊆ init ++ ['\r'] ++ (slice ++ after) := fun char member =>
      List.mem_append_left _ (List.mem_append_left _ ((lastPiece_isSuffix init).subset member))
    rw [apart.columns_lastPiece, lastPiece_append (by decide), behind, shown_in_break,
      apart.columns_line inside (newline_notMem_lastPiece init)]
    simp only [List.map_append, List.map_cons, List.map_nil, List.sum_append, List.sum_cons,
      List.sum_nil, apart.carriageReturn, Nat.add_zero]
  · rcases single_of_break spelled breaks with rfl | rfl
    · rw [apart.columns_line (List.nil_subset _) List.not_mem_nil]
      rfl
    · exact Nat.max_eq_right (apart.columns_break_le (by simp))

end Terminal.DrawsApart

theorem Diagnostic.ofSpan?_append (terminal : Terminal) {source : Source} {span : Span}
    {before slice after : List Char} (whole : source.text = before ++ (slice ++ after))
    (start : span.start = Text.byteLength before)
    (stop : span.stop = span.start + Text.byteLength slice) (message : String) :
    let line := String.ofList (Text.shownLine before (slice ++ after))
    let excerpt : Excerpt := ⟨before.count '\n' + 1, line,
      terminal.columns (Text.lastPiece before).reverse, max (terminal.columns slice) 1⟩
    ofSpan? terminal source span message = some ⟨message, source.name,
      ⟨before.count '\n' + 1, (Text.lastPiece before).length + 1⟩, excerpt⟩ := by
  have split := Text.splitAtByte?_append before (slice ++ after)
  have sliced := Text.sliceBytes?_append before slice after
  rw [Text.shownLine, ← whole]
  rw [← whole] at split sliced
  simp only [ofSpan?, Excerpt.ofSpan?, stop, start, Source.position?_of_append whole, split,
    sliced, Option.bind_eq_bind, Option.bind_some, Nat.add_sub_cancel]
  rfl

private theorem exists_place_of_parse_error {text : List Char} {error : Spanned SyntaxError}
    (fails : parse text = .error error) :
    ∃ before slice after, text = before ++ (slice ++ after) ∧
      error.span.start = Text.byteLength before ∧
      error.span.stop = error.span.start + Text.byteLength slice ∧
      (Text.IsVisible slice ∨ ∃ char, slice = [char]) := by
  obtain ⟨token, member, span⟩ := @Session.exists_token_of_error text [] .program error fails
  obtain ⟨before, after, whole, start, stop, read⟩ :=
    (Reader.walk_ofText text).tiles.exists_split token member
  rw [Nat.zero_add] at start
  rw [span]
  refine ⟨before, token.node.covered, after, whole, start, stop, ?_⟩
  exact (Token.covered_cases fun written => (read written).2).imp_right fun illegal =>
    illegal.imp fun char spelled => spelled.2

/-- In a report without colors, the first caret stands under a character of the line or
directly behind its last one, and the carets do not go on behind that place.  Only an error
at the line feed behind a carriage return is marked one column further: the line that is
shown ends in front of the carriage return, and the caret is placed behind it. -/
theorem carets_stand_under_line (terminal : Terminal) (width : Char → Nat) (source : Source)
    (apart : terminal.DrawsApart width source.text) (error : Spanned SyntaxError)
    (fails : parse source.text = .error error) :
    ∃ before after diagnostic, source.text = before ++ after ∧
      error.span.start = Text.byteLength before ∧
      Diagnostic.ofError? terminal source error = some diagnostic ∧
      let excerpt := diagnostic.excerpt
      let line := toString diagnostic.position.line
      let margin := Text.spaces (line.length + 1)
      let marks := Text.spaces excerpt.indent ++
        String.ofList (List.replicate excerpt.carets '^')
      let width := terminal.columns excerpt.line.toList
      diagnostic.render terminal false = s!"error: {error.node.message}\n" ++
        s!"--> {source.name}:{line}:{diagnostic.position.column}\n" ++
          s!"{margin}|\n{line} |{excerpt.line}\n{margin}|{marks}" ∧
      1 ≤ excerpt.carets ∧
      if Text.IsInBreak before after then
        excerpt.indent = width + 1 ∧ excerpt.carets = 1
      else excerpt.indent ≤ width ∧ excerpt.indent + excerpt.carets ≤ width + 1 := by
  obtain ⟨before, slice, after, whole, start, stop, spelled⟩ :=
    exists_place_of_parse_error fails
  have shown := Diagnostic.ofSpan?_append terminal whole start stop error.node.message
  rw [whole] at apart
  refine ⟨before, slice ++ after, _, whole, start, shown, ?_⟩
  intro excerpt line margin marks width
  have measured : width = terminal.columns (Text.shownLine before (slice ++ after)) :=
    congrArg terminal.columns String.toList_ofList
  refine ⟨?_, Nat.le_max_right _ _, ?_⟩
  · have plain (text : String) : toString text = text := rfl
    simp only [Diagnostic.render, Excerpt.render, Excerpt.marker, plain, excerpt, line, margin,
      marks, String.append_assoc]
    rfl
  · rw [measured]
    split
    · rename_i inBreak
      exact apart.marks_in_break spelled inBreak
    · rename_i outside
      exact apart.marks_fit spelled outside

/-- A wide character, which takes both of its columns. -/
theorem carets_stand_under_line_wide :
    let source : Source := ⟨"main", "a こ b"⟩
    let error : Spanned SyntaxError := ⟨⟨2, 5⟩, .missing .semi ⟨.illegal, "こ"⟩⟩
    Terminal.standard.DrawsApart Text.charColumns source.text ∧
      parse source.text = .error error ∧
      ∃ diagnostic, Diagnostic.ofError? .standard source error = some diagnostic ∧
        let width := Text.columns diagnostic.excerpt.line.toList
        diagnostic.excerpt.indent ≤ width ∧
        diagnostic.excerpt.indent + diagnostic.excerpt.carets ≤ width + 1 := by
  intro source error
  have fails : parse source.text = .error error := by decide +kernel
  have apart : Terminal.standard.DrawsApart Text.charColumns source.text :=
    Terminal.standard_drawsApart (by decide +kernel)
  obtain ⟨before, after, diagnostic, whole, start, shown, -, -, fit⟩ :=
    carets_stand_under_line .standard Text.charColumns source apart error fails
  have split := Text.splitAtByte?_append before after
  have place : Text.splitAtByte? 2 source.text = some (['a', ' '], ['こ', ' ', 'b']) := by
    decide +kernel
  rw [← whole, ← start, place] at split
  obtain ⟨rfl, rfl⟩ := Prod.mk.inj (Option.some.inj split)
  rw [if_neg (by decide)] at fit
  exact ⟨apart, fails, diagnostic, shown, fit⟩

/-- The caret for a line feed behind a carriage return does not touch the line, on any
terminal that draws the characters by themselves; the standard one does. -/
theorem not_carets_stand_under_return :
    let source : Source := ⟨"main", "f(1\r\n2)"⟩
    let error : Spanned SyntaxError := ⟨⟨4, 4⟩, .missing .rparen ⟨.semi, "\n"⟩⟩
    parse source.text = .error error ∧
      Terminal.standard.DrawsApart Text.charColumns source.text ∧
      ∀ terminal width, Terminal.DrawsApart terminal width source.text →
        ∃ diagnostic, Diagnostic.ofError? terminal source error = some diagnostic ∧
          ¬ diagnostic.excerpt.indent ≤ terminal.columns diagnostic.excerpt.line.toList := by
  intro source error
  refine ⟨by decide +kernel, Terminal.standard_drawsApart (by decide +kernel), ?_⟩
  intro terminal width apart
  have whole : source.text = ['f', '(', '1', '\r'] ++ ([] ++ ['\n', '2', ')']) := by
    decide +kernel
  have shown := @Diagnostic.ofSpan?_append terminal source error.span _ _ _ whole rfl rfl
    error.node.message
  have nothing : Text.IsVisible [] := fun char member => absurd member List.not_mem_nil
  have marks := (whole ▸ apart).marks_in_break (.inl nothing) (by decide)
  refine ⟨_, shown, ?_⟩
  rw [String.toList_ofList, marks.1]
  exact Nat.not_succ_le_self _

end OasisSyntax
