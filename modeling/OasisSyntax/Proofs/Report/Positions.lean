import Mathlib.Algebra.GroupWithZero.Nat
import Mathlib.Data.List.TakeWhile
import OasisSyntax.CommandLine.Terminal
import OasisSyntax.Proofs.Parsing.Lines
import OasisSyntax.Proofs.Report.Places

/-!
# Positions and offsets

Line and column of a place come out of the text in front of it.  They can be turned back
into the offset: the pieces between the line feeds of a text are numbered, and the line
tells the piece, the column how much of it is in front of the place.  The line that is
shown with a message is that same piece, although it is looked up among the lines as they
are shown, which have no carriage return at their ends and are one fewer than the pieces
when the text ends in a line feed.
-/

namespace OasisSyntax

namespace Text

theorem cut_eq_splitOn (mark : Char) (text : List Char) :
    cut mark text = text.splitOn mark := by
  induction text with
  | nil => rfl
  | cons char rest ih =>
    have present := List.splitOn_ne_nil mark rest
    rw [cut, ih, List.splitOn_cons_eq_if_modifyHead]
    by_cases same : char = mark
    · simp [same]
    · cases cutRest : rest.splitOn mark with
      | nil => contradiction
      | cons piece following => simp [same]

/-- Where a piece of a text starts: every piece in front of it ends with a line feed. -/
def pieceStart (text : List Char) (index : Nat) : Nat :=
  (((text.splitOn '\n').take index).map fun piece => byteLength piece + 1).sum

theorem induction_on_pieces {motive : List Char → Prop}
    (final : ∀ piece, '\n' ∉ piece → motive piece)
    (line : ∀ piece rest, '\n' ∉ piece → motive rest → motive (piece ++ '\n' :: rest))
    (text : List Char) : motive text := by
  by_cases breaks : '\n' ∈ text
  · obtain ⟨piece, rest, split, whole⟩ := List.eq_append_cons_of_mem breaks
    have shorter : rest.length < text.length := by
      rw [split, List.length_append, List.length_cons]
      omega
    rw [split]
    exact line piece rest whole (induction_on_pieces final line rest)
  · exact final text breaks
termination_by text.length

theorem byteLength_line (piece rest : List Char) :
    byteLength (piece ++ '\n' :: rest) = byteLength piece + 1 + byteLength rest := by
  have newline : Char.utf8Size '\n' = 1 := by decide
  rw [byteLength_append, byteLength, newline]
  omega

theorem passed_of_notMem {piece : List Char} (whole : '\n' ∉ piece) :
    ∀ char ∈ piece, decide (char ≠ '\n') = true :=
  fun _ member => decide_eq_true (ne_of_mem_of_not_mem member whole)

theorem lastPiece_append {more : List Char} (whole : '\n' ∉ more) (before : List Char) :
    lastPiece (before ++ more) = lastPiece before ++ more := by
  have passed := passed_of_notMem (mt List.mem_reverse.1 whole)
  rw [lastPiece, List.reverse_append, List.takeWhile_append_of_pos passed,
    List.reverse_append, List.reverse_reverse, lastPiece]

theorem lastPiece_eq_self {piece : List Char} (whole : '\n' ∉ piece) :
    lastPiece piece = piece := lastPiece_append whole []

theorem pieceStart_succ {piece : List Char} (whole : '\n' ∉ piece) (rest : List Char)
    (index : Nat) :
    pieceStart (piece ++ '\n' :: rest) (index + 1) =
      byteLength piece + 1 + pieceStart rest index := by
  rw [pieceStart, List.splitOn_append_cons_self_of_not_mem whole, List.take_succ_cons,
    List.map_cons, List.sum_cons, pieceStart]

theorem count_line {piece : List Char} (whole : '\n' ∉ piece) (rest : List Char) :
    (piece ++ '\n' :: rest).count '\n' = rest.count '\n' + 1 := by
  rw [List.count_append, List.count_cons_self, List.count_eq_zero.2 whole, Nat.zero_add]

/-- A place in a text is in the piece that is made of what stands around it up to the
line feeds. -/
theorem piece_around (before after : List Char) :
    ((before ++ after).splitOn '\n')[before.count '\n']? =
      some (lastPiece before ++ after.takeWhile (· ≠ '\n')) := by
  induction before using induction_on_pieces with
  | final before whole =>
    rw [lastPiece_eq_self whole, List.count_eq_zero.2 whole]
    by_cases breaks : '\n' ∈ after
    · obtain ⟨front, rest, rfl, inside⟩ := List.eq_append_cons_of_mem breaks
      rw [List.takeWhile_append_of_pos (passed_of_notMem inside),
        List.takeWhile_cons_of_neg (by decide), List.append_nil, ← List.append_assoc,
        List.splitOn_append_cons_self_of_not_mem (List.not_mem_append whole inside)]
      rfl
    · rw [List.takeWhile_eq_self_iff.2 (passed_of_notMem breaks),
        List.splitOn_eq_singleton (List.not_mem_append whole breaks)]
      rfl
  | line piece rest whole ih =>
    rw [count_line whole, lastPiece_append_line, List.append_assoc, List.cons_append,
      List.splitOn_append_cons_self_of_not_mem whole, List.getElem?_cons_succ, ih]

private theorem pieceStart_around (before after : List Char) :
    pieceStart (before ++ after) (before.count '\n') + byteLength (lastPiece before) =
      byteLength before := by
  induction before using induction_on_pieces with
  | final before whole =>
    rw [lastPiece_eq_self whole, List.count_eq_zero.2 whole]
    exact Nat.zero_add _
  | line piece rest whole ih =>
    rw [count_line whole, lastPiece_append_line, List.append_assoc, List.cons_append,
      pieceStart_succ whole, byteLength_line, Nat.add_assoc, ih]

private theorem exists_before_first {piece : List Char} (whole : '\n' ∉ piece) (rest : List Char)
    (column : Nat) :
    ∃ before after, piece ++ rest = before ++ after ∧ before.count '\n' = 0 ∧
      lastPiece before = piece.take column ∧
      byteLength before = pieceStart (piece ++ rest) 0 + byteLength (piece.take column) := by
  have front : '\n' ∉ piece.take column := fun member => whole (List.mem_of_mem_take member)
  refine ⟨piece.take column, piece.drop column ++ rest, ?_, List.count_eq_zero.2 front,
    lastPiece_eq_self front, (Nat.zero_add _).symm⟩
  rw [← List.append_assoc, List.take_append_drop]

private theorem exists_before {text piece : List Char} {index : Nat}
    (found : (text.splitOn '\n')[index]? = some piece) (column : Nat) :
    ∃ before after, text = before ++ after ∧ before.count '\n' = index ∧
      lastPiece before = piece.take column ∧
      byteLength before = pieceStart text index + byteLength (piece.take column) := by
  induction text using induction_on_pieces generalizing index with
  | final only whole =>
    rw [List.splitOn_eq_singleton whole] at found
    cases index with
    | zero =>
      obtain rfl : only = piece := Option.some.inj found
      have cut := exists_before_first whole [] column
      rwa [List.append_nil] at cut
    | succ index => contradiction
  | line front rest whole ih =>
    rw [List.splitOn_append_cons_self_of_not_mem whole] at found
    cases index with
    | zero =>
      obtain rfl : front = piece := Option.some.inj found
      exact exists_before_first whole ('\n' :: rest) column
    | succ index =>
      obtain ⟨before, after, rfl, number, last, length⟩ := ih found
      refine ⟨front ++ '\n' :: before, after, ?_, ?_, ?_, ?_⟩
      · rw [List.append_assoc, List.cons_append]
      · rw [count_line whole, number]
      · rw [lastPiece_append_line, last]
      · rw [byteLength_line, pieceStart_succ whole, length, ← Nat.add_assoc]

/-- The line that is shown is the piece of the same number, without a carriage return in
front of a line feed. -/
theorem linesOfPieces_getD {pieces : List (List Char)} {piece : List Char} {index : Nat}
    (found : pieces[index]? = some piece) :
    (linesOfPieces pieces)[index]?.getD [] =
      if index + 1 < pieces.length then dropFinalReturn piece else piece := by
  induction pieces generalizing index with
  | nil => contradiction
  | cons first following ih =>
    cases following with
    | nil =>
      cases index with
      | zero =>
        obtain rfl : first = piece := Option.some.inj found
        cases first <;> rfl
      | succ index => contradiction
    | cons second following =>
      cases index with
      | zero =>
        obtain rfl : first = piece := Option.some.inj found
        rw [if_pos (by simp)]
        rfl
      | succ index =>
        rw [linesOfPieces, List.getElem?_cons_succ, ih found]
        · simp only [List.length_cons, Nat.add_lt_add_iff_right]
        · simp

theorem lines_getD {text piece : List Char} {index : Nat}
    (found : (text.splitOn '\n')[index]? = some piece) :
    (lines text)[index]?.getD [] =
      if index + 1 < (text.splitOn '\n').length then dropFinalReturn piece else piece := by
  rw [lines, pieces, cut_eq_splitOn, linesOfPieces_getD found]

end Text

/-! ## Positions -/

def Position.Before (first second : Position) : Prop :=
  first.line < second.line ∨ first.line = second.line ∧ first.column < second.column

namespace Source

variable {source : Source} {offset : Nat} {position : Position}

/-- The offset of a position, if there is such a line with as many characters. -/
def offset? (source : Source) : Position → Option Nat
  | ⟨line + 1, column + 1⟩ => do
    let piece ← (source.text.splitOn '\n')[line]?
    if column ≤ piece.length then
      some (Text.pieceStart source.text line + Text.byteLength (piece.take column))
    else none
  | _ => none

theorem exists_of_position? (found : source.position? offset = some position) :
    ∃ before after, source.text = before ++ after ∧ Text.byteLength before = offset ∧
      position = ⟨before.count '\n' + 1, (Text.lastPiece before).length + 1⟩ := by
  obtain ⟨⟨before, after⟩, split, rfl⟩ := Option.map_eq_some_iff.1 found
  obtain ⟨whole, length⟩ := Text.eq_append_of_splitAtByte? split
  exact ⟨before, after, whole, length, rfl⟩

theorem exists_of_offset? (found : source.offset? position = some offset) :
    ∃ line column piece, position = ⟨line + 1, column + 1⟩ ∧
      (source.text.splitOn '\n')[line]? = some piece ∧ column ≤ piece.length ∧
      offset = Text.pieceStart source.text line + Text.byteLength (piece.take column) := by
  obtain ⟨_ | line, _ | column⟩ := position
  case succ.succ =>
    obtain ⟨piece, listed, inside⟩ := Option.bind_eq_some_iff.1 found
    split at inside
    · rename_i fits
      exact ⟨line, column, piece, rfl, listed, fits, (Option.some.inj inside).symm⟩
    · contradiction
  all_goals contradiction

theorem offset?_of_position? (found : source.position? offset = some position) :
    source.offset? position = some offset := by
  obtain ⟨before, after, whole, rfl, rfl⟩ := exists_of_position? found
  have inside : (Text.lastPiece before).length ≤
      (Text.lastPiece before ++ after.takeWhile (· ≠ '\n')).length := by
    rw [List.length_append]
    exact Nat.le_add_right _ _
  simp only [offset?, whole, Text.piece_around, Option.bind_eq_bind, Option.bind_some]
  rw [if_pos inside, List.take_left, Text.pieceStart_around]

theorem position?_of_offset? (found : source.offset? position = some offset) :
    source.position? offset = some position := by
  obtain ⟨line, column, piece, rfl, listed, inside, rfl⟩ := exists_of_offset? found
  obtain ⟨before, after, whole, number, last, length⟩ := Text.exists_before listed column
  rw [← length, position?_of_append whole, number, last, List.length_take_of_le inside]

private theorem piece_at_end
    (found : source.position? (Text.byteLength source.text) = some position)
    (breaks : source.text.getLast? = some '\n') :
    (source.text.splitOn '\n')[position.line - 1]? = some [] := by
  have whole : source.text = source.text ++ [] := (List.append_nil _).symm
  obtain ⟨front, ends⟩ := List.getLast?_eq_some_iff.1 breaks
  have nothing : Text.lastPiece source.text = [] := by
    rw [ends, Text.lastPiece_append_line]
    rfl
  have place := position?_of_append whole
  rw [found] at place
  obtain rfl := Option.some.inj place
  have piece := Text.piece_around source.text []
  rwa [List.append_nil, nothing] at piece

theorem before_of_lt {first second : Nat} {place next : Position}
    (found : source.position? first = some place)
    (behind : source.position? second = some next) (earlier : first < second) :
    place.Before next := by
  obtain ⟨front, after, whole, rfl, rfl⟩ := exists_of_position? found
  obtain ⟨longer, after', whole', rfl, rfl⟩ := exists_of_position? behind
  obtain ⟨more, rfl, -⟩ := Text.exists_append_of_byteLength_le
    (whole.symm.trans whole') (Nat.le_of_lt earlier)
  by_cases breaks : '\n' ∈ more
  · have lines := List.count_pos_iff.2 breaks
    refine .inl (Nat.succ_lt_succ ?_)
    rw [List.count_append]
    exact Nat.lt_add_of_pos_right lines
  · have present : more ≠ [] := by
      rintro rfl
      rw [List.append_nil] at earlier
      exact Nat.lt_irrefl _ earlier
    have characters := List.length_pos_iff.2 present
    refine .inr ⟨congrArg (· + 1) ?_, Nat.succ_lt_succ ?_⟩
    · rw [List.count_append, List.count_eq_zero.2 breaks, Nat.add_zero]
    · rw [Text.lastPiece_append breaks, List.length_append]
      exact Nat.lt_add_of_pos_right characters

theorem lt_iff_before {first second : Nat} {place next : Position}
    (found : source.position? first = some place)
    (behind : source.position? second = some next) :
    first < second ↔ place.Before next := by
  refine ⟨before_of_lt found behind, fun before => ?_⟩
  rcases Nat.lt_trichotomy first second with less | rfl | greater
  · exact less
  · obtain rfl := Option.some.inj (found.symm.trans behind)
    simp only [Position.Before] at before
    omega
  · have after := before_of_lt behind found greater
    simp only [Position.Before] at before after
    omega

end Source

/-! ## The line of a diagnostic -/

theorem Excerpt.ofSpan?_line {terminal : Terminal} {source : Source} {span : Span}
    {number : Nat} {excerpt : Excerpt}
    (shown : ofSpan? terminal source span number = some excerpt) :
    excerpt.lineNumber = number ∧ excerpt.line =
      String.ofList (((Text.lines source.text)[number - 1]?).getD []) := by
  obtain ⟨split, -, sliced⟩ := Option.bind_eq_some_iff.1 shown
  obtain ⟨slice, -, rest⟩ := Option.bind_eq_some_iff.1 sliced
  obtain rfl := Option.some.inj rest
  exact ⟨rfl, rfl⟩

theorem Diagnostic.ofSpan?_line {terminal : Terminal} {source : Source} {span : Span}
    {message : String} {diagnostic : Diagnostic}
    (shown : ofSpan? terminal source span message = some diagnostic) :
    source.position? span.start = some diagnostic.position ∧
      diagnostic.excerpt.line = String.ofList
        (((Text.lines source.text)[diagnostic.position.line - 1]?).getD []) := by
  obtain ⟨position, found, excerpted⟩ := Option.bind_eq_some_iff.1 shown
  obtain ⟨excerpt, cut, rest⟩ := Option.bind_eq_some_iff.1 excerpted
  obtain rfl := Option.some.inj rest
  exact ⟨found, (Excerpt.ofSpan?_line cut).2⟩

private theorem Diagnostic.ofSpan?_render {terminal : Terminal} {source : Source} {span : Span}
    {message : String} {diagnostic : Diagnostic}
    (shown : ofSpan? terminal source span message = some diagnostic)
    (color : Bool) :
    let line := toString diagnostic.position.line
    let margin := Text.spaces (line.length + 1)
    ∃ marks : String, diagnostic.render terminal color =
      s!"error: {message}\n" ++ s!"--> {source.name}:{line}:{diagnostic.position.column}\n" ++
        s!"{margin}|\n{line} |{diagnostic.excerpt.line}\n{margin}|{marks}" := by
  obtain ⟨position, found, excerpted⟩ := Option.bind_eq_some_iff.1 shown
  obtain ⟨excerpt, cut, rest⟩ := Option.bind_eq_some_iff.1 excerpted
  obtain rfl := Option.some.inj rest
  obtain ⟨number, -⟩ := Excerpt.ofSpan?_line cut
  intro line margin
  refine ⟨if color then terminal.red excerpt.marker else excerpt.marker, ?_⟩
  have plain (text : String) : toString text = text := rfl
  simp only [render, Excerpt.render, number, plain, line, margin, String.append_assoc]

/-- A position tells its offset.  There is one for every offset at a character's
boundary: the offset is the start of the piece between line feeds that the line tells,
and as many characters of it as are in front of the column.  Positions are in the order
of their offsets.  The diagnostic about a span shows the piece of its line, without a
carriage return at its end if there is a line feed behind it, and nothing behind a line
feed that ends the text. -/
theorem positions_tell_places (terminal : Terminal) (source : Source) :
    (∀ offset, (source.position? offset).isSome =
      (Text.splitAtByte? offset source.text).isSome) ∧
    (∀ offset position, source.position? offset = some position ↔
      source.offset? position = some offset) ∧
    (∀ first second place next, source.position? first = some place →
      source.position? second = some next → (first < second ↔ place.Before next)) ∧
    ∀ span message, span.FitsIn source.text → ∃ diagnostic,
      Diagnostic.ofSpan? terminal source span message = some diagnostic ∧
      source.position? span.start = some diagnostic.position ∧
      let pieces := source.text.splitOn '\n'
      let line := diagnostic.position.line
      (∃ piece, pieces[line - 1]? = some piece ∧ diagnostic.excerpt.line = String.ofList
        (if line < pieces.length then Text.dropFinalReturn piece else piece)) ∧
      (span.start = Text.byteLength source.text → source.text.getLast? = some '\n' →
        diagnostic.excerpt.line = "") ∧
      let margin := Text.spaces ((toString line).length + 1)
      ∀ color, ∃ marks : String, diagnostic.render terminal color =
        s!"error: {message}\n" ++ s!"--> {source.name}:{line}:{diagnostic.position.column}\n" ++
          s!"{margin}|\n{line} |{diagnostic.excerpt.line}\n{margin}|{marks}" := by
  refine ⟨fun offset => Option.isSome_map, fun offset position =>
    ⟨Source.offset?_of_position?, Source.position?_of_offset?⟩,
    fun first second place next => Source.lt_iff_before, fun span message fits => ?_⟩
  obtain ⟨diagnostic, shown⟩ :=
    Option.isSome_iff_exists.1 (fits.diagnostic_isSome terminal message)
  obtain ⟨found, printed⟩ := Diagnostic.ofSpan?_line shown
  refine ⟨diagnostic, shown, found, ?_, fun final breaks => ?_,
    Diagnostic.ofSpan?_render shown⟩
  · obtain ⟨line, column, piece, place, listed, -⟩ :=
      Source.exists_of_offset? (Source.offset?_of_position? found)
    rw [place, Nat.add_sub_cancel, Text.lines_getD listed] at printed
    rw [place]
    exact ⟨piece, listed, printed⟩
  · rw [final] at found
    have empty := Text.lines_getD (Source.piece_at_end found breaks)
    rw [printed, empty]
    split <;> rfl

/-- The place behind the last line of a text, and one in a line that ends in a carriage
return and a line feed. -/
theorem positions_tell_places_returns :
    let source : Source := ⟨"", "a\r\nbc\n"⟩
    (3 < 6 ↔ Position.Before ⟨2, 1⟩ ⟨3, 1⟩) ∧
      source.offset? ⟨2, 1⟩ = some 3 ∧ source.offset? ⟨3, 1⟩ = some 6 ∧
      ∃ first final, Diagnostic.ofSpan? .standard source ⟨0, 1⟩ "" = some first ∧
        Diagnostic.ofSpan? .standard source ⟨6, 6⟩ "" = some final ∧
        first.excerpt.line = "a" ∧ final.excerpt.line = "" := by
  intro source
  obtain ⟨-, inverse, order, shown⟩ := positions_tell_places .standard source
  have second : source.position? 3 = some ⟨2, 1⟩ := by decide
  have last : source.position? 6 = some ⟨3, 1⟩ := by decide
  obtain ⟨first, made, place, ⟨piece, listed, line⟩, -, -⟩ :=
    shown ⟨0, 1⟩ "" ⟨by decide, by decide, by decide, by decide⟩
  obtain ⟨final, made', -, -, empty, -⟩ :=
    shown ⟨6, 6⟩ "" ⟨by decide, by decide, by decide, by decide⟩
  have start : source.position? 0 = some ⟨1, 1⟩ := by decide
  rw [← Option.some.inj (start.symm.trans place)] at listed line
  have pieces : source.text.splitOn '\n' = [['a', '\r'], ['b', 'c'], []] := by decide
  rw [pieces] at listed line
  obtain rfl : ['a', '\r'] = piece := Option.some.inj listed
  exact ⟨order 3 6 _ _ second last, (inverse 3 _).1 second, (inverse 6 _).1 last, first,
    final, made, made', line, empty (by decide) (by decide)⟩

end OasisSyntax
