import OasisSyntax.Proofs.Tokens.Lines
import OasisSyntax.Proofs.Tokens.TwoPasses

/-!
# Gaps between lexemes

A text is a row of lexemes with a gap of blanks in front of each and behind the last.
Whether a statement ends in a gap is decided by the lexeme in front of the gap, the line
breaks in the gap and the lexeme behind it.  `Spread` gives the tokens of a text gap by
gap, where a walk stops inside of a gap to hand out the end of a statement.
-/

namespace OasisSyntax

namespace Text

variable {offset : Nat} {gap : List Char}

private theorem lineBreak?_eq_none (noBreak : '\n' ∉ gap) : lineBreak? offset gap = none := by
  have skipped := Reader.lineBreak?_append offset
    (fun char member same => noBreak (same ▸ member)) []
  rwa [List.append_nil] at skipped

private theorem lineBreak?_of_first {first : List Char} (noBreak : '\n' ∉ first)
    (second : List Char) :
    lineBreak? offset (first ++ '\n' :: second) = some (offset + byteLength first) := by
  rw [Reader.lineBreak?_append offset fun char member same => noBreak (same ▸ member)]
  rfl

end Text

namespace Reader

/-- The end of a statement that is implied in a gap in front of a token of the given
kind: at the first line break, or else in front of what closes a block or ends the text,
if a statement may end at all. -/
def endInGap (pending : Bool) (offset : Nat) (gap : List Char) (next : Kind) :
    List (Spanned Token) :=
  if pending then
    match Text.lineBreak? offset gap with
    | some place => [impliedEnd "\n" place]
    | none =>
      if next = .rbrace ∨ next = .eof then
        [impliedEnd "" (offset + Text.byteLength gap)]
      else []
  else []

/-- The tokens of a text that begins at the offset, gap by gap. -/
inductive Spread : Nat → Bool → List Char → List (Spanned Token) → Prop where
  | finish {offset : Nat} {pending : Bool} {gap : List Char} (blank : Skipped false gap) :
      Spread offset pending gap
        (endInGap pending offset gap .eof ++
          [TokenStream.endToken (offset + Text.byteLength gap)])
  | lexeme {offset : Nat} {pending : Bool} {gap after : List Char} {lexeme : Lexeme}
      {tokens : List (Spanned Token)} (blank : Skipped false gap)
      (precedes : lexeme.Precedes after)
      (behind : Spread (offset + Text.byteLength gap + Text.byteLength lexeme.text)
        lexeme.kind.endsValue after tokens) :
      Spread offset pending (gap ++ (lexeme.text ++ after))
        (endInGap pending offset gap lexeme.kind ++
          lexeme.tokenAt (offset + Text.byteLength gap) :: tokens)

variable {offset : Nat} {pending : Bool} {gap text rest : List Char} {next : Kind}
  {tokens : List (Spanned Token)}

/-! ## The end in a gap -/

theorem endInGap_of_first {first : List Char} (noBreak : '\n' ∉ first)
    (second : List Char) :
    endInGap true offset (first ++ '\n' :: second) next =
      [impliedEnd "\n" (offset + Text.byteLength first)] := by
  simp [endInGap, Text.lineBreak?_of_first noBreak]

theorem endInGap_of_not_mem (noBreak : '\n' ∉ gap) :
    endInGap true offset gap next =
      if next = .rbrace ∨ next = .eof then
        [impliedEnd "" (offset + Text.byteLength gap)]
      else [] := by
  simp [endInGap, Text.lineBreak?_eq_none noBreak]

theorem map_node_endInGap (offset : Nat) :
    (endInGap pending offset gap next).map (·.node) =
      if pending then
        if '\n' ∈ gap then [⟨.semi, "\n"⟩]
        else if next = .rbrace ∨ next = .eof then [⟨.semi, ""⟩]
        else []
      else [] := by
  cases pending with
  | false => rfl
  | true =>
    by_cases line : '\n' ∈ gap
    · obtain ⟨first, second, rfl, noBreak⟩ := List.eq_append_cons_of_mem line
      simp [endInGap_of_first noBreak, impliedEnd]
    · rw [endInGap_of_not_mem line]
      by_cases closes : next = .rbrace ∨ next = .eof <;> simp [line, closes, impliedEnd]

theorem Skipped.not_mem (skipped : Skipped true gap) : '\n' ∉ gap :=
  fun member => (skipped '\n' member).2 rfl rfl

theorem Skipped.of_not_mem (blank : Skipped false gap) (noBreak : '\n' ∉ gap) :
    Skipped pending gap :=
  fun char member => ⟨(blank char member).1, fun _ same => noBreak (same ▸ member)⟩

/-! ## From gaps to walks -/

theorem Walk.of_line (blank : Skipped false gap) (line : '\n' ∈ gap)
    (walk : Walk (offset + Text.byteLength gap) false rest tokens) (next : Kind) :
    Walk offset true (gap ++ rest) (endInGap true offset gap next ++ tokens) := by
  obtain ⟨first, second, rfl, noBreak⟩ := List.eq_append_cons_of_mem line
  rw [endInGap_of_first noBreak, List.append_assoc]
  have blank' : Skipped false first := fun char member =>
    blank char (List.mem_append_left _ member)
  have blank'' : Skipped false ('\n' :: second) := fun char member =>
    blank char (List.mem_append_right _ member)
  refine .ended (blank'.of_not_mem noBreak) (.line (second ++ rest)) ?_
  rw [Text.byteLength_append, ← Nat.add_assoc] at walk
  exact .skip blank'' walk

theorem Spread.walk (spread : Spread offset pending text tokens) :
    Walk offset pending text tokens := by
  induction spread with
  | @finish offset pending gap blank =>
    cases pending with
    | false => exact .finish blank
    | true =>
      have behind : Walk (offset + Text.byteLength gap) false []
          [TokenStream.endToken (offset + Text.byteLength gap)] :=
        .finish (by simp [Skipped])
      by_cases line : '\n' ∈ gap
      · have walk := Walk.of_line blank line behind .eof
        rwa [List.append_nil] at walk
      · have walk := Walk.ended (blank.of_not_mem line) .finish behind
        rw [List.append_nil] at walk
        rwa [endInGap_of_not_mem line, if_pos (.inr rfl)]
  | @lexeme offset pending gap after lexeme tokens blank precedes behind walk =>
    have nothing : Skipped false [] := by simp [Skipped]
    have bare (place : Nat) (walk : Walk (place + Text.byteLength lexeme.text)
        lexeme.kind.endsValue after tokens) :
        Walk place false (lexeme.text ++ after) (lexeme.tokenAt place :: tokens) :=
      .lexeme nothing precedes (by simp) walk
    cases pending with
    | false => exact .skip blank (bare _ walk)
    | true =>
      by_cases line : '\n' ∈ gap
      · exact .of_line blank line (bare _ walk) lexeme.kind
      · have skipped : Skipped true gap := blank.of_not_mem line
        rw [endInGap_of_not_mem line]
        by_cases brace : lexeme.kind = .rbrace
        · rw [if_pos (.inl brace)]
          have spelled : lexeme.text = ['}'] := by
            rw [precedes.text_of_symbol (by rw [brace]; decide), brace]
            rfl
          have ends : EndsStatement (lexeme.text ++ after) "" := by
            rw [spelled]
            exact .brace after
          exact .ended skipped ends (bare _ walk)
        · rw [if_neg (not_or.2 ⟨brace, precedes.kind_ne_eof⟩)]
          exact .lexeme skipped precedes (fun _ => brace) walk

/-! ## From walks to gaps -/

/-- The end that a walk hands out is the one in the whole gap, which may go on behind a
line break. -/
theorem endInGap_of_ends {literal : String} {more : List Char}
    (skipped : Skipped true gap) (blank : Skipped false more)
    (visible : ∀ char ∈ rest.head?, ¬ Text.isBlank char)
    (ends : EndsStatement (more ++ rest) literal) :
    endInGap true offset (gap ++ more) (Lexeme.head rest).kind =
      [impliedEnd literal (offset + Text.byteLength gap)] := by
  cases more with
  | nil =>
    rw [List.append_nil, endInGap_of_not_mem skipped.not_mem]
    cases rest with
    | nil =>
      cases ends
      rfl
    | cons char rest =>
      cases ends with
      | brace => rfl
      | line => exact absurd (by decide) (visible '\n' rfl)
  | cons char more =>
    cases ends with
    | brace => exact absurd (blank '}' (.head more)).1 (by decide)
    | line => exact endInGap_of_first skipped.not_mem more

private theorem endInGap_of_skipped (skipped : Skipped pending gap)
    (noEnd : pending → next ≠ .rbrace) (noEof : next ≠ .eof) :
    endInGap pending offset gap next = [] := by
  cases pending with
  | false => rfl
  | true => simp [endInGap_of_not_mem skipped.not_mem, noEnd rfl, noEof]

theorem Skipped.append {more : List Char} (blank : Skipped false gap)
    (blank' : Skipped false more) : Skipped false (gap ++ more) :=
  List.forall_mem_append.2 ⟨blank, blank'⟩

theorem Walk.spread (walk : Walk offset pending text tokens) :
    Spread offset pending text tokens := by
  induction walk with
  | finish skipped => exact .finish skipped
  | @lexeme offset pending gap after lexeme tokens skipped precedes noEnd behind ih =>
    have spread : Spread offset pending _ _ := .lexeme skipped.to_false precedes ih
    rwa [endInGap_of_skipped skipped noEnd precedes.kind_ne_eof] at spread
  | @ended offset gap rest literal tokens skipped ends _ behind =>
    cases behind with
    | finish blank =>
      rw [← List.append_nil rest] at ends
      have implied : endInGap true offset (gap ++ rest) .eof = _ :=
        endInGap_of_ends skipped blank (by simp) ends
      have spread : Spread offset true _ _ := .finish (skipped.to_false.append blank)
      rw [Text.byteLength_append, ← Nat.add_assoc] at spread
      rwa [implied] at spread
    | @lexeme _ _ more after lexeme tokens blank precedes behind =>
      obtain ⟨char, word, spelled, visible⟩ := precedes.visible
      have implied : endInGap true offset _ _ = _ :=
        endInGap_of_ends skipped blank (by simp [spelled, visible]) ends
      rw [precedes.reads] at implied
      rw [Nat.add_assoc offset, ← Text.byteLength_append] at behind
      have spread : Spread offset true _ _ :=
        .lexeme (skipped.to_false.append blank) precedes behind
      rw [implied, List.append_assoc, Text.byteLength_append, ← Nat.add_assoc] at spread
      exact spread

theorem spread_iff : Spread offset pending text tokens ↔
    (⟨offset, text, pending⟩ : Reader).tokens = tokens :=
  ⟨fun spread => spread.walk.tokens_eq, fun read => (walk_iff.2 read).spread⟩

end Reader

end OasisSyntax
