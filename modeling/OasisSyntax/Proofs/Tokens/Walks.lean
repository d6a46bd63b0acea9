import OasisSyntax.Parsing.Session
import OasisSyntax.Proofs.Printing.Spacing
import OasisSyntax.Proofs.Tokens.Boundaries

/-!
# Walks over a text

What a reader does on a text as a relation with one rule for each kind of step: at the
end it stops, a lexeme is handed out with the gap in front of it skipped, and an end of
a statement is handed out where one is implied.  Every reader takes exactly one walk, so
a fact about the tokens of a text is shown by induction on walks.
-/

namespace OasisSyntax

/-- The lexeme is what stands at the head of its own text and the text behind it. -/
structure Lexeme.Precedes (lexeme : Lexeme) (after : List Char) : Prop where
  reads : head (lexeme.text ++ after) = lexeme
  visible : ∃ char rest, lexeme.text = char :: rest ∧ ¬ Text.isBlank char

namespace Lexeme.Precedes

variable {lexeme : Lexeme} {after : List Char}

theorem text_ne_nil (precedes : lexeme.Precedes after) : lexeme.text ≠ [] := by
  obtain ⟨char, rest, spelled, -⟩ := precedes.visible
  simp [spelled]

theorem byteLength_pos (precedes : lexeme.Precedes after) :
    0 < Text.byteLength lexeme.text := Text.byteLength_pos precedes.text_ne_nil

theorem kind_ne_eof (precedes : lexeme.Precedes after) : lexeme.kind ≠ .eof := by
  have present : lexeme.text ++ after ≠ [] :=
    List.append_ne_nil_of_left_ne_nil precedes.text_ne_nil after
  have kind := Lexeme.kind_ne_eof present
  rwa [precedes.reads] at kind

theorem text_of_symbol (precedes : lexeme.Precedes after)
    (symbol : lexeme.kind ∈ Kind.symbols) :
    lexeme.text = lexeme.kind.spelling.toList := by
  have text := @Lexeme.text_of_symbol (lexeme.text ++ after)
  rw [precedes.reads] at text
  exact text symbol

theorem separate {first second : List Char} (precedes : lexeme.Precedes (first ++ second))
    {separator : Char} (separates : IsSeparator separator) (rest : List Char) :
    lexeme.Precedes (first ++ separator :: rest) := by
  have present : lexeme.text ++ first ≠ [] :=
    List.append_ne_nil_of_left_ne_nil precedes.text_ne_nil first
  have reads := precedes.reads
  rw [← List.append_assoc] at reads
  have cut : head (lexeme.text ++ first) = lexeme := by
    refine (head_of_append present ?_).trans reads
    rw [reads]
    exact List.prefix_append _ _
  refine ⟨?_, precedes.visible⟩
  rw [← List.append_assoc, head_append_separator separates present, cut]

end Lexeme.Precedes

private theorem Lexeme.exists_precedes {char : Char} (visible : ¬ Text.isBlank char)
    (rest : List Char) :
    ∃ after, (head (char :: rest)).Precedes after ∧
      (head (char :: rest)).text ++ after = char :: rest := by
  obtain ⟨after, whole⟩ := head_isPrefix (char :: rest)
  refine ⟨after, ⟨by rw [whole], ?_⟩, whole⟩
  cases spelled : (head (char :: rest)).text with
  | nil => exact absurd spelled (head_text_ne_nil (List.cons_ne_nil char rest))
  | cons first more =>
    rw [spelled] at whole
    obtain ⟨rfl, -⟩ := List.cons.inj whole
    exact ⟨first, more, rfl, visible⟩

def Lexeme.tokenAt (start : Nat) (lexeme : Lexeme) : Spanned Token :=
  ⟨⟨start, start + Text.byteLength lexeme.text⟩, lexeme.token⟩

@[simp] theorem Lexeme.kind_tokenAt (start : Nat) (lexeme : Lexeme) :
    (lexeme.tokenAt start).node.kind = lexeme.kind := rfl

namespace Reader

def impliedEnd (literal : String) (place : Nat) : Spanned Token :=
  ⟨⟨place, place⟩, ⟨.semi, literal⟩⟩

@[simp] theorem kind_impliedEnd (literal : String) (place : Nat) :
    (impliedEnd literal place).node.kind = .semi := rfl

inductive EndsStatement : List Char → String → Prop where
  | finish : EndsStatement [] ""
  | brace (rest : List Char) : EndsStatement ('}' :: rest) ""
  | line (rest : List Char) : EndsStatement ('\n' :: rest) "\n"

/-- Blanks, without a line break if a statement may end. -/
def Skipped (pending : Bool) (gap : List Char) : Prop :=
  ∀ char ∈ gap, Text.isBlank char ∧ (pending → char ≠ '\n')

/-- The tokens handed out for a text that begins at the offset; the mark says whether a
statement may end there. -/
inductive Walk : Nat → Bool → List Char → List (Spanned Token) → Prop where
  | finish {offset : Nat} {gap : List Char} (skipped : Skipped false gap) :
      Walk offset false gap [TokenStream.endToken (offset + Text.byteLength gap)]
  | lexeme {offset : Nat} {pending : Bool} {gap after : List Char} {lexeme : Lexeme}
      {tokens : List (Spanned Token)} (skipped : Skipped pending gap)
      (precedes : lexeme.Precedes after) (noEnd : pending → lexeme.kind ≠ .rbrace)
      (behind : Walk (offset + Text.byteLength gap + Text.byteLength lexeme.text)
        lexeme.kind.endsValue after tokens) :
      Walk offset pending (gap ++ (lexeme.text ++ after))
        (lexeme.tokenAt (offset + Text.byteLength gap) :: tokens)
  | ended {offset : Nat} {gap rest : List Char} {literal : String}
      {tokens : List (Spanned Token)} (skipped : Skipped true gap)
      (ends : EndsStatement rest literal)
      (behind : Walk (offset + Text.byteLength gap) false rest tokens) :
      Walk offset true (gap ++ rest)
        (impliedEnd literal (offset + Text.byteLength gap) :: tokens)

/-! ## The steps of a reader -/

variable {pending : Bool} {gap rest : List Char}

theorem skips_iff (reader : Reader) (char : Char) :
    reader.skips char ↔ Text.isBlank char ∧ (reader.pending → char ≠ '\n') := by
  simp [skips]
  grind

theorem next_of_skipped (skipped : Skipped pending gap) (offset : Nat)
    (rest : List Char) :
    (⟨offset, gap ++ rest, pending⟩ : Reader).next =
      (⟨offset + Text.byteLength gap, rest, pending⟩ : Reader).next := by
  induction gap generalizing offset with
  | nil => rfl
  | cons char gap ih =>
    have skips := (skips_iff ⟨offset, char :: (gap ++ rest), pending⟩ char).2
      (skipped char (.head gap))
    rw [List.cons_append, next_of_skips offset _ skips,
      ih fun other member => skipped other (.tail char member)]
    simp [Text.byteLength, Nat.add_assoc]

theorem next_of_stops (offset : Nat) (stops : ∀ char ∈ rest.head?,
      Text.isBlank char → pending = true ∧ char = '\n') :
    (⟨offset, rest, pending⟩ : Reader).next =
      (⟨offset, rest, pending⟩ : Reader).read := by
  cases rest with
  | nil => rfl
  | cons char rest =>
    rw [next, skipBlanks_of_not_skips]
    rw [skips_iff]
    rintro ⟨blank, noBreak⟩
    obtain ⟨pending, line⟩ := stops char rfl blank
    exact noBreak pending line

theorem next_of_precedes {lexeme : Lexeme} {after : List Char}
    (precedes : lexeme.Precedes after) (noEnd : pending → lexeme.kind ≠ .rbrace)
    (offset : Nat) :
    (⟨offset, lexeme.text ++ after, pending⟩ : Reader).next =
      (lexeme.tokenAt offset, ⟨offset + Text.byteLength lexeme.text, after,
        lexeme.kind.endsValue⟩) := by
  obtain ⟨char, more, spelled, visible⟩ := precedes.visible
  have first : (lexeme.text ++ after).head? = some char := by simp [spelled]
  rw [next_of_stops offset (by simp [first, visible])]
  have noBreak : char ≠ '\n' := by
    rintro rfl
    exact visible (by decide)
  have noBrace : pending → char ≠ '}' := by
    rintro open' rfl
    have reads := precedes.reads
    rw [spelled, List.cons_append] at reads
    exact noEnd open' (congrArg Lexeme.kind reads).symm
  have noImplied :
      (⟨offset, lexeme.text ++ after, pending⟩ : Reader).impliedEnd? = none := by
    rw [spelled]
    cases pending <;> simp_all [impliedEnd?]
  simp only [read, noImplied, precedes.reads, List.drop_left, Lexeme.tokenAt]

theorem next_of_endsStatement {literal : String} (ends : EndsStatement rest literal)
    (offset : Nat) :
    (⟨offset, rest, true⟩ : Reader).next =
      (impliedEnd literal offset, ⟨offset, rest, false⟩) := by
  rw [next_of_stops]
  · cases ends <;> rfl
  · cases ends <;> simp
    decide

/-! ## Readers and walks -/

variable {offset : Nat} {text : List Char} {tokens : List (Spanned Token)}

theorem Walk.tokens_eq (walk : Walk offset pending text tokens) :
    (⟨offset, text, pending⟩ : Reader).tokens = tokens := by
  induction walk with
  | @finish offset gap skipped =>
    have next : (⟨offset, gap, false⟩ : Reader).next =
        (TokenStream.endToken (offset + Text.byteLength gap),
          ⟨offset + Text.byteLength gap, [], false⟩) := by
      have skip := next_of_skipped skipped offset []
      rw [List.append_nil] at skip
      exact skip
    rw [Reader.tokens, next]
    rfl
  | lexeme skipped precedes noEnd behind ih =>
    rw [Reader.tokens, next_of_skipped skipped, next_of_precedes precedes noEnd, ih]
    exact if_neg precedes.kind_ne_eof
  | ended skipped ends behind ih =>
    rw [Reader.tokens, next_of_skipped skipped, next_of_endsStatement ends, ih]
    rfl

/-- Either the text ends in front of it, a statement ends there, or a lexeme begins. -/
theorem exists_walk_of_shorter (offset : Nat) (pending : Bool) (text : List Char)
    (shorter : ∀ offset' pending' text',
      2 * text'.length + pending'.toNat < 2 * text.length + pending.toNat →
        ∃ tokens, Walk offset' pending' text' tokens) :
    ∃ tokens, Walk offset pending text tokens := by
  let reader : Reader := ⟨offset, text, pending⟩
  have skipped : Skipped pending (text.takeWhile reader.skips) := fun char member =>
    (skips_iff reader char).1 (List.all_eq_true.1 List.all_takeWhile char member)
  have split := List.takeWhile_append_dropWhile (p := reader.skips) (l := text)
  generalize text.takeWhile reader.skips = gap at skipped split
  cases dropped : text.dropWhile reader.skips with
  | nil =>
    obtain rfl : gap = text := by simpa [dropped] using split
    cases pending with
    | false => exact ⟨_, .finish skipped⟩
    | true =>
      have behind : Walk (offset + Text.byteLength gap) false [] _ := .finish (by simp [Skipped])
      have walk := Walk.ended skipped .finish behind
      rw [List.append_nil] at walk
      exact ⟨_, walk⟩
  | cons char rest =>
    have stops : ¬ reader.skips char := by
      have present : text.dropWhile reader.skips ≠ [] := by simp [dropped]
      have stops := List.head_dropWhile_not reader.skips present
      simpa [dropped] using stops
    rw [skips_iff] at stops
    rw [dropped] at split
    subst split
    by_cases ends : pending = true ∧ ∃ literal, EndsStatement (char :: rest) literal
    · obtain ⟨rfl, literal, ends⟩ := ends
      obtain ⟨tokens, behind⟩ :=
        shorter (offset + Text.byteLength gap) false (char :: rest) (by
          simp only [List.length_append, Bool.toNat_true, Bool.toNat_false]
          omega)
      exact ⟨_, .ended skipped ends behind⟩
    · have visible : ¬ Text.isBlank char := by
        intro blank
        refine stops ⟨blank, ?_⟩
        rintro open' rfl
        exact ends ⟨open', _, .line rest⟩
      obtain ⟨after, precedes, whole⟩ := Lexeme.exists_precedes visible rest
      have noEnd : pending → (Lexeme.head (char :: rest)).kind ≠ .rbrace := by
        intro open' brace
        have text := precedes.text_of_symbol (by rw [brace]; decide)
        rw [text, brace] at whole
        obtain ⟨rfl, -⟩ := List.cons.inj whole
        exact ends ⟨open', _, .brace rest⟩
      have taken := List.length_pos_iff.2 precedes.text_ne_nil
      rw [← whole] at shorter ⊢
      generalize Lexeme.head (char :: rest) = lexeme at precedes noEnd taken shorter ⊢
      have flag := Bool.toNat_le lexeme.kind.endsValue
      obtain ⟨tokens, behind⟩ := shorter (offset + Text.byteLength gap +
        Text.byteLength lexeme.text) lexeme.kind.endsValue after (by
          simp only [List.length_append]
          omega)
      exact ⟨_, .lexeme skipped precedes noEnd behind⟩

theorem exists_walk (offset : Nat) (pending : Bool) (text : List Char) :
    ∃ tokens, Walk offset pending text tokens := by
  induction size : 2 * text.length + pending.toNat using Nat.strong_induction_on
    generalizing offset pending text with
  | _ size ih =>
    subst size
    exact exists_walk_of_shorter offset pending text
      fun offset' pending' text' shorter => ih _ shorter offset' pending' text' rfl

/-- The tokens of a reader are those of the only walk that there is. -/
theorem walk_iff : Walk offset pending text tokens ↔
    (⟨offset, text, pending⟩ : Reader).tokens = tokens := by
  constructor
  · exact Walk.tokens_eq
  · rintro rfl
    obtain ⟨tokens, walk⟩ := exists_walk offset pending text
    rw [walk.tokens_eq]
    exact walk

theorem walk_ofText (text : List Char) : Walk 0 false text (ofText text).tokens :=
  walk_iff.2 rfl

end Reader

end OasisSyntax
