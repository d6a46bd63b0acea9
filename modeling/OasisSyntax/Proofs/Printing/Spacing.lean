import OasisSyntax.Proofs.Printing.Bracketed
import OasisSyntax.Proofs.Printing.Lexemes
import OasisSyntax.Token.Reader

/-!
# Spacing

A row of pieces is spaced if the reader finds just the tokens of the row in its text:
every literal is read back in front of what follows it, and nothing makes the reader
hand out the end of a statement.  It would do so at a line break, a closing brace or
the end of the text behind a token that can end a statement.
-/

namespace OasisSyntax

/-- The literal is read back as the token in front of the given text. -/
def Token.ReadsBefore (token : Token) (after : List Char) : Prop :=
  Lexeme.head (token.literal.toList ++ after) = ⟨token.kind, token.literal.toList⟩ ∧
    token.kind ≠ .eof ∧ token.kind ≠ .illegal

namespace Piece

def chars (pieces : List Piece) : List Char :=
  pieces.flatMap fun piece => piece.text.toList

theorem chars_append (first second : List Piece) :
    chars (first ++ second) = chars first ++ chars second := List.flatMap_append

theorem toList_concat (pieces : List Piece) :
    (concat pieces).toList = chars pieces := by
  rw [concat, String.toList_join, List.flatMap_map]
  rfl

/-- The mark says whether a statement may end in front of the pieces. -/
def Spaced : Bool → List Piece → Prop
  | pending, [] => pending = false
  | pending, .space :: after => Spaced pending after
  | pending, .newline :: after => pending = false ∧ Spaced false after
  | pending, .token content :: after =>
    content.ReadsBefore (chars after) ∧ (pending → content.kind ≠ .rbrace) ∧
      Spaced content.kind.endsValue after

theorem Spaced.of_true {pieces : List Piece} (spaced : Spaced true pieces)
    (pending : Bool) : Spaced pending pieces := by
  induction pieces with
  | nil => contradiction
  | cons piece after ih =>
    cases piece with
    | token content => exact ⟨spaced.1, fun _ => spaced.2.1 rfl, spaced.2.2⟩
    | space => exact ih spaced
    | newline => exact absurd spaced.1 (by decide)

end Piece

/-! ## Reading spaced pieces -/

namespace Reader

theorem next_of_skips {char : Char} {pending : Bool} (offset : Nat) (rest : List Char)
    (skips : (⟨offset, char :: rest, pending⟩ : Reader).skips char) :
    (⟨offset, char :: rest, pending⟩ : Reader).next =
      (⟨offset + Text.byteLength [char], rest, pending⟩ : Reader).next := by
  unfold next skipBlanks
  rw [List.takeWhile_cons_of_pos skips, List.dropWhile_cons_of_pos skips]
  simp only [Text.byteLength, Nat.add_zero, Nat.add_assoc]
  rfl

theorem skipBlanks_of_not_skips {char : Char} {pending : Bool} (offset : Nat)
    (rest : List Char)
    (stops : ¬ (⟨offset, char :: rest, pending⟩ : Reader).skips char) :
    (⟨offset, char :: rest, pending⟩ : Reader).skipBlanks =
      ⟨offset, char :: rest, pending⟩ := by
  unfold skipBlanks
  rw [List.takeWhile_cons_of_neg stops, List.dropWhile_cons_of_neg stops]
  rfl

private theorem next_of_readsBefore {token : Token} {after : List Char}
    (reads : token.ReadsBefore after) {pending : Bool}
    (noEnd : pending → token.kind ≠ .rbrace) (offset : Nat) :
    ∃ span stop, (⟨offset, token.literal.toList ++ after, pending⟩ : Reader).next =
      (⟨span, token⟩, ⟨stop, after, token.kind.endsValue⟩) := by
  obtain ⟨lexeme, noEof, legal⟩ := reads
  cases text : token.literal.toList ++ after with
  | nil =>
    rw [text] at lexeme
    exact absurd (congrArg Lexeme.kind lexeme).symm noEof
  | cons char rest =>
    -- A blank or a brace at the head would be read as another token than this one.
    have kind : (Lexeme.head (char :: rest)).kind = token.kind := by
      rw [← text, lexeme]
    have visible : ¬ Text.isBlank char := fun blank =>
      legal (kind.symm.trans (Lexeme.head_of_isBlank blank rest))
    have stops : ¬ (⟨offset, char :: rest, pending⟩ : Reader).skips char := by
      simp [skips, visible]
    have noBreak : char ≠ '\n' := by
      rintro rfl
      exact visible (by decide)
    have noBrace : pending → char ≠ '}' := by
      rintro open' rfl
      exact noEnd open' (kind.symm.trans rfl)
    have noSemi : (⟨offset, char :: rest, pending⟩ : Reader).impliedEnd? = none := by
      unfold impliedEnd?
      split
      · rename_i open'
        simp only [if_neg noBreak, if_neg (noBrace open')]
      · rfl
    rw [next, skipBlanks_of_not_skips offset rest stops, read, noSemi, ← text]
    simp only [lexeme, Lexeme.token, String.ofList_toList, List.drop_left]
    exact ⟨_, _, rfl⟩

theorem tokens_of_next_eq {reader other : Reader} (same : reader.next = other.next) :
    reader.tokens = other.tokens := by
  rw [tokens, same, ← tokens]

theorem tokens_of_spaced {pieces : List Piece} {pending : Bool}
    (spaced : Piece.Spaced pending pieces) (offset : Nat) :
    (⟨offset, Piece.chars pieces, pending⟩ : Reader).tokens.map (·.node) =
      Piece.tokens pieces ++ [⟨.eof, ""⟩] := by
  induction pieces generalizing pending offset with
  | nil =>
    obtain rfl : pending = false := spaced
    rw [tokens]
    rfl
  | cons piece after ih =>
    cases piece with
    | token content =>
      obtain ⟨reads, noEnd, behind⟩ := spaced
      obtain ⟨span, stop, next⟩ := next_of_readsBefore reads noEnd offset
      have more : ¬ content.kind = .eof := reads.2.1
      change (⟨offset, content.literal.toList ++ Piece.chars after, pending⟩ :
        Reader).tokens.map (·.node) = _
      rw [tokens, next, if_neg more, List.map_cons, ih behind]
      rfl
    | space =>
      have skips : (⟨offset, ' ' :: Piece.chars after, pending⟩ : Reader).skips ' ' := by
        cases pending <;> rfl
      rw [Piece.tokens_space, ← ih spaced (offset + Text.byteLength [' '])]
      exact congrArg _ (tokens_of_next_eq (next_of_skips offset _ skips))
    | newline =>
      obtain ⟨rfl, behind⟩ := spaced
      have skips : (⟨offset, '\n' :: Piece.chars after, false⟩ : Reader).skips '\n' :=
        rfl
      rw [Piece.tokens_blank rfl, ← ih behind (offset + Text.byteLength ['\n'])]
      exact congrArg _ (tokens_of_next_eq (next_of_skips offset _ skips))

end Reader

end OasisSyntax
