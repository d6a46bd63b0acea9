import OasisSyntax.Text.Blank
import OasisSyntax.Token.Lexeme

/-!
# Reading tokens

A reader walks over a source text and hands out its tokens.  After a token that
can end a statement it also looks at what follows: a line break, a closing brace
or the end of the text then counts as the end of the statement, and a token for it
is handed out that covers no text.  At the end of the text the reader stays and
repeats the last token.
-/

namespace OasisSyntax

structure Reader where
  offset : Nat
  rest : List Char
  /-- Whether a statement may end here. -/
  pending : Bool
deriving DecidableEq, Repr

namespace Reader

def ofText (text : List Char) : Reader := ⟨0, text, false⟩

/-- A line break has to be seen while it could end a statement. -/
def skips (reader : Reader) (char : Char) : Bool :=
  Text.isBlank char && !(reader.pending && char == '\n')

def skipBlanks (reader : Reader) : Reader :=
  let blanks := reader.rest.takeWhile reader.skips
  { reader with
    offset := reader.offset + Text.byteLength blanks
    rest := reader.rest.dropWhile reader.skips }

def impliedEnd? (reader : Reader) : Option String :=
  if reader.pending then
    match reader.rest with
    | [] => some ""
    | char :: _ =>
      if char = '\n' then some "\n" else if char = '}' then some "" else none
  else none

def read (reader : Reader) : Spanned Token × Reader :=
  match reader.impliedEnd? with
  | some literal =>
    (⟨⟨reader.offset, reader.offset⟩, ⟨.semi, literal⟩⟩,
      { reader with pending := false })
  | none =>
    let lexeme := Lexeme.head reader.rest
    let stop := reader.offset + Text.byteLength lexeme.text
    (⟨⟨reader.offset, stop⟩, lexeme.token⟩,
      ⟨stop, reader.rest.drop lexeme.text.length, lexeme.kind.endsValue⟩)

def next (reader : Reader) : Spanned Token × Reader := reader.skipBlanks.read

/-- Falls with every token but the last one: a token takes text away, and a
statement end that takes none clears the mark it came from. -/
def size (reader : Reader) : Nat := 2 * reader.rest.length + reader.pending.toNat

private theorem skipBlanks_size_le (reader : Reader) :
    reader.skipBlanks.size ≤ reader.size := by
  have := (List.dropWhile_suffix (l := reader.rest) reader.skips).length_le
  simp only [size, skipBlanks]
  omega

private theorem read_size_lt (reader : Reader) (unfinished : reader.read.1.node.kind ≠ .eof) :
    reader.read.2.size < reader.size := by
  unfold read at unfinished ⊢
  split at unfinished
  · rename_i literal implied
    have pending : reader.pending = true := by
      unfold impliedEnd? at implied
      split at implied
      · assumption
      · contradiction
    simp [size, pending]
  · have present : reader.rest ≠ [] := by
      intro finished
      simp [finished, Lexeme.head, Lexeme.token] at unfinished
    have taken := List.length_pos_iff.2 (Lexeme.head_text_ne_nil present)
    have available := (Lexeme.head_isPrefix reader.rest).length_le
    have := Bool.toNat_le (Lexeme.head reader.rest).kind.endsValue
    simp only [size, List.length_drop]
    omega

theorem next_size_lt (reader : Reader) (unfinished : reader.next.1.node.kind ≠ .eof) :
    reader.next.2.size < reader.size :=
  Nat.lt_of_lt_of_le (read_size_lt _ unfinished) reader.skipBlanks_size_le

/-- All tokens up to and including the first end of the text. -/
def tokens (reader : Reader) : List (Spanned Token) :=
  if reader.next.1.node.kind = .eof then [reader.next.1]
  else reader.next.1 :: tokens reader.next.2
termination_by reader.size
decreasing_by exact reader.next_size_lt ‹_›

/-- The reader after the first end of the text. -/
def finish (reader : Reader) : Reader :=
  if reader.next.1.node.kind = .eof then reader.next.2 else finish reader.next.2
termination_by reader.size
decreasing_by exact reader.next_size_lt ‹_›

/-- The next token, unless it is the end of the text. -/
def next? (reader : Reader) : Option (Spanned Token) × Reader :=
  let (token, after) := reader.next
  (if token.node.kind = .eof then none else some token, after)

def remaining (reader : Reader) : List (Spanned Token) := reader.tokens.dropLast

end Reader

end OasisSyntax
