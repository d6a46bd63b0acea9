import OasisSyntax.Text.Offset
import OasisSyntax.Token

/-!
# Lexemes

The lexeme at the head of a text is a word, a run of digits, an operator or a
punctuation mark, and a single illegal character where none of these begins.  Its
first character says which of them; an operator is told from longer ones by the
characters behind it.  Words are told apart from keywords only after they have been
read to their end.
-/

namespace OasisSyntax

structure Lexeme where
  kind : Kind
  text : List Char
deriving DecidableEq, Repr

namespace Lexeme

def isWordStart (char : Char) : Bool := char.isAlpha || char == '_'

def isWordPart (char : Char) : Bool := char.isAlphanum || char == '_'

def ofWord (word : List Char) : Lexeme :=
  ⟨(Kind.ofKeyword? (String.ofList word)).getD .ident, word⟩

/-- The mark alone, or with the character behind it if that makes another symbol. -/
def oneOrTwo (mark : Char) (single : Kind) (double : List (Char × Kind)) :
    List Char → Lexeme
  | [] => ⟨single, [mark]⟩
  | next :: _ =>
    match double.lookup next with
    | some kind => ⟨kind, [mark, next]⟩
    | none => ⟨single, [mark]⟩

/-- The mark once or twice, and an equals sign behind it. -/
def angle (mark : Char) (single singleEquals double doubleEquals : Kind) :
    List Char → Lexeme
  | [] => ⟨single, [mark]⟩
  | next :: rest =>
    if next = '=' then ⟨singleEquals, [mark, '=']⟩
    else if next = mark then
      if rest.head? = some '=' then ⟨doubleEquals, [mark, mark, '=']⟩
      else ⟨double, [mark, mark]⟩
    else ⟨single, [mark]⟩

def startingWith (char : Char) (rest : List Char) : Lexeme :=
  match char with
  | '=' => oneOrTwo char .assign [('=', .equalsEquals)] rest
  | '!' => oneOrTwo char .bang [('=', .bangEquals)] rest
  | '+' => oneOrTwo char .plus [('=', .plusAssign)] rest
  | '-' => oneOrTwo char .minus [('=', .minusAssign)] rest
  | '*' => oneOrTwo char .star [('=', .starAssign)] rest
  | '/' => oneOrTwo char .slash [('=', .slashAssign)] rest
  | '%' => oneOrTwo char .percent [('=', .percentAssign)] rest
  | '^' => oneOrTwo char .caret [('=', .caretAssign)] rest
  | '&' =>
    oneOrTwo char .ampersand [('&', .ampersandAmpersand), ('=', .ampersandAssign)] rest
  | '|' => oneOrTwo char .pipe [('|', .pipePipe), ('=', .pipeAssign)] rest
  | '<' => angle char .smaller .smallerEquals .shl .shlAssign rest
  | '>' => angle char .greater .greaterEquals .shr .shrAssign rest
  | '~' => ⟨.tilde, [char]⟩
  | ',' => ⟨.comma, [char]⟩
  | ';' => ⟨.semi, [char]⟩
  | '(' => ⟨.lparen, [char]⟩
  | ')' => ⟨.rparen, [char]⟩
  | '{' => ⟨.lbrace, [char]⟩
  | '}' => ⟨.rbrace, [char]⟩
  | _ =>
    if isWordStart char then ofWord (char :: rest.takeWhile isWordPart)
    else if char.isDigit then ⟨.int, char :: rest.takeWhile Char.isDigit⟩
    else ⟨.illegal, [char]⟩

/-- At the end of the text the lexeme is empty. -/
def head : List Char → Lexeme
  | [] => ⟨.eof, []⟩
  | char :: rest => startingWith char rest

def token (lexeme : Lexeme) : Token := ⟨lexeme.kind, String.ofList lexeme.text⟩

private theorem oneOrTwo_begins (mark : Char) (single : Kind) (double : List (Char × Kind))
    (rest : List Char) :
    ∃ more, (oneOrTwo mark single double rest).text = mark :: more ∧ more <+: rest := by
  unfold oneOrTwo
  split
  · exact ⟨[], rfl, List.nil_prefix⟩
  · split
    · exact ⟨_, rfl, List.cons_prefix_cons.2 ⟨rfl, List.nil_prefix⟩⟩
    · exact ⟨[], rfl, List.nil_prefix⟩

private theorem angle_begins (mark : Char) (single singleEquals double doubleEquals : Kind)
    (rest : List Char) :
    ∃ more, (angle mark single singleEquals double doubleEquals rest).text = mark :: more ∧
      more <+: rest := by
  unfold angle
  split
  · exact ⟨[], rfl, List.nil_prefix⟩
  · rename_i next behind
    split
    · rename_i equals
      exact ⟨_, rfl, List.cons_prefix_cons.2 ⟨equals.symm, List.nil_prefix⟩⟩
    · split
      · rename_i twice
        split
        · rename_i followed
          obtain ⟨after, rfl⟩ := List.head?_eq_some_iff.1 followed
          exact ⟨_, rfl, List.cons_prefix_cons.2 ⟨twice.symm,
            List.cons_prefix_cons.2 ⟨rfl, List.nil_prefix⟩⟩⟩
        · exact ⟨_, rfl, List.cons_prefix_cons.2 ⟨twice.symm, List.nil_prefix⟩⟩
      · exact ⟨[], rfl, List.nil_prefix⟩

theorem startingWith_begins (char : Char) (rest : List Char) :
    ∃ more, (startingWith char rest).text = char :: more ∧ more <+: rest := by
  unfold startingWith
  split
  case h_20 =>
    split
    · exact ⟨_, rfl, List.takeWhile_prefix _⟩
    · split
      · exact ⟨_, rfl, List.takeWhile_prefix _⟩
      · exact ⟨[], rfl, List.nil_prefix⟩
  all_goals first
    | exact oneOrTwo_begins ..
    | exact angle_begins ..
    | exact ⟨[], rfl, List.nil_prefix⟩

theorem head_isPrefix (text : List Char) : (head text).text <+: text := by
  cases text with
  | nil => exact List.nil_prefix
  | cons char rest =>
    obtain ⟨more, lexeme, begins⟩ := startingWith_begins char rest
    rw [head, lexeme]
    exact List.cons_prefix_cons.2 ⟨rfl, begins⟩

theorem head_text_ne_nil {text : List Char} (present : text ≠ []) :
    (head text).text ≠ [] := by
  cases text with
  | nil => exact absurd rfl present
  | cons char rest =>
    obtain ⟨more, lexeme, -⟩ := startingWith_begins char rest
    rw [head, lexeme]
    exact List.cons_ne_nil _ _

end Lexeme

end OasisSyntax
