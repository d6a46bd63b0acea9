import OasisSyntax.Token.Lexeme
import Mathlib.Data.List.Find

/-!
# Longest symbols

A lexeme is told from others character by character.  Here the symbols are tried one after
another instead, longer spellings first, and what is found is the same: no branch misses a
symbol, and none stops at a shorter one.
-/

namespace OasisSyntax

def Kind.isKeyword : Kind → Bool
  | kwLet | kwIf | kwElse | kwWhile | kwContinue | kwBreak | kwFunc | kwReturn => true
  | _ => false

/-- Operators and punctuation: the kinds of a fixed spelling that are no keywords. -/
def Kind.isSymbol : Kind → Bool
  | eof | illegal | ident | int => false
  | kind => !kind.isKeyword

theorem Kind.spelling_ne_nil (kind : Kind) : kind.spelling.toList ≠ [] := by
  cases kind <;> decide

theorem Kind.mem_symbols_iff {kind : Kind} : kind ∈ symbols ↔ kind.isSymbol := by
  cases kind <;> decide

theorem Kind.mem_keywords_iff {kind : Kind} : kind ∈ keywords ↔ kind.isKeyword := by
  cases kind <;> decide

namespace Lexeme

variable {char : Char} {text rest : List Char}

def ofSymbol (kind : Kind) : Lexeme := ⟨kind, kind.spelling.toList⟩

def symbol? (text : List Char) : Option Kind :=
  Kind.symbols.find? fun kind => kind.spelling.toList.isPrefixOf text

theorem symbol?_isPrefix {kind : Kind} (found : symbol? text = some kind) :
    kind.spelling.toList <+: text := by
  have := List.find?_some found
  simpa using this

def symbolsFrom (char : Char) : List Kind :=
  Kind.symbols.filter fun kind => kind.spelling.toList.head? == some char

theorem symbol?_cons (char : Char) (rest : List Char) :
    symbol? (char :: rest) =
      (symbolsFrom char).find? fun kind => kind.spelling.toList.tail.isPrefixOf rest := by
  rw [symbol?, symbolsFrom, List.find?_filter]
  refine List.find?_congr fun kind _ => ?_
  cases spelled : kind.spelling.toList with
  | nil => exact absurd spelled kind.spelling_ne_nil
  | cons first more =>
    rw [Bool.eq_iff_iff]
    simp

/-! ## Branches -/

private theorem single_eq {single : Kind} (marks : symbolsFrom char = [single])
    (alone : single.spelling.toList = [char]) (rest : List Char) :
    some ⟨single, [char]⟩ = (symbol? (char :: rest)).map ofSymbol := by
  rw [symbol?_cons, marks, List.find?_cons_of_pos (by rw [alone]; rfl), Option.map_some,
    ofSymbol, alone]

private theorem oneOrTwo_cons_of_ne {single kind : Kind} {double : List (Char × Kind)}
    {next other : Char} (different : next ≠ other) (rest : List Char) :
    oneOrTwo char single ((other, kind) :: double) (next :: rest) =
      oneOrTwo char single double (next :: rest) := by
  simp only [oneOrTwo, List.lookup_cons, beq_false_of_ne different]

private theorem oneOrTwo_eq {single : Kind} {double : List (Char × Kind)}
    (marks : symbolsFrom char = double.map Prod.snd ++ [single])
    (alone : single.spelling.toList = [char])
    (pairs : ∀ pair ∈ double, pair.2.spelling.toList = [char, pair.1]) (rest : List Char) :
    some (oneOrTwo char single double rest) = (symbol? (char :: rest)).map ofSymbol := by
  rw [symbol?_cons, marks]
  clear marks
  -- A character behind the mark passes a branch by just when the symbol does not match.
  induction double with
  | nil =>
    rw [List.map_nil, List.nil_append, List.find?_cons_of_pos (by rw [alone]; rfl),
      Option.map_some, ofSymbol, alone]
    cases rest <;> rfl
  | cons pair double ih =>
    obtain ⟨spelled, pairs⟩ := List.forall_mem_cons.1 pairs
    have later := ih pairs
    rw [List.map_cons, List.cons_append]
    cases rest with
    | nil =>
      rw [List.find?_cons_of_neg (by rw [spelled]; exact Bool.false_ne_true)]
      exact later
    | cons next rest =>
      by_cases same : next = pair.1
      · rw [List.find?_cons_of_pos (by rw [spelled]; simp [same]), Option.map_some, ofSymbol,
          spelled, oneOrTwo, List.lookup_cons, beq_iff_eq.2 same, same]
      · rw [List.find?_cons_of_neg (by rw [spelled]; simp [Ne.symm same]), ← later]
        exact congrArg some (oneOrTwo_cons_of_ne same rest)

private theorem angle_eq {single singleEquals double doubleEquals : Kind}
    (marks : symbolsFrom char = [doubleEquals, double, singleEquals, single])
    (spelled : [doubleEquals, double, singleEquals, single].map (·.spelling.toList) =
      [[char, char, '='], [char, char], [char, '='], [char]])
    (other : char ≠ '=') (rest : List Char) :
    some (angle char single singleEquals double doubleEquals rest) =
      (symbol? (char :: rest)).map ofSymbol := by
  simp only [List.map_cons, List.map_nil, List.cons.injEq, and_true] at spelled
  obtain ⟨longest, twice, equals, alone⟩ := spelled
  rw [symbol?_cons, marks]
  cases rest with
  | nil => simp [longest, twice, equals, alone, ofSymbol, angle]
  | cons next rest =>
    by_cases followed : next = '='
    · simp [longest, twice, equals, ofSymbol, angle, followed, other]
    · by_cases same : next = char
      · cases rest with
        | nil => simp [longest, twice, ofSymbol, angle, same, other]
        | cons third rest =>
          by_cases ends : third = '='
          · simp [longest, ofSymbol, angle, same, other, ends]
          · simp [longest, twice, ofSymbol, angle, same, other, ends, Ne.symm ends]
      · simp [longest, twice, equals, alone, ofSymbol, angle, followed, same, Ne.symm same,
          Ne.symm followed]

/-- In front of any text, the branches find what is found in the list of the symbols. -/
theorem startingWith_eq (char : Char) (rest : List Char) :
    startingWith char rest =
      if isWordStart char then ofWord (char :: rest.takeWhile isWordPart)
      else if char.isDigit then ⟨.int, char :: rest.takeWhile Char.isDigit⟩
      else ((symbol? (char :: rest)).map ofSymbol).getD ⟨.illegal, [char]⟩ := by
  unfold startingWith
  split
  case h_20 =>
    -- The branches name every character that some symbol begins with.
    have nothing : symbolsFrom char = [] := by
      refine List.filter_eq_nil_iff.2 fun kind member begins => ?_
      rw [beq_iff_eq] at begins
      cases kind <;> first
        | contradiction
        | (obtain rfl := Option.some.inj begins; contradiction)
    have none : symbol? (char :: rest) = none := by
      rw [symbol?_cons, nothing, List.find?_nil]
    rw [none]
    rfl
  all_goals rw [if_neg (by decide), if_neg (by decide)]
  all_goals refine congrArg (Option.getD · _) (?_ : some _ = _)
  all_goals first
    | exact oneOrTwo_eq (by decide) (by decide) (by decide) rest
    | exact angle_eq (by decide) (by decide) (by decide) rest
    | exact single_eq (by decide) (by decide) rest

end Lexeme

end OasisSyntax
