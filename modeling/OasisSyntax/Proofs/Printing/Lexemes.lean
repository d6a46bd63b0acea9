import OasisSyntax.Proofs.Printing.WellFormed
import OasisSyntax.Proofs.Tokens.Symbols
import OasisSyntax.Text.Blank

/-!
# Reading back a token

The literal of a token is read back from the head of a text if what follows does not
make the lexeme longer.  A word goes on with letters, digits and underscores, an
integer with digits.  A symbol goes on with the characters by which a longer symbol
continues it, and most punctuation marks do not go on at all.
-/

namespace OasisSyntax

namespace Kind

/-- The characters that stand behind the spelling of the kind in a longer symbol. -/
def continuations (kind : Kind) : List Char :=
  symbols.filterMap fun longer =>
    if kind.spelling.toList <+: longer.spelling.toList then
      (longer.spelling.toList.drop kind.spelling.toList.length).head?
    else none

private theorem mem_continuations {kind longer : Kind} (symbol : longer ∈ symbols) {char : Char}
    {rest : List Char}
    (longerSpelling : longer.spelling.toList = kind.spelling.toList ++ char :: rest) :
    char ∈ kind.continuations := by
  refine List.mem_filterMap.2 ⟨longer, symbol, ?_⟩
  rw [longerSpelling, if_pos (List.prefix_append _ _), List.drop_left]
  rfl

theorem ofKeyword?_eq_none_iff {word : String} :
    ofKeyword? word = none ↔ word ∉ "fn" :: keywords.map spelling := by
  constructor
  · intro none member
    rcases List.mem_cons.1 member with rfl | listed
    · contradiction
    · obtain ⟨kind, keyword, rfl⟩ := List.mem_map.1 listed
      rw [ofKeyword?_spelling keyword] at none
      contradiction
  · intro absent
    cases found : ofKeyword? word with
    | none => rfl
    | some kind =>
      obtain ⟨keyword, spelled⟩ := mem_keywords_of_ofKeyword? found
      refine absurd ?_ absent
      rcases spelled with rfl | rfl
      · exact .tail _ (List.mem_map_of_mem keyword)
      · exact .head _

example : continuations .smaller = ['<', '<', '='] := by decide

end Kind

namespace Lexeme

def Apart (text : List Char) : Prop := ∀ char ∈ text.head?, ¬ isWordPart char

theorem takeWhile_append_eq {p : Char → Bool} {word after : List Char}
    (all : word.all p) (stops : ∀ char ∈ after.head?, ¬ p char) :
    (word ++ after).takeWhile p = word := by
  rw [List.takeWhile_append_of_pos (List.all_eq_true.1 all)]
  cases after with
  | nil => exact List.append_nil word
  | cons char after => rw [List.takeWhile_cons_of_neg (stops char rfl), List.append_nil]

/-! ## Codes of characters -/

theorem isDigit_iff {char : Char} :
    char.isDigit ↔ 48 ≤ char.toNat ∧ char.toNat ≤ 57 := by
  simp [Char.isDigit, UInt32.le_iff_toNat_le]

theorem isWordStart_iff {char : Char} :
    isWordStart char ↔ (65 ≤ char.toNat ∧ char.toNat ≤ 90) ∨
      (97 ≤ char.toNat ∧ char.toNat ≤ 122) ∨ char.toNat = 95 := by
  have underscore : char = '_' ↔ char.toNat = 95 := Char.toNat_inj.symm
  unfold isWordStart
  delta Char.isAlpha Char.isUpper Char.isLower
  simp [UInt32.le_iff_toNat_le, underscore, or_assoc]

theorem isWordPart_iff {char : Char} :
    isWordPart char ↔ isWordStart char ∨ char.isDigit := by
  simp [isWordPart, isWordStart, Char.isAlphanum, or_right_comm]

theorem not_isWordStart_of_isDigit {char : Char} (digit : char.isDigit) :
    ¬ isWordStart char := by
  rw [isDigit_iff] at digit
  rw [isWordStart_iff]
  omega

theorem not_isBlank_of_isWordPart {char : Char} (part : isWordPart char) :
    ¬ Text.isBlank char := by
  rw [isWordPart_iff, isWordStart_iff, isDigit_iff] at part
  simp only [Text.isBlank, Text.CodeRanges.contains, Text.blankRanges, List.any_cons,
    List.any_nil, Bool.or_false, Bool.or_eq_true, Bool.and_eq_true, decide_eq_true_eq]
  omega

/-! ## Heads of texts -/

theorem head_word {char : Char} {rest after : List Char} (start : isWordStart char)
    (parts : rest.all isWordPart) (apart : Apart after) :
    head (char :: rest ++ after) = ofWord (char :: rest) := by
  rw [List.cons_append, head, startingWith_eq, if_pos start, takeWhile_append_eq parts apart]

/-- A longer symbol than the one that is written needs more than what follows. -/
theorem symbol?_append {kind : Kind} (symbol : kind ∈ Kind.symbols) {after : List Char}
    (stops : ∀ char ∈ after.head?, char ∉ kind.continuations) :
    symbol? (kind.spelling.toList ++ after) = some kind := by
  have itself : symbol? kind.spelling.toList = some kind := by
    clear stops
    revert kind
    decide
  rw [← itself]
  -- The symbols are tried in one order, so it is enough that each of them stands at the
  -- head of both texts or of none.
  refine List.find?_congr fun other member => ?_
  rw [Bool.eq_iff_iff, List.isPrefixOf_iff_prefix, List.isPrefixOf_iff_prefix]
  constructor
  · intro found
    rcases List.prefix_or_prefix_of_prefix found (List.prefix_append _ after) with
      shorter | ⟨rest, longer⟩
    · exact shorter
    · rw [← longer, List.prefix_append_right_inj] at found
      cases rest with
      | nil => exact ⟨[], by rw [← longer, List.append_nil, List.append_nil]⟩
      | cons char rest =>
        obtain ⟨behind, rfl⟩ := found
        exact absurd (Kind.mem_continuations member longer.symm) (stops char rfl)
  · intro found
    exact found.trans (List.prefix_append _ after)

theorem exists_spelling_of_symbol {kind : Kind} (symbol : kind ∈ Kind.symbols) :
    ∃ char rest, kind.spelling.toList = char :: rest ∧ ¬ isWordStart char ∧
      ¬ char.isDigit := by
  cases kind <;> first
    | contradiction
    | exact ⟨_, _, rfl, by decide, by decide⟩

theorem head_symbol {kind : Kind} (symbol : kind ∈ Kind.symbols) {after : List Char}
    (stops : ∀ char ∈ after.head?, char ∉ kind.continuations) :
    head (kind.spelling.toList ++ after) = .ofSymbol kind := by
  have found := symbol?_append symbol stops
  obtain ⟨char, rest, spelled, noWord, noDigit⟩ := exists_spelling_of_symbol symbol
  rw [spelled, List.cons_append] at found ⊢
  rw [head, startingWith_eq, if_neg noWord, if_neg noDigit, found]
  rfl

theorem exists_spelling_of_keyword {kind : Kind} (keyword : kind ∈ Kind.keywords) :
    ∃ char rest, kind.spelling.toList = char :: rest ∧ isWordStart char ∧
      rest.all isWordPart := by
  cases kind <;> first | contradiction | exact ⟨_, _, rfl, rfl, rfl⟩

theorem head_keyword {kind : Kind} (keyword : kind ∈ Kind.keywords) {after : List Char}
    (apart : Apart after) :
    head (kind.spelling.toList ++ after) = ⟨kind, kind.spelling.toList⟩ := by
  obtain ⟨char, rest, spelled, start, parts⟩ := exists_spelling_of_keyword keyword
  rw [spelled, head_word start parts apart, ← spelled, ofWord, String.ofList_toList,
    Kind.ofKeyword?_spelling keyword]
  rfl

theorem head_name {text : String} (name : IsName text) {after : List Char}
    (apart : Apart after) : head (text.toList ++ after) = ⟨.ident, text.toList⟩ := by
  obtain ⟨noKeyword, word⟩ := name
  split at word
  · contradiction
  · rename_i char rest spelled
    rw [spelled, head_word word.1 word.2 apart, ← spelled, ofWord, String.ofList_toList,
      Kind.ofKeyword?_eq_none_iff.2 noKeyword]
    rfl

theorem head_digits {text : String} (digits : IsDigits text) {after : List Char}
    (apart : Apart after) : head (text.toList ++ after) = ⟨.int, text.toList⟩ := by
  obtain ⟨some, digits⟩ := digits
  cases spelled : text.toList with
  | nil => exact absurd (String.toList_eq_nil_iff.1 spelled) some
  | cons char rest =>
    rw [spelled, List.all_cons, Bool.and_eq_true] at digits
    have stops : ∀ char ∈ after.head?, ¬ char.isDigit := fun char member digit =>
      apart char member (isWordPart_iff.2 (.inr digit))
    rw [List.cons_append, head, startingWith_eq, if_neg (not_isWordStart_of_isDigit digits.1),
      if_pos digits.1, takeWhile_append_eq digits.2 stops]

/-! ## Blanks -/

private theorem not_isBlank_of_symbol {kind : Kind} (symbol : kind ∈ Kind.symbols) :
    ∀ char ∈ kind.spelling.toList.head?, ¬ Text.isBlank char := by
  intro char begins
  cases kind <;> first
    | contradiction
    | (obtain rfl := Option.some.inj begins; decide)

theorem head_of_isBlank {char : Char} (blank : Text.isBlank char) (rest : List Char) :
    (head (char :: rest)).kind = .illegal := by
  have noWord : ¬ isWordStart char := fun start =>
    not_isBlank_of_isWordPart (isWordPart_iff.2 (.inl start)) blank
  have noDigit : ¬ char.isDigit := fun digit =>
    not_isBlank_of_isWordPart (isWordPart_iff.2 (.inr digit)) blank
  rw [head, startingWith_eq, if_neg noWord, if_neg noDigit]
  cases found : symbol? (char :: rest) with
  | none => rfl
  | some kind =>
    have symbol := List.mem_of_find?_eq_some found
    have begins := symbol?_isPrefix found
    cases spelled : kind.spelling.toList with
    | nil => exact absurd spelled kind.spelling_ne_nil
    | cons first more =>
      rw [spelled, List.cons_prefix_cons] at begins
      obtain ⟨rfl, -⟩ := begins
      refine absurd blank (not_isBlank_of_symbol symbol _ ?_)
      rw [spelled]
      rfl

end Lexeme

end OasisSyntax
