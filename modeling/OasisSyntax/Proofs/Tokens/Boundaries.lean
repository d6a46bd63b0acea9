import OasisSyntax.Proofs.Printing.Lexemes

/-!
# Where lexemes end

The lexeme at the head of a text is settled in front of its end: the text behind it can
be cut off, and a separator can be put there, a character that goes on with no word, no
row of digits and no symbol.  So texts can be joined and marks be put between lexemes
without another lexeme being read.
-/

namespace OasisSyntax

namespace Lexeme

/-- Nothing that has begun goes on with the character. -/
structure IsSeparator (char : Char) : Prop where
  apart : ¬ isWordPart char
  inNoSymbol : ∀ kind ∈ Kind.symbols, char ∉ kind.spelling.toList.tail

theorem isSeparator_newline : IsSeparator '\n' := by
  constructor <;> decide

theorem isSeparator_semi : IsSeparator ';' := by
  constructor <;> decide

theorem takeWhile_append_separator {p : Char → Bool} {separator : Char}
    (stops : ¬ p separator) (word after : List Char) :
    (word ++ separator :: after).takeWhile p = word.takeWhile p := by
  induction word with
  | nil => simp [stops]
  | cons char word ih => simp [List.takeWhile_cons, ih]

theorem takeWhile_of_append {p : Char → Bool} {word after : List Char}
    (inside : (word ++ after).takeWhile p <+: word) :
    word.takeWhile p = (word ++ after).takeWhile p := by
  induction word with
  | nil => exact (List.prefix_nil.1 inside).symm
  | cons char word ih =>
    simp only [List.cons_append, List.takeWhile_cons] at inside ⊢
    split
    · rename_i holds
      rw [if_pos holds, List.cons_prefix_cons] at inside
      rw [ih inside.2]
    · rfl

/-! ## Symbols -/

private theorem symbol?_append_separator {separator : Char} (separates : IsSeparator separator)
    {text : List Char} (present : text ≠ []) (after : List Char) :
    symbol? (text ++ separator :: after) = symbol? text := by
  refine List.find?_congr fun kind member => ?_
  rw [Bool.eq_iff_iff, List.isPrefixOf_iff_prefix, List.isPrefixOf_iff_prefix]
  constructor
  · intro found
    rcases List.prefix_or_prefix_of_prefix found (List.prefix_append text _) with
      shorter | ⟨rest, longer⟩
    · exact shorter
    · rw [← longer, List.prefix_append_right_inj] at found
      cases rest with
      | nil => simp [← longer]
      | cons char rest =>
        -- The spelling would go on with the separator.
        obtain ⟨rfl, -⟩ := List.cons_prefix_cons.1 found
        have inside : char ∈ kind.spelling.toList.tail := by
          rw [← longer, List.tail_append_of_ne_nil present]
          simp
        exact absurd inside (separates.inNoSymbol kind member)
  · intro found
    exact found.trans (List.prefix_append text _)

/-- The symbols before the one that is found do not stand at the head of a shorter text
either. -/
private theorem symbol?_of_append {text after : List Char} {kind : Kind}
    (found : symbol? (text ++ after) = some kind)
    (inside : kind.spelling.toList <+: text) : symbol? text = some kind := by
  simp only [symbol?, List.find?_eq_some_iff_append] at found ⊢
  obtain ⟨-, longer, shorter, split, others⟩ := found
  refine ⟨by simpa using inside, longer, shorter, split, fun other member => ?_⟩
  have absent := others other member
  simp only [Bool.not_eq_true', Bool.eq_false_iff, ne_eq,
    List.isPrefixOf_iff_prefix] at absent ⊢
  exact fun stands => absent (stands.trans (List.prefix_append text after))

private theorem symbol?_of_append_eq_none {text after : List Char}
    (found : symbol? (text ++ after) = none) : symbol? text = none := by
  simp only [symbol?, List.find?_eq_none, List.isPrefixOf_iff_prefix] at found ⊢
  exact fun kind member stands =>
    found kind member (stands.trans (List.prefix_append text after))

/-! ## Lexemes -/

theorem head_append_separator {separator : Char} (separates : IsSeparator separator)
    {text : List Char} (present : text ≠ []) (after : List Char) :
    head (text ++ separator :: after) = head text := by
  cases text with
  | nil => contradiction
  | cons char rest =>
    have noDigit : ¬ separator.isDigit := fun digit =>
      separates.apart (isWordPart_iff.2 (.inr digit))
    have symbol := symbol?_append_separator separates present after
    rw [List.cons_append] at symbol ⊢
    simp only [head, startingWith_eq, takeWhile_append_separator separates.apart,
      takeWhile_append_separator noDigit, symbol]

theorem head_of_append {text after : List Char} (present : text ≠ [])
    (inside : (head (text ++ after)).text <+: text) :
    head text = head (text ++ after) := by
  cases text with
  | nil => contradiction
  | cons char rest =>
    rw [List.cons_append] at inside ⊢
    simp only [head, startingWith_eq] at inside ⊢
    split
    · rename_i start
      rw [if_pos start] at inside
      rw [takeWhile_of_append (List.cons_prefix_cons.1 inside).2]
    · rename_i noWord
      rw [if_neg noWord] at inside
      split
      · rename_i digit
        rw [if_pos digit] at inside
        rw [takeWhile_of_append (List.cons_prefix_cons.1 inside).2]
      · rename_i noDigit
        rw [if_neg noDigit, ← List.cons_append] at inside
        rw [← List.cons_append]
        cases found : symbol? ((char :: rest) ++ after) with
        | none => rw [symbol?_of_append_eq_none found]
        | some kind =>
          rw [found] at inside
          rw [symbol?_of_append found inside]

theorem head_cons (char : Char) (rest : List Char) :
    (isWordStart char ∧
      head (char :: rest) = ofWord (char :: rest.takeWhile isWordPart)) ∨
    (char.isDigit ∧
      head (char :: rest) = ⟨.int, char :: rest.takeWhile Char.isDigit⟩) ∨
    (∃ kind ∈ Kind.symbols, head (char :: rest) = .ofSymbol kind) ∨
    head (char :: rest) = ⟨.illegal, [char]⟩ := by
  rw [head, startingWith_eq]
  split
  · simp_all
  · split
    · simp_all
    · cases found : symbol? (char :: rest) with
      | none => simp
      | some kind => exact .inr (.inr (.inl ⟨kind, List.mem_of_find?_eq_some found, rfl⟩))

theorem kind_ofWord (word : List Char) :
    (ofWord word).kind ∈ Kind.keywords ∨
      (ofWord word).kind = .ident ∧ Kind.ofKeyword? (String.ofList word) = none := by
  simp only [ofWord]
  cases found : Kind.ofKeyword? (String.ofList word) with
  | none => simp
  | some kind => exact .inl (Kind.mem_keywords_of_ofKeyword? found).1

theorem token_ofWord {word : List Char} (keyword : (ofWord word).kind ∈ Kind.keywords) :
    (ofWord word).token = .ofKind (ofWord word).kind ∨
      (ofWord word).token = ⟨.kwFunc, "fn"⟩ := by
  have noName : Kind.ident ∉ Kind.keywords := by decide
  simp only [ofWord, token, Token.ofKind] at keyword ⊢
  cases found : Kind.ofKeyword? (String.ofList word) with
  | none =>
    rw [found] at keyword
    exact absurd keyword noName
  | some kind =>
    obtain ⟨-, spelled | short⟩ := Kind.mem_keywords_of_ofKeyword? found
    · left
      rw [spelled]
      rfl
    · right
      rw [short] at found ⊢
      rw [← Option.some.inj found]
      rfl

private theorem not_mem_symbols_of_ofWord (word : List Char) :
    (ofWord word).kind ∉ Kind.symbols := by
  have disjoint : ∀ kind ∈ Kind.keywords, kind ∉ Kind.symbols := by decide
  rcases kind_ofWord word with keyword | ⟨name, -⟩
  · exact disjoint _ keyword
  · rw [name]
    decide

theorem text_of_symbol {text : List Char} (symbol : (head text).kind ∈ Kind.symbols) :
    (head text).text = (head text).kind.spelling.toList := by
  have noInt : Kind.int ∉ Kind.symbols := by decide
  have noIllegal : Kind.illegal ∉ Kind.symbols := by decide
  cases text with
  | nil => exact absurd symbol (by decide)
  | cons char rest =>
    rcases head_cons char rest with ⟨-, word⟩ | ⟨-, int⟩ | ⟨kind, -, found⟩ | illegal
    · rw [word] at symbol
      exact absurd symbol (not_mem_symbols_of_ofWord _)
    · rw [int] at symbol
      exact absurd symbol noInt
    · rw [found]
      rfl
    · rw [illegal] at symbol
      exact absurd symbol noIllegal

theorem kind_ne_eof {text : List Char} (present : text ≠ []) :
    (head text).kind ≠ .eof := by
  have noKeyword : Kind.eof ∉ Kind.keywords := by decide
  have noSymbol : Kind.eof ∉ Kind.symbols := by decide
  cases text with
  | nil => contradiction
  | cons char rest =>
    rcases head_cons char rest with ⟨-, word⟩ | ⟨-, int⟩ | ⟨kind, member, found⟩ | illegal
    · rw [word]
      rcases kind_ofWord (char :: rest.takeWhile isWordPart) with keyword | ⟨name, -⟩
      · exact fun eof => noKeyword (eof ▸ keyword)
      · simp [name]
    · simp [int]
    · rw [found]
      exact fun eof => noSymbol (eof ▸ member)
    · simp [illegal]

end Lexeme

end OasisSyntax
