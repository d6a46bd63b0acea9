import OasisSyntax.Proofs.Tokens.Spans

/-!
# The longest match

A regular text is a word, a row of digits or a symbol.  The token that is read at some
place has for its literal the longest regular beginning of the text there, or a single
character if no beginning is regular.  Its kind goes by the literal alone, so what comes
before the place has no part in either.
-/

namespace OasisSyntax

namespace Lexeme

def IsWord : List Char → Prop
  | [] => False
  | char :: rest => isWordStart char ∧ ∀ part ∈ rest, isWordPart part

def IsNumber (text : List Char) : Prop := text ≠ [] ∧ ∀ char ∈ text, char.isDigit

def IsSymbol (text : List Char) : Prop :=
  ∃ kind : Kind, kind.isSymbol ∧ kind.spelling.toList = text

def IsRegular (text : List Char) : Prop := IsWord text ∨ IsNumber text ∨ IsSymbol text

/-- The literal is as much of the text as one token can be read from. -/
inductive Longest (text : List Char) : List Char → Prop where
  | regular {literal : List Char} (begins : literal <+: text)
      (regular : IsRegular literal)
      (longest : ∀ other, other <+: text → IsRegular other →
        other.length ≤ literal.length) : Longest text literal
  | irregular {char : Char} (begins : [char] <+: text)
      (none : ∀ other, other <+: text → ¬ IsRegular other) : Longest text [char]

end Lexeme

structure Token.Classified (token : Token) : Prop where
  func : token.literal = "func" ∨ token.literal = "fn" → token.kind = .kwFunc
  keyword : ∀ kind : Kind, kind.isKeyword → token.literal = kind.spelling →
    token.kind = kind
  name : Lexeme.IsWord token.literal.toList → token.literal ≠ "fn" →
    (∀ kind : Kind, kind.isKeyword → token.literal ≠ kind.spelling) → token.kind = .ident
  number : Lexeme.IsNumber token.literal.toList → token.kind = .int
  symbol : ∀ kind : Kind, kind.isSymbol → token.literal = kind.spelling →
    token.kind = kind
  irregular : ¬ Lexeme.IsRegular token.literal.toList → token.kind = .illegal

namespace Lexeme

/-! ## Regular texts are told apart by their first characters -/

variable {char : Char} {text rest : List Char}

theorem IsSymbol.exists_cons (symbol : IsSymbol text) :
    ∃ char rest, text = char :: rest ∧ ¬ isWordStart char ∧ ¬ char.isDigit := by
  obtain ⟨kind, symbol, rfl⟩ := symbol
  exact exists_spelling_of_symbol (Kind.mem_symbols_iff.2 symbol)

theorem IsRegular.ne_nil (regular : IsRegular text) : text ≠ [] := by
  rintro rfl
  rcases regular with word | ⟨some, -⟩ | symbol
  · exact word
  · exact some rfl
  · obtain ⟨char, rest, absurd, -⟩ := symbol.exists_cons
    cases absurd

private theorem IsRegular.isWord (regular : IsRegular (char :: rest))
    (start : isWordStart char) : IsWord (char :: rest) := by
  rcases regular with word | ⟨-, digits⟩ | symbol
  · exact word
  · exact absurd start (not_isWordStart_of_isDigit (digits char (.head rest)))
  · obtain ⟨_, _, ⟨⟩, noStart, -⟩ := symbol.exists_cons
    exact absurd start noStart

private theorem IsRegular.isNumber (regular : IsRegular (char :: rest)) (digit : char.isDigit) :
    IsNumber (char :: rest) := by
  rcases regular with ⟨start, -⟩ | number | symbol
  · exact absurd start (not_isWordStart_of_isDigit digit)
  · exact number
  · obtain ⟨_, _, ⟨⟩, -, noDigit⟩ := symbol.exists_cons
    exact absurd digit noDigit

theorem IsRegular.isSymbol (regular : IsRegular (char :: rest))
    (noStart : ¬ isWordStart char) (noDigit : ¬ char.isDigit) :
    IsSymbol (char :: rest) := by
  rcases regular with ⟨start, -⟩ | ⟨-, digits⟩ | symbol
  · exact absurd start noStart
  · exact absurd (digits char (.head rest)) noDigit
  · exact symbol

/-! ## The head of a text is the longest match -/

private theorem length_le_takeWhile {p : Char → Bool} {first : List Char}
    (begins : first <+: text) (all : ∀ char ∈ first, p char) :
    first.length ≤ (text.takeWhile p).length := by
  obtain ⟨rest, rfl⟩ := begins
  rw [List.takeWhile_append_of_pos all, List.length_append]
  omega

private theorem length_le_symbol? {kind other : Kind} (found : symbol? text = some kind)
    (symbol : other ∈ Kind.symbols) (begins : other.spelling.toList <+: text) :
    other.spelling.toList.length ≤ kind.spelling.toList.length := by
  have sorted : Kind.symbols.Pairwise fun longer shorter =>
      shorter.spelling.toList.length ≤ longer.spelling.toList.length := by decide
  obtain ⟨-, before, after, split, absent⟩ := List.find?_eq_some_iff_append.1 found
  rw [split] at sorted symbol
  rcases List.mem_append.1 symbol with early | late
  · have misses := absent other early
    rw [List.isPrefixOf_iff_prefix.2 begins] at misses
    contradiction
  · rcases List.mem_cons.1 late with rfl | later
    · exact Nat.le_refl _
    · exact (List.pairwise_cons.1 (List.pairwise_append.1 sorted).2.1).1 other later

theorem longest_takeWhile {p : Char → Bool}
    (regular : IsRegular (char :: rest.takeWhile p))
    (only : ∀ parts, IsRegular (char :: parts) → ∀ part ∈ parts, p part) :
    Longest (char :: rest) (char :: rest.takeWhile p) := by
  refine .regular (List.cons_prefix_cons.2 ⟨rfl, List.takeWhile_prefix p⟩) regular ?_
  intro other begins regular'
  cases other with
  | nil => exact absurd rfl regular'.ne_nil
  | cons first parts =>
    obtain ⟨rfl, shorter⟩ := List.cons_prefix_cons.1 begins
    exact Nat.succ_le_succ (length_le_takeWhile shorter (only parts regular'))

private theorem longest_symbol? (noStart : ¬ isWordStart char) (noDigit : ¬ char.isDigit) :
    Longest (char :: rest)
      (((symbol? (char :: rest)).map ofSymbol).getD ⟨.illegal, [char]⟩).text := by
  have isSymbol {other : List Char} (begins : other <+: char :: rest)
      (regular : IsRegular other) : IsSymbol other := by
    cases other with
    | nil => exact absurd rfl regular.ne_nil
    | cons first parts =>
      obtain ⟨rfl, -⟩ := List.cons_prefix_cons.1 begins
      exact regular.isSymbol noStart noDigit
  cases found : symbol? (char :: rest) with
  | some kind =>
    have symbol := Kind.mem_symbols_iff.1 (List.mem_of_find?_eq_some found)
    refine .regular (symbol?_isPrefix found) (.inr (.inr ⟨kind, symbol, rfl⟩)) ?_
    intro other begins regular
    obtain ⟨kind', symbol', rfl⟩ := isSymbol begins regular
    exact length_le_symbol? found (Kind.mem_symbols_iff.2 symbol') begins
  | none =>
    refine .irregular (List.cons_prefix_cons.2 ⟨rfl, List.nil_prefix⟩) ?_
    intro other begins regular
    obtain ⟨kind, symbol, rfl⟩ := isSymbol begins regular
    have misses := List.find?_eq_none.1 found kind (Kind.mem_symbols_iff.2 symbol)
    exact misses (List.isPrefixOf_iff_prefix.2 begins)

private theorem longest_head (present : text ≠ []) : Longest text (head text).text := by
  cases text with
  | nil => contradiction
  | cons char rest =>
    rw [head, startingWith_eq]
    split
    · rename_i start
      have word : IsWord (char :: rest.takeWhile isWordPart) :=
        ⟨start, List.all_eq_true.1 List.all_takeWhile⟩
      exact longest_takeWhile (.inl word) fun parts regular => (regular.isWord start).2
    · rename_i noStart
      split
      · rename_i digit
        have number : IsNumber (char :: rest.takeWhile Char.isDigit) :=
          ⟨List.cons_ne_nil _ _, List.forall_mem_cons.2
            ⟨digit, List.all_eq_true.1 List.all_takeWhile⟩⟩
        exact longest_takeWhile (.inr (.inl number)) fun parts regular =>
          (List.forall_mem_cons.1 (regular.isNumber digit).2).2
      · rename_i noDigit
        exact longest_symbol? noStart noDigit

/-! ## The kind goes by the literal -/

theorem isWord_of_keyword {kind : Kind} (keyword : kind ∈ Kind.keywords) :
    IsWord kind.spelling.toList := by
  obtain ⟨char, rest, spelled, start, parts⟩ := exists_spelling_of_keyword keyword
  rw [spelled]
  exact ⟨start, List.all_eq_true.1 parts⟩

theorem IsWord.not_isNumber (word : IsWord text) : ¬ IsNumber text := by
  cases text with
  | nil => contradiction
  | cons char rest =>
    intro number
    exact not_isWordStart_of_isDigit (number.2 char (.head rest)) word.1

theorem IsWord.not_isSymbol (word : IsWord text) : ¬ IsSymbol text := by
  intro symbol
  obtain ⟨char, rest, rfl, noStart, -⟩ := symbol.exists_cons
  exact noStart word.1

theorem IsNumber.not_isSymbol (number : IsNumber text) : ¬ IsSymbol text := by
  intro symbol
  obtain ⟨char, rest, rfl, -, noDigit⟩ := symbol.exists_cons
  exact noDigit (number.2 char (.head rest))

theorem classified_of_not_isWord {token : Token} (noWord : ¬ IsWord token.literal.toList)
    (number : IsNumber token.literal.toList → token.kind = .int)
    (symbol : ∀ kind : Kind, kind.isSymbol → token.literal = kind.spelling →
      token.kind = kind)
    (irregular : ¬ IsRegular token.literal.toList → token.kind = .illegal) :
    token.Classified := by
  have short : IsWord ['f', 'n'] := ⟨rfl, List.forall_mem_singleton.2 rfl⟩
  have long : IsWord "func".toList := @isWord_of_keyword .kwFunc (by decide)
  refine ⟨?_, fun kind keyword spelled => ?_, fun word => absurd word noWord, number,
    symbol, irregular⟩
  · rintro (spelled | spelled)
    · exact absurd (spelled ▸ long) noWord
    · exact absurd (spelled ▸ short) noWord
  · exact absurd (spelled ▸ isWord_of_keyword (Kind.mem_keywords_iff.2 keyword)) noWord

private theorem classified_ofWord (word : IsWord text) : (ofWord text).token.Classified := by
  have literal : (ofWord text).token.literal.toList = text := String.toList_ofList
  have kind : (ofWord text).token.kind =
      (Kind.ofKeyword? (ofWord text).token.literal).getD .ident := rfl
  constructor
  · rintro (spelled | spelled) <;> rw [kind, spelled] <;> rfl
  · intro keyword member spelled
    rw [kind, spelled, Kind.ofKeyword?_spelling (Kind.mem_keywords_iff.2 member)]
    rfl
  · intro _ long noKeyword
    have absent : (ofWord text).token.literal ∉ "fn" :: Kind.keywords.map Kind.spelling := by
      intro member
      obtain ⟨keyword, listed, spelled⟩ :=
        List.mem_map.1 ((List.mem_cons.1 member).resolve_left long)
      exact noKeyword keyword (Kind.mem_keywords_iff.1 listed) spelled.symm
    rw [kind, Kind.ofKeyword?_eq_none_iff.2 absent]
    rfl
  · rw [literal]
    exact fun number => absurd number word.not_isNumber
  · intro symbol member spelled
    refine absurd ?_ word.not_isSymbol
    exact ⟨symbol, member, by rw [← spelled, literal]⟩
  · rw [literal]
    exact fun irregular => absurd (.inl word) irregular

private theorem classified_number (number : IsNumber text) :
    (⟨.int, text⟩ : Lexeme).token.Classified := by
  have literal : (⟨.int, text⟩ : Lexeme).token.literal.toList = text :=
    String.toList_ofList
  apply classified_of_not_isWord
  · rw [literal]
    exact fun word => word.not_isNumber number
  · exact fun _ => rfl
  · intro symbol member spelled
    refine absurd ?_ number.not_isSymbol
    exact ⟨symbol, member, by rw [← spelled, literal]⟩
  · rw [literal]
    exact fun irregular => absurd (.inr (.inl number)) irregular

theorem spelling_injective {kind other : Kind} (symbol : kind.isSymbol)
    (symbol' : other.isSymbol) (same : kind.spelling = other.spelling) :
    kind = other := by
  have first := @symbol?_append kind (Kind.mem_symbols_iff.2 symbol) [] (by simp)
  have second := @symbol?_append other (Kind.mem_symbols_iff.2 symbol') [] (by simp)
  rw [same, second] at first
  exact (Option.some.inj first).symm

private theorem classified_ofSymbol {kind : Kind} (symbol : kind.isSymbol) :
    (ofSymbol kind).token.Classified := by
  have literal : (ofSymbol kind).token.literal = kind.spelling := String.ofList_toList
  have spelled : IsSymbol kind.spelling.toList := ⟨kind, symbol, rfl⟩
  apply classified_of_not_isWord <;> rw [literal]
  · exact fun word => word.not_isSymbol spelled
  · exact fun number => absurd spelled number.not_isSymbol
  · exact fun other symbol' same => spelling_injective symbol symbol' same
  · exact fun irregular => absurd (.inr (.inr spelled)) irregular

private theorem classified_illegal (noStart : ¬ isWordStart char) (noDigit : ¬ char.isDigit)
    (noSymbol : symbol? (char :: rest) = none) :
    (⟨.illegal, [char]⟩ : Lexeme).token.Classified := by
  have literal : (⟨.illegal, [char]⟩ : Lexeme).token.literal.toList = [char] :=
    String.toList_ofList
  apply classified_of_not_isWord
  · rw [literal]
    exact fun word => noStart word.1
  · rw [literal]
    exact fun number => absurd (number.2 char (.head _)) noDigit
  · intro kind symbol spelled
    have begins : kind.spelling.toList <+: char :: rest := by
      rw [← spelled, literal]
      exact List.cons_prefix_cons.2 ⟨rfl, List.nil_prefix⟩
    have misses := List.find?_eq_none.1 noSymbol kind (Kind.mem_symbols_iff.2 symbol)
    exact absurd (List.isPrefixOf_iff_prefix.2 begins) misses
  · exact fun _ => rfl

private theorem classified_head (present : text ≠ []) : (head text).token.Classified := by
  cases text with
  | nil => contradiction
  | cons char rest =>
    rw [head, startingWith_eq]
    split
    · rename_i start
      exact classified_ofWord ⟨start, List.all_eq_true.1 List.all_takeWhile⟩
    · rename_i noStart
      split
      · rename_i digit
        exact classified_number ⟨List.cons_ne_nil _ _, List.forall_mem_cons.2
          ⟨digit, List.all_eq_true.1 List.all_takeWhile⟩⟩
      · rename_i noDigit
        cases found : symbol? (char :: rest) with
        | some kind =>
          exact classified_ofSymbol (Kind.mem_symbols_iff.1 (List.mem_of_find?_eq_some found))
        | none => exact classified_illegal noStart noDigit found

end Lexeme

/-! ## The tokens of a text -/

namespace Reader

/-- Every token that is written has the longest literal that the text allows for there,
and the kind that goes with it.  Wherever else a reader comes to the same text, it reads
the same token. -/
theorem tokens_longest_match (reader : Reader) (token : Spanned Token)
    (member : token ∈ reader.tokens) (written : token.node.isWritten) :
    ∃ before rest, reader.rest = before ++ rest ∧
      token.span.start = reader.offset + Text.byteLength before ∧
      Lexeme.Longest rest token.node.literal.toList ∧ token.node.Classified ∧
      ∀ (other : Reader) (front : List Char), other.rest = front ++ rest →
        ∀ token' ∈ other.tokens, token'.node.isWritten →
          token'.span.start = other.offset + Text.byteLength front →
            token'.node = token.node := by
  have walk : Walk reader.offset reader.pending reader.rest reader.tokens :=
    walk_iff.2 rfl
  obtain ⟨before, rest, split, start, present, read⟩ :=
    walk.exists_head token member written
  refine ⟨before, rest, split, start, ?_, ?_, ?_⟩
  · rw [read, Lexeme.token, String.toList_ofList]
    exact Lexeme.longest_head present
  · rw [read]
    exact Lexeme.classified_head present
  · intro other front split' token' member' written' start'
    have walk' : Walk other.offset other.pending other.rest other.tokens :=
      walk_iff.2 rfl
    obtain ⟨before', rest', cut, place, -, read'⟩ :=
      walk'.exists_head token' member' written'
    obtain rfl := Text.append_inj_of_byteLength (cut.symm.trans split') (by omega)
    rw [read', read]

/-- The shift has two characters in common with the comparison behind it. -/
theorem tokens_longest_match_shift :
    let token : Spanned Token := ⟨⟨2, 5⟩, .ofKind .shlAssign⟩
    token ∈ (Reader.ofText "a <<==b".toList).tokens ∧ token.node.isWritten ∧
      Lexeme.Longest "<<==b".toList "<<=".toList ∧ token.node.Classified := by
  intro token
  have tokens : (Reader.ofText "a <<==b".toList).tokens =
      [⟨⟨0, 1⟩, ⟨.ident, "a"⟩⟩, token, ⟨⟨5, 6⟩, .ofKind .assign⟩,
        ⟨⟨6, 7⟩, ⟨.ident, "b"⟩⟩, ⟨⟨7, 7⟩, ⟨.semi, ""⟩⟩, ⟨⟨7, 7⟩, ⟨.eof, ""⟩⟩] := by
    decide +kernel
  have member : token ∈ (Reader.ofText "a <<==b".toList).tokens := by
    rw [tokens]
    exact .tail _ (.head _)
  have written : token.node.isWritten = true := rfl
  obtain ⟨before, rest, split, start, longest, classified, -⟩ :=
    tokens_longest_match (Reader.ofText "a <<==b".toList) token member written
  have whole : ['a', ' '] ++ "<<==b".toList = before ++ rest := split
  have place : 2 = Text.byteLength before := start.trans (Nat.zero_add _)
  obtain rfl : "<<==b".toList = rest := Text.append_inj_of_byteLength whole place
  exact ⟨member, written, longest, classified⟩

end Reader

end OasisSyntax
