import OasisSyntax.Proofs.Tokens.Walks

/-!
# Reading in two passes

The reader takes care of the ends of statements while it walks.  Two passes do the same:
the first one reads all lexemes and skips every blank, the second one looks at the text
between any two of them and puts in the ends of statements that are implied there.
-/

namespace OasisSyntax

/-- The offset of the first line break in a text that begins at the given offset. -/
def Text.lineBreak? (offset : Nat) : List Char → Option Nat
  | [] => none
  | char :: rest =>
    if char = '\n' then some offset else lineBreak? (offset + char.utf8Size) rest

namespace Reader

/-- The first pass: the lexemes of a text that begins at the offset, and its end. -/
def rawTokens (offset : Nat) (text : List Char) : List (Spanned Token) :=
  let gap := text.takeWhile Text.isBlank
  let rest := text.dropWhile Text.isBlank
  let lexeme := Lexeme.head rest
  let token := lexeme.tokenAt (offset + Text.byteLength gap)
  if lexeme.kind = .eof then [token]
  else token :: rawTokens token.span.stop (rest.drop lexeme.text.length)
termination_by text.length
decreasing_by
  rename_i more
  have present : text.dropWhile Text.isBlank ≠ [] := fun finished =>
    more (by simp [lexeme, rest, finished, Lexeme.head])
  have taken := List.length_pos_iff.2 (Lexeme.head_text_ne_nil present)
  have available := List.length_pos_iff.2 present
  have dropped := (List.dropWhile_suffix (l := text) Text.isBlank).length_le
  simp only [List.length_drop]
  omega

/-- The end of a statement that is implied between a place where one may end and the
next token: at the first line break, or else in front of what closes a block or ends the
text. -/
def endBefore? (text : List Char) (place : Nat) (next : Spanned Token) :
    Option (Spanned Token) :=
  match (Text.sliceBytes? place next.span.start text).bind (Text.lineBreak? place) with
  | some lineBreak => some (impliedEnd "\n" lineBreak)
  | none =>
    if next.node.kind = .rbrace ∨ next.node.kind = .eof then
      some (impliedEnd "" next.span.start)
    else none

def endBetween? (text : List Char) (token next : Spanned Token) :
    Option (Spanned Token) :=
  if token.node.kind.endsValue then endBefore? text token.span.stop next else none

def insertEnds (text : List Char) : List (Spanned Token) → List (Spanned Token)
  | token :: next :: rest =>
    token :: (endBetween? text token next).toList ++ insertEnds text (next :: rest)
  | tokens => tokens

/-! ## The first pass -/

variable {offset : Nat} {pending : Bool} {gap rest text : List Char}

theorem Skipped.to_false (skipped : Skipped pending gap) : Skipped false gap :=
  fun char member => ⟨(skipped char member).1, fun open' => by contradiction⟩

theorem rawTokens_skipped (skipped : Skipped false gap) (offset : Nat)
    (text : List Char) :
    rawTokens offset (gap ++ text) = rawTokens (offset + Text.byteLength gap) text := by
  have blank : ∀ char ∈ gap, Text.isBlank char := fun char member =>
    (skipped char member).1
  unfold rawTokens
  simp only [List.takeWhile_append_of_pos blank, List.dropWhile_append_of_pos blank,
    Text.byteLength_append, Nat.add_assoc]

theorem rawTokens_nil : rawTokens offset [] = [TokenStream.endToken offset] := by
  rw [rawTokens]
  rfl

theorem rawTokens_precedes {lexeme : Lexeme} {after : List Char}
    (precedes : lexeme.Precedes after) :
    rawTokens offset (lexeme.text ++ after) =
      lexeme.tokenAt offset ::
        rawTokens (offset + Text.byteLength lexeme.text) after := by
  obtain ⟨char, more, spelled, visible⟩ := precedes.visible
  have noGap : (lexeme.text ++ after).takeWhile Text.isBlank = [] := by
    simp [spelled, visible]
  have whole : (lexeme.text ++ after).dropWhile Text.isBlank = lexeme.text ++ after := by
    simp [spelled, visible]
  rw [rawTokens]
  simp only [noGap, whole, precedes.reads, if_neg precedes.kind_ne_eof, List.drop_left]
  rfl

theorem rawTokens_eq_cons (offset : Nat) (text : List Char) :
    ∃ more, rawTokens offset text =
      (Lexeme.head (text.dropWhile Text.isBlank)).tokenAt
        (offset + Text.byteLength (text.takeWhile Text.isBlank)) :: more := by
  unfold rawTokens
  dsimp only
  split <;> exact ⟨_, rfl⟩

theorem getLast?_rawTokens {tokens : List (Spanned Token)}
    (walk : Walk offset pending text tokens) :
    (rawTokens offset text).getLast? =
      some (TokenStream.endToken (offset + Text.byteLength text)) := by
  induction walk with
  | @finish offset gap skipped =>
    have raw := rawTokens_skipped skipped offset []
    rw [List.append_nil] at raw
    rw [raw, rawTokens_nil]
    rfl
  | @lexeme offset pending gap after lexeme tokens skipped precedes noEnd behind ih =>
    obtain ⟨more, next⟩ := rawTokens_eq_cons
      (offset + Text.byteLength gap + Text.byteLength lexeme.text) after
    rw [rawTokens_skipped skipped.to_false, rawTokens_precedes precedes, next,
      List.getLast?_cons_cons, ← next, ih]
    simp [Nat.add_assoc]
  | ended skipped ends behind ih =>
    rw [rawTokens_skipped skipped.to_false, ih]
    simp [Nat.add_assoc]

/-! ## The second pass -/

theorem lineBreak?_append (offset : Nat) (noBreak : ∀ char ∈ gap, char ≠ '\n')
    (rest : List Char) :
    Text.lineBreak? offset (gap ++ rest) =
      Text.lineBreak? (offset + Text.byteLength gap) rest := by
  induction gap generalizing offset with
  | nil => rfl
  | cons char gap ih =>
    rw [List.cons_append, Text.lineBreak?, if_neg (noBreak char (.head gap)),
      ih _ fun other member => noBreak other (.tail char member), Text.byteLength,
      Nat.add_assoc]

variable {before : List Char}

private theorem endBefore?_lexeme {lexeme : Lexeme} {after : List Char}
    (skipped : Skipped true gap) (precedes : lexeme.Precedes after)
    (noBrace : lexeme.kind ≠ .rbrace) :
    endBefore? (before ++ (gap ++ (lexeme.text ++ after))) (Text.byteLength before)
      (lexeme.tokenAt (Text.byteLength before + Text.byteLength gap)) = none := by
  have noBreak : Text.lineBreak? (Text.byteLength before) gap = none := by
    have noBreak := lineBreak?_append (Text.byteLength before)
      (fun char member => (skipped char member).2 rfl) []
    rwa [List.append_nil] at noBreak
  have kinds : ¬ (lexeme.kind = .rbrace ∨ lexeme.kind = .eof) :=
    not_or.2 ⟨noBrace, precedes.kind_ne_eof⟩
  simp [endBefore?, Lexeme.tokenAt, Lexeme.token, Text.sliceBytes?_append, noBreak, kinds]

private theorem endBefore?_ends {literal : String} (skipped : Skipped true gap)
    (ends : EndsStatement rest literal) :
    endBefore? (before ++ (gap ++ rest)) (Text.byteLength before)
      ((Lexeme.head (rest.dropWhile Text.isBlank)).tokenAt
        (Text.byteLength before + Text.byteLength gap +
          Text.byteLength (rest.takeWhile Text.isBlank))) =
      some (impliedEnd literal (Text.byteLength before + Text.byteLength gap)) := by
  have slice := Text.sliceBytes?_append before (gap ++ rest.takeWhile Text.isBlank)
    (rest.dropWhile Text.isBlank)
  rw [List.append_assoc, List.takeWhile_append_dropWhile, Text.byteLength_append,
    ← Nat.add_assoc] at slice
  have noBreak := lineBreak?_append (Text.byteLength before)
    (fun char member => (skipped char member).2 rfl) (rest.takeWhile Text.isBlank)
  simp only [endBefore?, Lexeme.tokenAt, slice, Option.bind_some, noBreak]
  cases ends with
  | finish => rfl
  | brace rest =>
    rw [List.takeWhile_cons_of_neg (by decide), List.dropWhile_cons_of_neg (by decide)]
    rfl
  | line rest =>
    rw [List.takeWhile_cons_of_pos (by decide)]
    rfl

-- The tokens in front of the place are put in already, so an end that is still implied
-- there comes first.
theorem Walk.eq_insertEnds {tokens : List (Spanned Token)}
    (walk : Walk offset pending text tokens) :
    ∀ (before : List Char) {first : Spanned Token} {more : List (Spanned Token)},
      Text.byteLength before = offset → rawTokens offset text = first :: more →
      tokens = (if pending then endBefore? (before ++ text) offset first else none).toList ++
        insertEnds (before ++ text) (first :: more) := by
  induction walk with
  | @finish offset gap skipped =>
    intro before first more length raw
    have finished := rawTokens_skipped skipped offset []
    rw [List.append_nil, raw, rawTokens_nil] at finished
    obtain ⟨rfl, rfl⟩ := List.cons.inj finished
    rfl
  | @lexeme offset pending gap after lexeme tokens skipped precedes noEnd behind ih =>
    intro before first more length raw
    subst length
    obtain ⟨later, next⟩ := rawTokens_eq_cons
      (Text.byteLength before + Text.byteLength gap + Text.byteLength lexeme.text) after
    have rest := ih (before ++ (gap ++ lexeme.text)) (by simp; omega) next
    rw [rawTokens_skipped skipped.to_false, rawTokens_precedes precedes, next] at raw
    obtain ⟨rfl, rfl⟩ := List.cons.inj raw
    have nothing : (if pending then endBefore? (before ++ (gap ++ (lexeme.text ++ after)))
        (Text.byteLength before)
        (lexeme.tokenAt (Text.byteLength before + Text.byteLength gap)) else none) =
          none := by
      cases pending with
      | false => rfl
      | true => exact endBefore?_lexeme skipped precedes (noEnd rfl)
    rw [nothing, rest, insertEnds]
    simp only [Option.toList_none, List.nil_append, List.append_assoc, List.cons_append]
    rfl
  | @ended offset gap rest literal tokens skipped ends behind ih =>
    intro before first more length raw
    subst length
    rw [rawTokens_skipped skipped.to_false] at raw
    have rest' := ih (before ++ gap) (by simp) raw
    obtain ⟨later, next⟩ :=
      rawTokens_eq_cons (Text.byteLength before + Text.byteLength gap) rest
    rw [raw] at next
    obtain ⟨rfl, rfl⟩ := List.cons.inj next
    rw [rest', if_pos rfl, endBefore?_ends skipped ends]
    simp

/-- One pass comes to the same as two: the tokens of a text are its lexemes, with an end
of a statement between two of them exactly where one is implied. -/
theorem tokens_eq_insertEnds (text : List Char) :
    (Reader.ofText text).tokens = insertEnds text (rawTokens 0 text) ∧
      (rawTokens 0 text).getLast? =
        some (TokenStream.endToken (Text.byteLength text)) := by
  have walk : Walk 0 false text (Reader.ofText text).tokens := walk_iff.2 rfl
  obtain ⟨more, raw⟩ := rawTokens_eq_cons 0 text
  constructor
  · rw [raw]
    exact walk.eq_insertEnds [] rfl raw
  · rw [getLast?_rawTokens walk, Nat.zero_add]

end Reader

end OasisSyntax
