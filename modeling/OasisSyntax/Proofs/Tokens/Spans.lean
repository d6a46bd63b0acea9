import OasisSyntax.Proofs.Tokens.Lines
import OasisSyntax.Proofs.Tokens.WrittenEnds

/-!
# Spans of tokens

The tokens of a text lie in it one behind the other.  A token that is written in the
text covers its literal there; an implied end of a statement and the end of the text
cover nothing.  What is left over are blanks, so the text can be put together again from
its tokens and the gaps between them.
-/

namespace OasisSyntax

namespace Token

/-- Whether the token stands in the text, as opposed to an end that is implied. -/
def isWritten (token : Token) : Bool :=
  !token.isImplicitSemi && decide (token.kind ≠ .eof)

theorem kind_of_not_isWritten {token : Token} (implied : ¬ token.isWritten) :
    token.kind = .semi ∨ token.kind = .eof := by
  cases implicit : token.isImplicitSemi with
  | true =>
    rw [isImplicitSemi, Bool.and_eq_true, decide_eq_true_eq] at implicit
    exact .inl implicit.1
  | false =>
    right
    simpa [isWritten, implicit] using implied

def covered (token : Token) : List Char :=
  if token.isWritten then token.literal.toList else []

end Token

/-- The token has its place in the text: the span is one of the text, with the literal
under it if the token is written there, and nothing otherwise. -/
structure Spanned.LiesIn (text : List Char) (token : Spanned Token) : Prop where
  ordered : token.span.start ≤ token.span.stop
  inside : token.span.stop ≤ Text.byteLength text
  startsAtChar : (Text.splitAtByte? token.span.start text).isSome
  stopsAtChar : (Text.splitAtByte? token.span.stop text).isSome
  written : token.node.isWritten → token.span.start < token.span.stop ∧
    Text.sliceBytes? token.span.start token.span.stop text =
      some token.node.literal.toList
  implied : ¬ token.node.isWritten → token.span.start = token.span.stop

namespace Reader

/-- The text in front of each token, from where the one before it stops. -/
def gaps? (text : List Char) : Nat → List (Spanned Token) → Option (List (List Char))
  | _, [] => some []
  | place, token :: rest => do
    let gap ← Text.sliceBytes? place token.span.start text
    let gaps ← gaps? text token.span.stop rest
    pure (gap :: gaps)

def interleave (gaps : List (List Char)) (tokens : List (Spanned Token)) : List Char :=
  (List.zipWith (fun gap token => gap ++ token.node.covered) gaps tokens).flatten

/-- The tokens lie one behind the other in the text, which begins at the offset, with
blanks in front of each of them and nothing behind the last.  A token that is written is
read from the text that begins with it. -/
inductive Tiles : Nat → List Char → List (Spanned Token) → Prop where
  | nil (offset : Nat) : Tiles offset [] []
  | cons {offset : Nat} {gap rest : List Char} {token : Spanned Token}
      {tokens : List (Spanned Token)} (blank : ∀ char ∈ gap, Text.isBlank char)
      (start : token.span.start = offset + Text.byteLength gap)
      (stop : token.span.stop = token.span.start + Text.byteLength token.node.covered)
      (written : token.node.isWritten → 0 < Text.byteLength token.node.covered ∧
        token.node = (Lexeme.head (token.node.covered ++ rest)).token)
      (behind : Tiles token.span.stop rest tokens) :
      Tiles offset (gap ++ (token.node.covered ++ rest)) (token :: tokens)

variable {offset : Nat} {pending : Bool} {text rest : List Char}
  {token : Spanned Token} {tokens : List (Spanned Token)}

theorem isWritten_tokenAt {lexeme : Lexeme} (precedes : lexeme.Precedes rest)
    (start : Nat) : (lexeme.tokenAt start).node.isWritten = true := by
  simp [Token.isWritten, isImplicitSemi_tokenAt precedes, precedes.kind_ne_eof]

private theorem covered_tokenAt {lexeme : Lexeme} (precedes : lexeme.Precedes rest)
    (start : Nat) : (lexeme.tokenAt start).node.covered = lexeme.text := by
  rw [Token.covered, if_pos (isWritten_tokenAt precedes start)]
  exact String.toList_ofList

private theorem isWritten_impliedEnd {literal : String} (ends : EndsStatement rest literal)
    (place : Nat) : (impliedEnd literal place).node.isWritten = false := by
  simp [Token.isWritten, isImplicitSemi_impliedEnd ends]

theorem Walk.tiles (walk : Walk offset pending text tokens) :
    Tiles offset text tokens := by
  induction walk with
  | @finish offset gap skipped =>
    have tiles := @Tiles.cons offset gap []
      (TokenStream.endToken (offset + Text.byteLength gap)) []
      (fun char member => (skipped char member).1) rfl rfl nofun (.nil _)
    simpa [Token.covered, Token.isWritten, TokenStream.endToken] using tiles
  | @lexeme offset pending gap after lexeme tokens skipped precedes noEnd behind ih =>
    have covered := covered_tokenAt precedes (offset + Text.byteLength gap)
    rw [← covered]
    refine .cons (fun char member => (skipped char member).1) rfl ?_ (fun _ => ?_) ih
    · rw [covered]
      rfl
    · rw [covered, precedes.reads]
      exact ⟨precedes.byteLength_pos, rfl⟩
  | @ended offset gap rest literal tokens skipped ends behind ih =>
    have implied := isWritten_impliedEnd ends (offset + Text.byteLength gap)
    have covered : (impliedEnd literal (offset + Text.byteLength gap)).node.covered =
        [] := by
      rw [Token.covered, implied]
      rfl
    have tiles := @Tiles.cons offset gap rest
      (impliedEnd literal (offset + Text.byteLength gap)) tokens
      (fun char member => (skipped char member).1) rfl (by rw [covered]; rfl)
      (by simp [implied]) ih
    rwa [covered, List.nil_append] at tiles

/-! ## What tiles a text -/

theorem Tiles.offset_le (tiles : Tiles offset text tokens) :
    ∀ token ∈ tokens, offset ≤ token.span.start := by
  induction tiles with
  | nil => simp
  | cons blank start stop written behind ih =>
    rw [List.forall_mem_cons]
    refine ⟨by omega, fun later member => ?_⟩
    have := ih later member
    omega

theorem Tiles.pairwise (tiles : Tiles offset text tokens) :
    tokens.Pairwise fun token later => token.span.stop ≤ later.span.start := by
  induction tiles with
  | nil => exact .nil
  | cons blank start stop written behind ih => exact .cons behind.offset_le ih

theorem Tiles.exists_split (tiles : Tiles offset text tokens) :
    ∀ token ∈ tokens, ∃ before after,
      text = before ++ (token.node.covered ++ after) ∧
      token.span.start = offset + Text.byteLength before ∧
      token.span.stop = token.span.start + Text.byteLength token.node.covered ∧
      (token.node.isWritten → 0 < Text.byteLength token.node.covered ∧
        token.node = (Lexeme.head (token.node.covered ++ after)).token) := by
  induction tiles with
  | nil => simp
  | @cons offset gap rest token tokens blank start stop written behind ih =>
    rw [List.forall_mem_cons]
    refine ⟨⟨gap, rest, rfl, start, stop, written⟩, fun later member => ?_⟩
    obtain ⟨before, after, rfl, start', parts⟩ := ih later member
    refine ⟨gap ++ (token.node.covered ++ before), after, by simp, ?_, parts⟩
    simp only [Text.byteLength_append]
    omega

theorem Walk.exists_head (walk : Walk offset pending text tokens) :
    ∀ token ∈ tokens, token.node.isWritten → ∃ before rest,
      text = before ++ rest ∧ token.span.start = offset + Text.byteLength before ∧
      rest ≠ [] ∧ token.node = (Lexeme.head rest).token := by
  intro token member written
  obtain ⟨before, after, whole, start, -, reads⟩ := walk.tiles.exists_split token member
  obtain ⟨visible, read⟩ := reads written
  refine ⟨before, token.node.covered ++ after, whole, start, ?_, read⟩
  intro nothing
  rw [(List.append_eq_nil_iff.1 nothing).1] at visible
  contradiction

theorem Tiles.liesIn (tiles : Tiles 0 text tokens) :
    ∀ token ∈ tokens, token.LiesIn text := by
  intro token member
  obtain ⟨before, after, rfl, start, stop, visible⟩ := tiles.exists_split token member
  rw [Nat.zero_add] at start
  have slice := Text.sliceBytes?_append before token.node.covered after
  have starts := Text.splitAtByte?_append before (token.node.covered ++ after)
  have stops := Text.splitAtByte?_append (before ++ token.node.covered) after
  rw [Text.byteLength_append, List.append_assoc, ← start, ← stop] at stops
  rw [← start, ← stop] at slice
  rw [← start] at starts
  refine ⟨by omega, ?_, by simp [starts], by simp [stops], fun written => ?_,
    fun implied => ?_⟩
  · simp only [Text.byteLength_append]
    omega
  · have length := (visible written).1
    rw [slice, Token.covered, if_pos written]
    exact ⟨by omega, rfl⟩
  · rw [stop, Token.covered, if_neg implied]
    rfl

private theorem Tiles.exists_gaps (tiles : Tiles offset text tokens) :
    ∀ front : List Char, Text.byteLength front = offset →
      ∃ gaps, gaps? (front ++ text) offset tokens = some gaps ∧
        (∀ gap ∈ gaps, ∀ char ∈ gap, Text.isBlank char) ∧
        interleave gaps tokens = text := by
  induction tiles with
  | nil => exact fun front length => ⟨[], rfl, by simp, rfl⟩
  | @cons offset gap rest token tokens blank start stop written behind ih =>
    rintro front rfl
    obtain ⟨gaps, found, blanks, whole⟩ := ih (front ++ (gap ++ token.node.covered)) (by
      simp only [Text.byteLength_append]
      omega)
    have slice := Text.sliceBytes?_append front gap (token.node.covered ++ rest)
    rw [← start] at slice
    simp only [List.append_assoc] at found
    refine ⟨gap :: gaps, ?_, List.forall_mem_cons.2 ⟨blank, blanks⟩, ?_⟩
    · simp only [gaps?, slice, found]
      rfl
    · simpa [interleave] using whole

/-- The tokens of a text lie in it in order and apart from each other.  Between them
there are only blanks, and with these the text can be put together again. -/
theorem tokens_cover_text (text : List Char) :
    let tokens := (Reader.ofText text).tokens
    tokens.Pairwise (fun token later => token.span.stop ≤ later.span.start) ∧
      (∀ token ∈ tokens, token.LiesIn text) ∧
      tokens.getLast? = some (TokenStream.endToken (Text.byteLength text)) ∧
      ∃ gaps, gaps? text 0 tokens = some gaps ∧
        (∀ gap ∈ gaps, ∀ char ∈ gap, Text.isBlank char) ∧
        interleave gaps tokens = text := by
  intro tokens
  have walk : Walk 0 false text tokens := walk_iff.2 rfl
  have tiles := walk.tiles
  obtain ⟨init, same, -⟩ := walk.exists_init
  refine ⟨tiles.pairwise, tiles.liesIn, ?_, tiles.exists_gaps [] rfl⟩
  rw [same, List.getLast?_concat, Nat.zero_add]

end Reader

end OasisSyntax
