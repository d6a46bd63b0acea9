import OasisSyntax.Proofs.Tokens.Walks

/-!
# Ends of statements written out

An end of a statement that is implied somewhere in a text can be written there as a
semicolon.  No lexeme goes over a semicolon, and none goes on differently because of one
behind it.  A written end takes the mark away that a statement may end, as an implied
one does.  So the reader hands out the same tokens, but none of the ends is implied any
more.
-/

namespace OasisSyntax

/-- The text with the mark put in at each of the places; it begins at the offset. -/
def Text.insertAt (mark : Char) (places : List Nat) : Nat → List Char → List Char
  | offset, [] => if offset ∈ places then [mark] else []
  | offset, char :: rest =>
    (if offset ∈ places then [mark] else []) ++
      char :: insertAt mark places (offset + char.utf8Size) rest

namespace Text

variable {mark : Char} {places others : List Nat} {offset : Nat}

private theorem insertAt_congr {text : List Char}
    (same : ∀ place, offset ≤ place → (place ∈ places ↔ place ∈ others)) :
    insertAt mark places offset text = insertAt mark others offset text := by
  induction text generalizing offset with
  | nil => simp [insertAt, same offset]
  | cons char rest ih =>
    have later : ∀ place, offset + char.utf8Size ≤ place →
        (place ∈ places ↔ place ∈ others) :=
      fun place behind => same place (by omega)
    simp [insertAt, same offset, ih later]

theorem insertAt_append {front : List Char}
    (behind : ∀ place ∈ places, offset + byteLength front ≤ place) (back : List Char) :
    insertAt mark places offset (front ++ back) =
      front ++ insertAt mark places (offset + byteLength front) back := by
  induction front generalizing offset with
  | nil => rfl
  | cons char front ih =>
    simp only [byteLength, ← Nat.add_assoc] at behind ⊢
    have absent : offset ∉ places := by
      intro present
      have := behind offset present
      have := char.utf8Size_pos
      omega
    simp [insertAt, absent, ih behind]

private theorem insertAt_here {text : List Char} (behind : ∀ place ∈ places, offset < place) :
    insertAt mark (offset :: places) offset text =
      mark :: insertAt mark places offset text := by
  have absent : offset ∉ places := fun present =>
    Nat.lt_irrefl offset (behind offset present)
  cases text with
  | nil => simp [insertAt, absent]
  | cons char rest =>
    have later : insertAt mark (offset :: places) (offset + char.utf8Size) rest =
        insertAt mark places (offset + char.utf8Size) rest := by
      refine insertAt_congr fun place reached => ?_
      have := char.utf8Size_pos
      have apart : place ≠ offset := by omega
      simp [apart]
    simp [insertAt, absent, later]

private theorem insertAt_nil (text : List Char) : insertAt mark [] offset text = text := by
  induction text generalizing offset with
  | nil => rfl
  | cons char rest ih => simp [insertAt, ih]

private theorem insertAt_eq_or (mark : Char) (places : List Nat) (offset : Nat)
    (text : List Char) :
    insertAt mark places offset text = text ∨
      ∃ first second rest, text = first ++ second ∧
        insertAt mark places offset text = first ++ mark :: rest := by
  induction text generalizing offset with
  | nil =>
    by_cases here : offset ∈ places
    · exact .inr ⟨[], [], [], rfl, by simp [insertAt, here]⟩
    · exact .inl (by simp [insertAt, here])
  | cons char text ih =>
    by_cases here : offset ∈ places
    · exact .inr ⟨[], char :: text, char :: _, rfl, by simp [insertAt, here]; rfl⟩
    · rcases ih (offset + char.utf8Size) with same | ⟨first, second, rest, rfl, marked⟩
      · exact .inl (by simp [insertAt, here, same])
      · exact .inr ⟨char :: first, second, rest, rfl, by simp [insertAt, here, marked]⟩

end Text

theorem Lexeme.Precedes.insertAt {lexeme : Lexeme} {after : List Char}
    (precedes : lexeme.Precedes after) {mark : Char} (separates : IsSeparator mark)
    (places : List Nat) (offset : Nat) :
    lexeme.Precedes (Text.insertAt mark places offset after) := by
  rcases Text.insertAt_eq_or mark places offset after with
    same | ⟨first, second, rest, rfl, marked⟩
  · rwa [same]
  · rw [marked]
    exact precedes.separate separates rest

def Token.explicit (token : Token) : Token :=
  if token.isImplicitSemi then .ofKind .semi else token

namespace Reader

def impliedPlaces (tokens : List (Spanned Token)) : List Nat :=
  (tokens.filter (·.node.isImplicitSemi)).map (·.span.start)

variable {offset : Nat} {pending : Bool} {text rest : List Char}
  {tokens : List (Spanned Token)}

theorem isImplicitSemi_tokenAt {lexeme : Lexeme} (precedes : lexeme.Precedes rest)
    (start : Nat) : (lexeme.tokenAt start).node.isImplicitSemi = false := by
  by_cases semi : lexeme.kind = .semi
  · have text := precedes.text_of_symbol (by rw [semi]; decide)
    simp [Token.isImplicitSemi, Lexeme.tokenAt, Lexeme.token, text, semi]
    rfl
  · simp [Token.isImplicitSemi, semi]

theorem isImplicitSemi_impliedEnd {literal : String} (ends : EndsStatement rest literal)
    (place : Nat) : (impliedEnd literal place).node.isImplicitSemi = true := by
  cases ends <;> rfl

theorem impliedPlaces_tokenAt {lexeme : Lexeme} (precedes : lexeme.Precedes rest)
    (start : Nat) :
    impliedPlaces (lexeme.tokenAt start :: tokens) = impliedPlaces tokens := by
  simp [impliedPlaces, isImplicitSemi_tokenAt precedes]

theorem impliedPlaces_impliedEnd {literal : String} (ends : EndsStatement rest literal)
    (place : Nat) :
    impliedPlaces (impliedEnd literal place :: tokens) = place :: impliedPlaces tokens := by
  simp [impliedPlaces, isImplicitSemi_impliedEnd ends]
  rfl

theorem Walk.le_impliedPlaces (walk : Walk offset pending text tokens) :
    ∀ place ∈ impliedPlaces tokens,
      offset ≤ place ∧ (pending = false → offset < place) := by
  induction walk with
  | finish skipped => simp [impliedPlaces, Token.isImplicitSemi, TokenStream.endToken]
  | lexeme skipped precedes noEnd behind ih =>
    intro place member
    rw [impliedPlaces_tokenAt precedes] at member
    obtain ⟨reached, -⟩ := ih place member
    have taken := precedes.byteLength_pos
    omega
  | @ended offset gap rest literal tokens skipped ends behind ih =>
    intro place member
    rw [impliedPlaces_impliedEnd ends] at member
    rcases List.mem_cons.1 member with rfl | later
    · simp
    · obtain ⟨reached, -⟩ := ih place later
      exact ⟨by omega, by simp⟩

theorem precedes_semi (after : List Char) :
    (⟨.semi, [';']⟩ : Lexeme).Precedes after := by
  have symbol : Kind.semi ∈ Kind.symbols := by decide
  have continuations : Kind.semi.continuations = [] := by decide
  refine ⟨?_, ';', [], rfl, by decide⟩
  exact Lexeme.head_symbol symbol (by simp [continuations])

theorem Walk.writeEnds (walk : Walk offset pending text tokens) (start : Nat) :
    ∃ others,
      Walk start pending (Text.insertAt ';' (impliedPlaces tokens) offset text) others ∧
      others.map (·.node) = tokens.map (·.node.explicit) := by
  induction walk generalizing start with
  | @finish offset gap skipped =>
    refine ⟨[TokenStream.endToken (start + Text.byteLength gap)], ?_, rfl⟩
    have places : impliedPlaces [TokenStream.endToken (offset + Text.byteLength gap)] = [] :=
      rfl
    rw [places, Text.insertAt_nil]
    exact .finish skipped
  | @lexeme offset pending gap after lexeme tokens skipped precedes noEnd behind ih =>
    obtain ⟨others, walk, nodes⟩ :=
      ih (start + Text.byteLength gap + Text.byteLength lexeme.text)
    have later : ∀ place ∈ impliedPlaces tokens,
        offset + Text.byteLength (gap ++ lexeme.text) ≤ place := by
      intro place member
      rw [Text.byteLength_append, ← Nat.add_assoc]
      exact (behind.le_impliedPlaces place member).1
    refine ⟨lexeme.tokenAt (start + Text.byteLength gap) :: others, ?_, ?_⟩
    · rw [impliedPlaces_tokenAt precedes, ← List.append_assoc,
        Text.insertAt_append later, List.append_assoc, Text.byteLength_append,
        ← Nat.add_assoc]
      exact .lexeme skipped
        (precedes.insertAt Lexeme.isSeparator_semi _ _) noEnd walk
    · simp [nodes, Token.explicit, isImplicitSemi_tokenAt precedes]
      rfl
  | @ended offset gap rest literal tokens skipped ends behind ih =>
    obtain ⟨others, walk, nodes⟩ :=
      ih (start + Text.byteLength gap + Text.byteLength [';'])
    have later : ∀ place ∈ impliedPlaces tokens, offset + Text.byteLength gap < place :=
      fun place member => (behind.le_impliedPlaces place member).2 rfl
    have reached : ∀ place ∈ (offset + Text.byteLength gap) :: impliedPlaces tokens,
        offset + Text.byteLength gap ≤ place := by
      intro place member
      rcases List.mem_cons.1 member with rfl | member
      · exact Nat.le_refl _
      · exact Nat.le_of_lt (later place member)
    refine ⟨Lexeme.tokenAt (start + Text.byteLength gap) ⟨.semi, [';']⟩ :: others, ?_, ?_⟩
    · rw [impliedPlaces_impliedEnd ends, Text.insertAt_append reached,
        Text.insertAt_here later]
      exact .lexeme skipped (precedes_semi _) (by simp) walk
    · simp [nodes, Token.explicit, isImplicitSemi_impliedEnd ends]
      rfl

end Reader

/-- The text with all implied ends of statements written out. -/
def Text.writeEnds (text : List Char) : List Char :=
  insertAt ';' (Reader.impliedPlaces (Reader.ofText text).tokens) 0 text

end OasisSyntax
