import OasisSyntax.Proofs.Tokens.Walks

/-!
# Texts on lines of their own

When a line break stands between two texts, the tokens of the whole are those of the
first text and then those of the second one, further on.  No lexeme goes over a line
break, and behind it the reader is as at the beginning.  Only an end of a statement at
the end of the first text is now due to the line break.
-/

namespace OasisSyntax

def Spanned.shift {α : Type} (distance : Nat) (spanned : Spanned α) : Spanned α :=
  ⟨⟨spanned.span.start + distance, spanned.span.stop + distance⟩, spanned.node⟩

@[simp] theorem Spanned.shift_zero {α : Type} :
    (Spanned.shift 0 : Spanned α → Spanned α) = id := rfl

theorem map_node_shift (tokens : List (Spanned Token)) (distance : Nat) :
    (tokens.map (Spanned.shift distance)).map (·.node) = tokens.map (·.node) := by
  simp [Spanned.shift]

@[simp] theorem TokenStream.kind_endToken (length : Nat) :
    (endToken length).node.kind = .eof := rfl

@[simp] theorem TokenStream.shift_endToken (length distance : Nat) :
    (endToken length).shift distance = endToken (length + distance) := rfl

@[simp] theorem Lexeme.shift_tokenAt (lexeme : Lexeme) (start distance : Nat) :
    (lexeme.tokenAt start).shift distance = lexeme.tokenAt (start + distance) := by
  simp [Spanned.shift, tokenAt, Nat.add_right_comm]

theorem Text.add_byteLength_parts (offset : Nat) (gap word after : List Char) :
    offset + byteLength gap + byteLength word + byteLength after =
      offset + byteLength (gap ++ (word ++ after)) := by
  simp [Nat.add_assoc]

namespace Reader

@[simp] theorem shift_impliedEnd (literal : String) (place distance : Nat) :
    (impliedEnd literal place).shift distance = impliedEnd literal (place + distance) :=
  rfl

variable {offset : Nat} {pending : Bool} {text : List Char}
  {tokens : List (Spanned Token)}

theorem Walk.shift (walk : Walk offset pending text tokens) (distance : Nat) :
    Walk (offset + distance) pending text (tokens.map (Spanned.shift distance)) := by
  induction walk with
  | @finish offset gap skipped =>
    have finish := @Walk.finish (offset + distance) gap skipped
    rwa [Nat.add_right_comm] at finish
  | lexeme skipped precedes noEnd behind ih =>
    rw [Nat.add_right_comm, Nat.add_right_comm _ _ distance] at ih
    have walk := Walk.lexeme skipped precedes noEnd ih
    rw [Nat.add_right_comm] at walk
    simpa [Nat.add_right_comm] using walk
  | ended skipped ends behind ih =>
    rw [Nat.add_right_comm] at ih
    have walk := Walk.ended skipped ends ih
    simpa [Nat.add_right_comm] using walk

theorem Walk.skip {gap : List Char} (skipped : Skipped false gap)
    (walk : Walk (offset + Text.byteLength gap) false text tokens) :
    Walk offset false (gap ++ text) tokens := by
  have both {more : List Char} (skipped' : Skipped false more) :
      Skipped false (gap ++ more) := by
    simpa [Skipped, or_imp, forall_and] using And.intro skipped skipped'
  cases walk with
  | finish skipped' =>
    have finish := @Walk.finish offset _ (both skipped')
    rwa [Text.byteLength_append, ← Nat.add_assoc] at finish
  | lexeme skipped' precedes noEnd behind =>
    rw [Nat.add_assoc offset] at behind ⊢
    rw [← Text.byteLength_append] at behind ⊢
    have walk := Walk.lexeme (both skipped') precedes noEnd behind
    rwa [List.append_assoc] at walk

theorem Walk.eq_of_nil (walk : Walk offset false [] tokens) :
    tokens = [TokenStream.endToken offset] := by
  rw [← walk.tokens_eq, Reader.tokens]
  rfl

theorem EndsStatement.append {rest : List Char} {literal : String}
    (ends : EndsStatement rest literal) (present : rest ≠ []) (after : List Char) :
    EndsStatement (rest ++ after) literal := by
  cases ends with
  | finish => contradiction
  | brace rest => exact .brace _
  | line rest => exact .line _

/-- The end of a statement at the end of a line, if a statement does end there. -/
def lineEnd (ends : Bool) (literal : String) (place : Nat) : List (Spanned Token) :=
  if ends then [impliedEnd literal place] else []

theorem start_of_mem_lineEnd {ends : Bool} {literal : String} {place : Nat}
    {token : Spanned Token} (member : token ∈ lineEnd ends literal place) :
    token.span.start = place := by
  cases ends with
  | false => simp [lineEnd] at member
  | true =>
    obtain rfl := List.mem_singleton.1 member
    rfl

/-- The walk over a text takes the same way if a line break and another text follow. -/
theorem Walk.append_line (walk : Walk offset pending text tokens) :
    ∃ front ends,
      tokens = front ++ lineEnd ends "" (offset + Text.byteLength text) ++
        [TokenStream.endToken (offset + Text.byteLength text)] ∧
      (∀ token ∈ front, token ≠ impliedEnd "" (offset + Text.byteLength text)) ∧
      ∀ {after : List Char} {more : List (Spanned Token)},
        Walk (offset + Text.byteLength text + 1) false after more →
        Walk offset pending (text ++ '\n' :: after)
          (front ++ lineEnd ends "\n" (offset + Text.byteLength text) ++ more) := by
  have newline : Skipped false ['\n'] := by
    simp [Skipped]
    decide
  induction walk with
  | @finish offset gap skipped =>
    refine ⟨[], false, rfl, by simp, fun {after more} later => ?_⟩
    exact .skip skipped (.skip newline later)
  | @lexeme offset pending gap after lexeme tokens skipped precedes noEnd behind ih =>
    obtain ⟨front, ends, rfl, early, ih⟩ := ih
    rw [Text.add_byteLength_parts] at early ih ⊢
    have written : ∀ place, lexeme.tokenAt (offset + Text.byteLength gap) ≠
        impliedEnd "" place := by
      intro place same
      have taken := precedes.byteLength_pos
      have span := congrArg Spanned.span same
      simp only [Lexeme.tokenAt, impliedEnd, Span.mk.injEq] at span
      omega
    refine ⟨lexeme.tokenAt (offset + Text.byteLength gap) :: front, ends, rfl,
      List.forall_mem_cons.2 ⟨written _, early⟩, ?_⟩
    intro rest more later
    have precedes' : lexeme.Precedes (after ++ '\n' :: rest) := by
      rw [← List.append_nil after] at precedes
      exact precedes.separate Lexeme.isSeparator_newline rest
    have walk := Walk.lexeme skipped precedes' noEnd (ih later)
    simpa using walk
  | @ended offset gap rest literal tokens skipped ends behind ih =>
    by_cases finished : rest = []
    · subst finished
      cases ends
      obtain rfl := behind.eq_of_nil
      refine ⟨[], true, by simp [lineEnd], by simp, fun {after more} later => ?_⟩
      rw [List.append_nil] at later ⊢
      exact .ended skipped (.line after) (.skip newline later)
    · obtain ⟨front, ends', rfl, early, ih⟩ := ih
      have place : offset + Text.byteLength gap + Text.byteLength rest =
          offset + Text.byteLength (gap ++ rest) := by
        simp [Nat.add_assoc]
      have behind : offset + Text.byteLength gap <
          offset + Text.byteLength (gap ++ rest) := by
        have := Text.byteLength_pos finished
        omega
      have inside : impliedEnd literal (offset + Text.byteLength gap) ≠
          impliedEnd "" (offset + Text.byteLength (gap ++ rest)) := fun same =>
        Nat.ne_of_lt behind (congrArg (·.span.start) same)
      rw [place] at early ih ⊢
      refine ⟨impliedEnd literal (offset + Text.byteLength gap) :: front, ends', rfl,
        List.forall_mem_cons.2 ⟨inside, early⟩, ?_⟩
      intro after more later
      have walk := Walk.ended skipped (ends.append finished ('\n' :: after)) (ih later)
      simpa using walk

/-- An end of a statement at the end of a text is due to the line break behind it, if
there is one. -/
def endAtLine (place : Nat) (token : Spanned Token) : Spanned Token :=
  if token = impliedEnd "" place then impliedEnd "\n" place else token

private theorem map_endAtLine {front : List (Spanned Token)} {place : Nat}
    (early : ∀ token ∈ front, token ≠ impliedEnd "" place) (ends : Bool) :
    (front ++ lineEnd ends "" place).map (endAtLine place) =
      front ++ lineEnd ends "\n" place := by
  have same : front.map (endAtLine place) = front :=
    (List.map_congr_left fun token member => if_neg (early token member)).trans
      (List.map_id front)
  rw [List.map_append, same]
  cases ends <;> simp [lineEnd, endAtLine]

/-! ## The end of a walk -/

theorem Walk.exists_init (walk : Walk offset pending text tokens) :
    ∃ init, tokens = init ++ [TokenStream.endToken (offset + Text.byteLength text)] ∧
      (∀ token ∈ init, token.node.kind ≠ .eof) ∧
      (∀ token ∈ init.getLast?, ¬ token.node.kind.endsValue) ∧
      (pending → init ≠ []) := by
  induction walk with
  | finish skipped => exact ⟨[], rfl, by simp, by simp, by simp⟩
  | @lexeme offset pending gap after lexeme tokens skipped precedes noEnd behind ih =>
    obtain ⟨init, rfl, noEof, last, present⟩ := ih
    refine ⟨lexeme.tokenAt (offset + Text.byteLength gap) :: init, by simp [Nat.add_assoc],
      ?_, ?_, by simp⟩
    · simpa using ⟨precedes.kind_ne_eof, noEof⟩
    · cases init with
      | nil =>
        have noValue : ¬ lexeme.kind.endsValue := fun value => present value rfl
        simpa using noValue
      | cons token init => simpa using last
  | @ended offset gap rest literal tokens skipped ends behind ih =>
    obtain ⟨init, rfl, noEof, last, -⟩ := ih
    refine ⟨impliedEnd literal (offset + Text.byteLength gap) :: init,
      by simp [Nat.add_assoc], ?_, ?_, by simp⟩
    · simpa using noEof
    · cases init with
      | nil => simp [Kind.endsValue]
      | cons token init => simpa using last

/-! ## Two texts -/

/-- The tokens of two texts with a line break between them are those of the first one up
to its end and those of the second one, further on by the length of what is in front. -/
theorem tokens_append_line (first second : List Char) :
    let place := Text.byteLength first
    (ofText first).tokens =
        (ofText first).remaining ++ [TokenStream.endToken place] ∧
      (ofText (first ++ '\n' :: second)).tokens =
        (ofText first).remaining.map (endAtLine place) ++
          (ofText second).tokens.map (Spanned.shift (place + 1)) := by
  intro place
  obtain ⟨tokens, walk⟩ := exists_walk 0 false first
  obtain ⟨others, walk'⟩ := exists_walk 0 false second
  obtain ⟨front, ends, rfl, early, both⟩ := walk.append_line
  have later := walk'.shift (place + 1)
  rw [Nat.zero_add] at walk early both
  rw [Nat.zero_add] at later
  have read : (ofText first).tokens = _ := walk.tokens_eq
  have read' : (ofText second).tokens = _ := walk'.tokens_eq
  have whole : (ofText (first ++ '\n' :: second)).tokens = _ := (both later).tokens_eq
  rw [remaining, read, read', whole, List.dropLast_concat, map_endAtLine early]
  exact ⟨rfl, rfl⟩

end Reader

end OasisSyntax
