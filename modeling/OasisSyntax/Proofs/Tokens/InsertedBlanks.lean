import OasisSyntax.Proofs.Tokens.Gaps
import OasisSyntax.Proofs.Tokens.Spans

/-!
# Blanks put into a text

Blanks can be put into a text anywhere but inside of a lexeme, and no lexeme is read
differently.  They only become part of a gap.  So without a line break among them nothing
changes, and with one the only change is an end of a statement in that gap: none may have
been implied there before, or one in front of what closes a block or ends the text.
-/

namespace OasisSyntax

namespace Lexeme

private theorem isSeparator_of_isBlank {char : Char} (blank : Text.isBlank char) :
    IsSeparator char := by
  have visible : ∀ kind ∈ Kind.symbols,
      kind.spelling.toList.tail.all (!Text.isBlank ·) := by decide
  refine ⟨fun part => not_isBlank_of_isWordPart part blank, fun kind member inside => ?_⟩
  have shown := List.all_eq_true.1 (visible kind member) char inside
  simp [blank] at shown

private theorem Precedes.insertBlanks {lexeme : Lexeme} {first second blanks : List Char}
    (precedes : lexeme.Precedes (first ++ second)) (blank : Reader.Skipped false blanks) :
    lexeme.Precedes (first ++ (blanks ++ second)) := by
  cases blanks with
  | nil => exact precedes
  | cons char more =>
    exact precedes.separate (isSeparator_of_isBlank (blank char (.head more)).1) _

end Lexeme

/-- The token with one literal for all implied ends of statements. -/
def Token.uniform (token : Token) : Token :=
  if token.isImplicitSemi then ⟨.semi, ""⟩ else token

@[simp] theorem Token.kind_uniform (token : Token) : token.uniform.kind = token.kind := by
  simp only [uniform]
  split
  · rename_i implicit
    simp_all [isImplicitSemi]
  · rfl

namespace Reader

variable {offset : Nat} {pending : Bool} {text before after blanks : List Char}
  {tokens : List (Spanned Token)}

/-! ## The gap at a place -/

/-- A gap around a place, with the texts and the tokens on both sides of it. -/
structure Gap where
  /-- The text in front of the gap. -/
  outer : List Char
  /-- The part of the gap in front of the place. -/
  left : List Char
  right : List Char
  /-- The text behind the gap. -/
  inner : List Char
  /-- The tokens in front of the gap; the last one of them is a lexeme. -/
  front : List (Spanned Token)
  mayEnd : Bool
  /-- The lexeme behind the gap, or the end of the text. -/
  next : Spanned Token
  rest : List (Spanned Token)

namespace Gap

def next? (gap : Gap) : Option (Spanned Token) :=
  if gap.next.node.isWritten then some gap.next else none

def tokensWith (gap : Gap) (offset : Nat) (blanks : List Char) : List (Spanned Token) :=
  gap.front ++
    (endInGap gap.mayEnd (offset + Text.byteLength gap.outer)
        (gap.left ++ (blanks ++ gap.right)) gap.next.node.kind ++
      (gap.next :: gap.rest).map (Spanned.shift (Text.byteLength blanks)))

structure IsAt (gap : Gap) (offset : Nat) (pending : Bool) (before after : List Char) :
    Prop where
  before_eq : before = gap.outer ++ gap.left
  after_eq : after = gap.right ++ gap.inner
  blank : Skipped false (gap.left ++ gap.right)
  first : gap.front = [] → gap.outer = [] ∧ gap.mayEnd = pending
  last : ∀ token ∈ gap.front.getLast?, token.node.isWritten ∧
    token.span.stop = offset + Text.byteLength gap.outer ∧
    gap.mayEnd = token.node.kind.endsValue
  front_le : ∀ token ∈ gap.front, token.node.isWritten →
    token.span.stop ≤ offset + Text.byteLength gap.outer
  next_start : gap.next.span.start =
    offset + Text.byteLength (gap.outer ++ (gap.left ++ gap.right))
  next_written : gap.next.node.isWritten ∨
    gap.next.node.kind = .eof ∧ gap.inner = [] ∧ gap.rest = []
  rest_ge : ∀ token ∈ gap.rest, gap.next.span.start ≤ token.span.start
  spread : ∀ blanks, Skipped false blanks →
    Spread offset pending (before ++ (blanks ++ after)) (gap.tokensWith offset blanks)

end Gap

theorem not_isWritten_of_mem_endInGap {gap : List Char} {next : Kind}
    {token : Spanned Token} (member : token ∈ endInGap pending offset gap next) :
    token.node.isWritten = false := by
  have node : token.node ∈ (endInGap pending offset gap next).map (·.node) :=
    List.mem_map_of_mem member
  rw [map_node_endInGap] at node
  split at node
  · split at node
    · rw [List.mem_singleton.1 node]
      rfl
    · split at node
      · rw [List.mem_singleton.1 node]
        rfl
      · contradiction
  · contradiction

theorem Skipped.insert {left right : List Char} (blank : Skipped false (left ++ right))
    (blank' : Skipped false blanks) : Skipped false (left ++ (blanks ++ right)) := by
  simp only [Skipped, List.forall_mem_append] at blank blank' ⊢
  exact ⟨blank.1, blank', blank.2⟩

theorem byteLength_insert (left blanks right : List Char) :
    Text.byteLength (left ++ (blanks ++ right)) =
      Text.byteLength (left ++ right) + Text.byteLength blanks := by
  simp only [Text.byteLength_append]
  omega

private theorem exists_gap_of_finish (blank : Skipped false (before ++ after)) :
    ∃ gap : Gap, gap.IsAt offset pending before after := by
  let next := TokenStream.endToken (offset + Text.byteLength (before ++ after))
  refine ⟨⟨[], before, after, [], [], pending, next, []⟩, ?_⟩
  refine ⟨rfl, by simp, blank, by simp, by simp, by simp, rfl, .inr ⟨rfl, rfl, rfl⟩,
    by simp, fun blanks blank' => ?_⟩
  have spread : Spread offset pending _ _ := .finish (blank.insert blank')
  rw [byteLength_insert, ← Nat.add_assoc] at spread
  simpa [Gap.tokensWith, next, Text.byteLength] using spread

private theorem exists_gap_of_lexeme {left right : List Char} {lexeme : Lexeme}
    (blank : Skipped false (left ++ right)) (precedes : lexeme.Precedes after)
    (behind : Spread (offset + Text.byteLength (left ++ right) +
      Text.byteLength lexeme.text) lexeme.kind.endsValue after tokens) :
    ∃ gap : Gap, gap.IsAt offset pending left (right ++ (lexeme.text ++ after)) := by
  let next := lexeme.tokenAt (offset + Text.byteLength (left ++ right))
  refine ⟨⟨[], left, right, lexeme.text ++ after, [], pending, next, tokens⟩, ?_⟩
  refine ⟨rfl, rfl, blank, by simp, by simp, by simp, rfl,
    .inl (isWritten_tokenAt precedes _), ?_, ?_⟩
  · intro token member
    exact Nat.le_trans (Nat.le_add_right _ _) (behind.walk.tiles.offset_le token member)
  · intro blanks blank'
    have later := (behind.walk.shift (Text.byteLength blanks)).spread
    rw [Nat.add_right_comm, Nat.add_assoc offset, ← byteLength_insert] at later
    have spread : Spread offset pending _ _ :=
      .lexeme (blank.insert blank') precedes later
    rw [byteLength_insert, ← Nat.add_assoc] at spread
    simpa [Gap.tokensWith, next, Text.byteLength] using spread

private theorem Gap.IsAt.behind_lexeme {gap : Gap} {front : List Char} {lexeme : Lexeme}
    (blank : Skipped false front) (precedes : lexeme.Precedes (before ++ after))
    (isAt : gap.IsAt (offset + Text.byteLength front + Text.byteLength lexeme.text)
      lexeme.kind.endsValue before after) :
    ∃ gap : Gap, gap.IsAt offset pending (front ++ (lexeme.text ++ before)) after := by
  obtain ⟨rfl, rfl, blank', first, last, front_le, next_start, written, rest_ge, spread⟩ :=
    isAt
  let token := lexeme.tokenAt (offset + Text.byteLength front)
  let ended := endInGap pending offset front lexeme.kind
  have place := Text.add_byteLength_parts offset front lexeme.text
  refine ⟨{ gap with
    outer := front ++ (lexeme.text ++ gap.outer)
    front := ended ++ token :: gap.front }, ?_⟩
  refine ⟨by simp, rfl, blank', by simp, ?_, ?_, ?_, written, rest_ge, ?_⟩
  · intro seen member
    have member : seen ∈ (ended ++ token :: gap.front).getLast? := member
    rcases List.eq_nil_or_concat gap.front with none | ⟨more, seen', same⟩
    · obtain ⟨nothing, same⟩ := first none
      rw [none, List.getLast?_concat] at member
      obtain rfl : token = seen := Option.mem_some.1 member
      exact ⟨isWritten_tokenAt precedes _, by rw [← place, nothing]; rfl, same⟩
    · rw [same, List.concat_eq_append, ← List.cons_append, ← List.append_assoc,
        List.getLast?_concat] at member
      obtain rfl : seen' = seen := Option.mem_some.1 member
      rw [← place]
      exact last seen' (by simp [same])
  · intro seen member written
    rw [← place]
    rcases List.mem_append.1 member with implied | inFront
    · simp [not_isWritten_of_mem_endInGap implied] at written
    · rcases List.mem_cons.1 inFront with rfl | inFront
      · exact Nat.le_add_right _ _
      · exact front_le seen inFront written
  · rw [next_start, place]
    simp
  · intro blanks blank''
    have all : Spread offset pending _ (ended ++ token :: _) :=
      .lexeme blank (precedes.insertBlanks blank'') (spread blanks blank'')
    simpa [Gap.tokensWith, place] using all

private theorem Spread.exists_gap (spread : Spread offset pending text tokens) :
    ∀ before after, text = before ++ after →
      (∀ token ∈ tokens, token.node.isWritten →
        token.span.stop ≤ offset + Text.byteLength before ∨
          offset + Text.byteLength before ≤ token.span.start) →
      ∃ gap : Gap, gap.IsAt offset pending before after := by
  induction spread with
  | finish blank =>
    rintro before after rfl -
    exact exists_gap_of_finish blank
  | @lexeme offset pending gap rest lexeme tokens blank precedes behind ih =>
    intro before after same outside
    have member : lexeme.tokenAt (offset + Text.byteLength gap) ∈
        endInGap pending offset gap lexeme.kind ++
          lexeme.tokenAt (offset + Text.byteLength gap) :: tokens := by simp
    rcases outside _ member (isWritten_tokenAt precedes _) with passed | reached
    · have passed : offset + Text.byteLength gap + Text.byteLength lexeme.text ≤
          offset + Text.byteLength before := passed
      rw [← List.append_assoc] at same
      obtain ⟨more, rfl, rfl⟩ := Text.exists_append_of_byteLength_le same (by
        rw [Text.byteLength_append]
        omega)
      obtain ⟨gap', isAt⟩ := ih more after rfl fun token later written => by
        have apart := outside token (by simp [later]) written
        simp only [Text.byteLength_append] at apart
        omega
      rw [List.append_assoc]
      exact isAt.behind_lexeme blank precedes
    · have reached : offset + Text.byteLength before ≤ offset + Text.byteLength gap :=
        reached
      obtain ⟨right, rfl, rfl⟩ := Text.exists_append_of_byteLength_le same.symm (by omega)
      exact exists_gap_of_lexeme blank precedes behind

/-! ## What stands around a place -/

/-- The last lexeme that ends at the place or in front of it. -/
def lastWritten? (place : Nat) (tokens : List (Spanned Token)) : Option (Spanned Token) :=
  tokens.reverse.find? fun token =>
    token.node.isWritten && decide (token.span.stop ≤ place)

/-- The first lexeme that begins at the place or behind it. -/
def firstWritten? (place : Nat) (tokens : List (Spanned Token)) : Option (Spanned Token) :=
  tokens.find? fun token => token.node.isWritten && decide (place ≤ token.span.start)

/-- The text from the end of one token, or else from the beginning, to the start of
another one, or else to the end. -/
def textBetween? (text : List Char) (last? next? : Option (Spanned Token)) :
    Option (List Char) :=
  Text.sliceBytes? (last?.elim 0 (·.span.stop))
    (next?.elim (Text.byteLength text) (·.span.start)) text

/-- A line break in the gap between the two lexemes makes no difference: no statement
may end there, or one ends there anyway. -/
def Settled (last? next? : Option (Spanned Token)) (gap : List Char) : Prop :=
  (∀ last ∈ last?, ¬ last.node.kind.endsValue) ∨ '\n' ∈ gap ∨
    ∀ next ∈ next?, next.node.kind = .rbrace

instance (last? next? : Option (Spanned Token)) (gap : List Char) :
    Decidable (Settled last? next? gap) :=
  inferInstanceAs (Decidable (_ ∨ _ ∨ _))

theorem Gap.tokensWith_nil (gap : Gap) (offset : Nat) :
    gap.tokensWith offset [] = gap.front ++
      (endInGap gap.mayEnd (offset + Text.byteLength gap.outer) (gap.left ++ gap.right)
        gap.next.node.kind ++ gap.next :: gap.rest) := by
  simp [tokensWith, Text.byteLength]

theorem Gap.map_node_tokensWith (gap : Gap) (offset : Nat) (blanks : List Char) :
    (gap.tokensWith offset blanks).map (·.node) =
      gap.front.map (·.node) ++
        ((if gap.mayEnd then
          if '\n' ∈ gap.left ++ gap.right ∨ '\n' ∈ blanks then [⟨.semi, "\n"⟩]
          else if gap.next.node.kind = .rbrace ∨ gap.next.node.kind = .eof then
            [⟨.semi, ""⟩]
          else []
        else []) ++ gap.next.node :: gap.rest.map (·.node)) := by
  have line : '\n' ∈ gap.left ++ (blanks ++ gap.right) ↔
      '\n' ∈ gap.left ++ gap.right ∨ '\n' ∈ blanks := by
    simp only [List.mem_append]
    grind
  simp only [tokensWith, List.map_append, List.map_cons, List.map_map, map_node_endInGap,
    line]
  rfl

namespace Gap.IsAt

variable {gap : Gap}

theorem tokens_eq (isAt : gap.IsAt 0 false before after)
    (blank : Skipped false blanks) :
    (Reader.ofText (before ++ (blanks ++ after))).tokens = gap.tokensWith 0 blanks :=
  spread_iff.1 (isAt.spread blanks blank)

theorem start_lt_stop (isAt : gap.IsAt 0 false before after) :
    ∀ token ∈ gap.tokensWith 0 [], token.node.isWritten →
      token.span.start < token.span.stop := by
  have spread := isAt.spread [] (by simp [Skipped])
  exact fun token member written =>
    ((spread.walk.tiles.liesIn token member).written written).1

theorem stop_le (isAt : gap.IsAt 0 false before after) :
    ∀ token ∈ gap.front, token.node.isWritten →
      token.span.stop ≤ Text.byteLength before := by
  intro token member written
  have := isAt.front_le token member written
  rw [isAt.before_eq, Text.byteLength_append]
  omega

theorem le_start (isAt : gap.IsAt 0 false before after) :
    ∀ token ∈ gap.next :: gap.rest, Text.byteLength before ≤ token.span.start := by
  have start := isAt.next_start
  rw [← List.append_assoc, ← isAt.before_eq, Text.byteLength_append] at start
  rw [List.forall_mem_cons]
  refine ⟨by omega, fun token member => ?_⟩
  have := isAt.rest_ge token member
  omega

private theorem lastWritten?_eq (isAt : gap.IsAt 0 false before after) :
    lastWritten? (Text.byteLength before) (gap.tokensWith 0 []) = gap.front.getLast? := by
  have longer := isAt.start_lt_stop
  rw [gap.tokensWith_nil] at longer ⊢
  rw [lastWritten?, List.reverse_append, List.find?_append, List.find?_eq_none.2,
    Option.none_or]
  · rcases List.eq_nil_or_concat gap.front with none | ⟨more, last, same⟩
    · rw [none]
      rfl
    · have inFront : last ∈ gap.front := by simp [same]
      have written := (isAt.last last (by simp [same])).1
      have reached := isAt.stop_le last inFront written
      simp [same, written, reached]
  · intro token member
    rw [List.mem_reverse] at member
    have behind := longer token (List.mem_append_right _ member)
    rcases List.mem_append.1 member with implied | member
    · simp [not_isWritten_of_mem_endInGap implied]
    · have := isAt.le_start token member
      cases written : token.node.isWritten with
      | false => simp
      | true =>
        have := behind written
        simp
        omega

private theorem firstWritten?_eq (isAt : gap.IsAt 0 false before after) :
    firstWritten? (Text.byteLength before) (gap.tokensWith 0 []) = gap.next? := by
  have longer := isAt.start_lt_stop
  rw [gap.tokensWith_nil] at longer ⊢
  rw [firstWritten?, List.find?_append, List.find?_eq_none.2, Option.none_or,
    List.find?_append, List.find?_eq_none.2, Option.none_or]
  · have start := isAt.le_start gap.next (.head _)
    rcases isAt.next_written with written | ⟨eof, -, nothing⟩
    · simp [next?, written, start]
    · simp [next?, Token.isWritten, eof, nothing]
  · intro token implied
    simp [not_isWritten_of_mem_endInGap implied]
  · intro token member
    have inFront := longer token (List.mem_append_left _ member)
    cases written : token.node.isWritten with
    | false => simp
    | true =>
      have := inFront written
      have := isAt.stop_le token member written
      simp
      omega

private theorem textBetween?_eq (isAt : gap.IsAt 0 false before after) :
    textBetween? (before ++ after) gap.front.getLast? gap.next? =
      some (gap.left ++ gap.right) := by
  have from' : gap.front.getLast?.elim 0 (·.span.stop) = Text.byteLength gap.outer := by
    cases found : gap.front.getLast? with
    | none =>
      rw [(isAt.first (List.getLast?_eq_none_iff.1 found)).1]
      rfl
    | some last => simpa using (isAt.last last found).2.1
  have upTo : gap.next?.elim (Text.byteLength (before ++ after)) (·.span.start) =
      Text.byteLength gap.outer + Text.byteLength (gap.left ++ gap.right) := by
    have start := isAt.next_start
    rw [Text.byteLength_append, Nat.zero_add] at start
    rcases isAt.next_written with written | ⟨eof, nothing, -⟩
    · rw [next?, if_pos written]
      exact start
    · have implied : ¬ gap.next.node.isWritten := by simp [Token.isWritten, eof]
      rw [next?, if_neg implied, isAt.before_eq, isAt.after_eq, nothing]
      simp
  have slice := Text.sliceBytes?_append gap.outer (gap.left ++ gap.right) gap.inner
  rw [textBetween?, from', upTo, isAt.before_eq, isAt.after_eq]
  simpa using slice

private theorem cases_of_settled (isAt : gap.IsAt 0 false before after)
    (settled : Settled gap.front.getLast? gap.next? (gap.left ++ gap.right)) :
    gap.mayEnd = false ∨ '\n' ∈ gap.left ++ gap.right ∨
      gap.next.node.kind = .rbrace ∨ gap.next.node.kind = .eof := by
  rcases settled with closed | line | brace
  · left
    cases found : gap.front.getLast? with
    | none => exact (isAt.first (List.getLast?_eq_none_iff.1 found)).2
    | some last =>
      rw [(isAt.last last found).2.2]
      simpa using closed last found
  · exact .inr (.inl line)
  · rcases isAt.next_written with written | ⟨eof, -, -⟩
    · exact .inr (.inr (.inl (brace gap.next (if_pos written))))
    · exact .inr (.inr (.inr eof))

private theorem uniform_of_settled (isAt : gap.IsAt 0 false before after) (blanks : List Char)
    (settled : Settled gap.front.getLast? gap.next? (gap.left ++ gap.right)) :
    ((gap.tokensWith 0 blanks).map (·.node)).map Token.uniform =
      ((gap.tokensWith 0 []).map (·.node)).map Token.uniform := by
  rw [gap.map_node_tokensWith, gap.map_node_tokensWith]
  have same : Token.uniform ⟨.semi, "\n"⟩ = Token.uniform ⟨.semi, ""⟩ := by decide
  rcases isAt.cases_of_settled settled with closed | line | ends
  · simp [closed]
  · simp only [line, true_or]
  · simp only [ends, if_true]
    split_ifs <;> simp [same]

private theorem of_not_settled (isAt : gap.IsAt 0 false before after)
    (unsettled : ¬ Settled gap.front.getLast? gap.next? (gap.left ++ gap.right)) :
    ∃ last front, gap.front = front ++ [last] ∧ gap.mayEnd = true ∧
      '\n' ∉ gap.left ++ gap.right ∧ gap.next? = some gap.next ∧
      gap.next.node.kind ≠ .rbrace ∧ gap.next.node.kind ≠ .eof := by
  rw [Settled] at unsettled
  push Not at unsettled
  obtain ⟨⟨last, found, ends⟩, line, next, found', noBrace⟩ := unsettled
  obtain ⟨front, same⟩ := List.getLast?_eq_some_iff.1 found
  have mayEnd := (isAt.last last found).2.2
  rw [Gap.next?] at found'
  split at found'
  · rename_i written
    obtain rfl := Option.mem_some.1 found'
    refine ⟨last, front, same, mayEnd.trans ends, line, if_pos written, noBrace, ?_⟩
    intro eof
    simp [Token.isWritten, eof] at written
  · cases found'

end Gap.IsAt

/-- Blanks that are put in between two lexemes change no token, unless there is a line
break among them.  A line break makes a difference only where a statement may end and
none ends yet in front of the next lexeme.  Then it adds the end of one, and nothing
else. -/
theorem tokens_insertBlanks (before blanks after : List Char)
    (blank : ∀ char ∈ blanks, Text.isBlank char)
    (outside : ∀ token ∈ (Reader.ofText (before ++ after)).tokens, token.node.isWritten →
      token.span.stop ≤ Text.byteLength before ∨
        Text.byteLength before ≤ token.span.start) :
    let place := Text.byteLength before
    let tokens := (Reader.ofText (before ++ after)).tokens
    let tokens' := (Reader.ofText (before ++ (blanks ++ after))).tokens
    let last? := lastWritten? place tokens
    let next? := firstWritten? place tokens
    ∃ gap, textBetween? (before ++ after) last? next? = some gap ∧
      ('\n' ∉ blanks → tokens'.map (·.node) = tokens.map (·.node)) ∧
      ('\n' ∈ blanks → Settled last? next? gap →
        tokens'.map (·.node.kind) = tokens.map (·.node.kind) ∧
        tokens'.map (·.node.uniform) = tokens.map (·.node.uniform)) ∧
      ('\n' ∈ blanks → ¬ Settled last? next? gap →
        ∃ last next front back, last? = some last ∧ next? = some next ∧
          tokens = front ++ last :: next :: back ∧
          tokens'.map (·.node) = front.map (·.node) ++
            last.node :: ⟨.semi, "\n"⟩ :: next.node :: back.map (·.node)) := by
  intro place tokens tokens' last? next?
  obtain ⟨gap, isAt⟩ := (walk_ofText (before ++ after)).spread.exists_gap before after rfl
    fun token member written => by simpa using outside token member written
  have nothing : Skipped false [] := by simp [Skipped]
  have same : tokens = gap.tokensWith 0 [] := isAt.tokens_eq nothing
  have same' : tokens' = gap.tokensWith 0 blanks :=
    isAt.tokens_eq fun char member => ⟨blank char member, by simp⟩
  have last : last? = gap.front.getLast? := by
    rw [← isAt.lastWritten?_eq, ← same]
  have next : next? = gap.next? := by
    rw [← isAt.firstWritten?_eq, ← same]
  have nodes := gap.map_node_tokensWith 0 blanks
  rw [last, next, same', same]
  refine ⟨gap.left ++ gap.right, isAt.textBetween?_eq, fun noBreak => ?_,
    fun _ settled => ?_, fun line unsettled => ?_⟩
  · rw [nodes, gap.map_node_tokensWith]
    simp [noBreak]
  · have uniform := isAt.uniform_of_settled blanks settled
    have kinds := congrArg (List.map Token.kind) uniform
    simp only [List.map_map] at uniform kinds
    exact ⟨by simpa [Function.comp_def] using kinds, uniform⟩
  · obtain ⟨last, front, found, mayEnd, noBreak, found', noBrace, noEof⟩ :=
      isAt.of_not_settled unsettled
    refine ⟨last, gap.next, front, gap.rest, by simp [found], found', ?_, ?_⟩
    · rw [gap.tokensWith_nil, mayEnd, endInGap_of_not_mem noBreak]
      simp [found, noBrace, noEof]
    · rw [nodes]
      simp [found, mayEnd, line]

/-- A call loses its arguments to the next line. -/
theorem tokens_insertBlanks_call :
    (∀ char ∈ [' ', '\n'], Text.isBlank char) ∧
      (∀ token ∈ (Reader.ofText (['f'] ++ "(x)".toList)).tokens, token.node.isWritten →
        token.span.stop ≤ 1 ∨ 1 ≤ token.span.start) ∧
      ∃ front back, (Reader.ofText "f \n(x)".toList).tokens.map (·.node) =
        front ++ ⟨.ident, "f"⟩ :: ⟨.semi, "\n"⟩ :: .ofKind .lparen :: back := by
  have tokens : (Reader.ofText (['f'] ++ "(x)".toList)).tokens =
      [⟨⟨0, 1⟩, ⟨.ident, "f"⟩⟩, ⟨⟨1, 2⟩, .ofKind .lparen⟩, ⟨⟨2, 3⟩, ⟨.ident, "x"⟩⟩,
        ⟨⟨3, 4⟩, .ofKind .rparen⟩, ⟨⟨4, 4⟩, ⟨.semi, ""⟩⟩, ⟨⟨4, 4⟩, ⟨.eof, ""⟩⟩] := by
    decide +kernel
  have blank : ∀ char ∈ [' ', '\n'], Text.isBlank char := List.all_eq_true.1 rfl
  have outside : ∀ token ∈ (Reader.ofText (['f'] ++ "(x)".toList)).tokens,
      token.node.isWritten → token.span.stop ≤ 1 ∨ 1 ≤ token.span.start := by
    rw [tokens]
    decide
  obtain ⟨gap, between, -, -, changed⟩ :=
    tokens_insertBlanks ['f'] [' ', '\n'] "(x)".toList blank outside
  rw [tokens] at between changed
  obtain rfl : [] = gap := Option.some.inj between
  obtain ⟨last, next, front, back, found, found', -, nodes⟩ :=
    changed (by decide) (by decide)
  obtain rfl := Option.some.inj found
  obtain rfl := Option.some.inj found'
  exact ⟨blank, outside, _, _, nodes⟩

end Reader

end OasisSyntax
