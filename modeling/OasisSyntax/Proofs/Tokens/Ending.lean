import Mathlib.Data.List.Chain
import OasisSyntax.Proofs.Parsing.EarliestError
import OasisSyntax.Proofs.Tokens.Spans

/-!
# Reading to the end of a text and beyond

A reader can be asked for tokens, and for the items of a text, which are its tokens up to
the end.  It comes to the end after few calls: each lexeme takes a character that is no
blank, and at most one end of a statement is implied behind it.  From then on it stays
where it is and answers every call in the same way.
-/

namespace OasisSyntax

def Text.visibleCount (text : List Char) : Nat := text.countP fun char => !isBlank char

theorem Text.visibleCount_append (first second : List Char) :
    visibleCount (first ++ second) = visibleCount first + visibleCount second :=
  List.countP_append

private theorem Lexeme.Precedes.visibleCount_pos {lexeme : Lexeme} {after : List Char}
    (precedes : lexeme.Precedes after) : 0 < Text.visibleCount lexeme.text := by
  obtain ⟨char, rest, spelled, visible⟩ := precedes.visible
  simp [Text.visibleCount, spelled, visible]

namespace Reader

/-- A reader is asked for a token, or for an item, of which there is none at the end. -/
inductive Call where
  | token | item
deriving DecidableEq, Repr

def Call.answer (next : Spanned Token) : Call → Option (Spanned Token)
  | token => some next
  | item => if next.node.kind = .eof then none else some next

def call (reader : Reader) : Call → Option (Spanned Token) × Reader
  | .token => (some reader.next.1, reader.next.2)
  | .item => reader.next?

/-- The answers to some calls in turn, and the reader after them. -/
def calls (reader : Reader) : List Call → List (Option (Spanned Token)) × Reader
  | [] => ([], reader)
  | call :: rest =>
    let later := (reader.call call).2.calls rest
    ((reader.call call).1 :: later.1, later.2)

def atEnd (length : Nat) : Reader := ⟨length, [], false⟩

variable {offset : Nat} {pending : Bool} {text : List Char}
  {tokens : List (Spanned Token)}

/-! ## Calls -/

private theorem call_eq (reader : Reader) (call : Call) :
    reader.call call = (call.answer reader.next.1, reader.next.2) := by
  cases call <;> rfl

theorem calls_cons {reader after : Reader} {token : Spanned Token}
    (next : reader.next = (token, after)) (call : Call) (rest : List Call) :
    reader.calls (call :: rest) =
      (call.answer token :: (after.calls rest).1, (after.calls rest).2) := by
  simp only [calls, call_eq, next]

theorem calls_atEnd (length : Nat) (further : List Call) :
    (atEnd length).calls further =
      (further.map (Call.answer (TokenStream.endToken length)), atEnd length) := by
  induction further with
  | nil => rfl
  | cons call further ih =>
    have next : (atEnd length).next = (TokenStream.endToken length, atEnd length) := rfl
    rw [calls_cons next, ih, List.map_cons]

theorem next_of_finish {gap : List Char} (skipped : Skipped false gap) (offset : Nat) :
    (⟨offset, gap, false⟩ : Reader).next =
      (TokenStream.endToken (offset + Text.byteLength gap),
        atEnd (offset + Text.byteLength gap)) := by
  have skip := next_of_skipped skipped offset []
  rw [List.append_nil] at skip
  exact skip

private theorem zipWith_first_nil (final : Spanned Token) (requests : List Call) :
    List.zipWith Call.answer (TokenStream.first requests.length ⟨[], final⟩) requests =
      requests.map (Call.answer final) := by
  induction requests with
  | nil => rfl
  | cons call requests ih => exact congrArg (call.answer final :: ·) ih

theorem Walk.answers (walk : Walk offset pending text tokens) (requests : List Call) :
    ((⟨offset, text, pending⟩ : Reader).calls requests).1 =
      List.zipWith Call.answer (TokenStream.first requests.length
        ⟨tokens, TokenStream.endToken (offset + Text.byteLength text)⟩) requests := by
  induction walk generalizing requests with
  | @finish offset gap skipped =>
    cases requests with
    | nil => rfl
    | cons call requests =>
      rw [calls_cons (next_of_finish skipped offset), calls_atEnd, ← zipWith_first_nil]
      rfl
  | @lexeme offset pending gap after lexeme tokens skipped precedes noEnd behind ih =>
    cases requests with
    | nil => rfl
    | cons call requests =>
      have next := next_of_precedes precedes noEnd (offset + Text.byteLength gap)
      rw [← next_of_skipped skipped] at next
      rw [calls_cons next, ih]
      simp [TokenStream.first, TokenStream.current, Nat.add_assoc]
  | @ended offset gap rest literal tokens skipped ends behind ih =>
    cases requests with
    | nil => rfl
    | cons call requests =>
      have next := next_of_endsStatement ends (offset + Text.byteLength gap)
      rw [← next_of_skipped skipped] at next
      rw [calls_cons next, ih]
      simp [TokenStream.first, TokenStream.current, Nat.add_assoc]

private theorem Walk.reader_at_end (walk : Walk offset pending text tokens)
    {requests : List Call} (enough : tokens.length ≤ requests.length) :
    ((⟨offset, text, pending⟩ : Reader).calls requests).2 =
      atEnd (offset + Text.byteLength text) := by
  induction walk generalizing requests with
  | @finish offset gap skipped =>
    cases requests with
    | nil => contradiction
    | cons call requests =>
      rw [calls_cons (next_of_finish skipped offset), calls_atEnd]
  | @lexeme offset pending gap after lexeme tokens skipped precedes noEnd behind ih =>
    cases requests with
    | nil => contradiction
    | cons call requests =>
      have next := next_of_precedes precedes noEnd (offset + Text.byteLength gap)
      rw [← next_of_skipped skipped] at next
      rw [calls_cons next, ih (Nat.le_of_succ_le_succ enough)]
      simp [Nat.add_assoc]
  | @ended offset gap rest literal tokens skipped ends behind ih =>
    cases requests with
    | nil => contradiction
    | cons call requests =>
      have next := next_of_endsStatement ends (offset + Text.byteLength gap)
      rw [← next_of_skipped skipped] at next
      rw [calls_cons next, ih (Nat.le_of_succ_le_succ enough)]
      simp [Nat.add_assoc]

/-! ## How many tokens there are -/

/-- A lexeme takes a character that is no blank, and an end that is implied takes away
the mark that the lexeme in front of it has left. -/
theorem Walk.length_le (walk : Walk offset pending text tokens) :
    tokens.length ≤ 2 * Text.visibleCount text + pending.toNat + 1 := by
  induction walk with
  | finish skipped => simp
  | @lexeme offset pending gap after lexeme tokens skipped precedes noEnd behind ih =>
    have visible := precedes.visibleCount_pos
    have mark := Bool.toNat_le lexeme.kind.endsValue
    simp only [List.length_cons, Text.visibleCount_append]
    omega
  | @ended offset gap rest literal tokens skipped ends behind ih =>
    simp only [Bool.toNat_false, Bool.toNat_true, List.length_cons,
      Text.visibleCount_append] at ih ⊢
    omega

def Separated (token next : Spanned Token) : Prop :=
  ¬ (token.node.isImplicitSemi ∧ next.node.isImplicitSemi)

private theorem Walk.head_written (walk : Walk offset false text tokens) :
    ∀ token ∈ tokens.head?, token.node.isImplicitSemi = false := by
  cases walk with
  | finish skipped => simp [Token.isImplicitSemi, TokenStream.endToken]
  | lexeme skipped precedes noEnd behind => simp [isImplicitSemi_tokenAt precedes]

theorem Walk.separated (walk : Walk offset pending text tokens) :
    tokens.IsChain Separated := by
  induction walk with
  | finish skipped => exact .singleton _
  | lexeme skipped precedes noEnd behind ih =>
    refine List.isChain_cons.2 ⟨fun next _ both => ?_, ih⟩
    rw [isImplicitSemi_tokenAt precedes] at both
    exact Bool.false_ne_true both.1
  | ended skipped ends behind ih =>
    refine List.isChain_cons.2 ⟨fun next first both => ?_, ih⟩
    exact Bool.false_ne_true ((behind.head_written next first).symm.trans both.2)

private theorem Walk.finish_eq (walk : Walk offset pending text tokens) :
    (⟨offset, text, pending⟩ : Reader).finish =
      atEnd (offset + Text.byteLength text) := by
  induction walk with
  | finish skipped =>
    rw [Reader.finish, next_of_finish skipped]
    rfl
  | @lexeme offset pending gap after lexeme tokens skipped precedes noEnd behind ih =>
    rw [Reader.finish, next_of_skipped skipped, next_of_precedes precedes noEnd, ih]
    simp [precedes.kind_ne_eof, Nat.add_assoc]
  | ended skipped ends behind ih =>
    rw [Reader.finish, next_of_skipped skipped, next_of_endsStatement ends, ih]
    simp [Nat.add_assoc]

/-! ## The end -/

private theorem first_ofText (text : List Char) :
    (TokenStream.ofText text).first (ofText text).tokens.length = (ofText text).tokens := by
  have first := @TokenStream.first_append
    (TokenStream.endToken (Text.byteLength text)) (ofText text).tokens [] 0
  rwa [Nat.add_zero, List.append_nil, TokenStream.first, List.append_nil] at first

private theorem zipWith_answer_replicate (tokens : List (Spanned Token)) (call : Call) :
    List.zipWith Call.answer tokens (List.replicate tokens.length call) =
      tokens.map fun token => call.answer token := by
  induction tokens with
  | nil => rfl
  | cons token tokens ih => exact congrArg (call.answer token :: ·) ih

/-- The tokens of a text are at most twice as many as its characters that are no blanks,
and its end.  No two ends of statements in a row are implied.  Calls of both kinds, in
any order, are answered with the tokens in order; as many as there are tokens lead to the
end.  From then on the reader stays as it is and has nothing but the end to answer. -/
theorem tokens_come_to_end (text : List Char) :
    let reader := ofText text
    let final := TokenStream.endToken (Text.byteLength text)
    reader.tokens.length ≤ 2 * Text.visibleCount text + 1 ∧
      reader.tokens = reader.remaining ++ [final] ∧
      (∀ token ∈ reader.remaining, token.node.kind ≠ .eof) ∧
      reader.tokens.IsChain Separated ∧
      (∀ requests, (reader.calls requests).1 = List.zipWith Call.answer
        ((TokenStream.ofText text).first requests.length) requests) ∧
      (reader.calls (List.replicate reader.tokens.length .token)).1 =
        reader.tokens.map some ∧
      (reader.calls (List.replicate reader.tokens.length .item)).1 =
        reader.remaining.map some ++ [none] ∧
      (∀ requests, reader.tokens.length ≤ requests.length →
        (reader.calls requests).2 = reader.finish) ∧
      ∀ further, reader.finish.calls further =
        (further.map (Call.answer final), reader.finish) := by
  intro reader final
  have walk : Walk 0 false text reader.tokens := walk_iff.2 rfl
  obtain ⟨init, whole, noEof, -⟩ := walk.exists_init
  rw [Nat.zero_add] at whole
  have items : reader.remaining = init := by
    rw [remaining, whole, List.dropLast_concat]
  have answers (requests : List Call) : (reader.calls requests).1 =
      List.zipWith Call.answer
        ((TokenStream.ofText text).first requests.length) requests := by
    have answers := walk.answers requests
    rwa [Nat.zero_add] at answers
  have uniform (call : Call) :
      (reader.calls (List.replicate reader.tokens.length call)).1 =
        reader.tokens.map fun token => call.answer token := by
    rw [answers, List.length_replicate, first_ofText, zipWith_answer_replicate]
  have finish : reader.finish = atEnd (Text.byteLength text) := by
    have finish := walk.finish_eq
    rwa [Nat.zero_add] at finish
  refine ⟨walk.length_le, items ▸ whole, items ▸ noEof, walk.separated, answers,
    uniform .token, ?_, fun requests enough => ?_, fun further => ?_⟩
  · have listed : init.map (fun token => Call.item.answer token) = init.map some :=
      List.map_congr_left fun token member => if_neg (noEof token member)
    rw [uniform, items, whole, List.map_append, listed]
    rfl
  · have stays := walk.reader_at_end enough
    rw [Nat.zero_add] at stays
    exact stays.trans finish.symm
  · rw [finish, calls_atEnd]

/-- A name and the end that is implied behind it, asked for in both ways. -/
theorem tokens_come_to_end_name :
    let reader := ofText ['x']
    let final := TokenStream.endToken 1
    (reader.calls [.token, .item, .token]).1 =
        [some ⟨⟨0, 1⟩, ⟨.ident, "x"⟩⟩, some (impliedEnd "" 1), some final] ∧
      (reader.calls [.token, .item, .token]).2 = reader.finish ∧
      reader.finish.calls [.item, .token] = ([none, some final], reader.finish) := by
  intro reader final
  obtain ⟨bound, -, -, -, -, -, -, stays, idle⟩ := tokens_come_to_end ['x']
  have tokens : reader.tokens.length ≤ 3 := bound
  exact ⟨by rfl, stays [.token, .item, .token] tokens, idle [.item, .token]⟩

end Reader

end OasisSyntax
