import OasisSyntax.Proofs.Parsing.Accounting
import OasisSyntax.Proofs.Parsing.Renaming

/-!
# Two streams with the same kinds

Two sessions read from streams that have the same kinds of tokens in the same places.
Then they stay together, whatever else tells the streams apart: they take as many tokens
in each reading, and their parsers go through the same states, up to the names and
integers.  What lies behind the tokens that have been taken has no part in that.
-/

namespace OasisSyntax

namespace TokenStream

variable {stream other : TokenStream} {count fewer : Nat} {apply : String → String}

theorem take_first (stream : TokenStream) (within : fewer ≤ count) :
    (stream.first count).take fewer = stream.first fewer := by
  induction fewer generalizing stream count with
  | zero => rfl
  | succ fewer ih =>
    cases count with
    | zero => contradiction
    | succ count =>
      exact congrArg (stream.current :: ·) (ih _ (Nat.le_of_succ_le_succ within))

theorem Covers.mono (covers : stream.Covers count) (within : fewer ≤ count) :
    stream.Covers fewer :=
  covers.imp_left (Nat.le_trans within)

/-- The second stream hands out the renamed tokens of the first one to begin with, as
far as the parser tells tokens apart. -/
structure Renames (apply : String → String) (stream other : TokenStream) (count : Nat) :
    Prop where
  covers : stream.Covers count
  covers_other : other.Covers count
  same : (other.first count).map (·.node.plain) =
    (stream.first count).map fun token => (token.node.rename apply).plain

theorem Renames.mono (renames : Renames apply stream other count)
    (within : fewer ≤ count) : Renames apply stream other fewer := by
  refine ⟨renames.covers.mono within, renames.covers_other.mono within, ?_⟩
  rw [← other.take_first within, ← stream.take_first within, List.map_take,
    List.map_take, renames.same]

end TokenStream

/-! ## States -/

namespace State

variable {apply : String → String} {goal : Goal} {next : Kind}

private theorem reach?_of_renamed {tokens tokens' : List (Spanned Token)}
    (same : tokens'.map (·.node.plain) =
      tokens.map fun token => (token.node.rename apply).plain) :
    (start goal).reach? next (tokens'.map (·.node)) =
      ((start goal).reach? next (tokens.map (·.node))).map (rename apply) := by
  have plain : (tokens'.map (·.node)).map Token.plain =
      ((tokens.map (·.node)).map (Token.rename apply)).map Token.plain := by
    simpa [Function.comp_def] using same
  rw [← reach?_plain, plain, reach?_plain, ← reach?_rename, start_rename]

private theorem shift?_of_renamed {settled : State goal} {token token' : Token}
    (same : token'.plain = (token.rename apply).plain) :
    (settled.rename apply).shift? token' = (settled.shift? token).map (rename apply) := by
  rw [← shift?_plain, same, shift?_plain, shift?_rename]

end State

/-! ## Sessions -/

namespace Session

variable {apply : String → String} {goal : Goal} {stream other : TokenStream}
  {session session' : Session} {passed passed' : List (Spanned Token)}

theorem taken_le_read (goal : Goal) (session : Session) :
    session.taken ≤ (session.read goal).2.taken := Nat.le_add_right _ _

private theorem taken_le_after (session : Session) (goals : List Goal) :
    session.taken ≤ (session.after goals).taken := by
  induction goals generalizing session with
  | nil => exact Nat.le_refl _
  | cons goal goals ih => exact Nat.le_trans (taken_le_read goal session) (ih _)

namespace Follows

theorem covers {count : Nat} (follows : session.Follows stream passed)
    (covers : stream.Covers (passed.length + count)) : session.stream.Covers count := by
  refine Or.imp (fun listed => ?_) (fun ends => ?_) covers
  · rw [follows.upcoming, List.length_append] at listed
    exact Nat.le_of_add_le_add_left listed
  · rw [follows.final]
    exact ends

theorem read_of_first {later : List (Spanned Token)} {current : Spanned Token}
    {settled : State goal} (follows : session.Follows stream passed)
    (reached : (State.start goal).reach? current.node.kind (later.map (·.node)) =
      some settled)
    (stuck : settled.shift? current.node = none)
    (covers : stream.Covers (passed.length + (later.length + 1)))
    (first : session.stream.first (later.length + 1) = later ++ [current]) :
    (session.read goal).2.Follows stream (passed ++ later) ∧
      (session.read goal).1 =
        settled.judgement (session.read goal).2.stream.current := by
  obtain ⟨rest, split, rfl, read⟩ :=
    Session.read_of_first reached stuck (follows.covers covers) first
  have legal := State.legal_of_reach? reached
  rw [List.forall_mem_map] at legal
  rw [read]
  refine ⟨⟨?_, follows.final, ?_, ?_⟩, rfl⟩
  · rw [follows.upcoming, split, List.append_assoc]
  · rw [follows.taken, List.length_append]
    exact Nat.add_right_comm _ 1 _
  · exact List.forall_mem_append.2 ⟨follows.legal, legal⟩

theorem read_renamed (follows : session.Follows stream passed)
    (follows' : session'.Follows other passed') (together : passed'.length = passed.length)
    (renames : stream.Renames apply other (session.read goal).2.taken) :
    ∃ (later later' : List (Spanned Token)) (settled : State goal),
      (session.read goal).2.Follows stream (passed ++ later) ∧
      (session'.read goal).2.Follows other (passed' ++ later') ∧
      later'.length = later.length ∧
      (session.read goal).1 =
        settled.judgement (session.read goal).2.stream.current ∧
      (session'.read goal).1 =
        (settled.rename apply).judgement (session'.read goal).2.stream.current := by
  obtain ⟨later, settled, next, said, reached, stuck⟩ := follows.read goal
  obtain ⟨covers, covers', same⟩ := renames
  have count : (session.read goal).2.taken = passed'.length + (later.length + 1) := by
    rw [next.taken, List.length_append, Nat.add_assoc, together]
  have first := next.first
  generalize (session.read goal).2.stream.current = current at said reached stuck first
  -- The second session hands out next what the renamed tokens look like.
  rw [first, count, follows'.first_add, List.append_assoc, List.map_append,
    List.map_append] at same
  have ahead := (List.append_inj same (by simpa using together)).2
  rw [List.map_append] at ahead
  obtain ⟨later', front, split, laters, lasts⟩ := List.map_eq_append_iff.1 ahead
  obtain ⟨current', rfl, last⟩ := List.map_eq_singleton_iff.1 lasts
  have length : later'.length = later.length := by simpa using congrArg List.length laters
  have kind : current'.node.kind = current.node.kind := by
    simpa [Token.rename] using congrArg Token.kind last
  have reached' : (State.start goal).reach? current'.node.kind (later'.map (·.node)) =
      some (settled.rename apply) := by
    rw [kind, State.reach?_of_renamed laters, reached]
    rfl
  have stuck' : (settled.rename apply).shift? current'.node = none := by
    rw [State.shift?_of_renamed last, stuck covers]
    rfl
  rw [count, ← length] at covers'
  rw [← length] at split
  obtain ⟨next', said'⟩ := follows'.read_of_first reached' stuck' covers' split
  exact ⟨later, later', settled, next, next', length, said, said'⟩

end Follows

/-- Two sessions on streams with the same kinds of tokens stay together. -/
theorem after_renamed (goals : List Goal) (follows : session.Follows stream passed)
    (follows' : session'.Follows other passed') (together : passed'.length = passed.length)
    (renames : stream.Renames apply other (session.after goals).taken) :
    ∃ passed passed' : List (Spanned Token),
      (session.after goals).Follows stream passed ∧
      (session'.after goals).Follows other passed' ∧
      passed'.length = passed.length := by
  induction goals generalizing session session' passed passed' with
  | nil => exact ⟨passed, passed', follows, follows', together⟩
  | cons goal goals ih =>
    have within := taken_le_after (session.read goal).2 goals
    obtain ⟨later, later', -, next, next', length, -⟩ :=
      follows.read_renamed follows' together (renames.mono within)
    refine ih next next' ?_ renames
    rw [List.length_append, List.length_append, together, length]

theorem read_renamed (goals : List Goal) (goal : Goal)
    (renames : stream.Renames apply other
      (((start stream).after goals).read goal).2.taken) :
    let after := ((start stream).after goals).read goal
    let after' := ((start other).after goals).read goal
    after'.2.taken = after.2.taken ∧
      ∃ (settled : State goal) (current current' : Spanned Token),
        (stream.first after.2.taken).getLast? = some current ∧
        (other.first after.2.taken).getLast? = some current' ∧
        after.1 = settled.judgement current ∧
        after'.1 = (settled.rename apply).judgement current' := by
  intro after after'
  have within := taken_le_read goal ((start stream).after goals)
  obtain ⟨passed, passed', follows, follows', together⟩ :=
    after_renamed goals (follows_start stream) (follows_start other) rfl
      (renames.mono within)
  obtain ⟨later, later', settled, next, next', length, said, said'⟩ :=
    follows.read_renamed follows' together renames
  have taken : after'.2.taken = after.2.taken := by
    rw [next.taken, next'.taken, List.length_append, List.length_append, together, length]
  refine ⟨taken, settled, after.2.stream.current, after'.2.stream.current, ?_, ?_, said,
    said'⟩
  · rw [next.first, List.getLast?_concat]
  · rw [← taken, next'.first, List.getLast?_concat]

end Session

namespace State

variable {goal : Goal} {settled : State goal} {current : Spanned Token}

theorem judgement_eq_ok_iff {result : goal.Result} :
    settled.judgement current = .ok result ↔ settled.result? = some result :=
  ⟨judgement_eq_ok, judgement_of_result⟩

private theorem judgement_of_none (none : settled.result? = none) :
    settled.judgement current = .error ⟨current.span, settled.complaint current.node⟩ := by
  simp only [judgement, verdict, none]
  rfl

end State

/-- Two streams, which list the tokens that are looked at or end as texts do, have the
same kinds in the same places.  If the literals of the second one are those of the first
one with a function applied to them, every reading takes as many tokens from both and
comes to the same result or the same error, with the function applied to the names, the
integers and the token that is complained about.  That token is the last one taken from
the stream itself, so the error has its span.  For the results it is enough that names
and integers are the same: neither the other literals nor any spans have a part in
them. -/
theorem Session.read_same_kinds (apply : String → String) (stream other : TokenStream)
    (goals : List Goal) (goal : Goal) :
    let session := (start stream).after goals
    let session' := (start other).after goals
    let count := (session.read goal).2.taken
    stream.Covers count → other.Covers count →
      ((other.first count).map (·.node) =
          (stream.first count).map (·.node.rename apply) →
        (session'.read goal).2.taken = count ∧
          (∀ result, (session.read goal).1 = .ok result →
            (session'.read goal).1 = .ok (goal.rename apply result)) ∧
          ∀ error, (session.read goal).1 = .error error →
            ∃ actual, (other.first count).getLast? = some actual ∧
              (session'.read goal).1 =
                .error ⟨actual.span, error.node.rename apply⟩) ∧
      ((other.first count).map (·.node.plain) =
          (stream.first count).map (·.node.plain) →
        (session'.read goal).2.taken = count ∧
          ∀ result, (session'.read goal).1 = .ok result ↔
            (session.read goal).1 = .ok result) := by
  intro session session' count covers covers'
  refine ⟨fun same => ?_, fun same => ?_⟩
  · have renames : stream.Renames apply other count := by
      refine ⟨covers, covers', ?_⟩
      simpa [Function.comp_def] using congrArg (List.map Token.plain) same
    obtain ⟨taken, settled, current, current', last, last', said, said'⟩ :=
      read_renamed goals goal renames
    refine ⟨taken, fun result reads => ?_, fun error fails => ?_⟩
    · have found := State.judgement_eq_ok (said.symm.trans reads)
      refine said'.trans (State.judgement_of_result ?_)
      rw [State.result?_rename, found]
      rfl
    · obtain ⟨none, rfl⟩ := State.judgement_eq_error (said.symm.trans fails)
      have node : current'.node = current.node.rename apply := by
        have lasts := congrArg List.getLast? same
        rw [List.getLast?_map, List.getLast?_map] at lasts
        exact Option.some.inj
          ((congrArg _ last').symm.trans (lasts.trans (congrArg _ last)))
      refine ⟨current', last', said'.trans ?_⟩
      rw [State.judgement_of_none (by rw [State.result?_rename, none]; rfl), node,
        State.complaint_rename]
  · have renames : stream.Renames id other count := ⟨covers, covers', same⟩
    obtain ⟨taken, settled, current, current', -, -, said, said'⟩ :=
      read_renamed goals goal renames
    refine ⟨taken, fun result => ?_⟩
    have same' : goal.rename id = id := funext goal.rename_id
    rw [said, said', State.judgement_eq_ok_iff, State.judgement_eq_ok_iff,
      State.result?_rename, same', Option.map_id, id]

/-- A function literal in two spellings, and a binding without its sign. -/
theorem Session.read_same_kinds_spellings :
    let streamAt (place : Nat) (tokens : List Token) : TokenStream :=
      .ofTokens (tokens.map fun token => ⟨⟨place, place⟩, token⟩) place
    let func (word terminator : String) : List Token :=
      [⟨.kwFunc, word⟩, .ofKind .lparen, .ofKind .rparen, .ofKind .lbrace,
        .ofKind .rbrace, ⟨.semi, terminator⟩]
    let unbound (name digits : String) : List Token :=
      [.ofKind .kwLet, ⟨.ident, name⟩, ⟨.int, digits⟩]
    let fromFunc := (start (streamAt 7 (func "func" ";"))).read .program
    let fromUnbound := (start (streamAt 7 (unbound "x0" "10"))).read .program
    fromFunc.1 = .ok [.expr (.func [] [])] ∧ fromFunc.2.taken = 7 ∧
      fromUnbound.1 = .error ⟨⟨7, 7⟩, .missing .assign ⟨.int, "10"⟩⟩ := by
  intro streamAt func unbound fromFunc fromUnbound
  obtain ⟨taken, same⟩ := (read_same_kinds id (streamAt 0 (func "fn" "\n"))
    (streamAt 7 (func "func" ";")) [] .program (.inr rfl) (.inr rfl)).2 rfl
  obtain ⟨-, -, fails⟩ := (read_same_kinds
    (fun text => if text = "let" then text else text ++ "0")
    (streamAt 0 (unbound "x" "1")) (streamAt 7 (unbound "x0" "10")) [] .program
    (.inr rfl) (.inr rfl)).1 (by decide)
  obtain ⟨actual, last, error⟩ := fails ⟨⟨0, 0⟩, .missing .assign ⟨.int, "1"⟩⟩ rfl
  obtain rfl := Option.some.inj last
  exact ⟨(same _).2 rfl, taken, error⟩

end OasisSyntax
