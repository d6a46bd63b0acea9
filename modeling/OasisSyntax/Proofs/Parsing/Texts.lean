import OasisSyntax.Proofs.Parsing.EarliestError
import OasisSyntax.Proofs.Tokens.Lines

/-!
# Parsing a text

The tokens of a text include its end, which fits nowhere, so the parser stops at one of
them.  What it says there is the outcome for the text, and it depends on nothing behind
that token.
-/

namespace OasisSyntax

/-- Some of the tokens are taken, and the one that follows them does not fit. -/
structure StopsAt (tokens taken : List (Spanned Token)) (current : Spanned Token)
    (settled : State .program) : Prop where
  begins : taken ++ [current] <+: tokens
  reached : (State.start .program).reach? current.node.kind (taken.map (·.node)) =
    some settled
  stuck : settled.shift? current.node = none

variable {text : List Char} {tokens others taken : List (Spanned Token)}
  {current : Spanned Token} {settled : State .program} {program : Program}
  {error : Spanned SyntaxError}

theorem StopsAt.exchange {front tail : List (Spanned Token)}
    (stops : StopsAt (front ++ tail) taken current settled) (outside : current ∉ tail)
    (others : List (Spanned Token)) : StopsAt (front ++ others) taken current settled := by
  refine ⟨?_, stops.reached, stops.stuck⟩
  have early : taken ++ [current] <+: front := by
    rcases List.prefix_or_prefix_of_prefix stops.begins (List.prefix_append front tail)
      with early | late
    · exact early
    · rcases List.prefix_concat_iff.1 late with rfl | ⟨more, rfl⟩
      · exact List.prefix_rfl
      · have begins := stops.begins
        rw [List.append_assoc, List.prefix_append_right_inj] at begins
        exact absurd (begins.subset (by simp)) outside
  exact early.trans (List.prefix_append front others)

theorem exists_stopsAt (ended : ∃ token ∈ tokens, token.node.kind = .eof) :
    ∃ taken current settled, StopsAt tokens taken current settled := by
  obtain ⟨last, member, eof⟩ := ended
  obtain ⟨taken, rest, settled, rfl, reached, stuck⟩ :=
    State.exists_stops last (State.start .program) tokens
  cases rest with
  | nil =>
    rw [List.append_nil] at member
    have legal := State.legal_of_reach? reached last.node (List.mem_map_of_mem member)
    exact absurd eof legal.1
  | cons current rest =>
    exact ⟨taken, current, settled, ⟨rest, by simp⟩, reached, stuck current rfl⟩

theorem Reader.Walk.exists_stopsAt {offset : Nat} {pending : Bool}
    (walk : Walk offset pending text tokens) :
    ∃ taken current settled, StopsAt tokens taken current settled := by
  obtain ⟨init, rfl, -⟩ := walk.exists_init
  exact OasisSyntax.exists_stopsAt ⟨_, List.mem_append_right _ (.head _), rfl⟩

theorem read_of_stopsAt (walk : Reader.Walk 0 false text tokens)
    (stops : StopsAt tokens taken current settled) :
    ∃ stream, (Session.start (TokenStream.ofText text)).read .program =
      (settled.judgement current, ⟨stream, taken.length + 1⟩) := by
  obtain ⟨⟨rest, rfl⟩, reached, stuck⟩ := stops
  have upcoming : (Session.start (TokenStream.ofText text)).stream.upcoming =
      taken ++ current :: rest := by
    rw [← List.singleton_append, ← List.append_assoc]
    exact walk.tokens_eq
  have run : (State.start .program).Stops
      (Session.start (TokenStream.ofText text)).stream.final taken (current :: rest)
      settled := by
    refine ⟨reached, fun token first => ?_⟩
    obtain rfl := Option.some.inj first
    exact stuck
  rw [Session.read_of_stops upcoming run, Nat.add_comm]
  exact ⟨_, rfl⟩

theorem parse_of_stopsAt (walk : Reader.Walk 0 false text tokens)
    (stops : StopsAt tokens taken current settled) :
    parse text = settled.judgement current := by
  obtain ⟨stream, read⟩ := read_of_stopsAt walk stops
  exact congrArg Prod.fst read

theorem parse_eq_ok_iff {init : List (Spanned Token)} {length : Nat}
    (walk : Reader.Walk 0 false text (init ++ [TokenStream.endToken length])) :
    parse text = .ok program ↔
      (State.start .program).reach? .eof (init.map (·.node)) =
        some (.statement (.program program)) := by
  constructor
  · intro parsed
    obtain ⟨taken, current, settled, stops⟩ := walk.exists_stopsAt
    rw [parse_of_stopsAt walk stops] at parsed
    obtain rfl := State.result?_eq_some.1 (State.judgement_eq_ok parsed)
    have eof := State.kind_eq_eof stops.reached stops.stuck
    obtain ⟨before, same, noEof, -⟩ := walk.exists_init
    obtain ⟨rfl, -⟩ := List.append_inj' same rfl
    rcases List.prefix_concat_iff.1 stops.begins with whole | early
    · obtain ⟨rfl, last⟩ := List.append_inj' whole rfl
      rw [← eof]
      exact stops.reached
    · exact absurd eof (noEof current (early.subset (by simp)))
  · intro reached
    have stops : StopsAt (init ++ [TokenStream.endToken length]) init
        (TokenStream.endToken length) (.statement (.program program)) :=
      ⟨List.prefix_rfl, reached, rfl⟩
    rw [parse_of_stopsAt walk stops]
    exact State.judgement_of_result rfl

theorem parse_eq_error (walk : Reader.Walk 0 false text tokens)
    (stops : StopsAt tokens taken current settled) (fails : parse text = .error error) :
    settled.result? = none ∧
      error = ⟨current.span, settled.complaint current.node⟩ := by
  rw [parse_of_stopsAt walk stops] at fails
  exact State.judgement_eq_error fails

end OasisSyntax
