import OasisSyntax.Proofs.Parsing.Texts
import OasisSyntax.Proofs.Tokens.WrittenEnds

/-!
# Implied ends mean semicolons

The parser does not tell an implied end of a statement from a semicolon.  So a text and
the one with its implied ends written out are the same program, or they fail at the same
token with the same complaint.
-/

namespace OasisSyntax

namespace Token

variable (token : Token)

@[simp] theorem kind_explicit : token.explicit.kind = token.kind := by
  simp only [explicit]
  split
  · rename_i implicit
    simp_all [isImplicitSemi]
  · rfl

@[simp] theorem isImplicitSemi_explicit : token.explicit.isImplicitSemi = false := by
  simp only [explicit]
  split
  · rfl
  · rename_i written
    simpa using written

@[simp] theorem plain_explicit : token.explicit.plain = token.plain := by
  simp only [explicit]
  split
  · rename_i implicit
    have semi : token.kind = .semi := by simp_all [isImplicitSemi]
    rw [plain_of_kind semi (by decide) (by decide)]
    rfl
  · rfl

end Token

private theorem State.shift?_explicit {goal : Goal} (state : State goal) (token : Token) :
    state.shift? token.explicit = state.shift? token := by
  simp only [Token.explicit]
  split
  · rename_i implicit
    obtain ⟨kind, literal⟩ := token
    obtain rfl : kind = .semi := by simp_all [Token.isImplicitSemi]
    exact state.shift?_literal (by decide) (by decide) _ _
  · rfl

def SyntaxError.explicit : SyntaxError → SyntaxError
  | noOperand actual => noOperand actual.explicit
  | missing expected actual => missing expected actual.explicit
  | internal cause => internal cause

private theorem SyntaxError.expected_explicit (error : SyntaxError) :
    error.explicit.expected = error.expected := by
  cases error <;> rfl

private theorem State.complaint_explicit {goal : Goal} (state : State goal) (actual : Token) :
    state.complaint actual.explicit = (state.complaint actual).explicit := by
  cases state <;> rfl

structure FailsAt (text : List Char) (index : Nat) (token : Spanned Token)
    (error : SyntaxError) : Prop where
  fails : parse text = .error ⟨token.span, error⟩
  taken : ((Session.start (TokenStream.ofText text)).read .program).2.taken = index + 1
  offender : (Reader.ofText text).tokens[index]? = some token
  names : error.actual? = some token.node

variable {text : List Char} {tokens others taken : List (Spanned Token)}
  {current : Spanned Token} {settled : State .program}

theorem StopsAt.failsAt (stops : StopsAt tokens taken current settled)
    (walk : Reader.Walk 0 false text tokens) (result : settled.result? = none) :
    FailsAt text taken.length current (settled.complaint current.node) := by
  obtain ⟨stream, read⟩ := read_of_stopsAt walk stops
  refine ⟨?_, ?_, ?_, ?_⟩
  · rw [parse_of_stopsAt walk stops]
    simp only [State.judgement, State.verdict, result]
    rfl
  · rw [read]
  · obtain ⟨rest, rfl⟩ := stops.begins
    rw [Reader.ofText, walk.tokens_eq]
    simp
  · obtain ⟨before, rfl, -⟩ := State.exists_of_reach? stops.reached
    exact (before.explains current.node stops.stuck result).1

theorem StopsAt.explicit (stops : StopsAt tokens taken current settled)
    (nodes : others.map (·.node) = tokens.map (·.node.explicit)) :
    ∃ taken' current', StopsAt others taken' current' settled ∧
      taken'.length = taken.length ∧ current'.node = current.node.explicit := by
  obtain ⟨⟨rest, rfl⟩, reached, stuck⟩ := stops
  rw [List.map_append, List.map_append] at nodes
  obtain ⟨front, rest', rfl, frontNodes, -⟩ := List.map_eq_append_iff.1 nodes
  obtain ⟨taken', last, rfl, takenNodes, lastNode⟩ := List.map_eq_append_iff.1 frontNodes
  obtain ⟨current', rfl, node⟩ := List.map_eq_singleton_iff.1 lastNode
  refine ⟨taken', current', ⟨⟨rest', rfl⟩, ?_, ?_⟩, ?_, node⟩
  · have plain : (taken'.map (·.node)).map Token.plain =
        (taken.map (·.node)).map Token.plain := by
      rw [takenNodes, List.map_map, List.map_map]
      exact List.map_congr_left fun token _ => token.node.plain_explicit
    rw [node, Token.kind_explicit, ← State.reach?_plain, plain, State.reach?_plain]
    exact reached
  · rw [node, State.shift?_explicit]
    exact stuck
  · simpa using congrArg List.length takenNodes

/-- A text with its implied ends of statements written out has no implied ones, its
tokens are the same otherwise, and it is the same program or has the same error. -/
theorem parse_writeEnds (text : List Char) :
    let written := Text.writeEnds text
    (∀ token ∈ (Reader.ofText written).tokens, token.node.isImplicitSemi = false) ∧
      (Reader.ofText written).tokens.map (·.node) =
        (Reader.ofText text).tokens.map (·.node.explicit) ∧
      ((∃ program, parse text = .ok program ∧ parse written = .ok program) ∨
        ∃ index token token' error,
          FailsAt text index token error ∧ FailsAt written index token' error.explicit ∧
          error.explicit.expected = error.expected ∧
          token'.node.kind = token.node.kind) := by
  intro written
  obtain ⟨tokens, walk⟩ := Reader.exists_walk 0 false text
  obtain ⟨others, walk', nodes⟩ := walk.writeEnds 0
  have tokens_eq : (Reader.ofText text).tokens = tokens := walk.tokens_eq
  have written_eq : Text.insertAt ';' (Reader.impliedPlaces tokens) 0 text = written := by
    rw [← tokens_eq]
    rfl
  rw [written_eq] at walk'
  have others_eq : (Reader.ofText written).tokens = others := walk'.tokens_eq
  rw [others_eq, tokens_eq]
  refine ⟨fun token member => ?_, nodes, ?_⟩
  · have member' : token.node ∈ tokens.map (·.node.explicit) :=
      nodes ▸ List.mem_map_of_mem member
    obtain ⟨original, -, same⟩ := List.mem_map.1 member'
    rw [← same, Token.isImplicitSemi_explicit]
  · obtain ⟨taken, current, settled, stops⟩ := walk.exists_stopsAt
    obtain ⟨taken', current', stops', length, node⟩ := stops.explicit nodes
    cases result : settled.result? with
    | some program =>
      left
      refine ⟨program, ?_, ?_⟩
      · rw [parse_of_stopsAt walk stops, State.judgement_of_result result]
      · rw [parse_of_stopsAt walk' stops', State.judgement_of_result result]
    | none =>
      right
      refine ⟨taken.length, current, current', settled.complaint current.node,
        stops.failsAt walk result, ?_, SyntaxError.expected_explicit _, ?_⟩
      · rw [← length, ← State.complaint_explicit, ← node]
        exact stops'.failsAt walk' result
      · rw [node, Token.kind_explicit]

end OasisSyntax
