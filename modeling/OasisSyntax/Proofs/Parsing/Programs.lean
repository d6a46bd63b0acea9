import OasisSyntax.Proofs.Grammar.Unambiguous
import OasisSyntax.Proofs.Parsing.Renaming
import OasisSyntax.Proofs.Parsing.Sound

/-!
# Reading a program

The parser accepts exactly the rows of tokens that the grammar derives, and returns the
tree of the only derivation that there is.
-/

namespace OasisSyntax

namespace State

variable {goal : Goal} {next : Kind} {state : State goal} {outer : SeqContext goal}

private theorem openForm_eq_statement (opened : state.openForm next = .statement outer) :
    isStatementKind outer next := by
  cases state with
  | statement =>
    simp only [openForm] at opened
    split at opened
    · cases opened
      assumption
    · contradiction
  | argumentStart | funcStart | paramStart | elseStart =>
    simp only [openForm] at opened
    split at opened <;> contradiction
  | _ => contradiction

private theorem settle_eq_statement (settled : state.settle next = .statement outer) :
    isStatementKind outer next :=
  openForm_eq_statement settled

theorem result?_eq_some {state : State .program} {program : Program} :
    state.result? = some program ↔ state = .statement (.program program) := by
  constructor
  · intro found
    cases state with
    | statement outer =>
      cases outer with
      | program done =>
        obtain rfl := Option.some.inj found
        rfl
      | block => contradiction
    | value expr outer => cases outer <;> contradiction
    | _ => contradiction
  · rintro rfl
    rfl

private theorem shiftStatement?_ne_none {kind : Kind} (decided : isStatementKind outer kind)
    (noEof : kind ≠ .eof) : shiftStatement? outer kind ≠ none := by
  cases kind with
  | eof => exact absurd rfl noEof
  | rbrace =>
    cases outer with
    | program => contradiction
    | block => exact nofun
  | _ => first | contradiction | exact nofun

theorem kind_eq_eof {tokens : List Token} {token : Token}
    (reached : state.reach? token.kind tokens = some (.statement outer))
    (stuck : (State.statement outer).shift? token = none) : token.kind = .eof := by
  obtain ⟨before, settled, -⟩ := exists_of_reach? reached
  have decided := settle_eq_statement settled
  exact Decidable.byContradiction fun noEof =>
    shiftStatement?_ne_none decided noEof stuck

end State

variable {stream : TokenStream}

private theorem State.Stops.rest_eq_nil {state : State .program} {final : Spanned Token}
    {taken rest : List (Spanned Token)} {program : Program}
    (stops : state.Stops final taken rest (.statement (.program program)))
    (noEof : ∀ token ∈ rest, token.node.kind ≠ .eof) : rest = [] := by
  cases rest with
  | nil => rfl
  | cons token rest =>
    have eof := kind_eq_eof stops.reached (stops.stuck token rfl)
    exact absurd eof (noEof token (.head rest))

theorem Session.read_program_of_reach? {session : Session} {program : Program}
    (reached : (State.start .program).reach? session.stream.final.node.kind
      (session.stream.upcoming.map (·.node)) = some (.statement (.program program))) :
    (session.read .program).1 = .ok program := by
  have stops : (State.start .program).Stops session.stream.final
      session.stream.upcoming [] (.statement (.program program)) := ⟨reached, nofun⟩
  have result : (State.statement (.program program)).result? = some program := rfl
  rw [Session.read_of_stops (List.append_nil _).symm stops]
  dsimp only
  rw [State.judgement_of_result result]

theorem Session.exists_canonical_program {session : Session}
    (noEof : ∀ token ∈ session.stream.upcoming, token.node.kind ≠ .eof)
    {program : Program} (read : (session.read .program).1 = .ok program) :
    ∃ trees, Concrete.Stmt.AllCanonical trees ∧ Concrete.Stmt.eraseAll trees = program ∧
      Concrete.Stmt.allYield trees = session.stream.upcoming.map (·.node.plain) := by
  obtain ⟨taken, rest, settled, split, stops⟩ :=
    State.exists_stops session.stream.final (State.start .program)
      session.stream.upcoming
  rw [Session.read_of_stops split stops] at read
  have result := State.judgement_eq_ok read
  obtain rfl := State.result?_eq_some.1 result
  have none := stops.rest_eq_nil fun token member =>
    noEof token (by rw [split]; exact List.mem_append_right _ member)
  subst none
  obtain ⟨trees, canonical, erases, yields⟩ :=
    State.exists_canonical_program stops.reached result
  refine ⟨trees, canonical, erases, ?_⟩
  rw [yields, split, List.append_nil, List.map_map]
  rfl

theorem Concrete.Stmt.reach?_program (trees : List Concrete.Stmt)
    (canonical : AllCanonical trees) :
    (State.start .program).reach? .eof (allYield trees) =
      some (.statement (.program (eraseAll trees))) := by
  have follows : State.Separates (leadKind .eof []) := ⟨nofun, nofun⟩
  have read := reachAll trees canonical (.program []) [] follows
  rw [List.append_nil, SeqContext.pushAll_program] at read
  exact read

private theorem State.exists_reach?_of_kinds {next : Kind} {first second : List Token}
    {program : Program} (kinds : first.map (·.kind) = second.map (·.kind))
    (reached : (State.start .program).reach? next first =
      some (.statement (.program program))) :
    ∃ program', (State.start .program).reach? next second =
      some (.statement (.program program')) := by
  let blank (_ : String) : String := ""
  have blanks (tokens : List Token) :
      tokens.map (Token.rename blank) =
        (tokens.map (·.kind)).map fun kind => ⟨kind, ""⟩ := by
    rw [List.map_map]
    rfl
  have renamed := (State.start .program).reach?_rename blank next first
  have renamed' := (State.start .program).reach?_rename blank next second
  rw [blanks, kinds, ← blanks, renamed', reached] at renamed
  obtain ⟨settled, reached', same⟩ := Option.map_eq_some_iff.1 renamed
  cases settled with
  | statement outer =>
    cases outer with
    | program done => exact ⟨done, reached'⟩
    | block => simp [State.rename, SeqContext.rename] at same
  | _ => contradiction

namespace Derivation

def Stmt.program (derivations : List Stmt) : Program :=
  Concrete.Stmt.eraseAll (treeAll derivations)

end Derivation

/-- A program is read from exactly those tokens whose kinds the grammar derives, and it
is the program in the only derivation of the tokens. -/
theorem Session.read_program (session : Session)
    (noEof : ∀ token ∈ session.stream.upcoming, token.node.kind ≠ .eof)
    (ends : session.stream.final.node.kind = .eof) :
    ((∃ program, (session.read .program).1 = .ok program) ↔
      ∃ derivations, Derivation.Stmt.AllLegal derivations ∧
        (Derivation.Stmt.allYield derivations).map (·.kind) =
          session.stream.upcoming.map (·.node.kind)) ∧
    ∀ program, (session.read .program).1 = .ok program →
      ∃ derivations, Derivation.Stmt.program derivations = program ∧
        ∀ others, Derivation.Stmt.AllLegal others ∧
          Derivation.Stmt.allYield others =
            session.stream.upcoming.map (·.node.plain) ↔ others = derivations := by
  have derived (program : Program) (read : (session.read .program).1 = .ok program) :
      ∃ derivations, Derivation.Stmt.AllLegal derivations ∧
        Derivation.Stmt.program derivations = program ∧
        Derivation.Stmt.allYield derivations =
          session.stream.upcoming.map (·.node.plain) := by
    obtain ⟨trees, canonical, erases, yields⟩ := exists_canonical_program noEof read
    obtain ⟨derivations, legal, rfl⟩ := Concrete.Stmt.exists_derivations trees canonical
    exact ⟨derivations, legal, erases, by rw [← yields, Derivation.Stmt.treeAll_yield]⟩
  refine ⟨⟨?_, ?_⟩, ?_⟩
  · rintro ⟨program, read⟩
    obtain ⟨derivations, legal, -, yields⟩ := derived program read
    refine ⟨derivations, legal, ?_⟩
    rw [yields, List.map_map]
    exact List.map_congr_left fun token _ => token.node.plain_kind
  · rintro ⟨derivations, legal, kinds⟩
    have reached := Concrete.Stmt.reach?_program (Derivation.Stmt.treeAll derivations)
      (Derivation.Stmt.treeAll_canonical derivations legal)
    rw [Derivation.Stmt.treeAll_yield] at reached
    have kinds' : (Derivation.Stmt.allYield derivations).map (·.kind) =
        (session.stream.upcoming.map (·.node)).map (·.kind) := by
      rw [kinds, List.map_map]
      rfl
    obtain ⟨program, reached'⟩ := State.exists_reach?_of_kinds kinds' reached
    exact ⟨program, read_program_of_reach? (ends ▸ reached')⟩
  · intro program read
    obtain ⟨derivations, legal, erases, yields⟩ := derived program read
    refine ⟨derivations, erases, fun others => ⟨?_, ?_⟩⟩
    · rintro ⟨legal', yields'⟩
      exact Derivation.Stmt.allYield_injective legal' legal (yields'.trans yields.symm)
    · rintro rfl
      exact ⟨legal, yields⟩

/-- A call with a comma behind its argument. -/
theorem Session.read_program_returned_call :
    let tokens : List (Spanned Token) :=
      [.ofKind .kwReturn, ⟨.ident, "f"⟩, .ofKind .lparen, ⟨.int, "1"⟩, .ofKind .comma,
        .ofKind .rparen, .ofKind .semi].map fun token => ⟨⟨0, 0⟩, token⟩
    let session := Session.start (.ofTokens tokens 0)
    (∃ program, (session.read .program).1 = .ok program) ∧
      ∃ derivations, Derivation.Stmt.program derivations =
          [.jump .ret (some (.call (.ident "f") [.int "1"]))] ∧
        ∀ others, Derivation.Stmt.AllLegal others ∧
          Derivation.Stmt.allYield others = tokens.map (·.node.plain) ↔
            others = derivations := by
  intro tokens session
  have noEof : ∀ token ∈ session.stream.upcoming, token.node.kind ≠ .eof := by decide
  have accepts := session.read_program noEof rfl
  refine ⟨accepts.1.2 ⟨[.jump .ret (some (.row (.applied (.ident "f")
    [.listed (.row (.applied (.int "1") []) []) [] true]) []))], ?_, rfl⟩,
    accepts.2 _ rfl⟩
  simp [Derivation.Stmt.AllLegal, Derivation.Stmt.Legal, Derivation.Expr.Legal,
    Derivation.Unary.Legal, Derivation.Primary.Legal, Derivation.Args.AllLegal,
    Derivation.Args.Legal, Derivation.Expr.AllLegal, Derivation.Operation.AllLegal]

end OasisSyntax
