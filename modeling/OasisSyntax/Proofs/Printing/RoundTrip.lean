import OasisSyntax.Proofs.Parsing.Texts
import OasisSyntax.Proofs.Printing.Layouts
import OasisSyntax.Source

/-!
# Printing and parsing

The parser reads the text of a well-formed program as that program.  The text of the
layout is read as the tokens of the layout, these are the tokens of a canonical tree,
and the parser gives back what is in that tree.
-/

namespace OasisSyntax

private theorem parse_of_tokens {text : List Char} (trees : List Concrete.Stmt)
    (canonical : Concrete.Stmt.AllCanonical trees)
    (tokens : (Reader.ofText text).tokens.map (·.node) =
      Concrete.Stmt.allYield trees ++ [⟨.eof, ""⟩]) :
    parse text = .ok (Concrete.Stmt.eraseAll trees) := by
  obtain ⟨others, walk⟩ := Reader.exists_walk 0 false text
  have same : (Reader.ofText text).tokens = others := walk.tokens_eq
  obtain ⟨init, rfl, -⟩ := walk.exists_init
  rw [same, List.map_append] at tokens
  obtain ⟨yields, -⟩ := List.append_inj' tokens rfl
  rw [parse_eq_ok_iff walk, yields]
  exact Concrete.Stmt.reach?_program trees canonical

theorem exists_trees_of_parse {text : List Char} {program : Program}
    (parsed : parse text = .ok program) :
    ∃ (init : List (Spanned Token)) (length : Nat) (trees : List Concrete.Stmt),
      Reader.Walk 0 false text (init ++ [TokenStream.endToken length]) ∧
      Concrete.Stmt.AllCanonical trees ∧ Concrete.Stmt.eraseAll trees = program ∧
      Concrete.Stmt.allYield trees = init.map (·.node.plain) ∧
      ∀ token ∈ init, token.node.kind ≠ .eof ∧ token.node.kind ≠ .illegal := by
  obtain ⟨tokens, walk⟩ := Reader.exists_walk 0 false text
  obtain ⟨init, rfl, -⟩ := walk.exists_init
  have reached := (parse_eq_ok_iff walk).1 parsed
  obtain ⟨trees, canonicals, erases, yields⟩ :=
    State.exists_canonical_program reached rfl
  rw [List.map_map] at yields
  refine ⟨init, _, trees, walk, canonicals, erases, yields, fun token member => ?_⟩
  exact State.legal_of_reach? reached _ (List.mem_map_of_mem member)

theorem Program.tokens_render {program : Program} (wellFormed : program.WellFormed) :
    (Reader.ofText program.render.toList).tokens.map (·.node) =
      Concrete.Stmt.allYield (Stmt.bracketedAll program) ++ [⟨.eof, ""⟩] := by
  have tokens := Reader.tokens_of_spaced (Program.spaced_layout program wellFormed) 0
  rw [Program.tokens_layout] at tokens
  rw [Program.render, Piece.toList_concat]
  exact tokens

theorem Program.parse_of_tokens_eq {program : Program} (wellFormed : program.WellFormed)
    {text : List Char}
    (tokens : (Reader.ofText text).tokens.map (·.node) =
      Concrete.Stmt.allYield (Stmt.bracketedAll program) ++ [⟨.eof, ""⟩]) :
    parse text = .ok program := by
  have canonical := Stmt.bracketedAll_canonical program wellFormed
  have parsed := parse_of_tokens _ canonical tokens
  rwa [Stmt.eraseAll_bracketedAll] at parsed

theorem Program.parse_toList_render {program : Program}
    (wellFormed : program.WellFormed) : parse program.render.toList = .ok program :=
  parse_of_tokens_eq wellFormed (tokens_render wellFormed)

/-- Printing and then parsing a well-formed program gives the program. -/
theorem parse_render (name : String) (program : Program)
    (wellFormed : program.WellFormed) :
    parse (Source.text ⟨name, program.render⟩) = .ok program :=
  Program.parse_toList_render wellFormed

/-- A block that is called has to be put into parentheses. -/
theorem parse_render_called_block :
    let program : Program :=
      [.binding "f" (.func ["a"] [.jump .ret (some (.unary .minus (.ident "a")))]),
        .expr (.call (.compound (.block [.expr (.ident "f")])) [.int "1"])]
    program.render =
        "let f = func(a) \x7b return (-a); \x7d;\n(\x7b f; \x7d(1));" ∧
      parse (Source.text ⟨"main", program.render⟩) = .ok program := by
  intro program
  have function : IsName "f" := by decide
  have parameter : IsName "a" := by decide
  have argument : IsDigits "1" := by decide
  refine ⟨by decide, parse_render "main" program ⟨?_, ?_, trivial⟩⟩
  · exact ⟨function, by simp [parameter], ⟨rfl, parameter⟩, trivial⟩
  · exact ⟨⟨function, trivial⟩, argument, trivial⟩

end OasisSyntax
