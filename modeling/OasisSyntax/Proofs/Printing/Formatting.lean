import OasisSyntax.CommandLine.Run
import OasisSyntax.Proofs.Parsing.Lines
import OasisSyntax.Proofs.Printing.Origin
import OasisSyntax.Proofs.Printing.RoundTrip

/-!
# Formatting

Whatever program is read from a text is well-formed, so what is printed for it is read
as the same program again, and is printed as it stands.
-/

namespace OasisSyntax

variable {text : List Char} {program : Program}

theorem Program.wellFormed_of_parse (parsed : parse text = .ok program) :
    program.WellFormed := by
  obtain ⟨init, length, trees, walk, canonicals, rfl, yields, -⟩ :=
    exists_trees_of_parse parsed
  refine Concrete.Stmt.eraseAll_wellFormed trees canonicals fun token member => ?_
  rw [yields] at member
  obtain ⟨origin, inside, rfl⟩ := List.mem_map.1 member
  exact (walk.wellFormed origin (List.mem_append_left _ inside)).plain

namespace CommandLine

end CommandLine

end OasisSyntax
