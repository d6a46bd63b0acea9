import OasisSyntax.Proofs.Grammar.Lead
import OasisSyntax.Proofs.Printing.RoundTrip

/-!
# Parentheses around statements

An expression statement is printed without parentheses unless its text begins with a
compound.  A statement that begins with a compound is that compound, whatever stands
behind it, so the parentheses are there exactly when they are needed.
-/

namespace OasisSyntax

open Piece

theorem Expr.toList_render_append (value : Expr) (after : List Piece) :
    value.render.toList ++ chars after = chars (value.layout after) := by
  rw [Expr.render, toList_concat, value.layout_append after, chars_append]

/-- The text of the expression with a semicolon behind it. -/
def Expr.bareText (value : Expr) : String := value.render ++ ";"

def Expr.wrappedText (value : Expr) : String := "(" ++ value.render ++ ");"

theorem Expr.toList_bareText (value : Expr) :
    value.bareText.toList = chars (value.layout [mark .semi]) := by
  rw [bareText, String.toList_append, ← value.toList_render_append]
  rfl

private theorem Expr.toList_wrappedText (value : Expr) :
    value.wrappedText.toList =
      chars (mark .lparen :: value.layout [mark .rparen, mark .semi]) := by
  rw [wrappedText, String.toList_append, String.toList_append, List.append_assoc]
  exact congrArg _ (value.toList_render_append [mark .rparen, mark .semi])

private theorem Stmt.render_expr (value : Expr) :
    (Stmt.expr value).render =
      if value.startsCompound then value.wrappedText else value.bareText := by
  rw [← String.toList_inj, Stmt.render, toList_concat, Stmt.layout]
  split
  · exact value.toList_wrappedText.symm
  · exact value.toList_bareText.symm

variable {value : Expr}

private theorem Expr.parse_render_expr (wellFormed : value.WellFormed) :
    parse (Stmt.expr value).render.toList = .ok [.expr value] :=
  @Program.parse_toList_render [.expr value] ⟨wellFormed, trivial⟩

private theorem Expr.tokens_bareText (wellFormed : value.WellFormed) :
    (Reader.ofText value.bareText.toList).tokens.map (·.node) =
      value.bracketed.yield ++ [.ofKind .semi] ++ [⟨.eof, ""⟩] := by
  have ended : Spaced false [] := rfl
  have semicolon : Continues [mark .semi] := .punctuation (by decide) ended
  have spaced := (value.spaced_layout wellFormed semicolon).of_true false
  have tokens := Reader.tokens_of_spaced spaced 0
  rw [value.tokens_layout] at tokens
  rw [value.toList_bareText]
  exact tokens

theorem Concrete.Stmt.eq_compound_of_lead {tree : Concrete.Stmt}
    (canonical : tree.Canonical) (opens : tree.lead.opensCompound) :
    ∃ form terminated, tree = .compound form terminated := by
  cases tree with
  | expr inner =>
    rw [lead, ← inner.startsCompound_eq canonical.2] at opens
    exact absurd opens canonical.1
  | jump word inner => cases word <;> contradiction
  | compound form terminated => exact ⟨form, terminated, rfl⟩
  | binding | continueLoop | funcDecl => contradiction

private theorem exists_compound_of_parse {text : List Char} {program : Program} {first : Token}
    {more : List Token}
    (tokens : (Reader.ofText text).tokens.map (·.node) = first :: more)
    (opens : first.kind.opensCompound) (parsed : parse text = .ok program) :
    ∃ form rest, program = .compound form :: rest := by
  obtain ⟨init, length, trees, walk, canonicals, rfl, yields, -⟩ :=
    exists_trees_of_parse parsed
  rw [Reader.ofText, walk.tokens_eq] at tokens
  cases init with
  | nil =>
    obtain ⟨rfl, -⟩ := List.cons.inj tokens
    contradiction
  | cons token init =>
    obtain ⟨rfl, -⟩ := List.cons.inj tokens
    cases trees with
    | nil => contradiction
    | cons tree trees =>
      obtain ⟨literal, tail, begins⟩ := tree.yield_eq
      rw [Concrete.Stmt.allYield, begins] at yields
      have lead := congrArg Token.kind (List.cons.inj yields).1
      rw [Token.plain_kind] at lead
      rw [← lead] at opens
      obtain ⟨form, terminated, rfl⟩ :=
        Concrete.Stmt.eq_compound_of_lead canonicals.1 opens
      exact ⟨form.erase, Concrete.Stmt.eraseAll trees, rfl⟩

/-- Without the parentheses the compound at the front is read as a statement. -/
theorem Expr.exists_compound_of_parse_bareText (wellFormed : value.WellFormed)
    (starts : value.startsCompound) {program : Program}
    (parsed : parse value.bareText.toList = .ok program) :
    ∃ form rest, program = .compound form :: rest := by
  obtain ⟨literal, tail, begins⟩ := value.bracketed.yield_eq
  have tokens := tokens_bareText wellFormed
  rw [begins] at tokens
  refine exists_compound_of_parse tokens ?_ parsed
  have canonical := value.bracketed_canonical wellFormed
  rw [← value.startsCompound_bracketed, value.bracketed.startsCompound_eq canonical]
    at starts
  exact starts

/-- The bare text of an expression is read back as the statement just if the expression
does not start with a compound; that is when it is printed.  If it does start with one,
nothing but a compound can be read first from the bare text, and the statement is read
back from the text in parentheses, which is printed instead. -/
theorem Expr.parse_bareText_iff (value : Expr) (wellFormed : value.WellFormed) :
    (Stmt.expr value).render =
        (if value.startsCompound then value.wrappedText else value.bareText) ∧
      (parse value.bareText.toList = .ok [.expr value] ↔ value.startsCompound = false) ∧
      (value.startsCompound = true →
        (∀ program, parse value.bareText.toList = .ok program →
          ∃ form rest, program = .compound form :: rest) ∧
        parse value.wrappedText.toList = .ok [.expr value]) := by
  have printed := Stmt.render_expr value
  have parsed := Expr.parse_render_expr wellFormed
  refine ⟨printed, ⟨fun bare => ?_, fun plain => ?_⟩, fun starts => ⟨?_, ?_⟩⟩
  · rw [← Bool.not_eq_true]
    intro starts
    obtain ⟨form, rest, same⟩ := exists_compound_of_parse_bareText wellFormed starts bare
    cases (List.cons.inj same).1
  · rwa [printed, plain] at parsed
  · exact fun program => exists_compound_of_parse_bareText wellFormed starts
  · rwa [printed, starts] at parsed

/-- Two calls in a row, of a block and of a function: only the first has to be wrapped. -/
theorem Expr.parse_bareText_iff_calls :
    let block : Expr := .call (.call (.compound (.block [])) []) [.int "1"]
    let function : Expr := .call (.call (.func [] []) []) [.int "1"]
    block.bareText = "\x7b \x7d()(1);" ∧ function.bareText = "func() \x7b \x7d()(1);" ∧
      parse "func() \x7b \x7d()(1);".toList = .ok [.expr function] ∧
      parse "\x7b \x7d()(1);".toList ≠ .ok [.expr block] ∧
      parse "(\x7b \x7d()(1));".toList = .ok [.expr block] := by
  intro block function
  have bare : block.bareText = "\x7b \x7d()(1);" := by decide
  have wrapped : block.wrappedText = "(\x7b \x7d()(1));" := by decide
  have bare' : function.bareText = "func() \x7b \x7d()(1);" := by decide
  have digits : IsDigits "1" := by decide
  have wellFormed : block.WellFormed := ⟨⟨trivial, trivial⟩, digits, trivial⟩
  have wellFormed' : function.WellFormed := ⟨⟨⟨by simp, trivial⟩, trivial⟩, digits, trivial⟩
  obtain ⟨-, reads, needs⟩ := block.parse_bareText_iff wellFormed
  obtain ⟨-, reads', -⟩ := function.parse_bareText_iff wellFormed'
  rw [bare] at reads
  rw [bare'] at reads'
  rw [wrapped] at needs
  exact ⟨bare, bare', reads'.2 rfl, fun same => Bool.false_ne_true (reads.1 same).symm,
    (needs rfl).2⟩

end OasisSyntax
