import OasisSyntax.Proofs.Printing.RoundTrip
import OasisSyntax.Proofs.Printing.Semicolons
import OasisSyntax.Proofs.Tokens.Gaps
import OasisSyntax.Proofs.Tokens.WrittenEnds

/-!
# Blanks between statements

A semicolon cuts a text in two: what stands behind it is read as a text of its own.  So
the statements of a printed program are read one by one, and it makes no difference which
blanks stand between them, or whether there are any.
-/

namespace OasisSyntax

/-! ## Texts behind a semicolon -/

namespace Reader

variable {offset : Nat} {pending : Bool} {text : List Char}
  {tokens : List (Spanned Token)}

/-- Up to a semicolon the reader goes the same way whatever stands behind it, and there
it starts anew. -/
theorem Spread.append_semi (spread : Spread offset pending text tokens) :
    ∃ own : List (Spanned Token), ∀ {after : List Char} {more : List (Spanned Token)},
      Spread (offset + Text.byteLength text + 1) false after more →
      Spread offset pending (text ++ ';' :: after) (own ++ more) := by
  induction spread with
  | @finish offset pending gap blank =>
    refine ⟨endInGap pending offset gap .semi ++
      [Lexeme.tokenAt (offset + Text.byteLength gap) ⟨.semi, [';']⟩],
      fun {after more} later => ?_⟩
    rw [List.append_assoc]
    exact .lexeme blank (precedes_semi after) later
  | @lexeme offset pending gap after lexeme tokens blank precedes behind ih =>
    obtain ⟨own, ih⟩ := ih
    rw [Text.add_byteLength_parts] at ih
    refine ⟨endInGap pending offset gap lexeme.kind ++
      lexeme.tokenAt (offset + Text.byteLength gap) :: own, fun {rest more} later => ?_⟩
    have precedes' : lexeme.Precedes (after ++ ';' :: rest) := by
      rw [← List.append_nil after] at precedes
      exact precedes.separate Lexeme.isSeparator_semi rest
    have whole : Spread offset pending _ _ := .lexeme blank precedes' (ih later)
    simpa using whole

private theorem exists_tokens_append_semi (text : List Char) :
    ∃ own : List (Spanned Token), ∀ after : List Char,
      (ofText (text ++ ';' :: after)).tokens =
        own ++ (ofText after).tokens.map (Spanned.shift (Text.byteLength text + 1)) := by
  obtain ⟨own, whole⟩ := (walk_ofText text).spread.append_semi
  refine ⟨own, fun after => ?_⟩
  have later := ((walk_ofText after).shift (Text.byteLength text + 1)).spread
  rw [Nat.zero_add] at whole later
  exact spread_iff.1 (whole later)

private theorem tokens_append_of_skipped {blanks : List Char} (blank : Skipped false blanks)
    (text : List Char) :
    (ofText (blanks ++ text)).tokens =
      (ofText text).tokens.map (Spanned.shift (Text.byteLength blanks)) := by
  have walk := (walk_ofText text).shift (Text.byteLength blanks)
  exact (Walk.skip blank walk).tokens_eq

theorem map_node_tokens_nil : (ofText []).tokens.map (·.node) = [⟨.eof, ""⟩] := by
  rw [(walk_ofText []).eq_of_nil]
  rfl

end Reader

/-! ## Statements in a text -/

open Piece

theorem Expr.suffix_layout (expr : Expr) (after : List Piece) :
    after <:+ expr.layout after := ⟨_, (expr.layout_append after).symm⟩

private theorem Stmt.semi_suffix_layout (stmt : Stmt) : [mark .semi] <:+ stmt.layout [] := by
  cases stmt with
  | expr value =>
    rw [Stmt.layout]
    split
    · have inner := value.suffix_layout [mark .rparen, mark .semi]
      have closed : [mark .semi] <:+ [mark .rparen, mark .semi] := List.suffix_cons _ _
      exact (closed.trans inner).trans (List.suffix_cons _ _)
    · exact value.suffix_layout _
  | binding name value =>
    exact (value.suffix_layout _).trans (List.suffix_append [_, _, _, _, _, _] _)
  | jump word value =>
    cases value with
    | none => exact List.suffix_cons _ _
    | some value => exact (value.suffix_layout _).trans (List.suffix_append [_, _] _)
  | continueLoop => exact List.suffix_cons _ _
  | compound form => exact ⟨_, (form.layout_append _).symm⟩
  | funcDecl name params body =>
    have block : [mark .semi] <:+ space :: Stmt.blockLayout body [mark .semi] :=
      .trans ⟨_, (Stmt.blockLayout_append body _).symm⟩ (List.suffix_cons _ _)
    have listed := block.trans ⟨_, (paramsLayout_append params _).symm⟩
    exact listed.trans (List.suffix_append [_, _, _] _)

theorem Stmt.chars_layout (stmt : Stmt) (after : List Piece) :
    chars (stmt.layout after) = stmt.render.toList ++ chars after := by
  rw [Stmt.render, toList_concat, stmt.layout_append, chars_append]

private theorem Stmt.exists_toList_render (stmt : Stmt) :
    ∃ front, stmt.render.toList = front ++ [';'] := by
  obtain ⟨front, ended⟩ := stmt.semi_suffix_layout
  refine ⟨chars front, ?_⟩
  rw [Stmt.render, toList_concat, ← ended, chars_append]
  rfl

theorem Stmt.tokens_render_append {stmt : Stmt} (wellFormed : stmt.WellFormed)
    (after : List Char) :
    (Reader.ofText (stmt.render.toList ++ after)).tokens.map (·.node) =
      stmt.bracketed.yield ++ (Reader.ofText after).tokens.map (·.node) := by
  obtain ⟨front, ended⟩ := stmt.exists_toList_render
  obtain ⟨own, split⟩ := Reader.exists_tokens_append_semi front
  have apart (after : List Char) :
      (Reader.ofText (stmt.render.toList ++ after)).tokens.map (·.node) =
        own.map (·.node) ++ (Reader.ofText after).tokens.map (·.node) := by
    rw [ended, List.append_assoc, List.singleton_append, split, List.map_append,
      map_node_shift]
  -- Which tokens are its own is known from the program of this one statement.
  have alone := @Program.tokens_render [stmt] ⟨wellFormed, trivial⟩
  have printed : Program.render [stmt] = stmt.render := rfl
  rw [printed, ← List.append_nil stmt.render.toList, apart,
    Reader.map_node_tokens_nil] at alone
  have yields := List.append_cancel_right alone
  rw [apart, yields, bracketedAll, bracketedAll, Concrete.Stmt.allYield,
    Concrete.Stmt.allYield, List.append_nil]

/-! ## Texts between statements -/

def Stmt.renderBehind (gaps : List String) (body : List Stmt) : String :=
  String.join (List.zipWith (fun gap stmt => gap ++ stmt.render) gaps body)

/-- The text of the program with the gaps between its statements. -/
def Program.renderWith (gaps : List String) (program : Program) : String :=
  Stmt.renderBehind ("" :: gaps) program

theorem Stmt.toList_renderBehind_cons (gap : String) (gaps : List String) (stmt : Stmt)
    (rest : List Stmt) :
    (renderBehind (gap :: gaps) (stmt :: rest)).toList =
      gap.toList ++ (stmt.render.toList ++ (renderBehind gaps rest).toList) := by
  simp [renderBehind, String.toList_join]

private theorem Stmt.chars_moreLayout (body : List Stmt) :
    chars (moreLayout .newline body []) =
      (renderBehind (List.replicate body.length "\n") body).toList := by
  induction body with
  | nil => rfl
  | cons stmt rest ih =>
    rw [List.length_cons, List.replicate_succ, toList_renderBehind_cons, ← ih,
      ← stmt.chars_layout]
    rfl

theorem Program.renderWith_newline (program : Program) :
    program.renderWith (List.replicate (program.length - 1) "\n") = program.render := by
  rw [← String.toList_inj, Program.render, toList_concat]
  cases program with
  | nil => rfl
  | cons stmt rest =>
    rw [Program.layout, stmt.chars_layout, Stmt.chars_moreLayout, renderWith,
      Stmt.toList_renderBehind_cons]
    rfl

private theorem Stmt.tokens_renderBehind {gaps : List String} {body : List Stmt}
    (wellFormed : Stmt.AllWellFormed body) (enough : body.length ≤ gaps.length)
    (blank : ∀ gap ∈ gaps, gap.toList.all Text.isBlank) :
    (Reader.ofText (renderBehind gaps body).toList).tokens.map (·.node) =
      Concrete.Stmt.allYield (bracketedAll body) ++ [⟨.eof, ""⟩] := by
  induction body generalizing gaps with
  | nil =>
    have nothing : (renderBehind gaps []).toList = [] := by simp [renderBehind]
    rw [nothing, Reader.map_node_tokens_nil]
    rfl
  | cons stmt rest ih =>
    cases gaps with
    | nil => contradiction
    | cons gap gaps =>
      obtain ⟨first, more⟩ := List.forall_mem_cons.1 blank
      have skipped : Reader.Skipped false gap.toList := fun char member =>
        ⟨List.all_eq_true.1 first char member, by simp⟩
      have later := ih wellFormed.2 (Nat.le_of_succ_le_succ enough) more
      rw [toList_renderBehind_cons, Reader.tokens_append_of_skipped skipped,
        map_node_shift, tokens_render_append wellFormed.1, later, bracketedAll,
        Concrete.Stmt.allYield, List.append_assoc]

/-! ## Printed programs -/

/-- No token of a printed program is illegal or an implied end of a statement, and it has
as many semicolons as there are statements in the program, at whatever depth.  With any
blanks in place of the line breaks between the statements, or with none, it has the same
tokens and is parsed as the same program. -/
theorem Program.render_ends_explicitly (program : Program)
    (wellFormed : program.WellFormed) :
    let tokens := (Reader.ofText program.render.toList).tokens.map (·.node)
    (∀ token ∈ tokens, token.kind ≠ .illegal ∧ ¬ token.isImplicitSemi) ∧
      Token.countEnds tokens = (Stmt.postOrder program).length ∧
      parse program.render.toList = .ok program ∧
      program.render = program.renderWith (List.replicate (program.length - 1) "\n") ∧
      ∀ gaps : List String, gaps.length = program.length - 1 →
        (∀ gap ∈ gaps, gap.toList.all Text.isBlank) →
        (Reader.ofText (program.renderWith gaps).toList).tokens.map (·.node) = tokens ∧
          parse (program.renderWith gaps).toList = .ok program := by
  intro tokens
  have read : tokens = _ := tokens_render wellFormed
  have written := (spaced_layout program wellFormed).tokens_written
  rw [Program.tokens_layout] at written
  rw [read]
  refine ⟨?_, ?_, parse_toList_render wellFormed, program.renderWith_newline.symm, ?_⟩
  · exact List.forall_mem_append.2 ⟨written, by simp [Token.isImplicitSemi]⟩
  · rw [Token.countEnds_append, Stmt.countEnds_allYield program wellFormed]
    rfl
  · intro gaps length blank
    have enough : program.length ≤ ("" :: gaps).length := by
      rw [List.length_cons]
      omega
    have blank' : ∀ gap ∈ "" :: gaps, gap.toList.all Text.isBlank :=
      List.forall_mem_cons.2 ⟨rfl, blank⟩
    have same := Stmt.tokens_renderBehind wellFormed enough blank'
    exact ⟨same, parse_of_tokens_eq wellFormed same⟩

/-- Statements in blocks of a function, a condition and an operand; a line break of two
characters and an empty line, and a blank that breaks no line. -/
theorem Program.render_ends_explicitly_nested :
    let inner : Stmt := .compound (.conditional (.only (.ident "x")
      [.jump .ret (some (.ident "x"))]))
    let program : Program := [.funcDecl "f" ["x"] [inner],
      .expr (.call (.compound (.block [.continueLoop])) [.int "1"]), .jump .brk none]
    let printed := "func f(x) \x7b if x \x7b return x; \x7d; \x7d;\n" ++
      "(\x7b continue; \x7d(1));\nbreak;"
    let spaced := "func f(x) \x7b if x \x7b return x; \x7d; \x7d;\r\n\n" ++
      "(\x7b continue; \x7d(1));\u2003break;"
    let tokens := (Reader.ofText printed.toList).tokens.map (·.node)
    program.WellFormed ∧ program.render = printed ∧
      (∀ token ∈ tokens, token.kind ≠ .illegal ∧ ¬ token.isImplicitSemi) ∧
      Token.countEnds tokens = 6 ∧
      (Reader.ofText spaced.toList).tokens.map (·.node) = tokens ∧
      parse spaced.toList = .ok program := by
  intro inner program printed spaced tokens
  have function : IsName "f" := by decide
  have parameter : IsName "x" := by decide
  have argument : IsDigits "1" := by decide
  have wellFormed : program.WellFormed := by
    refine ⟨⟨function, by simp [parameter], ⟨parameter, parameter, trivial⟩, trivial⟩, ?_⟩
    exact ⟨⟨⟨trivial, trivial⟩, argument, trivial⟩, trivial, trivial⟩
  have same : program.render = printed := by decide
  have same' : program.renderWith ["\r\n\n", "\u2003"] = spaced := by decide
  obtain ⟨written, count, -, -, varied⟩ := program.render_ends_explicitly wellFormed
  have vary := varied ["\r\n\n", "\u2003"] rfl (by decide)
  rw [same] at written count vary
  rw [same'] at vary
  exact ⟨wellFormed, same, written, count, vary⟩

end OasisSyntax
