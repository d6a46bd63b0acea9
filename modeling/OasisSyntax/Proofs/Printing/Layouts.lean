import OasisSyntax.Proofs.Printing.Spacing

/-!
# Layouts are spaced

The layout of a well-formed tree is spaced, whatever stands in front of it.  An
expression leaves the reader where a statement may end, so what follows must neither
end the statement nor make the last word longer.  A statement has its semicolon, and
anything may follow.
-/

namespace OasisSyntax

namespace Piece

variable {kind : Kind} {after : List Piece}

/-- The pieces can stand behind an operand: they do not make its last word longer, and
the reader sees no end of a statement in front of them. -/
def Continues (after : List Piece) : Prop :=
  Lexeme.Apart (chars after) ∧ Spaced true after

theorem apart_mark (symbol : kind ∈ Kind.symbols) (after : List Piece) :
    Lexeme.Apart (chars (mark kind :: after)) := by
  intro char begins
  cases kind <;> first
    | contradiction
    | (obtain rfl := Option.some.inj begins; decide)

theorem apart_space (after : List Piece) : Lexeme.Apart (chars (space :: after)) := by
  intro char begins
  obtain rfl := Option.some.inj begins
  decide

theorem Spaced.space {pending : Bool} (spaced : Spaced pending after) :
    Spaced pending (space :: after) := spaced

theorem Spaced.name {text : String} (name : IsName text) (continues : Continues after) :
    Spaced true (.name text :: after) :=
  ⟨⟨Lexeme.head_name name continues.1, nofun, nofun⟩, fun _ => nofun, continues.2⟩

theorem Spaced.digits {text : String} (digits : IsDigits text)
    (continues : Continues after) : Spaced true (.digits text :: after) :=
  ⟨⟨Lexeme.head_digits digits continues.1, nofun, nofun⟩, fun _ => nofun, continues.2⟩

theorem Spaced.keyword (keyword : kind ∈ Kind.keywords)
    (apart : Lexeme.Apart (chars after)) (spaced : Spaced kind.endsValue after) :
    Spaced true (mark kind :: after) := by
  have word : (kind ≠ .eof ∧ kind ≠ .illegal) ∧ kind ≠ .rbrace := by
    revert keyword
    cases kind <;> decide
  exact ⟨⟨Lexeme.head_keyword keyword apart, word.1⟩, fun _ => word.2, spaced⟩

theorem Spaced.leading (keyword : kind ∈ Kind.keywords) (spaced : Spaced true after) :
    Spaced true (mark kind :: .space :: after) :=
  .keyword keyword (apart_space after) (spaced.of_true kind.endsValue)

theorem Spaced.symbol (symbol : kind ∈ Kind.symbols)
    (stops : ∀ char ∈ (chars after).head?, char ∉ kind.continuations)
    {pending : Bool} (noEnd : pending → kind ≠ .rbrace)
    (spaced : Spaced kind.endsValue after) : Spaced pending (mark kind :: after) := by
  refine ⟨⟨Lexeme.head_symbol symbol stops, ?_⟩, noEnd, spaced⟩
  revert symbol
  cases kind <;> decide

theorem Spaced.punctuation
    (single : kind ∈ [.comma, .semi, .lparen, .rparen, .lbrace, .rbrace])
    {pending : Bool} (noEnd : pending → kind ≠ .rbrace)
    (spaced : Spaced kind.endsValue after) : Spaced pending (mark kind :: after) := by
  have closed : kind ∈ Kind.symbols ∧ kind.continuations = [] := by
    clear noEnd spaced
    revert kind
    decide
  obtain ⟨symbol, none⟩ := closed
  refine Spaced.symbol symbol ?_ noEnd spaced
  rw [none]
  exact fun _ _ => List.not_mem_nil

theorem Spaced.opening (opens : kind = .lparen ∨ kind = .lbrace)
    (spaced : Spaced true after) : Spaced true (mark kind :: after) := by
  rcases opens with rfl | rfl <;>
    exact .punctuation (by decide) (by decide) (spaced.of_true false)

/-- A sign in front of an operand could only be read with an equals sign. -/
theorem Spaced.unary (unary : kind.isUnary)
    (stops : (chars after).head? ≠ some '=') (spaced : Spaced true after) :
    Spaced false (mark kind :: after) := by
  have sign : kind ∈ Kind.symbols ∧ kind.continuations ⊆ ['='] := by
    revert unary
    cases kind <;> decide
  obtain ⟨symbol, equals⟩ := sign
  refine Spaced.symbol symbol ?_ nofun (spaced.of_true kind.endsValue)
  intro char begins more
  obtain rfl := List.mem_singleton.1 (equals more)
  exact stops begins

theorem Spaced.binary (binary : kind.isBinary) (spaced : Spaced true after) :
    Spaced true (mark kind :: .space :: after) := by
  have operator : kind ∈ Kind.symbols ∧ ' ' ∉ kind.continuations ∧ kind ≠ .rbrace := by
    revert binary
    cases kind <;> decide
  obtain ⟨symbol, stops, noEnd⟩ := operator
  refine Spaced.symbol symbol ?_ (fun _ => noEnd) (spaced.of_true kind.endsValue)
  intro char begins
  obtain rfl := Option.some.inj begins
  exact stops

theorem Continues.space (spaced : Spaced true after) : Continues (space :: after) :=
  ⟨apart_space after, spaced⟩

theorem Continues.punctuation (single : kind ∈ [.comma, .semi, .lparen, .rparen])
    (spaced : Spaced kind.endsValue after) : Continues (mark kind :: after) := by
  have closed : kind ∈ Kind.symbols ∧ kind ≠ .rbrace ∧
      kind ∈ [.comma, .semi, .lparen, .rparen, .lbrace, .rbrace] := by
    clear spaced
    revert kind
    decide
  obtain ⟨symbol, noEnd, single⟩ := closed
  exact ⟨apart_mark symbol after, .punctuation single (fun _ => noEnd) spaced⟩

theorem Continues.closing (spaced : Spaced true after) :
    Continues (mark .rparen :: after) :=
  .punctuation (by decide) spaced

end Piece

open Piece

variable {after : List Piece}

private theorem continues_moreNamesLayout {names : List String}
    (wellFormed : ∀ name ∈ names, IsName name) (continues : Continues after) :
    Continues (moreNamesLayout names after) := by
  induction names with
  | nil => exact continues
  | cons name rest ih =>
    have more := ih fun name member => wellFormed name (.tail _ member)
    have first := Spaced.name (wellFormed name (.head rest)) more
    exact .punctuation (by decide) (first.of_true false)

theorem spaced_paramsLayout {params : List String}
    (wellFormed : ∀ name ∈ params, IsName name) (spaced : Spaced true after) :
    Spaced true (paramsLayout params after) := by
  have close := Continues.closing spaced
  cases params with
  | nil => exact .opening (by decide) close.2
  | cons name rest =>
    have more := continues_moreNamesLayout
      (fun name member => wellFormed name (.tail _ member)) close
    have first := Spaced.name (wellFormed name (.head rest)) more
    exact .opening (by decide) first

theorem apart_paramsLayout (params : List String) (after : List Piece) :
    Lexeme.Apart (chars (paramsLayout params after)) := by
  cases params <;> exact apart_mark (by decide) _

/-! ## First characters -/

theorem IsName.head?_ne {text : String} (name : IsName text) (after : List Char) :
    (text.toList ++ after).head? ≠ some '=' := by
  obtain ⟨-, word⟩ := name
  intro begins
  split at word
  · contradiction
  · rename_i char rest spelled
    rw [spelled] at begins
    obtain rfl := Option.some.inj begins
    exact absurd word.1 (by decide)

theorem IsDigits.head?_ne {text : String} (digits : IsDigits text) (after : List Char) :
    (text.toList ++ after).head? ≠ some '=' := by
  obtain ⟨some, digits⟩ := digits
  intro begins
  cases spelled : text.toList with
  | nil => exact some (String.toList_eq_nil_iff.1 spelled)
  | cons char rest =>
    rw [spelled] at begins digits
    obtain rfl := Option.some.inj begins
    exact absurd (List.all_eq_true.1 digits '=' (.head rest)) (by decide)

private theorem Stmt.head?_blockLayout (body : List Stmt) (after : List Piece) :
    (chars (Stmt.blockLayout body after)).head? = some '{' := by
  cases body <;> rfl

private theorem Conditional.head?_layout (branches : Conditional) (after : List Piece) :
    (chars (branches.layout after)).head? = some 'i' := by
  cases branches <;> rfl

theorem Compound.head?_layout_ne (form : Compound) (after : List Piece) :
    (chars (form.layout after)).head? ≠ some '=' := by
  cases form with
  | block body =>
    rw [Compound.layout, Stmt.head?_blockLayout]
    decide
  | conditional branches =>
    rw [Compound.layout, Conditional.head?_layout]
    decide
  | loop condition body => exact nofun

/-- No expression begins with an equals sign, which would join the sign in front. -/
theorem Expr.head?_layout_ne (expr : Expr) (wellFormed : expr.WellFormed)
    (after : List Piece) : (chars (expr.layout after)).head? ≠ some '=' := by
  cases expr with
  | ident name => exact IsName.head?_ne wellFormed (chars after)
  | int digits => exact IsDigits.head?_ne wellFormed (chars after)
  | unary | binary | func => exact nofun
  | call callee args => exact callee.head?_layout_ne wellFormed.1 _
  | compound form => exact form.head?_layout_ne after

/-! ## Trees -/

-- An expression needs pieces behind it that continue it, a statement only ones that are
-- spaced behind a semicolon: each case passes on what its own last mark provides.
mutual

theorem Expr.spaced_layout (expr : Expr) (wellFormed : expr.WellFormed)
    {after : List Piece} (continues : Continues after) :
    Spaced true (expr.layout after) := by
  cases expr with
  | ident name => exact .name wellFormed continues
  | int digits => exact .digits wellFormed continues
  | unary op operand =>
    have close := Continues.closing continues.2
    have inner := operand.spaced_layout wellFormed.2 close
    have begins := operand.head?_layout_ne wellFormed.2 (mark .rparen :: after)
    exact .punctuation (by decide) (by decide) (.unary wellFormed.1 begins inner)
  | binary left op right =>
    obtain ⟨binary, leftFormed, rightFormed⟩ := wellFormed
    have close := Continues.closing continues.2
    have second := right.spaced_layout rightFormed close
    have first := left.spaced_layout leftFormed (.space (.binary binary second))
    exact .opening (by decide) first
  | call callee args =>
    have close := Continues.closing continues.2
    have listed := Expr.spaced_argsLayout args wellFormed.2 close
    exact callee.spaced_layout wellFormed.1
      (.punctuation (by decide) (listed.of_true false))
  | compound form => exact form.spaced_layout wellFormed continues.2
  | func params body =>
    have block := Stmt.spaced_blockLayout body wellFormed.2 continues.2
    have listed := spaced_paramsLayout wellFormed.1 block.space
    exact .keyword (by decide) (apart_paramsLayout params _) (listed.of_true false)
termination_by structural expr

theorem Stmt.spaced_layout (stmt : Stmt) (wellFormed : stmt.WellFormed)
    {after : List Piece} (spaced : Spaced false after) :
    Spaced true (stmt.layout after) := by
  have ends : Continues (mark .semi :: after) := .punctuation (by decide) spaced
  cases stmt with
  | expr value =>
    rw [Stmt.layout]
    split
    · have close := Continues.closing ends.2
      have inner := value.spaced_layout wellFormed close
      exact .opening (by decide) inner
    · exact value.spaced_layout wellFormed ends
  | binding name value =>
    have bound := value.spaced_layout wellFormed.2 ends
    have assigned : Spaced true (mark .assign :: space :: value.layout _) :=
      .binary rfl bound
    have named := Spaced.name wellFormed.1 (.space assigned)
    exact .leading (by decide) named
  | jump word value =>
    have keyword : word.kind ∈ Kind.keywords := by cases word <;> decide
    cases value with
    | none => exact .keyword keyword ends.1 (ends.2.of_true word.kind.endsValue)
    | some value => exact .leading keyword (value.spaced_layout wellFormed ends)
  | continueLoop => exact .keyword (by decide) ends.1 ends.2
  | compound form => exact form.spaced_layout wellFormed ends.2
  | funcDecl name params body =>
    have block := Stmt.spaced_blockLayout body wellFormed.2.2 ends.2
    have listed := spaced_paramsLayout wellFormed.2.1 block.space
    have named := Spaced.name wellFormed.1 ⟨apart_paramsLayout params _, listed⟩
    exact .leading (by decide) named
termination_by structural stmt

theorem Compound.spaced_layout (form : Compound) (wellFormed : form.WellFormed)
    {after : List Piece} (spaced : Spaced true after) :
    Spaced true (form.layout after) := by
  cases form with
  | block body => exact Stmt.spaced_blockLayout body wellFormed spaced
  | conditional branches => exact branches.spaced_layout wellFormed spaced
  | loop condition body =>
    have block := Stmt.spaced_blockLayout body wellFormed.2 spaced
    have guarded := condition.spaced_layout wellFormed.1 (.space block)
    exact .leading (by decide) guarded
termination_by structural form

theorem Conditional.spaced_layout (branches : Conditional)
    (wellFormed : branches.WellFormed) {after : List Piece}
    (spaced : Spaced true after) : Spaced true (branches.layout after) := by
  cases branches with
  | only condition body =>
    have block := Stmt.spaced_blockLayout body wellFormed.2 spaced
    have guarded := condition.spaced_layout wellFormed.1 (.space block)
    exact .leading (by decide) guarded
  | orElse condition body other =>
    obtain ⟨conditionFormed, bodyFormed, otherFormed⟩ := wellFormed
    have second := Stmt.spaced_blockLayout other otherFormed spaced
    have otherwise :
        Spaced true (mark .kwElse :: space :: Stmt.blockLayout other after) :=
      .leading (by decide) second
    have first := Stmt.spaced_blockLayout body bodyFormed otherwise.space
    have guarded := condition.spaced_layout conditionFormed (.space first)
    exact .leading (by decide) guarded
  | elseIf condition body next =>
    obtain ⟨conditionFormed, bodyFormed, nextFormed⟩ := wellFormed
    have chain := next.spaced_layout nextFormed spaced
    have otherwise : Spaced true (mark .kwElse :: space :: next.layout after) :=
      .leading (by decide) chain
    have first := Stmt.spaced_blockLayout body bodyFormed otherwise.space
    have guarded := condition.spaced_layout conditionFormed (.space first)
    exact .leading (by decide) guarded
termination_by structural branches

theorem Expr.spaced_argsLayout (args : List Expr) (wellFormed : Expr.AllWellFormed args)
    {after : List Piece} (continues : Continues after) :
    Spaced true (Expr.argsLayout args after) := by
  cases args with
  | nil => exact continues.2
  | cons value rest =>
    exact value.spaced_layout wellFormed.1
      (Expr.continues_moreArgsLayout rest wellFormed.2 continues)
termination_by structural args

theorem Expr.continues_moreArgsLayout (args : List Expr)
    (wellFormed : Expr.AllWellFormed args) {after : List Piece}
    (continues : Continues after) : Continues (Expr.moreArgsLayout args after) := by
  cases args with
  | nil => exact continues
  | cons value rest =>
    have more := Expr.continues_moreArgsLayout rest wellFormed.2 continues
    have first := value.spaced_layout wellFormed.1 more
    exact .punctuation (by decide) (first.of_true false)
termination_by structural args

theorem Stmt.spaced_blockLayout (body : List Stmt)
    (wellFormed : Stmt.AllWellFormed body) {after : List Piece}
    (spaced : Spaced true after) : Spaced true (Stmt.blockLayout body after) := by
  have close : Spaced false (mark .rbrace :: after) :=
    .punctuation (by decide) (by decide) spaced
  cases body with
  | nil => exact .punctuation (by decide) (by decide) close
  | cons stmt rest =>
    have more := Stmt.spaced_moreLayout rest (.inl rfl) wellFormed.2 close.space
    have first := stmt.spaced_layout wellFormed.1 more
    exact .opening (by decide) first
termination_by structural body

theorem Stmt.spaced_moreLayout (body : List Stmt) {blank : Piece}
    (separates : blank = space ∨ blank = newline) (wellFormed : Stmt.AllWellFormed body)
    {after : List Piece} (spaced : Spaced false after) :
    Spaced false (Stmt.moreLayout blank body after) := by
  cases body with
  | nil => exact spaced
  | cons stmt rest =>
    have more := Stmt.spaced_moreLayout rest separates wellFormed.2 spaced
    have first := stmt.spaced_layout wellFormed.1 more
    rcases separates with rfl | rfl
    · exact first.of_true false
    · exact ⟨rfl, first.of_true false⟩
termination_by structural body

end

theorem Program.spaced_layout (program : Program) (wellFormed : program.WellFormed) :
    Spaced false (Program.layout program []) := by
  cases program with
  | nil => rfl
  | cons stmt rest =>
    have ended : Spaced false [] := rfl
    have more := Stmt.spaced_moreLayout rest (.inr rfl) wellFormed.2 ended
    exact (stmt.spaced_layout wellFormed.1 more).of_true false

end OasisSyntax
