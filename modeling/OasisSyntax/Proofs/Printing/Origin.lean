import OasisSyntax.Proofs.Grammar.Concrete
import OasisSyntax.Proofs.Printing.WellFormed
import OasisSyntax.Proofs.Tokens.Spans

/-!
# Where well-formed trees come from

The reader makes names of words that are no keywords, and integers of rows of digits.
What a tree has for names and integers are literals of such tokens, and the grammar
holds its operators to their places.  So a tree that is read from a text is well-formed.
-/

namespace OasisSyntax

structure Token.WellFormed (token : Token) : Prop where
  name : token.kind = .ident → IsName token.literal
  digits : token.kind = .int → IsDigits token.literal

theorem Token.wellFormed_of_kind {token : Token} (noName : token.kind ≠ .ident)
    (noInt : token.kind ≠ .int) : token.WellFormed :=
  ⟨fun name => absurd name noName, fun int => absurd int noInt⟩

theorem Token.WellFormed.plain {token : Token} (wellFormed : token.WellFormed) :
    token.plain.WellFormed := by
  obtain ⟨kind, literal⟩ := token
  by_cases name : kind = .ident
  · subst name
    exact wellFormed
  · by_cases int : kind = .int
    · subst int
      exact wellFormed
    · apply Token.wellFormed_of_kind <;> simpa

/-! ## The tokens of a text -/

namespace Lexeme

private theorem wellFormed_head (text : List Char) : (head text).token.WellFormed := by
  have keywords : ∀ kind ∈ Kind.keywords, kind ≠ .ident ∧ kind ≠ .int := by decide
  have symbols : ∀ kind ∈ Kind.symbols, kind ≠ .ident ∧ kind ≠ .int := by decide
  cases text with
  | nil => exact Token.wellFormed_of_kind (by simp [head, token]) (by simp [head, token])
  | cons char rest =>
    rcases head_cons char rest with ⟨start, word⟩ | ⟨digit, int⟩ | ⟨kind, member, symbol⟩ |
      illegal
    · rw [word]
      rcases kind_ofWord (char :: rest.takeWhile isWordPart) with keyword | ⟨name, found⟩
      · exact Token.wellFormed_of_kind (keywords _ keyword).1 (keywords _ keyword).2
      · refine ⟨fun _ => ⟨Kind.ofKeyword?_eq_none_iff.1 found, ?_⟩, fun int => ?_⟩
        · simpa [token, ofWord] using start
        · simp [token, name] at int
    · rw [int]
      refine ⟨by simp [token], fun _ => ⟨?_, ?_⟩⟩
      · simp [token]
      · simpa [token] using digit
    · rw [symbol]
      exact Token.wellFormed_of_kind (symbols _ member).1 (symbols _ member).2
    · rw [illegal]
      exact Token.wellFormed_of_kind (by simp [token]) (by simp [token])

end Lexeme

theorem Reader.Walk.wellFormed {offset : Nat} {pending : Bool} {text : List Char}
    {tokens : List (Spanned Token)} (walk : Walk offset pending text tokens) :
    ∀ token ∈ tokens, token.node.WellFormed := by
  intro token member
  by_cases written : token.node.isWritten
  · obtain ⟨before, rest, -, -, -, read⟩ := walk.exists_head token member written
    rw [read]
    exact Lexeme.wellFormed_head rest
  · rcases Token.kind_of_not_isWritten written with semi | eof
    · exact Token.wellFormed_of_kind (by simp [semi]) (by simp [semi])
    · exact Token.wellFormed_of_kind (by simp [eof]) (by simp [eof])

/-! ## Trees from tokens -/

namespace Concrete

private theorem moreNames_wellFormed {trailing : Bool} {names : List String}
    (tokens : ∀ token ∈ moreNamesYield trailing names, token.WellFormed) :
    ∀ name ∈ names, IsName name := by
  induction names with
  | nil => simp
  | cons name rest ih =>
    simp only [moreNamesYield, List.forall_mem_cons] at tokens ⊢
    exact ⟨tokens.2.1.name rfl, ih tokens.2.2⟩

theorem names_wellFormed {trailing : Bool} {names : List String}
    (tokens : ∀ token ∈ namesYield trailing names, token.WellFormed) :
    ∀ name ∈ names, IsName name := by
  cases names with
  | nil => simp
  | cons name rest =>
    simp only [namesYield, List.forall_mem_cons] at tokens ⊢
    exact ⟨tokens.1.name rfl, moreNames_wellFormed tokens.2⟩

theorem wellFormed_of_parenthesised {inner : List Token}
    (tokens : ∀ token ∈ parenthesised inner, token.WellFormed) :
    ∀ token ∈ inner, token.WellFormed :=
  fun token member => tokens token (by simp [parenthesised, member])

theorem wellFormed_of_braced {inner : List Token}
    (tokens : ∀ token ∈ braced inner, token.WellFormed) :
    ∀ token ∈ inner, token.WellFormed :=
  fun token member => tokens token (by simp [braced, member])

mutual

theorem Expr.erase_wellFormed (tree : Expr) (canonical : tree.Canonical)
    (tokens : ∀ token ∈ tree.yield, token.WellFormed) : tree.erase.WellFormed := by
  cases tree with
  | ident name => exact (tokens _ (.head _)).name rfl
  | int digits => exact (tokens _ (.head _)).digits rfl
  | unary op operand =>
    simp only [Expr.yield, List.forall_mem_cons] at tokens
    exact ⟨canonical.1, operand.erase_wellFormed canonical.2.2 tokens.2⟩
  | binary left op right =>
    simp only [Expr.yield, List.forall_mem_append, List.forall_mem_cons] at tokens
    obtain ⟨binary, -, -, canonicalLeft, canonicalRight⟩ := canonical
    exact ⟨binary, left.erase_wellFormed canonicalLeft tokens.1,
      right.erase_wellFormed canonicalRight tokens.2.2⟩
  | group inner =>
    exact inner.erase_wellFormed canonical (wellFormed_of_parenthesised tokens)
  | call callee args trailing =>
    simp only [Expr.yield, List.forall_mem_append] at tokens
    obtain ⟨-, -, canonical, canonicals⟩ := canonical
    exact ⟨callee.erase_wellFormed canonical tokens.1,
      Expr.eraseAll_wellFormed args canonicals (wellFormed_of_parenthesised tokens.2)⟩
  | compound form => exact form.erase_wellFormed canonical tokens
  | func params trailing body =>
    simp only [Expr.yield, List.forall_mem_append, List.cons_append,
      List.forall_mem_cons] at tokens
    obtain ⟨-, names, body'⟩ := tokens
    exact ⟨names_wellFormed (wellFormed_of_parenthesised names),
      Stmt.eraseAll_wellFormed body canonical.2 (wellFormed_of_braced body')⟩
termination_by structural tree

theorem Stmt.erase_wellFormed (tree : Stmt) (canonical : tree.Canonical)
    (tokens : ∀ token ∈ tree.yield, token.WellFormed) : tree.erase.WellFormed := by
  cases tree with
  | expr value =>
    simp only [Stmt.yield, List.forall_mem_append] at tokens
    exact value.erase_wellFormed canonical.2 tokens.1
  | binding name value =>
    simp only [Stmt.yield, List.forall_mem_append, List.cons_append,
      List.forall_mem_cons] at tokens
    obtain ⟨-, name, -, value', -⟩ := tokens
    exact ⟨name.name rfl, value.erase_wellFormed canonical value'⟩
  | jump word value =>
    cases value with
    | none => trivial
    | some value =>
      simp only [Stmt.yield, List.forall_mem_append, List.cons_append,
        List.forall_mem_cons] at tokens
      exact value.erase_wellFormed canonical tokens.2.1
  | continueLoop => trivial
  | compound form terminated =>
    simp only [Stmt.yield, List.forall_mem_append] at tokens
    exact form.erase_wellFormed canonical tokens.1
  | funcDecl name params trailing body terminated =>
    simp only [Stmt.yield, List.forall_mem_append, List.cons_append,
      List.forall_mem_cons] at tokens
    obtain ⟨-, name, ⟨names, body'⟩, -⟩ := tokens
    exact ⟨name.name rfl, names_wellFormed (wellFormed_of_parenthesised names),
      Stmt.eraseAll_wellFormed body canonical.2 (wellFormed_of_braced body')⟩
termination_by structural tree

theorem Compound.erase_wellFormed (tree : Compound) (canonical : tree.Canonical)
    (tokens : ∀ token ∈ tree.yield, token.WellFormed) : tree.erase.WellFormed := by
  cases tree with
  | block body =>
    exact Stmt.eraseAll_wellFormed body canonical (wellFormed_of_braced tokens)
  | conditional branches => exact branches.erase_wellFormed canonical tokens
  | loop condition body =>
    simp only [Compound.yield, List.forall_mem_append, List.cons_append,
      List.forall_mem_cons] at tokens
    obtain ⟨-, condition', body'⟩ := tokens
    exact ⟨condition.erase_wellFormed canonical.1 condition',
      Stmt.eraseAll_wellFormed body canonical.2 (wellFormed_of_braced body')⟩
termination_by structural tree

theorem Conditional.erase_wellFormed (tree : Conditional) (canonical : tree.Canonical)
    (tokens : ∀ token ∈ tree.yield, token.WellFormed) : tree.erase.WellFormed := by
  cases tree with
  | only condition body =>
    simp only [Conditional.yield, List.forall_mem_append, List.cons_append,
      List.forall_mem_cons] at tokens
    obtain ⟨-, condition', body'⟩ := tokens
    exact ⟨condition.erase_wellFormed canonical.1 condition',
      Stmt.eraseAll_wellFormed body canonical.2 (wellFormed_of_braced body')⟩
  | orElse condition body other =>
    simp only [Conditional.yield, List.forall_mem_append, List.cons_append,
      List.forall_mem_cons] at tokens
    obtain ⟨-, ⟨condition', body'⟩, -, other'⟩ := tokens
    exact ⟨condition.erase_wellFormed canonical.1 condition',
      Stmt.eraseAll_wellFormed body canonical.2.1 (wellFormed_of_braced body'),
      Stmt.eraseAll_wellFormed other canonical.2.2 (wellFormed_of_braced other')⟩
  | elseIf condition body next =>
    simp only [Conditional.yield, List.forall_mem_append, List.cons_append,
      List.forall_mem_cons] at tokens
    obtain ⟨-, ⟨condition', body'⟩, -, next'⟩ := tokens
    exact ⟨condition.erase_wellFormed canonical.1 condition',
      Stmt.eraseAll_wellFormed body canonical.2.1 (wellFormed_of_braced body'),
      next.erase_wellFormed canonical.2.2 next'⟩
termination_by structural tree

theorem Expr.eraseAll_wellFormed {trailing : Bool} (trees : List Expr)
    (canonicals : Expr.AllCanonical trees)
    (tokens : ∀ token ∈ Expr.argsYield trailing trees, token.WellFormed) :
    OasisSyntax.Expr.AllWellFormed (Expr.eraseAll trees) := by
  cases trees with
  | nil => trivial
  | cons tree rest =>
    simp only [Expr.argsYield, List.forall_mem_append] at tokens
    exact ⟨tree.erase_wellFormed canonicals.1 tokens.1,
      Expr.eraseAll_wellFormed_of_more rest canonicals.2 tokens.2⟩
termination_by structural trees

theorem Expr.eraseAll_wellFormed_of_more {trailing : Bool} (trees : List Expr)
    (canonicals : Expr.AllCanonical trees)
    (tokens : ∀ token ∈ Expr.moreArgsYield trailing trees, token.WellFormed) :
    OasisSyntax.Expr.AllWellFormed (Expr.eraseAll trees) := by
  cases trees with
  | nil => trivial
  | cons tree rest =>
    simp only [Expr.moreArgsYield, List.forall_mem_append, List.cons_append,
      List.forall_mem_cons] at tokens
    exact ⟨tree.erase_wellFormed canonicals.1 tokens.2.1,
      Expr.eraseAll_wellFormed_of_more rest canonicals.2 tokens.2.2⟩
termination_by structural trees

theorem Stmt.eraseAll_wellFormed (trees : List Stmt) (canonicals : Stmt.AllCanonical trees)
    (tokens : ∀ token ∈ Stmt.allYield trees, token.WellFormed) :
    OasisSyntax.Stmt.AllWellFormed (Stmt.eraseAll trees) := by
  cases trees with
  | nil => trivial
  | cons tree rest =>
    simp only [Stmt.allYield, List.forall_mem_append] at tokens
    exact ⟨tree.erase_wellFormed canonicals.1 tokens.1,
      Stmt.eraseAll_wellFormed rest canonicals.2 tokens.2⟩
termination_by structural trees

end

end Concrete

end OasisSyntax
