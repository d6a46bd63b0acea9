import Mathlib.Data.List.Basic
import OasisSyntax.Proofs.Printing.Formatting

/-!
# What formatting keeps

Printing puts parentheses around operations, ends every statement and leaves no comma
behind the last part of a list.  Two concrete trees of one syntax tree have the same
tokens but for these marks, so a program that is formatted keeps all other tokens in
their order.
-/

namespace OasisSyntax

def Kind.isPunctuation : Kind → Bool
  | .lparen | .rparen | .comma | .semi => true
  | _ => false

namespace Token

/-- Nothing of a punctuation mark, and the longer one of the two keywords for
functions. -/
def kept (token : Token) : List Token :=
  if token.kind.isPunctuation then []
  else if token = ⟨.kwFunc, "fn"⟩ then [.ofKind .kwFunc]
  else [token]

def unpunctuated (tokens : List Token) : List Token := tokens.flatMap kept

theorem kept_of_isPunctuation {token : Token} (mark : token.kind.isPunctuation) :
    token.kept = [] := by
  rw [kept, if_pos mark]

@[simp] theorem unpunctuated_nil : unpunctuated [] = [] := rfl

@[simp] theorem unpunctuated_cons (token : Token) (rest : List Token) :
    unpunctuated (token :: rest) = token.kept ++ unpunctuated rest :=
  List.flatMap_cons

@[simp] theorem unpunctuated_append (first second : List Token) :
    unpunctuated (first ++ second) = unpunctuated first ++ unpunctuated second :=
  List.flatMap_append

end Token

/-! ## Trees of the same syntax tree -/

namespace Concrete

open Token

@[simp] theorem unpunctuated_parenthesised (inner : List Token) :
    unpunctuated (parenthesised inner) = unpunctuated inner := by
  have opening : (ofKind .lparen).kept = [] := kept_of_isPunctuation rfl
  have closing : (ofKind .rparen).kept = [] := kept_of_isPunctuation rfl
  simp [parenthesised, opening, closing]

@[simp] theorem unpunctuated_braced (inner : List Token) :
    unpunctuated (braced inner) =
      (ofKind .lbrace).kept ++ unpunctuated inner ++ (ofKind .rbrace).kept := by
  simp [braced]

@[simp] theorem kept_semi : (ofKind .semi).kept = [] := kept_of_isPunctuation rfl

theorem unpunctuated_optionalToken {kind : Kind} (mark : kind.isPunctuation)
    (written : Bool) : unpunctuated (optionalToken kind written) = [] := by
  cases written with
  | false => rfl
  | true => simp [optionalToken, kept_of_isPunctuation, mark]

private theorem unpunctuated_moreNamesYield (trailing : Bool) (names : List String) :
    unpunctuated (moreNamesYield trailing names) =
      unpunctuated (moreNamesYield false names) := by
  induction names with
  | nil => exact unpunctuated_optionalToken rfl trailing
  | cons name rest ih => simp [moreNamesYield, ih]

theorem unpunctuated_namesYield (trailing : Bool) (names : List String) :
    unpunctuated (namesYield trailing names) = unpunctuated (namesYield false names) := by
  cases names with
  | nil => rfl
  | cons name rest => simp [namesYield, unpunctuated_moreNamesYield trailing]

mutual

theorem Expr.unpunctuated_yield (tree : Expr) :
    unpunctuated tree.yield = unpunctuated tree.erase.bracketed.yield := by
  cases tree with
  | ident | int => rfl
  | unary op operand =>
    simp [Expr.erase, OasisSyntax.Expr.bracketed, Expr.yield, operand.unpunctuated_yield]
  | binary left op right =>
    simp [Expr.erase, OasisSyntax.Expr.bracketed, Expr.yield, left.unpunctuated_yield,
      right.unpunctuated_yield]
  | group inner => simp [Expr.erase, Expr.yield, inner.unpunctuated_yield]
  | call callee args trailing =>
    simp [Expr.erase, OasisSyntax.Expr.bracketed, Expr.yield, callee.unpunctuated_yield,
      Expr.unpunctuated_argsYield trailing args]
  | compound form => exact form.unpunctuated_yield
  | func params trailing body =>
    simp [Expr.erase, OasisSyntax.Expr.bracketed, Expr.yield,
      unpunctuated_namesYield trailing, Stmt.unpunctuated_allYield body]
termination_by structural tree

theorem Stmt.unpunctuated_yield (tree : Stmt) :
    unpunctuated tree.yield = unpunctuated tree.erase.bracketed.yield := by
  cases tree with
  | expr value =>
    -- The printed statement may have parentheses that the other one does not need.
    simp only [Stmt.erase, OasisSyntax.Stmt.bracketed, Stmt.yield]
    split <;> simp [Expr.yield, value.unpunctuated_yield]
  | binding name value =>
    simp [Stmt.erase, OasisSyntax.Stmt.bracketed, Stmt.yield, value.unpunctuated_yield]
  | jump word value =>
    cases value with
    | none => rfl
    | some value =>
      simp [Stmt.erase, OasisSyntax.Stmt.bracketed, Stmt.yield, value.unpunctuated_yield]
  | continueLoop => rfl
  | compound form terminated =>
    simp [Stmt.erase, OasisSyntax.Stmt.bracketed, Stmt.yield, form.unpunctuated_yield,
      @unpunctuated_optionalToken .semi rfl]
  | funcDecl name params trailing body terminated =>
    simp [Stmt.erase, OasisSyntax.Stmt.bracketed, Stmt.yield,
      unpunctuated_namesYield trailing, Stmt.unpunctuated_allYield body,
      @unpunctuated_optionalToken .semi rfl]
termination_by structural tree

theorem Compound.unpunctuated_yield (tree : Compound) :
    unpunctuated tree.yield = unpunctuated tree.erase.bracketed.yield := by
  cases tree with
  | block body =>
    simp [Compound.erase, OasisSyntax.Compound.bracketed, Compound.yield,
      Stmt.unpunctuated_allYield body]
  | conditional branches => exact branches.unpunctuated_yield
  | loop condition body =>
    simp [Compound.erase, OasisSyntax.Compound.bracketed, Compound.yield,
      condition.unpunctuated_yield, Stmt.unpunctuated_allYield body]
termination_by structural tree

theorem Conditional.unpunctuated_yield (tree : Conditional) :
    unpunctuated tree.yield = unpunctuated tree.erase.bracketed.yield := by
  cases tree with
  | only condition body =>
    simp [Conditional.erase, OasisSyntax.Conditional.bracketed, Conditional.yield,
      condition.unpunctuated_yield, Stmt.unpunctuated_allYield body]
  | orElse condition body other =>
    simp [Conditional.erase, OasisSyntax.Conditional.bracketed, Conditional.yield,
      condition.unpunctuated_yield, Stmt.unpunctuated_allYield body,
      Stmt.unpunctuated_allYield other]
  | elseIf condition body next =>
    simp [Conditional.erase, OasisSyntax.Conditional.bracketed, Conditional.yield,
      condition.unpunctuated_yield, Stmt.unpunctuated_allYield body,
      next.unpunctuated_yield]
termination_by structural tree

theorem Expr.unpunctuated_argsYield (trailing : Bool) (trees : List Expr) :
    unpunctuated (Expr.argsYield trailing trees) =
      unpunctuated (Expr.argsYield false
        (OasisSyntax.Expr.bracketedAll (Expr.eraseAll trees))) := by
  cases trees with
  | nil => rfl
  | cons tree rest =>
    simp [Expr.eraseAll, OasisSyntax.Expr.bracketedAll, Expr.argsYield,
      tree.unpunctuated_yield, Expr.unpunctuated_moreArgsYield trailing rest]
termination_by structural trees

theorem Expr.unpunctuated_moreArgsYield (trailing : Bool) (trees : List Expr) :
    unpunctuated (Expr.moreArgsYield trailing trees) =
      unpunctuated (Expr.moreArgsYield false
        (OasisSyntax.Expr.bracketedAll (Expr.eraseAll trees))) := by
  cases trees with
  | nil => exact unpunctuated_optionalToken rfl trailing
  | cons tree rest =>
    simp [Expr.eraseAll, OasisSyntax.Expr.bracketedAll, Expr.moreArgsYield,
      tree.unpunctuated_yield, Expr.unpunctuated_moreArgsYield trailing rest]
termination_by structural trees

theorem Stmt.unpunctuated_allYield (trees : List Stmt) :
    unpunctuated (Stmt.allYield trees) =
      unpunctuated (Stmt.allYield
        (OasisSyntax.Stmt.bracketedAll (Stmt.eraseAll trees))) := by
  cases trees with
  | nil => rfl
  | cons tree rest =>
    simp [Stmt.eraseAll, OasisSyntax.Stmt.bracketedAll, Stmt.allYield,
      tree.unpunctuated_yield, Stmt.unpunctuated_allYield rest]
termination_by structural trees

end

end Concrete

/-! ## Tokens of a text -/

open Token (kept unpunctuated)

/-- Where a literal is not the spelling of its kind, the token is an end of a statement
or the shorter keyword for functions. -/
theorem Lexeme.kept_plain {text : List Char} (present : text ≠ [])
    (legal : (head text).kind ≠ .illegal) :
    (head text).token.plain.kept = (head text).token.kept := by
  have keywords : ∀ kind ∈ Kind.keywords, (Token.ofKind kind).plain = .ofKind kind := by
    decide
  have symbols : ∀ kind ∈ Kind.symbols, (Token.ofKind kind).plain = .ofKind kind := by
    decide
  cases text with
  | nil => contradiction
  | cons char rest =>
    rcases head_cons char rest with ⟨-, word⟩ | ⟨-, int⟩ | ⟨kind, member, symbol⟩ |
      illegal
    · rw [word]
      rcases kind_ofWord (char :: rest.takeWhile isWordPart) with keyword | ⟨name, -⟩
      · rcases token_ofWord keyword with spelled | short
        · rw [spelled, keywords _ keyword]
        · rw [short]
          rfl
      · rw [Lexeme.token, name]
        rfl
    · rw [int]
      rfl
    · have spelled : (Lexeme.ofSymbol kind).token = .ofKind kind :=
        congrArg _ String.ofList_toList
      rw [symbol, spelled, symbols _ member]
    · rw [illegal] at legal
      contradiction

theorem Reader.Walk.kept_plain {offset : Nat} {pending : Bool} {text : List Char}
    {tokens : List (Spanned Token)} (walk : Walk offset pending text tokens) :
    ∀ token ∈ tokens, token.node.kind ≠ .eof ∧ token.node.kind ≠ .illegal →
      token.node.plain.kept = token.node.kept := by
  intro token member legal
  by_cases written : token.node.isWritten
  · obtain ⟨before, rest, -, -, present, read⟩ := walk.exists_head token member written
    rw [read] at legal ⊢
    exact Lexeme.kept_plain present legal.2
  · rcases Token.kind_of_not_isWritten written with semi | eof
    · have mark : token.node.kind.isPunctuation := by rw [semi]; rfl
      rw [Token.kept_of_isPunctuation mark,
        Token.kept_of_isPunctuation (by rwa [Token.plain_kind])]
    · exact absurd eof legal.1

variable {text : List Char} {program : Program}

/-- The tokens of a program and those of its printed form are the same in the same order,
but for punctuation and the keyword for functions. -/
theorem unpunctuated_tokens_render (parsed : parse text = .ok program) :
    unpunctuated ((Reader.ofText program.render.toList).tokens.map (·.node)) =
      unpunctuated ((Reader.ofText text).tokens.map (·.node)) := by
  have printed := Program.tokens_render (Program.wellFormed_of_parse parsed)
  obtain ⟨init, length, trees, walk, canonicals, rfl, yields, legal⟩ :=
    exists_trees_of_parse parsed
  have source : (Reader.ofText text).tokens = init ++ [TokenStream.endToken length] :=
    walk.tokens_eq
  have keeps : unpunctuated (init.map (·.node.plain)) =
      unpunctuated (init.map (·.node)) := by
    rw [unpunctuated, unpunctuated, List.flatMap_map, List.flatMap_map]
    refine List.flatMap_congr fun token member => ?_
    exact walk.kept_plain token (List.mem_append_left _ member) (legal token member)
  rw [printed, source, List.map_append, Token.unpunctuated_append,
    Token.unpunctuated_append, ← Concrete.Stmt.unpunctuated_allYield, yields, keeps]
  rfl

/-- The parentheses go around the whole operation, and the comma goes. -/
theorem unpunctuated_tokens_render_condition :
    let code := "fn f(a,)\x7bif a\x7b\x7delse\x7b-(b)\x7d\x7d"
    let printed := "func f(a) \x7b if a \x7b \x7d else \x7b (-b); \x7d; \x7d;"
    (∃ program, parse code.toList = .ok program ∧ program.render = printed) ∧
      unpunctuated ((Reader.ofText printed.toList).tokens.map (·.node)) =
        unpunctuated ((Reader.ofText code.toList).tokens.map (·.node)) := by
  intro code printed
  let operation : Expr := .unary .minus (.ident "b")
  let condition : Conditional := .orElse (.ident "a") [] [.expr operation]
  let program : Program := [.funcDecl "f" ["a"] [.compound (.conditional condition)]]
  have parsed : parse code.toList = .ok program := by decide +kernel
  have same : program.render = printed := by decide
  refine ⟨⟨program, parsed, same⟩, ?_⟩
  rw [← same]
  exact unpunctuated_tokens_render parsed

end OasisSyntax
