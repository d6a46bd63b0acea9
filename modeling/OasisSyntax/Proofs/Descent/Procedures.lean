import OasisSyntax.Parsing.Trace

/-!
# Reading by procedures

The grammar can be read by procedures that call one another, one for each form.  Every
procedure gets the tokens that are still to come.  Procedures that call each other
without a token in between are ranked, and each loop takes a token in every turn; so the
tokens that are left and the rank of a procedure decrease together, and reading ends.

An outcome says how many tokens are left at most.  It also keeps what has happened on the
way: the statements that have ended, and how many turns the longest loop has taken.
-/

namespace OasisSyntax

namespace Descent

/-- The kind of the next token; behind the last one there is the end of the text. -/
def lead : List (Spanned Token) → Kind
  | [] => .eof
  | token :: _ => token.node.kind

theorem exists_of_lead {tokens : List (Spanned Token)} {kind : Kind}
    (leads : lead tokens = kind) (more : kind ≠ .eof) :
    ∃ token rest, tokens = token :: rest ∧ token.node.kind = kind := by
  cases tokens with
  | nil => exact absurd leads.symm more
  | cons token rest => exact ⟨token, rest, rfl, leads⟩

def start : List (Spanned Token) → Nat
  | [] => 0
  | token :: _ => token.span.start

/-- A value and fewer tokens than the limit, or what is wrong with the first token that
is left. -/
inductive Ending (limit : Nat) (α : Type) where
  | done (value : α) (rest : List (Spanned Token)) (fewer : rest.length < limit)
  | stuck (complaint : Token → SyntaxError) (rest : List (Spanned Token))

structure Outcome (limit : Nat) (α : Type) where
  ending : Ending limit α
  /-- The statements that have ended, in this order. -/
  events : List StatementEvent
  /-- How many turns the longest loop has begun. -/
  turns : Nat

namespace Outcome

variable {limit within : Nat} {α β : Type}

def value (value : α) (rest : List (Spanned Token)) (fewer : rest.length < limit) :
    Outcome limit α :=
  ⟨.done value rest fewer, [], 0⟩

def stuck (complaint : Token → SyntaxError) (rest : List (Spanned Token)) :
    Outcome limit α :=
  ⟨.stuck complaint rest, [], 0⟩

def andThen (first : Outcome limit α)
    (next : α → (rest : List (Spanned Token)) → rest.length < limit → Outcome within β) :
    Outcome within β :=
  match first.ending with
  | .stuck complaint rest => ⟨.stuck complaint rest, first.events, first.turns⟩
  | .done value rest fewer =>
    let second := next value rest fewer
    ⟨second.ending, first.events ++ second.events, max first.turns second.turns⟩

def upTo (outcome : Outcome limit α) (larger : limit ≤ within) : Outcome within α :=
  outcome.andThen fun result rest fewer => .value result rest (Nat.lt_of_lt_of_le fewer larger)

def rest (outcome : Outcome limit α) : List (Spanned Token) :=
  match outcome.ending with
  | .done _ rest _ => rest
  | .stuck _ rest => rest

def answer (final : Spanned Token) (outcome : Outcome limit α) :
    Except (Spanned SyntaxError) α :=
  match outcome.ending with
  | .done value _ _ => .ok value
  | .stuck complaint rest =>
    let current := rest.headD final
    .error ⟨current.span, complaint current.node⟩

/-- A loop begins the turn with this number, and the outcome is that of the turn. -/
def turn (number : Nat) (outcome : Outcome limit α) : Outcome limit α :=
  { outcome with turns := max number outcome.turns }

end Outcome

def expect (kind : Kind) : (tokens : List (Spanned Token)) → Outcome tokens.length Token
  | [] => .stuck (.missing kind) []
  | token :: rest =>
    if token.node.kind = kind then .value token.node rest (Nat.lt_succ_self _)
    else .stuck (.missing kind) (token :: rest)

def close (start : Nat) (stmt : Stmt) (required : Bool) (tokens : List (Spanned Token)) :
    Outcome (tokens.length + 1) Stmt :=
  if lead tokens = .semi then
    ⟨.done stmt tokens.tail (by rw [List.length_tail]; omega), [⟨start, stmt⟩], 0⟩
  else if required then .stuck (.missing .semi) tokens
  else ⟨.done stmt tokens (Nat.lt_succ_self _), [⟨start, stmt⟩], 0⟩

def names (before : List String) (tokens : List (Spanned Token)) :
    Outcome (tokens.length + 1) (List String) :=
  if lead tokens = .rparen then .value before tokens (Nat.lt_succ_self _)
  else
    .turn (before.length + 1) <|
    (expect .ident tokens).andThen fun name rest _ =>
    if lead rest = .comma then
      (expect .comma rest).andThen fun _ rest _ =>
      (names (before ++ [name.literal]) rest).upTo (by omega)
    else .value (before ++ [name.literal]) rest (by omega)
termination_by tokens.length

def params (tokens : List (Spanned Token)) : Outcome tokens.length (List String) :=
  (expect .lparen tokens).andThen fun _ rest _ =>
  (names [] rest).andThen fun params rest _ =>
  (expect .rparen rest).andThen fun _ rest _ =>
  .value params rest (by omega)

mutual

def statements (inBlock : Bool) (done : List Stmt) (tokens : List (Spanned Token)) :
    Outcome (tokens.length + 1) (List Stmt) :=
  if lead tokens = .eof ∨ inBlock ∧ lead tokens = .rbrace then
    .value done tokens (Nat.lt_succ_self _)
  else
    .turn (done.length + 1) <|
    (statement tokens).andThen fun stmt rest _ =>
    (statements inBlock (done ++ [stmt]) rest).upTo (by omega)
termination_by (tokens.length, 7)

def statement (tokens : List (Spanned Token)) : Outcome tokens.length Stmt :=
  (form tokens).andThen fun (stmt, required) rest _ =>
  (close (start tokens) stmt required rest).upTo (by omega)
termination_by (tokens.length, 6)

/-- A statement without its terminator, and whether it needs one. -/
def form (tokens : List (Spanned Token)) : Outcome tokens.length (Stmt × Bool) :=
  match lead tokens with
  | .kwLet =>
    (expect .kwLet tokens).andThen fun _ rest _ =>
    (expect .ident rest).andThen fun name rest _ =>
    (expect .assign rest).andThen fun _ rest _ =>
    (expression .none rest).andThen fun value rest _ =>
    .value (.binding name.literal value, true) rest (by omega)
  | .kwReturn => jump .ret tokens
  | .kwBreak => jump .brk tokens
  | .kwContinue =>
    (expect .kwContinue tokens).andThen fun _ rest fewer =>
    .value (.continueLoop, true) rest fewer
  | .kwFunc =>
    (expect .kwFunc tokens).andThen fun _ rest _ =>
    if lead rest = .lparen then
      (function rest).andThen fun (params, body) rest _ =>
      (operations 0 (.func params body) .none rest).andThen fun value rest _ =>
      .value (.expr value, true) rest (by omega)
    else
      (expect .ident rest).andThen fun name rest _ =>
      (function rest).andThen fun (params, body) rest _ =>
      .value (.funcDecl name.literal params body, false) rest (by omega)
  | .lbrace | .kwIf | .kwWhile =>
    (compound tokens).andThen fun form rest fewer =>
    .value (.compound form, false) rest fewer
  | _ =>
    (expression .none tokens).andThen fun value rest fewer =>
    .value (.expr value, true) rest fewer
termination_by (tokens.length, 5)

def jump (word : Jump) (tokens : List (Spanned Token)) :
    Outcome tokens.length (Stmt × Bool) :=
  (expect word.kind tokens).andThen fun _ rest fewer =>
  if lead rest = .semi then .value (.jump word none, true) rest fewer
  else
    (expression .none rest).andThen fun value rest _ =>
    .value (.jump word (some value), true) rest (by omega)
termination_by (tokens.length, 0)

def function (tokens : List (Spanned Token)) :
    Outcome tokens.length (List String × List Stmt) :=
  (params tokens).andThen fun params rest _ =>
  (block rest).andThen fun body rest _ =>
  .value (params, body) rest (by omega)
termination_by (tokens.length, 0)

def block (tokens : List (Spanned Token)) : Outcome tokens.length (List Stmt) :=
  (expect .lbrace tokens).andThen fun _ rest _ =>
  (statements true [] rest).andThen fun body rest _ =>
  (expect .rbrace rest).andThen fun _ rest _ =>
  .value body rest (by omega)
termination_by (tokens.length, 0)

def conditional (tokens : List (Spanned Token)) : Outcome tokens.length Conditional :=
  (expect .kwIf tokens).andThen fun _ rest _ =>
  (expression .none rest).andThen fun condition rest _ =>
  (block rest).andThen fun body rest _ =>
  if lead rest = .kwElse then
    (expect .kwElse rest).andThen fun _ rest _ =>
    if lead rest = .kwIf then
      (conditional rest).andThen fun next rest _ =>
      .value (.elseIf condition body next) rest (by omega)
    else
      (block rest).andThen fun other rest _ =>
      .value (.orElse condition body other) rest (by omega)
  else .value (.only condition body) rest (by omega)
termination_by (tokens.length, 0)

def loop (tokens : List (Spanned Token)) : Outcome tokens.length (Expr × List Stmt) :=
  (expect .kwWhile tokens).andThen fun _ rest _ =>
  (expression .none rest).andThen fun condition rest _ =>
  (block rest).andThen fun body rest _ =>
  .value (condition, body) rest (by omega)
termination_by (tokens.length, 0)

def compound (tokens : List (Spanned Token)) : Outcome tokens.length Compound :=
  match lead tokens with
  | .kwIf =>
    (conditional tokens).andThen fun branches rest fewer =>
    .value (.conditional branches) rest fewer
  | .kwWhile =>
    (loop tokens).andThen fun (condition, body) rest fewer =>
    .value (.loop condition body) rest fewer
  | _ => (block tokens).andThen fun body rest fewer => .value (.block body) rest fewer
termination_by (tokens.length, 1)

/-- An expression, as far as its operators are stronger than the floor. -/
def expression (floor : Precedence) (tokens : List (Spanned Token)) :
    Outcome tokens.length Expr :=
  (operand tokens).andThen fun left rest _ =>
  (operations 0 left floor rest).upTo (by omega)
termination_by (tokens.length, 3)

/-- The count is that of the operators and calls that have been read. -/
def operations (count : Nat) (left : Expr) (floor : Precedence)
    (tokens : List (Spanned Token)) : Outcome (tokens.length + 1) Expr :=
  if (lead tokens).goesOn floor then
    .turn (count + 1) <|
    (operation left tokens).andThen fun value rest _ =>
    (operations (count + 1) value floor rest).upTo (by omega)
  else .value left tokens (Nat.lt_succ_self _)
termination_by (tokens.length, 1)

def operand : (tokens : List (Spanned Token)) → Outcome tokens.length Expr
  | [] => .stuck .noOperand []
  | token :: rest =>
    match token.node.kind with
    | .ident => .value (.ident token.node.literal) rest (Nat.lt_succ_self _)
    | .int => .value (.int token.node.literal) rest (Nat.lt_succ_self _)
    | .minus | .bang | .tilde =>
      (expression .unary rest).andThen fun operand rest _ =>
      .value (.unary token.node.kind operand) rest (by simp only [List.length_cons]; omega)
    | .lparen =>
      (expression .none rest).andThen fun inner rest _ =>
      (expect .rparen rest).andThen fun _ rest _ =>
      .value inner rest (by simp only [List.length_cons]; omega)
    | .kwFunc =>
      (function rest).andThen fun (params, body) rest _ =>
      .value (.func params body) rest (by simp only [List.length_cons]; omega)
    | .lbrace | .kwIf | .kwWhile =>
      (compound (token :: rest)).andThen fun form rest fewer =>
      .value (.compound form) rest fewer
    | _ => .stuck .noOperand (token :: rest)
termination_by tokens => (tokens.length, 2)

def operation (left : Expr) : (tokens : List (Spanned Token)) → Outcome tokens.length Expr
  | [] => .stuck (fun _ => .internal "token has a precedence but no infix rule") []
  | token :: rest =>
    if token.node.kind = .lparen then
      (arguments [] rest).andThen fun args rest _ =>
      (expect .rparen rest).andThen fun _ rest _ =>
      .value (.call left args) rest (by simp only [List.length_cons]; omega)
    else if token.node.kind.isBinary then
      (expression token.node.kind.rightFloor rest).andThen fun right rest _ =>
      .value (.binary left token.node.kind right) rest (by simp only [List.length_cons]; omega)
    else .stuck (fun _ => .internal "token has a precedence but no infix rule") (token :: rest)
termination_by tokens => (tokens.length, 0)

def arguments (before : List Expr) (tokens : List (Spanned Token)) :
    Outcome (tokens.length + 1) (List Expr) :=
  if lead tokens = .rparen then .value before tokens (Nat.lt_succ_self _)
  else
    .turn (before.length + 1) <|
    (expression .none tokens).andThen fun value rest _ =>
    if lead rest = .comma then
      (expect .comma rest).andThen fun _ rest _ =>
      (arguments (before ++ [value]) rest).upTo (by omega)
    else .value (before ++ [value]) rest (by omega)
termination_by (tokens.length, 4)

end

def read : (goal : Goal) → (tokens : List (Spanned Token)) →
    Outcome (tokens.length + 1) goal.Result
  | .program, tokens => statements false [] tokens
  | .expression, tokens => (expression .none tokens).upTo (Nat.le_succ _)

end Descent

end OasisSyntax
