import OasisSyntax.Parsing.Context
import OasisSyntax.Parsing.Error

/-!
# States of the parser

The parser takes one token at a time.  Its state says what has to come next and in
which context.  Before a token is taken, `settle` finishes everything that this
kind of token ends and opens everything that it begins; that takes no token.  A
settled state then takes the token with `shift?`, or gives its `verdict`: the
result if the goal has been reached, and otherwise the error.
-/

namespace OasisSyntax

inductive State (goal : Goal) where
  /-- A statement may begin or the sequence may end. -/
  | statement (outer : SeqContext goal)
  /-- An expression has to begin. -/
  | operand (outer : ExprContext goal)
  /-- The expression may go on with an operator or a call. -/
  | value (expr : Expr) (outer : ExprContext goal)
  | groupEnd (inner : Expr) (outer : ExprContext goal)
  | argumentStart (callee : Expr) (before : List Expr) (outer : ExprContext goal)
  | argumentEnd (callee : Expr) (args : List Expr) (outer : ExprContext goal)
  /-- The statement has been read up to its terminator. -/
  | statementEnd (stmt : Stmt) (required : Bool) (outer : SeqContext goal)
  | boundName (outer : SeqContext goal)
  | boundSign (name : String) (outer : SeqContext goal)
  | jumpStart (word : Jump) (outer : SeqContext goal)
  /-- A name begins a declaration, parameters begin a function literal. -/
  | funcStart (outer : SeqContext goal)
  | paramsStart (func : FuncContext goal)
  | paramStart (before : List String) (func : FuncContext goal)
  | paramEnd (params : List String) (func : FuncContext goal)
  | blockStart (owner : BlockContext goal)
  /-- The guarded block has been read, an alternative may follow. -/
  | thenEnd (condition : Expr) (body : List Stmt) (chain : ChainContext goal)
  | elseStart (condition : Expr) (body : List Stmt) (chain : ChainContext goal)

variable {goal : Goal}

def Place.finish (form : Compound) : Place goal → State goal
  | .statement outer => .statementEnd (.compound form) false outer
  | .operand outer => .value (.compound form) outer

def ChainContext.finish (branches : Conditional) : ChainContext goal → State goal
  | .first place => place.finish (.conditional branches)
  | .next condition body before => before.finish (.elseIf condition body branches)
termination_by structural chain => chain

def FuncContext.finish (params : List String) (body : List Stmt) :
    FuncContext goal → State goal
  | .declaration name outer => .statementEnd (.funcDecl name params body) false outer
  | .literal outer => .value (.func params body) outer

def BlockContext.finish (body : List Stmt) : BlockContext goal → State goal
  | .plain place => place.finish (.block body)
  | .thenBranch condition chain => .thenEnd condition body chain
  | .elseBranch condition first chain => chain.finish (.orElse condition first body)
  | .loopBody condition place => place.finish (.loop condition body)
  | .funcBody params func => func.finish params body

/-- Puts the expression into its context, unless the next token is an operator that
binds it more strongly than the context does and so goes on with it. -/
def ExprContext.finish (next : Kind) (expr : Expr) {goal : Goal}
    (outer : ExprContext goal) : State goal :=
  if next.goesOn outer.floor then .value expr outer
  else
    match outer with
    | .whole => .value expr .whole
    | .unaryOperand op outer => outer.finish next (.unary op expr)
    | .rightOperand left op outer => outer.finish next (.binary left op expr)
    | .group outer => .groupEnd expr outer
    | .argument callee before outer => .argumentEnd callee (before ++ [expr]) outer
    | .ifCondition chain => .blockStart (.thenBranch expr chain)
    | .loopCondition place => .blockStart (.loopBody expr place)
    | .boundValue name outer => .statementEnd (.binding name expr) true outer
    | .jumpValue word outer => .statementEnd (.jump word (some expr)) true outer
    | .statement outer => .statementEnd (.expr expr) true outer
termination_by structural outer

namespace State

/-- A chain of conditions goes on only with an alternative, and a jump without a
value ends at once. -/
def finishForm (next : Kind) : State goal → State goal
  | .thenEnd condition body chain =>
    if next = .kwElse then .thenEnd condition body chain
    else chain.finish (.only condition body)
  | .jumpStart word outer =>
    if next = .semi then .statementEnd (.jump word none) true outer
    else .operand (.jumpValue word outer)
  | state => state

def finishExpr (next : Kind) : State goal → State goal
  | .value expr outer => outer.finish next expr
  | state => state

def finishStmt (next : Kind) : State goal → State goal
  | .statementEnd stmt false outer =>
    if next = .semi then .statementEnd stmt false outer
    else .statement (outer.push stmt)
  | state => state

/-- Whether the kind is decided about at the level of statements; all other kinds
would have to begin an expression. -/
def isStatementKind (outer : SeqContext goal) : Kind → Bool
  | .kwLet | .kwReturn | .kwBreak | .kwContinue | .kwFunc | .lbrace | .kwIf | .kwWhile
  | .eof => true
  | .rbrace => outer.isBlock
  | _ => false

def openForm (next : Kind) : State goal → State goal
  | .statement outer =>
    if isStatementKind outer next then .statement outer else .operand (.statement outer)
  | .argumentStart callee before outer =>
    if next = .rparen then .argumentEnd callee before outer
    else .operand (.argument callee before outer)
  | .funcStart outer =>
    if next = .lparen then .paramsStart (.literal (.statement outer))
    else .funcStart outer
  | .paramStart before func =>
    if next = .rparen then .paramEnd before func else .paramStart before func
  | .elseStart condition body chain =>
    if next = .kwIf then .elseStart condition body chain
    else .blockStart (.elseBranch condition body chain)
  | state => state

def settle (next : Kind) (state : State goal) : State goal :=
  openForm next (finishStmt next (finishExpr next (finishForm next state)))

def openCompound? (place : Place goal) : Kind → Option (State goal)
  | .lbrace => some (.statement (.block [] (.plain place)))
  | .kwIf => some (.operand (.ifCondition (.first place)))
  | .kwWhile => some (.operand (.loopCondition place))
  | _ => none

def shiftStatement? (outer : SeqContext goal) : Kind → Option (State goal)
  | .kwLet => some (.boundName outer)
  | .kwReturn => some (.jumpStart .ret outer)
  | .kwBreak => some (.jumpStart .brk outer)
  | .kwContinue => some (.statementEnd .continueLoop true outer)
  | .kwFunc => some (.funcStart outer)
  | .rbrace =>
    match outer with
    | .program _ => none
    | .block done owner => some (owner.finish done)
  | kind => openCompound? (.statement outer) kind

def shiftOperand? (outer : ExprContext goal) (token : Token) : Option (State goal) :=
  match token.kind with
  | .ident => some (.value (.ident token.literal) outer)
  | .int => some (.value (.int token.literal) outer)
  | .minus | .bang | .tilde => some (.operand (.unaryOperand token.kind outer))
  | .lparen => some (.operand (.group outer))
  | .kwFunc => some (.paramsStart (.literal outer))
  | kind => openCompound? (.operand outer) kind

def shiftValue? (expr : Expr) (outer : ExprContext goal) (kind : Kind) :
    Option (State goal) :=
  if kind = .lparen then some (.argumentStart expr [] outer)
  else if kind.isBinary then some (.operand (.rightOperand expr kind outer))
  else none

def onKind (kind : Kind) (token : Token) (after : State goal) : Option (State goal) :=
  if token.kind = kind then some after else none

/-- Takes a token in a state that has been settled for its kind. -/
def shift? (token : Token) : State goal → Option (State goal)
  | .statement outer => shiftStatement? outer token.kind
  | .operand outer => shiftOperand? outer token
  | .value expr outer => shiftValue? expr outer token.kind
  | .groupEnd inner outer => onKind .rparen token (.value inner outer)
  | .argumentStart .. => none
  | .argumentEnd callee args outer =>
    if token.kind = .comma then some (.argumentStart callee args outer)
    else onKind .rparen token (.value (.call callee args) outer)
  | .statementEnd stmt _ outer => onKind .semi token (.statement (outer.push stmt))
  | .boundName outer => onKind .ident token (.boundSign token.literal outer)
  | .boundSign name outer => onKind .assign token (.operand (.boundValue name outer))
  | .jumpStart .. => none
  | .funcStart outer =>
    onKind .ident token (.paramsStart (.declaration token.literal outer))
  | .paramsStart func => onKind .lparen token (.paramStart [] func)
  | .paramStart before func =>
    onKind .ident token (.paramEnd (before ++ [token.literal]) func)
  | .paramEnd params func =>
    if token.kind = .comma then some (.paramStart params func)
    else onKind .rparen token (.blockStart (.funcBody params func))
  | .blockStart owner => onKind .lbrace token (.statement (.block [] owner))
  | .thenEnd condition body chain =>
    onKind .kwElse token (.elseStart condition body chain)
  | .elseStart condition body chain =>
    onKind .kwIf token (.operand (.ifCondition (.next condition body chain)))

def step? (state : State goal) (token : Token) : Option (State goal) :=
  (state.settle token.kind).shift? token

def result? : {goal : Goal} → State goal → Option goal.Result
  | _, .statement (.program done) => some done
  | _, .value expr .whole => some expr
  | _, _ => none

/-- What is wrong with a token that does not fit in a settled state.  An expression
takes every operator that is not left to its context, so the cause given for it
never comes up. -/
def complaint (actual : Token) : State goal → SyntaxError
  | .operand _ | .argumentStart .. | .jumpStart .. => .noOperand actual
  | .groupEnd .. | .argumentEnd .. | .paramEnd .. => .missing .rparen actual
  | .statementEnd .. => .missing .semi actual
  | .boundName _ | .funcStart _ | .paramStart .. => .missing .ident actual
  | .boundSign .. => .missing .assign actual
  | .paramsStart _ => .missing .lparen actual
  | .blockStart _ | .elseStart .. => .missing .lbrace actual
  | .statement _ => .missing .rbrace actual
  | .thenEnd .. => .missing .kwElse actual
  | .value .. => .internal "token has a precedence but no infix rule"

def verdict (actual : Token) (state : State goal) : Except SyntaxError goal.Result :=
  match state.result? with
  | some result => .ok result
  | none => .error (state.complaint actual)

def start : (goal : Goal) → State goal
  | .program => .statement (.program [])
  | .expression => .operand .whole

end State

end OasisSyntax
