import OasisSyntax.Parsing.Session
import OasisSyntax.Syntax.Equality

/-!
# Trace of a parse

While a program is read, every statement that has been read to its end leaves an
event with the offset of its first token.  Inner statements end before the ones
around them, so the offsets of the statements that are still open form a stack.
-/

namespace OasisSyntax

structure StatementEvent where
  start : Nat
  stmt : Stmt
deriving DecidableEq

namespace State

variable {goal : Goal}

/-- The statement that ends with a token of the given kind or in front of it. -/
def ended? (next : Kind) (state : State goal) : Option Stmt :=
  match finishExpr next (finishForm next state) with
  | .statementEnd stmt required _ =>
    if next = .semi ∨ required = false then some stmt else none
  | _ => none

def beginsStmt (next : Kind) (state : State goal) : Bool :=
  match finishStmt next (finishExpr next (finishForm next state)) with
  | .statement _ => next != .rbrace
  | _ => false

def endStmt (opened : List Nat) : Option Stmt → List StatementEvent × List Nat
  | none => ([], opened)
  | some stmt =>
    match opened with
    | [] => ([], [])
    | start :: outer => ([⟨start, stmt⟩], outer)

def trace (final : Spanned Token) (state : State goal) (opened : List Nat) :
    List (Spanned Token) → List StatementEvent
  | [] => (endStmt opened (state.ended? final.node.kind)).1
  | token :: rest =>
    let kind := token.node.kind
    let (events, outer) := endStmt opened (state.ended? kind)
    let opened := if state.beginsStmt kind then token.span.start :: outer else outer
    match state.step? token.node with
    | some after => events ++ after.trace final opened rest
    | none => events

end State

def traceProgram (text : List Char) : List StatementEvent :=
  let stream := TokenStream.ofText text
  (State.start .program).trace stream.final [] stream.upcoming

end OasisSyntax
