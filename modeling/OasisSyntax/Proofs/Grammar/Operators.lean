import OasisSyntax.Token.Kind

/-!
# Operators and their precedences

The facts about kinds of tokens on which the theory of expressions rests.  A binary
operator stands strictly between what never joins two operands and the operators in
front of an operand; the call is stronger than both.  What an operator leaves to the
right of it starts above its own precedence, except for an assignment.
-/

namespace OasisSyntax

namespace Precedence

theorem lt_iff {weaker stronger : Precedence} :
    weaker < stronger ↔ weaker.level < stronger.level := Iff.rfl

@[simp] theorem level_none : level .none = 0 := rfl

@[simp] theorem level_unary : level .unary = 12 := rfl

@[simp] theorem level_call : level .call = 13 := rfl

theorem none_le (other : Precedence) : ¬ other < .none := by
  simp [lt_iff]

theorem le_call (other : Precedence) : ¬ Precedence.call < other := by
  cases other <;> decide

end Precedence

namespace Kind

def isUnary : Kind → Bool
  | minus | bang | tilde => true
  | _ => false

def opensCompound : Kind → Bool
  | lbrace | kwIf | kwWhile => true
  | _ => false

def statementStarts : List Kind :=
  [kwLet, kwReturn, kwBreak, kwContinue] ++ operandStarts

/-- Kinds that leave an expression as it has been read. -/
def isWeak (kind : Kind) : Bool := kind.precedence = .none

theorem level_of_isBinary {op : Kind} (binary : op.isBinary) :
    0 < op.precedence.level ∧ op.precedence.level < Precedence.unary.level := by
  revert binary
  cases op <;> decide

private theorem rightFloor_of_groupsRight {op : Kind} (right : op.groupsRight) :
    op.rightFloor = .none := by
  simp [rightFloor, right]

private theorem rightFloor_of_not_groupsRight {op : Kind} (left : ¬ op.groupsRight) :
    op.rightFloor = op.precedence := by
  simp [rightFloor, left]

theorem rightFloor_le (op : Kind) : op.rightFloor.level ≤ op.precedence.level := by
  cases op <;> decide

theorem rightFloor_lt_call {op : Kind} (binary : op.isBinary) : op.rightFloor < .call := by
  have range := level_of_isBinary binary
  have floor := rightFloor_le op
  simp only [Precedence.lt_iff, Precedence.level_unary, Precedence.level_call] at *
  omega

theorem level_of_groupsRight {op : Kind} (right : op.groupsRight) :
    op.precedence.level = 1 := by
  revert right
  cases op <;> decide

/-- The next operator of the same level is left to the outer expression exactly by
the operators that group to the left. -/
theorem rightFloor_lt_iff {op next : Kind} (binary : next.isBinary) :
    op.rightFloor < next.precedence ↔
      op.groupsRight = true ∨ op.precedence < next.precedence := by
  have positive := (level_of_isBinary binary).1
  by_cases right : op.groupsRight
  · simp [rightFloor_of_groupsRight right, right, Precedence.lt_iff, positive]
  · simp [rightFloor_of_not_groupsRight right, right]

example : all.filter isBinary =
    [ shlAssign, shrAssign, shl, shr, ampersandAmpersand, pipePipe, equalsEquals, bangEquals,
      smallerEquals, greaterEquals, plusAssign, minusAssign, starAssign, slashAssign,
      percentAssign, ampersandAssign, pipeAssign, caretAssign, assign, plus, minus, star,
      slash, percent, ampersand, pipe, caret, smaller, greater ] := by decide

end Kind

end OasisSyntax
