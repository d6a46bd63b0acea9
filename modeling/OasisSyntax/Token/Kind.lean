/-!
# Kinds of tokens

A token's kind is all that the grammar looks at.  Each kind has a name, used when
tokens are listed, a spelling, and a description for error messages.  Binary
operators carry a precedence; assignments have the lowest one and group to the
right, all others group to the left.
-/

namespace OasisSyntax

inductive Kind where
  | eof | illegal | ident | int
  | assign | plus | minus | star | slash | percent
  | ampersand | pipe | caret | shl | shr | tilde
  | plusAssign | minusAssign | starAssign | slashAssign | percentAssign
  | ampersandAssign | pipeAssign | caretAssign | shlAssign | shrAssign
  | ampersandAmpersand | pipePipe | bang
  | equalsEquals | bangEquals | smaller | smallerEquals | greater | greaterEquals
  | comma | semi
  | lparen | rparen | lbrace | rbrace
  | kwLet | kwIf | kwElse | kwWhile | kwContinue | kwBreak | kwFunc | kwReturn
deriving DecidableEq, Repr, Hashable, Inhabited

inductive Precedence where
  | none | assign | logicalOr | logicalAnd | bitXor | bitOr | bitAnd
  | equality | relational | shift | additive | multiplicative | unary | call
deriving DecidableEq, Repr

namespace Precedence

def level : Precedence → Nat
  | none => 0
  | assign => 1
  | logicalOr => 2
  | logicalAnd => 3
  | bitXor => 4
  | bitOr => 5
  | bitAnd => 6
  | equality => 7
  | relational => 8
  | shift => 9
  | additive => 10
  | multiplicative => 11
  | unary => 12
  | call => 13

instance : LT Precedence := ⟨fun weaker stronger => weaker.level < stronger.level⟩

instance (weaker stronger : Precedence) : Decidable (weaker < stronger) :=
  inferInstanceAs (Decidable (weaker.level < stronger.level))

instance : Ord Precedence := ⟨fun first second => compare first.level second.level⟩

end Precedence

namespace Kind

/-- The name under which the kind appears in a token listing. -/
def name : Kind → String
  | eof => "Eof"
  | illegal => "Illegal"
  | ident => "Ident"
  | int => "Int"
  | assign => "Assign"
  | plus => "Plus"
  | minus => "Minus"
  | star => "Star"
  | slash => "Slash"
  | percent => "Percent"
  | ampersand => "Ampersand"
  | pipe => "Pipe"
  | caret => "Caret"
  | shl => "Shl"
  | shr => "Shr"
  | tilde => "Tilde"
  | plusAssign => "PlusAssign"
  | minusAssign => "MinusAssign"
  | starAssign => "StarAssign"
  | slashAssign => "SlashAssign"
  | percentAssign => "PercentAssign"
  | ampersandAssign => "AmpersandAssign"
  | pipeAssign => "PipeAssign"
  | caretAssign => "CaretAssign"
  | shlAssign => "ShlAssign"
  | shrAssign => "ShrAssign"
  | ampersandAmpersand => "AmpersandAmpersand"
  | pipePipe => "PipePipe"
  | bang => "Bang"
  | equalsEquals => "EqualsEquals"
  | bangEquals => "BangEquals"
  | smaller => "Smaller"
  | smallerEquals => "SmallerEquals"
  | greater => "Greater"
  | greaterEquals => "GreaterEquals"
  | comma => "Comma"
  | semi => "Semi"
  | lparen => "LParen"
  | rparen => "RParen"
  | lbrace => "LBrace"
  | rbrace => "RBrace"
  | kwLet => "Let"
  | kwIf => "If"
  | kwElse => "Else"
  | kwWhile => "While"
  | kwContinue => "Continue"
  | kwBreak => "Break"
  | kwFunc => "Func"
  | kwReturn => "Return"

/-- The text that writes the kind; the first four kinds have no fixed text and
stand under a placeholder. -/
def spelling : Kind → String
  | eof => "EOF"
  | illegal => "ILLEGAL"
  | ident => "IDENT"
  | int => "INT"
  | assign => "="
  | plus => "+"
  | minus => "-"
  | star => "*"
  | slash => "/"
  | percent => "%"
  | ampersand => "&"
  | pipe => "|"
  | caret => "^"
  | shl => "<<"
  | shr => ">>"
  | tilde => "~"
  | plusAssign => "+="
  | minusAssign => "-="
  | starAssign => "*="
  | slashAssign => "/="
  | percentAssign => "%="
  | ampersandAssign => "&="
  | pipeAssign => "|="
  | caretAssign => "^="
  | shlAssign => "<<="
  | shrAssign => ">>="
  | ampersandAmpersand => "&&"
  | pipePipe => "||"
  | bang => "!"
  | equalsEquals => "=="
  | bangEquals => "!="
  | smaller => "<"
  | smallerEquals => "<="
  | greater => ">"
  | greaterEquals => ">="
  | comma => ","
  | semi => ";"
  | lparen => "("
  | rparen => ")"
  | lbrace => "\x7b"
  | rbrace => "\x7d"
  | kwLet => "let"
  | kwIf => "if"
  | kwElse => "else"
  | kwWhile => "while"
  | kwContinue => "continue"
  | kwBreak => "break"
  | kwFunc => "func"
  | kwReturn => "return"

def keywords : List Kind :=
  [kwLet, kwIf, kwElse, kwWhile, kwContinue, kwBreak, kwFunc, kwReturn]

/-- Operators and punctuation, longer spellings first, so that the first spelling
found at the head of a text is the longest one there. -/
def symbols : List Kind :=
  [ shlAssign, shrAssign,
    shl, shr, ampersandAmpersand, pipePipe, equalsEquals, bangEquals, smallerEquals,
    greaterEquals, plusAssign, minusAssign, starAssign, slashAssign, percentAssign,
    ampersandAssign, pipeAssign, caretAssign,
    assign, plus, minus, star, slash, percent, ampersand, pipe, caret, tilde,
    bang, smaller, greater, comma, semi, lparen, rparen, lbrace, rbrace ]

def all : List Kind := [eof, illegal, ident, int] ++ symbols ++ keywords

def ofName? (name : String) : Option Kind :=
  all.find? fun kind => kind.name == name

theorem mem_all (kind : Kind) : kind ∈ all := by
  cases kind <;> decide

theorem ofName?_name (kind : Kind) : ofName? kind.name = some kind := by
  cases kind <;> decide

/-- Functions have a second, shorter keyword. -/
def ofKeyword? : String → Option Kind
  | "let" => some kwLet
  | "if" => some kwIf
  | "else" => some kwElse
  | "while" => some kwWhile
  | "continue" => some kwContinue
  | "break" => some kwBreak
  | "func" | "fn" => some kwFunc
  | "return" => some kwReturn
  | _ => none

def describe : Kind → String
  | eof => "end of file"
  | illegal => "illegal character"
  | ident => "identifier"
  | int => "integer literal"
  | semi => "';' or newline"
  | kind => s!"'{kind.spelling}'"

def precedence : Kind → Precedence
  | assign | plusAssign | minusAssign | starAssign | slashAssign | percentAssign
  | ampersandAssign | pipeAssign | caretAssign | shlAssign | shrAssign => .assign
  | pipePipe => .logicalOr
  | ampersandAmpersand => .logicalAnd
  | caret => .bitXor
  | pipe => .bitOr
  | ampersand => .bitAnd
  | equalsEquals | bangEquals => .equality
  | smaller | smallerEquals | greater | greaterEquals => .relational
  | shl | shr => .shift
  | plus | minus => .additive
  | star | slash | percent => .multiplicative
  | lparen => .call
  | _ => .none

theorem ofKeyword?_spelling {kind : Kind} (keyword : kind ∈ keywords) :
    ofKeyword? kind.spelling = some kind := by
  revert kind
  decide

theorem mem_keywords_of_ofKeyword? {word : String} {kind : Kind}
    (found : ofKeyword? word = some kind) :
    kind ∈ keywords ∧ (word = kind.spelling ∨ word = "fn") := by
  unfold ofKeyword? at found
  split at found <;> first
    | contradiction
    | (cases found; exact ⟨by decide, by decide⟩)

def groupsRight (kind : Kind) : Bool := kind.precedence = .assign

/-- Whether a line may end after the token, so that a line break there ends the
statement. -/
def endsValue : Kind → Bool
  | ident | int | rparen | rbrace | kwReturn | kwBreak | kwContinue => true
  | _ => false

def isBinary : Kind → Bool
  | assign | plusAssign | minusAssign | starAssign | slashAssign | percentAssign
  | ampersandAssign | pipeAssign | caretAssign | shlAssign | shrAssign | pipePipe
  | ampersandAmpersand | caret | pipe | ampersand | equalsEquals | bangEquals
  | smaller | smallerEquals | greater | greaterEquals | shl | shr | plus | minus
  | star | slash | percent => true
  | _ => false

/-- An opening parenthesis has a precedence too, but it starts a call. -/
theorem isBinary_iff {kind : Kind} :
    kind.isBinary ↔ kind.precedence ≠ .none ∧ kind ≠ .lparen := by
  cases kind <;> decide

def isExprEnd : Kind → Bool
  | semi | eof | rparen | rbrace | comma => true
  | _ => false

theorem precedence_of_isExprEnd {kind : Kind} (ends : kind.isExprEnd) :
    kind.precedence = .none := by
  revert ends
  cases kind <;> decide

/-- Whether an expression that takes operators above the floor goes on. -/
def goesOn (floor : Precedence) (kind : Kind) : Bool :=
  !kind.isExprEnd && decide (floor < kind.precedence)

theorem goesOn_iff {floor : Precedence} {kind : Kind} :
    kind.goesOn floor ↔ floor < kind.precedence := by
  simp only [goesOn, Bool.and_eq_true, Bool.not_eq_true', decide_eq_true_eq]
  refine and_iff_right_of_imp fun stronger => Bool.eq_false_iff.2 fun ends => ?_
  rw [precedence_of_isExprEnd ends] at stronger
  exact Nat.not_lt_zero _ stronger

/-- The weakest operator that still belongs to the right operand is just above
this: an assignment takes all that follows, any other operator stops before the
next one of its own level. -/
def rightFloor (kind : Kind) : Precedence :=
  if kind.groupsRight then .none else kind.precedence

/-- Kinds that can begin an expression, in the order error messages list them. -/
def operandStarts : List Kind :=
  [ident, int, minus, bang, tilde, lparen, lbrace, kwIf, kwWhile, kwFunc]

end Kind

end OasisSyntax
