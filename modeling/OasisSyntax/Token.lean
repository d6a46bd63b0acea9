import OasisSyntax.Token.Kind

/-!
# Tokens and spans

A token is a kind with the text it was read from.  A span is a range of byte
offsets; `Spanned` attaches one to a value without becoming part of its hash, so
that equal values found at different places fall into the same bucket.
-/

namespace OasisSyntax

structure Token where
  kind : Kind
  literal : String
deriving DecidableEq, Repr, Hashable, Inhabited

/-- Byte offsets, the second one exclusive. -/
structure Span where
  start : Nat
  stop : Nat
deriving DecidableEq, Repr, Inhabited

structure Spanned (α : Type) where
  span : Span
  node : α
deriving DecidableEq, Repr, Inhabited

instance {α : Type} [Hashable α] : Hashable (Spanned α) :=
  ⟨fun spanned => hash spanned.node⟩

namespace Token

def ofKind (kind : Kind) : Token := ⟨kind, kind.spelling⟩

/-- A statement end that stands in no source text has an empty literal or a line
break for one. -/
def isImplicitSemi (token : Token) : Bool :=
  decide (token.kind = .semi) && decide (token.literal ≠ ";")

def describe (token : Token) : String :=
  match token.kind with
  | .ident | .int | .illegal => s!"{token.kind.describe} '{token.literal}'"
  | .semi =>
    if token.literal = "\n" then "newline"
    else if token.isImplicitSemi then "end of statement"
    else token.kind.describe
  | kind => kind.describe

end Token

end OasisSyntax
