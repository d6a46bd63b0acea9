/-!
# Terminals

Where a text is shown decides how many columns it takes there and how it is made red.
Diagnostics are made for any such place.
-/

namespace OasisSyntax

structure Terminal where
  columns : List Char → Nat
  red : String → String

end OasisSyntax
