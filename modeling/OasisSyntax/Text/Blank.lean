import OasisSyntax.Text.CodeRange

/-!
# Blanks

The characters of the Unicode property `White_Space`.  Only the line feed among
them breaks a line.
-/

namespace OasisSyntax.Text

def blankRanges : CodeRanges :=
  [ (0x09, 0x0d), (0x20, 0x20), (0x85, 0x85), (0xa0, 0xa0), (0x1680, 0x1680),
    (0x2000, 0x200a), (0x2028, 0x2029), (0x202f, 0x202f), (0x205f, 0x205f),
    (0x3000, 0x3000) ]

def isBlank (char : Char) : Bool := blankRanges.contains char

end OasisSyntax.Text
