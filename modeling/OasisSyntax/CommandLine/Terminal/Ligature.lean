import OasisSyntax.CommandLine.Terminal.CharColumns
import OasisSyntax.CommandLine.Terminal.Emoji

/-!
# Ligatures

Letters that are drawn as one, in the scripts where this changes the columns of a
text.  As with emoji, a ligature is read from its end: `LigatureTail` is what has
been read of it, and `before?` takes one character more.  The tables follow Unicode
15.1.
-/

namespace OasisSyntax.Text

def alefRanges : CodeRanges :=
  [
    (0x622, 0x623), (0x625, 0x625), (0x627, 0x627), (0x671, 0x673), (0x675, 0x675),
    (0x773, 0x774), (0x870, 0x882)
  ]

def lamRanges : CodeRanges :=
  [
    (0x644, 0x644), (0x6b5, 0x6b8), (0x76a, 0x76a), (0x8a6, 0x8a6), (0x8c7, 0x8c7)
  ]

/-- Columnless characters that keep the Arabic letters around them apart. -/
def separatorRanges : CodeRanges :=
  [
    (0x605, 0x605), (0x890, 0x891), (0x8e2, 0x8e2), (0x9be, 0x9be), (0x9d7, 0x9d7),
    (0xb3e, 0xb3e), (0xb57, 0xb57), (0xbbe, 0xbbe), (0xbd7, 0xbd7), (0xcc0, 0xcc0),
    (0xcc2, 0xcc2), (0xcc7, 0xcc8), (0xcca, 0xccb), (0xcd5, 0xcd6), (0xd3e, 0xd3e),
    (0xd4e, 0xd4e), (0xd57, 0xd57), (0xdcf, 0xdcf), (0xddf, 0xddf), (0x1160, 0x11ff),
    (0x180e, 0x180e), (0x1b35, 0x1b35), (0x1b3b, 0x1b3b), (0x1b3d, 0x1b3d),
    (0x1b43, 0x1b43), (0x200c, 0x200d), (0x2065, 0x2069), (0x302e, 0x302f),
    (0x3164, 0x3164), (0xa8fa, 0xa8fa), (0xd7b0, 0xd7c6), (0xd7cb, 0xd7fb),
    (0xff9e, 0xffa0), (0xfff0, 0xfff8), (0x111c2, 0x111c3), (0x1133e, 0x1133e),
    (0x11357, 0x11357), (0x114b0, 0x114b0), (0x114bd, 0x114bd), (0x115af, 0x115af),
    (0x11930, 0x11930), (0x1193f, 0x1193f), (0x11941, 0x11941), (0x11a3a, 0x11a3a),
    (0x11a84, 0x11a89), (0x11d46, 0x11d46), (0x11f02, 0x11f02), (0x1d165, 0x1d165),
    (0x1d16e, 0x1d172), (0xe0000, 0xe0000), (0xe0002, 0xe001f), (0xe0080, 0xe00ff),
    (0xe01f0, 0xe0fff)
  ]

def invisibleMarkRanges : CodeRanges :=
  [
    (0x34f, 0x34f), (0x17b4, 0x17b5), (0x180b, 0x180d), (0x180f, 0x180f),
    (0xfe00, 0xfe0f), (0xe0100, 0xe01ef)
  ]

def khmerSubscriptRanges : CodeRanges :=
  [
    (0x1780, 0x1782), (0x1784, 0x1787), (0x1789, 0x178c), (0x178e, 0x1793),
    (0x1795, 0x1798), (0x179b, 0x179d), (0x17a0, 0x17a0), (0x17a2, 0x17a2),
    (0x17a7, 0x17a7), (0x17ab, 0x17ac), (0x17af, 0x17af)
  ]

def tifinaghConsonantRanges : CodeRanges := [(0x2d31, 0x2d65), (0x2d6f, 0x2d6f)]

def lisuFirstToneRanges : CodeRanges := [(0xa4f8, 0xa4fb)]

def lisuLastToneRanges : CodeRanges := [(0xa4fc, 0xa4fd)]

def isInsideLamAlef (char : Char) : Bool :=
  columnlessRanges.contains char && !separatorRanges.contains char

inductive LigatureEnd where
  | arabicAlef
  | hebrewLamed
  | bugineseYa
  | bugineseVowelAndYa
  | tifinaghConsonant
  | tifinaghJoinedConsonant
  | khmerLetter
  | lisuTone
  | oldTurkicI
deriving DecidableEq, Repr

/-- The end of a ligature, from some character on, and whether it has a joiner in
front. -/
structure LigatureTail where
  letters : LigatureEnd
  joined : Bool := false
deriving DecidableEq, Repr

namespace LigatureTail

def of? (char : Char) : Option LigatureTail :=
  if alefRanges.contains char then some ⟨.arabicAlef, false⟩
  else if char.toNat = 0x05dc then some ⟨.hebrewLamed, false⟩
  else if char.toNat = 0x1a10 then some ⟨.bugineseYa, false⟩
  else if tifinaghConsonantRanges.contains char then some ⟨.tifinaghConsonant, false⟩
  else if khmerSubscriptRanges.contains char then some ⟨.khmerLetter, false⟩
  else if lisuLastToneRanges.contains char then some ⟨.lisuTone, false⟩
  else if char.toNat = 0x10c03 then some ⟨.oldTurkicI, false⟩
  else none

def beforeLetter? (char : Char) (tail : LigatureTail) :
    Option (Int × Option LigatureTail) :=
  match tail.letters with
  | .arabicAlef =>
    if lamRanges.contains char then some (0, none)
    else if isInsideLamAlef char then some (0, some tail)
    else none
  | .hebrewLamed => if char.toNat = 0x05d0 ∧ tail.joined then some (0, none) else none
  | .bugineseYa =>
    if char.toNat = 0x1a17 ∧ tail.joined then some (0, some ⟨.bugineseVowelAndYa, false⟩)
    else none
  | .bugineseVowelAndYa => if char.toNat = 0x1a15 then some (0, none) else none
  | .tifinaghConsonant =>
    if char.toNat = 0x2d7f then some (1, some ⟨.tifinaghJoinedConsonant, false⟩)
    else if tifinaghConsonantRanges.contains char ∧ tail.joined then some (0, none)
    else none
  | .tifinaghJoinedConsonant =>
    if tifinaghConsonantRanges.contains char then some (-1, none) else none
  | .khmerLetter => if char.toNat = 0x17d2 then some (-1, none) else none
  | .lisuTone => if lisuFirstToneRanges.contains char then some (0, none) else none
  | .oldTurkicI => if char.toNat = 0x10c32 ∧ tail.joined then some (0, none) else none

/-- The columns that a character adds in front of a tail, and what is left of the
ligature to read, if it goes on with that character. -/
def before? (char : Char) (tail : LigatureTail) : Option (Int × Option LigatureTail) :=
  if tail.letters = .arabicAlef then tail.beforeLetter? char
  else if isJoiner char then some (0, some ⟨tail.letters, true⟩)
  else if invisibleMarkRanges.contains char then some (0, some tail)
  else tail.beforeLetter? char

end LigatureTail

end OasisSyntax.Text
