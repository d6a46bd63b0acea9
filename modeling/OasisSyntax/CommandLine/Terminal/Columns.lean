import OasisSyntax.CommandLine.Terminal.CharColumns
import OasisSyntax.CommandLine.Terminal.Emoji
import OasisSyntax.CommandLine.Terminal.Ligature

/-!
# Columns taken by a text

The number of terminal columns that a text takes.  Most characters take their own
columns; those of an emoji sequence or a ligature share the columns of the whole, and
so do a carriage return and the line feed behind it.  A text is read from its end, so
that each character is met together with what follows it: `Following` is what is
known of that, and `before` takes one character more.
-/

namespace OasisSyntax.Text

/-- The beginning of a text, as far as a character in front of it can be drawn
together with it. -/
inductive Tail where
  | plain
  | lineFeed
  | emoji (tail : EmojiTail)
  | ligature (tail : LigatureTail)
deriving DecidableEq, Repr

namespace Tail

def of (char : Char) : Tail :=
  if char = '\n' then .lineFeed
  else if char.toNat < 0x80 then .plain
  else
    match EmojiTail.of? char with
    | some tail => .emoji tail
    | none =>
      match LigatureTail.of? char with
      | some tail => .ligature tail
      | none => .plain

/-- The columns that a character adds in front of a tail, and the tail it leaves, if
the two are drawn together. -/
def before? (char : Char) : Tail → Option (Int × Tail)
  | .plain => none
  | .lineFeed => if char = '\r' then some (0, .plain) else none
  | .emoji tail => (tail.before? char).map fun (added, longer) => (added, .emoji longer)
  | .ligature tail =>
    (tail.before? char).map fun (added, longer) =>
      (added, (longer.map ligature).getD plain)

def before (char : Char) (tail : Tail) : Int × Tail :=
  (tail.before? char).getD (charColumns char, of char)

/-- A mark of style interrupts all but a ligature. -/
def ligatureOnly : Tail → Tail
  | .ligature tail => .ligature tail
  | _ => .plain

/-- A mark of the emoji style leaves room for a character that is joined to an emoji. -/
def ligatureOrJoined : Tail → Tail
  | .emoji .joined => .emoji .joined
  | .emoji .joinedKeycap => .emoji .joinedKeycap
  | tail => tail.ligatureOnly

def isEmoji : Tail → Bool
  | .emoji _ => true
  | _ => false

end Tail

inductive Style where
  | unmarked
  | text
  | emoji
deriving DecidableEq, Repr

def Style.ofMark? (char : Char) : Option Style :=
  if char.toNat = 0xfe0e then some .text
  else if char.toNat = 0xfe0f then some .emoji
  else none

/-- What follows a character: the mark of style directly behind it, if any, and the
tail behind that. -/
structure Following where
  style : Style := .unmarked
  tail : Tail := .plain
deriving DecidableEq, Repr

namespace Following

def unstyledBefore (char : Char) (tail : Tail) : Int × Following :=
  match Style.ofMark? char with
  | some .emoji => (0, ⟨.emoji, tail.ligatureOrJoined⟩)
  | some style => (0, ⟨style, tail.ligatureOnly⟩)
  | none =>
    let (added, tail) := tail.before char
    (added, ⟨.unmarked, tail⟩)

/-- The columns that a character adds in front of what follows it, and what follows
the next character then.  A character in its emoji style takes two columns, unless it
is joined to an emoji behind it, whose columns are counted already. -/
def before (char : Char) (following : Following) : Int × Following :=
  match following.style with
  | .unmarked => unstyledBefore char following.tail
  | .text =>
    if hasNarrowTextStyle char then (1, {})
    else unstyledBefore char following.tail
  | .emoji =>
    if hasTwoStyles char then
      (if following.tail.isEmoji then 0 else 2, ⟨.unmarked, .emoji .whole⟩)
    else unstyledBefore char following.tail.ligatureOnly

end Following

def measureText (text : List Char) : Int × Following :=
  text.foldr
    (fun char (columns, following) =>
      let (added, following) := following.before char
      (columns + added, following))
    (0, {})

/-- The sum is never below zero: a character takes a column away only in front of one
that was counted. -/
def columns (text : List Char) : Nat := (measureText text).1.toNat

end OasisSyntax.Text
