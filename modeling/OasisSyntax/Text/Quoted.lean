import OasisSyntax.Text.Combining
import OasisSyntax.Text.Unprintable

/-!
# Quoted text

A text between double quotes, in which every character can be recognised: quotes,
backslashes and the usual controls are written with a backslash, and characters
that would be invisible or would join the one before them by their hexadecimal
code point.
-/

namespace OasisSyntax.Text

def escapeChar (char : Char) : List Char :=
  if char = '"' then ['\\', '"']
  else if char = '\\' then ['\\', '\\']
  else if char = '\n' then ['\\', 'n']
  else if char = '\r' then ['\\', 'r']
  else if char = '\t' then ['\\', 't']
  else if char = '\x00' then ['\\', '0']
  else if isUnprintable char || isCombining char then
    ['\\', 'u', '{'] ++ Nat.toDigits 16 char.toNat ++ ['}']
  else [char]

def quote (text : String) : String :=
  String.ofList ('"' :: text.toList.flatMap escapeChar ++ ['"'])

end OasisSyntax.Text
