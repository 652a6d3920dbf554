import FleetRing.Text.Hexadecimal
import FleetRing.Text.Printable

/-!
# Quoted names

Messages quote the names and texts that they complain about, so that blanks,
quotes and characters without a printed form can be told apart.
-/

namespace FleetRing.Text

/-- One character inside quotes. -/
def quotedChar (c : Char) : List Char :=
  if c = '\x00' then ['\\', '0']
  else if c = '\t' then ['\\', 't']
  else if c = '\r' then ['\\', 'r']
  else if c = '\n' then ['\\', 'n']
  else if c = '\\' then ['\\', '\\']
  else if c = '"' then ['\\', '"']
  else if isAttached c || isHidden c then
    ['\\', 'u', '\x7b'] ++ hexNumeral c.toNat ++ ['\x7d']
  else [c]

/-- A text in double quotes, with everything that would not be visible escaped. -/
def quoted (text : String) : String :=
  String.ofList ('"' :: text.toList.flatMap quotedChar ++ ['"'])

end FleetRing.Text
