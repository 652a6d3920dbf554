import FleetRing.Decimal.Shortest
import FleetRing.Text.Hexadecimal

/-!
# JSON values and their texts

`Json.compact` writes a value without blanks, `Json.pretty` with one member or
item a line. Members are written in the order in which they are given.
-/

namespace FleetRing

/-- A JSON value to be written. -/
inductive Json where
  | null
  | bool (value : Bool)
  | integer (value : Int)
  | real (value : Float)
  | string (text : String)
  | array (items : List Json)
  | object (members : List (String × Json))
  deriving Inhabited

namespace Json

/-- A character inside a string: quotes, backslashes and control characters are escaped. -/
def escapeChar (c : Char) : List Char :=
  if c = '"' then ['\\', '"']
  else if c = '\\' then ['\\', '\\']
  else if c = '\x08' then ['\\', 'b']
  else if c = '\t' then ['\\', 't']
  else if c = '\n' then ['\\', 'n']
  else if c = '\x0c' then ['\\', 'f']
  else if c = '\r' then ['\\', 'r']
  else if c.toNat < 32 then
    ['\\', 'u', '0', '0', Text.hexDigit (c.toNat / 16), Text.hexDigit (c.toNat % 16)]
  else [c]

/-- A string in quotes. -/
def writeString (text : String) : List Char :=
  '"' :: (text.toList.flatMap escapeChar ++ ['"'])

/-- A whole number. -/
def writeInteger (value : Int) : List Char :=
  if value < 0 then '-' :: Nat.toDigits 10 value.natAbs else Nat.toDigits 10 value.natAbs

/-- A real number; what is no finite number is written as null. -/
def writeReal (value : Float) : List Char :=
  match Decimal.write? value with
  | some text => text
  | none => ['n', 'u', 'l', 'l']

mutual

/-- A value without blanks. -/
def write : Json → List Char
  | null => ['n', 'u', 'l', 'l']
  | bool true => ['t', 'r', 'u', 'e']
  | bool false => ['f', 'a', 'l', 's', 'e']
  | integer value => writeInteger value
  | real value => writeReal value
  | string text => writeString text
  | array [] => ['[', ']']
  | array (item :: items) => '[' :: (write item ++ writeItems items)
  | object [] => ['\x7b', '\x7d']
  | object ((key, value) :: members) =>
    '\x7b' :: (writeString key ++ ':' :: (write value ++ writeMembers members))

/-- The items behind the first one, and the end of the array. -/
def writeItems : List Json → List Char
  | [] => [']']
  | item :: items => ',' :: (write item ++ writeItems items)

/-- The members behind the first one, and the end of the object. -/
def writeMembers : List (String × Json) → List Char
  | [] => ['\x7d']
  | (key, value) :: members =>
    ',' :: (writeString key ++ ':' :: (write value ++ writeMembers members))

end

/-- The text of a value without blanks. -/
def compact (value : Json) : String :=
  String.ofList value.write

/-- A new line with an indent of two blanks a level. -/
def newLine (level : Nat) : List Char :=
  '\n' :: List.replicate (2 * level) ' '

mutual

/-- A value over several lines, for a nesting depth of `level`. -/
def writeLines (level : Nat) : Json → List Char
  | array (item :: items) =>
    '[' :: (newLine (level + 1) ++ writeLines (level + 1) item ++ writeLineItems level items)
  | object ((key, value) :: members) =>
    '\x7b' :: (newLine (level + 1) ++ writeString key ++ ':' :: ' ' ::
      (writeLines (level + 1) value ++ writeLineMembers level members))
  | null => write null
  | bool value => write (bool value)
  | integer value => write (integer value)
  | real value => write (real value)
  | string text => write (string text)
  | array [] => write (array [])
  | object [] => write (object [])

/-- The items behind the first one, a line each, and the end of the array. -/
def writeLineItems (level : Nat) : List Json → List Char
  | [] => newLine level ++ [']']
  | item :: items =>
    ',' :: (newLine (level + 1) ++ writeLines (level + 1) item ++ writeLineItems level items)

/-- The members behind the first one, a line each, and the end of the object. -/
def writeLineMembers (level : Nat) : List (String × Json) → List Char
  | [] => newLine level ++ ['\x7d']
  | (key, value) :: members =>
    ',' :: (newLine (level + 1) ++ writeString key ++ ':' :: ' ' ::
      (writeLines (level + 1) value ++ writeLineMembers level members))

end

/-- The text of a value with one member or item a line and an indent of two blanks. -/
def pretty (value : Json) : String :=
  String.ofList (value.writeLines 0)

/-- A count, as a JSON number. -/
def count (n : Nat) : Json :=
  integer n

end Json

end FleetRing
