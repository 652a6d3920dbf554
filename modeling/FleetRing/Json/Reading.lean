import FleetRing.Text.Hexadecimal
import FleetRing.Text.Numeral

/-!
# Reading JSON texts

`Reading.ofText` reads a text as far as it is JSON and keeps, in place of what
cannot be read, why not. Decoders walk the tree in the order of the text, so the
first problem they meet is the first one in the text: an unfit value in front of
a broken one counts as unfit, a broken value that nobody asks for is judged by
the looser rules for values that are skipped.

Those rules differ for numbers, which may be out of range when skipped and are
malformed when they end early, and for strings, whose escaped surrogates need
not form pairs when skipped.
-/

namespace FleetRing

/-- What is wrong with a text that should be decoded. -/
inductive JsonFault where
  /-- The text ended early. -/
  | cutShort
  /-- The text is no JSON at the point reached. -/
  | malformed
  /-- The text is JSON so far, but not of what was wanted. -/
  | unfit
  deriving DecidableEq, Repr

mutual

/-- A value as far as it could be read. -/
inductive Reading where
  | null
  | bool (value : Bool)
  /-- A number without fraction or exponent that fits 64 bits, with or without sign. -/
  | integer (value : Int)
  /-- Any other number that is in range. -/
  | real
  | string (text : String)
  | array (items : ReadingItems)
  | object (members : ReadingMembers)
  /-- Complete, but malformed for whoever wants it: a number out of range or a
  string with an unpaired surrogate. -/
  | suspect
  /-- The text ended in front of the value. -/
  | absent
  /-- A string that breaks off, for those who want it and those who skip it. -/
  | brokenText (wanted skipped : JsonFault)
  /-- Anything else that breaks off. -/
  | brokenScalar (wanted skipped : JsonFault)

/-- The rest of an array, behind its bracket or behind a comma. -/
inductive ReadingItems where
  | nil
  | cons (item : Reading) (rest : ReadingItems)
  /-- Neither a comma nor the closing bracket follows. -/
  | unclosed (fault : JsonFault)

/-- The rest of an object, behind its brace or behind a comma. -/
inductive ReadingMembers where
  | nil
  | cons (key value : Reading) (rest : ReadingMembers)
  /-- Something that is no string stands in place of a key. -/
  | stray (key : Reading)
  /-- The text ends where a key should follow. -/
  | noKey
  /-- Neither a comma nor the closing brace follows. -/
  | unclosed (fault : JsonFault)

end

instance : Inhabited Reading := ⟨.absent⟩

namespace Reading

/-- The characters that may stand between the parts of a text. -/
def isBlank (c : Char) : Bool :=
  c = ' ' || c = '\n' || c = '\t' || c = '\r'

/-- A text from its first character on that is no blank. -/
def skipBlanks (text : List Char) : List Char :=
  text.dropWhile isBlank

/-- Is the character a decimal digit? -/
def isDigit (c : Char) : Bool :=
  (Text.digit? c).isSome

/-- A number in the form in which its range is judged: the leading digits as far as
they fit 64 bits, and the power of ten that stands for the others. -/
structure Scaled where
  digits : Nat
  power : Int

/-- Take in the digits in front of the point; those that no longer fit only count. -/
def Scaled.takeWhole : Scaled → List Char → Scaled
  | scaled, [] => scaled
  | scaled, c :: rest =>
    let next := scaled.digits * 10 + (Text.digit? c).getD 0
    if scaled.power = 0 ∧ next < UInt64.size then takeWhole ⟨next, 0⟩ rest
    else takeWhole ⟨scaled.digits, scaled.power + 1⟩ rest

/-- Take in the digits behind the point, as far as they fit. -/
def Scaled.takeFraction : Scaled → List Char → Scaled
  | scaled, [] => scaled
  | scaled, c :: rest =>
    let next := scaled.digits * 10 + (Text.digit? c).getD 0
    if next < UInt64.size then takeFraction ⟨next, scaled.power - 1⟩ rest
    else scaled

/-- Is the number too large for a floating point number? -/
def Scaled.outOfRange (scaled : Scaled) : Bool :=
  if scaled.digits = 0 ∨ scaled.power < 0 then false
  else if 308 < scaled.power then true
  else (scaled.digits.toUInt64.toFloat * Float.ofScientific 1 false scaled.power.toNat).isInf

/-- The reading of a number with fraction, exponent or too many digits. -/
def Scaled.reading (scaled : Scaled) : Reading :=
  if scaled.outOfRange then suspect else real

/-- The reading of a number without fraction and exponent. -/
def ofWhole (negative : Bool) (digits : List Char) : Reading :=
  match Text.natural? digits with
  | none => brokenScalar .malformed .malformed
  | some value =>
    if negative then
      if value ≠ 0 ∧ value ≤ 0x8000000000000000 then integer (-value)
      else (Scaled.takeWhole ⟨0, 0⟩ digits).reading
    else if value < UInt64.size then integer value
    else (Scaled.takeWhole ⟨0, 0⟩ digits).reading

/-- A number that breaks off: early ends count as malformed when skipped. -/
def brokenNumber : List Char → Reading
  | [] => brokenScalar .cutShort .malformed
  | _ :: _ => brokenScalar .malformed .malformed

/-- The exponent, behind its letter. -/
def readExponent (scaled : Scaled) (text : List Char) : Reading × List Char :=
  let (negative, text) := match text with
    | '+' :: rest => (false, rest)
    | '-' :: rest => (true, rest)
    | _ => (false, text)
  let digits := text.takeWhile isDigit
  match Text.natural? digits with
  | none => (brokenNumber text, [])
  | some exponent =>
    let power := if negative then scaled.power - exponent else scaled.power + exponent
    (Scaled.reading ⟨scaled.digits, power⟩, text.dropWhile isDigit)

/-- What may follow the digits in front of the point. -/
def readFraction (negative : Bool) (whole text : List Char) : Reading × List Char :=
  match text with
  | '.' :: rest =>
    let fraction := rest.takeWhile isDigit
    if fraction.isEmpty then (brokenNumber rest, [])
    else
      let scaled := (Scaled.takeWhole ⟨0, 0⟩ whole).takeFraction fraction
      match rest.dropWhile isDigit with
      | 'e' :: rest => readExponent scaled rest
      | 'E' :: rest => readExponent scaled rest
      | rest => (scaled.reading, rest)
  | 'e' :: rest => readExponent (Scaled.takeWhole ⟨0, 0⟩ whole) rest
  | 'E' :: rest => readExponent (Scaled.takeWhole ⟨0, 0⟩ whole) rest
  | text => (ofWhole negative whole, text)

/-- A number behind its sign; a leading zero stands alone. -/
def readNumber (negative : Bool) (text : List Char) : Reading × List Char :=
  let whole := text.takeWhile isDigit
  match whole with
  | [] => (brokenNumber text, [])
  | '0' :: _ :: _ => (brokenScalar .malformed .malformed, [])
  | whole => readFraction negative whole (text.dropWhile isDigit)

/-- The rest of a word such as `true`, behind its first letter. -/
def readWord (word : List Char) (value : Reading) : List Char → Reading × List Char
  | text => go word text
where
  /-- Compare letter by letter. -/
  go : List Char → List Char → Reading × List Char
    | [], text => (value, text)
    | _ :: _, [] => (brokenScalar .cutShort .cutShort, [])
    | letter :: word, c :: text =>
      if letter = c then go word text else (brokenScalar .malformed .malformed, [])

/-- The value of four hexadecimal digits. -/
def hexFour? (a b c d : Char) : Option Nat :=
  Text.hexNatural? [a, b, c, d]

/-- The character that a one-letter escape stands for. -/
def plainEscape? (c : Char) : Option Char :=
  if c = '"' then some '"'
  else if c = '\\' then some '\\'
  else if c = '/' then some '/'
  else if c = 'b' then some '\x08'
  else if c = 'f' then some '\x0c'
  else if c = 'n' then some '\n'
  else if c = 'r' then some '\r'
  else if c = 't' then some '\t'
  else none

/-- What is known of a string that is being read. -/
structure Quoting where
  /-- Did a surrogate without its partner occur? -/
  unpaired : Bool
  /-- A leading surrogate whose partner has to follow at once. -/
  lead : Option Nat
  /-- The characters so far, the last one first. -/
  reversed : List Char

namespace Quoting

/-- At the opening quote. -/
def start : Quoting :=
  ⟨false, none, []⟩

/-- Anything but a trailing surrogate follows: a leading one stays alone. -/
def unlead (q : Quoting) : Quoting :=
  match q.lead with
  | none => q
  | some _ => { q with unpaired := true, lead := none }

/-- Take in a character. -/
def push (q : Quoting) (c : Char) : Quoting :=
  let q := q.unlead
  { q with reversed := c :: q.reversed }

/-- Take in an escaped 16-bit unit. -/
def pushUnit (q : Quoting) (unit : Nat) : Quoting :=
  match q.lead with
  | some lead =>
    if 0xDC00 ≤ unit ∧ unit < 0xE000 then
      let code := 0x10000 + (lead - 0xD800) * 0x400 + (unit - 0xDC00)
      { q with lead := none, reversed := Char.ofNat code :: q.reversed }
    else { q with unpaired := true, lead := none }
  | none =>
    if 0xD800 ≤ unit ∧ unit < 0xDC00 then { q with lead := some unit }
    else if 0xDC00 ≤ unit ∧ unit < 0xE000 then { q with unpaired := true }
    else { q with reversed := Char.ofNat unit :: q.reversed }

/-- The string ends with its quote. -/
def close (q : Quoting) : Reading :=
  let q := q.unlead
  if q.unpaired then suspect else string (String.ofList q.reversed.reverse)

/-- The string breaks off; an unpaired surrogate in front is met first. -/
def broken (q : Quoting) (fault : JsonFault) : Reading :=
  brokenText (if q.unpaired then .malformed else fault) fault

end Quoting

/-- A string behind its opening quote. -/
def readString (q : Quoting) : List Char → Reading × List Char
  | [] => (q.broken .cutShort, [])
  | '"' :: rest => (q.close, rest)
  | '\\' :: 'u' :: a :: b :: c :: d :: rest =>
    match hexFour? a b c d with
    | some unit => readString (q.pushUnit unit) rest
    | none => (q.broken .malformed, [])
  | '\\' :: 'u' :: rest =>
    -- Fewer than four characters are left: an escape of four bytes may still be cut off.
    if (String.ofList rest).utf8ByteSize < 4 then (q.broken .cutShort, [])
    else (q.broken .malformed, [])
  | ['\\'] => (q.broken .cutShort, [])
  | '\\' :: letter :: rest =>
    match plainEscape? letter with
    | some c => readString (q.push c) rest
    | none => (q.unlead.broken .malformed, [])
  | c :: rest =>
    if c.toNat < 32 then (q.unlead.broken .malformed, [])
    else readString (q.push c) rest

mutual

/-- A value and the text behind it. Every call takes one unit of `fuel`. -/
def readValue : Nat → List Char → Reading × List Char
  | 0, _ => (absent, [])
  | fuel + 1, text =>
    match skipBlanks text with
    | [] => (absent, [])
    | 'n' :: rest => readWord ['u', 'l', 'l'] null rest
    | 't' :: rest => readWord ['r', 'u', 'e'] (bool true) rest
    | 'f' :: rest => readWord ['a', 'l', 's', 'e'] (bool false) rest
    | '"' :: rest => readString .start rest
    | '[' :: rest =>
      let (items, rest) := readItems fuel true rest
      (array items, rest)
    | '\x7b' :: rest =>
      let (members, rest) := readMembers fuel true rest
      (object members, rest)
    | '-' :: rest => readNumber true rest
    | c :: rest =>
      if isDigit c then readNumber false (c :: rest)
      else (brokenScalar .malformed .malformed, [])

/-- Items behind the opening bracket (`first`) or behind a comma. -/
def readItems : Nat → Bool → List Char → ReadingItems × List Char
  | 0, _, _ => (.unclosed .cutShort, [])
  | fuel + 1, first, text =>
    match skipBlanks text with
    | [] => (if first then .unclosed .cutShort else .cons absent .nil, [])
    | c :: rest =>
      if c = ']' ∧ first then (.nil, rest)
      else
        let (item, rest) := readValue fuel (c :: rest)
        let (items, rest) := readItemsEnd fuel rest
        (.cons item items, rest)

/-- A comma and further items, or the closing bracket. -/
def readItemsEnd : Nat → List Char → ReadingItems × List Char
  | 0, _ => (.unclosed .cutShort, [])
  | fuel + 1, text =>
    match skipBlanks text with
    | [] => (.unclosed .cutShort, [])
    | ']' :: rest => (.nil, rest)
    | ',' :: rest => readItems fuel false rest
    | _ :: _ => (.unclosed .malformed, [])

/-- Members behind the opening brace (`first`) or behind a comma. -/
def readMembers : Nat → Bool → List Char → ReadingMembers × List Char
  | 0, _, _ => (.unclosed .cutShort, [])
  | fuel + 1, first, text =>
    match skipBlanks text with
    | [] => (if first then .unclosed .cutShort else .noKey, [])
    | '"' :: rest =>
      let (key, rest) := readString .start rest
      let (value, rest) := readMemberValue fuel rest
      let (members, rest) := readMembersEnd fuel rest
      (.cons key value members, rest)
    | c :: rest =>
      if c = '\x7d' ∧ first then (.nil, rest)
      else (.stray (readValue fuel (c :: rest)).1, [])

/-- The colon behind a key, and the value. -/
def readMemberValue : Nat → List Char → Reading × List Char
  | 0, _ => (absent, [])
  | fuel + 1, text =>
    match skipBlanks text with
    | [] => (absent, [])
    | ':' :: rest => readValue fuel rest
    | _ :: _ => (brokenScalar .malformed .malformed, [])

/-- A comma and further members, or the closing brace. -/
def readMembersEnd : Nat → List Char → ReadingMembers × List Char
  | 0, _ => (.unclosed .cutShort, [])
  | fuel + 1, text =>
    match skipBlanks text with
    | [] => (.unclosed .cutShort, [])
    | '\x7d' :: rest => (.nil, rest)
    | ',' :: rest => readMembers fuel false rest
    | _ :: _ => (.unclosed .malformed, [])

end

/-- The value at the start of a text, and what follows it. No call uses up fewer
characters than every third unit of fuel. -/
def ofChars (text : List Char) : Reading × List Char :=
  readValue (3 * text.length + 3) text

end Reading

end FleetRing
