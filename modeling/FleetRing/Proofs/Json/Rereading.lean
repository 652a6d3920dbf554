import FleetRing.Json.Reading
import FleetRing.Json.Value
import FleetRing.Proofs.Text.Numeral
import Mathlib.Tactic.SplitIfs

/-!
# Reading what was written

Every plain value is read back from its compact text as what it is, whatever follows the text
(`readValue_write`). Plain values have integers of at most 64 bits and no floating point numbers:
those are read as some number, but which one is not kept.

Fuel is no concern here. A call that reads a part of a text has three units for each character of
the part, and uses up less.
-/

namespace FleetRing

namespace Text

/-- Only the number zero has a leading zero. -/
theorem toDigits_ne_zero_cons (n : Nat) (c : Char) (rest : List Char) :
    Nat.toDigits 10 n ≠ '0' :: c :: rest := by
  have head : ∀ n, 0 < n → ∃ first rest, Nat.toDigits 10 n = first :: rest ∧ first ≠ '0' := by
    intro n
    induction n using Nat.strongRecOn with
    | ind n ih =>
      intro positive
      rw [Nat.toDigits_eq_if (by decide)]
      split
      · next small =>
        have all : ∀ digit < 10, 0 < digit → Nat.digitChar digit ≠ '0' := by decide
        exact ⟨_, [], rfl, all n small positive⟩
      · next large =>
        obtain ⟨first, rest, same, proper⟩ := ih (n / 10) (by omega) (by omega)
        exact ⟨first, _, by rw [same, List.cons_append], proper⟩
  intro leading
  rcases Nat.eq_zero_or_pos n with rfl | positive
  · simp at leading
  · obtain ⟨first, rest, same, proper⟩ := head n positive
    rw [same] at leading
    exact proper (List.cons.inj leading).1

end Text

namespace Reading

/-- The reading of a value stops in front of these characters. -/
def Delimited : List Char → Prop
  | [] => True
  | c :: _ => c = ',' ∨ c = ']' ∨ c = '\x7d'

theorem skipBlanks_cons {c : Char} (visible : isBlank c = false) (rest : List Char) :
    skipBlanks (c :: rest) = c :: rest := by
  rw [skipBlanks, List.dropWhile_cons_of_neg (by simp [visible])]

theorem isDigit_iff {c : Char} : isDigit c = true ↔ '0' ≤ c ∧ c ≤ '9' := by
  rw [isDigit, Text.digit?_eq]
  split <;> simp [*]

/-- Digits end in front of what follows a value. -/
theorem span_isDigit {digits rest : List Char} (delimited : Delimited rest)
    (all : ∀ c ∈ digits, isDigit c = true) :
    (digits ++ rest).takeWhile isDigit = digits ∧ (digits ++ rest).dropWhile isDigit = rest := by
  have stop : rest.takeWhile isDigit = [] ∧ rest.dropWhile isDigit = rest := by
    cases rest with
    | nil => exact ⟨rfl, rfl⟩
    | cons c rest => rcases delimited with rfl | rfl | rfl <;> exact ⟨rfl, rfl⟩
  rw [List.takeWhile_append_of_pos all, List.dropWhile_append_of_pos all, stop.1, stop.2]
  exact ⟨List.append_nil digits, rfl⟩

/-- Digits that are no fraction and no exponent are a whole number. -/
theorem readNumber_toDigits (negative : Bool) (n : Nat) {rest : List Char}
    (delimited : Delimited rest) :
    readNumber negative (Nat.toDigits 10 n ++ rest) =
      (ofWhole negative (Nat.toDigits 10 n), rest) := by
  obtain ⟨taken, dropped⟩ := span_isDigit delimited fun c member =>
    isDigit_iff.mpr (Text.digits_toDigits n c member)
  have fraction : ∀ whole, readFraction negative whole rest = (ofWhole negative whole, rest) := by
    intro whole
    cases rest with
    | nil => rfl
    | cons c rest => rcases delimited with rfl | rfl | rfl <;> rfl
  unfold readNumber
  simp only [taken, dropped]
  split
  · next none => exact absurd none Nat.toDigits_ne_nil
  · next c rest leading => exact absurd leading (Text.toDigits_ne_zero_cons n c rest)
  · exact fraction _

/-- A number of at most 64 bits is read as an integer. -/
theorem ofWhole_toDigits {value : Int} (low : -0x8000000000000000 ≤ value)
    (high : value < 0x10000000000000000) :
    ofWhole (decide (value < 0)) (Nat.toDigits 10 value.natAbs) = integer value := by
  rw [ofWhole, Text.natural?_toDigits]
  by_cases negative : value < 0
  · have fits : value.natAbs ≠ 0 ∧ value.natAbs ≤ 0x8000000000000000 := by omega
    have back : -(value.natAbs : Int) = value := by omega
    simp only [negative, decide_true, if_true, if_pos fits, back]
  · have fits : value.natAbs < UInt64.size := by
      simp only [UInt64.size]
      omega
    have back : (value.natAbs : Int) = value := by omega
    simp only [negative, decide_false, Bool.false_eq_true, if_false, if_pos fits, back]

/-- Two digits are enough for a control character. -/
theorem hexFour?_hexDigit {n : Nat} (small : n < 32) :
    hexFour? '0' '0' (Text.hexDigit (n / 16)) (Text.hexDigit (n % 16)) = some n := by
  revert n
  decide

/-- A character that needs no escape stands for itself. -/
theorem readString_plain {c : Char} (quote : c ≠ '"') (slash : c ≠ '\\') (visible : ¬ c.toNat < 32)
    (reversed rest : List Char) :
    readString ⟨false, none, reversed⟩ (c :: rest) =
      readString ⟨false, none, c :: reversed⟩ rest := by
  rw [readString.eq_def]
  split
  · next none => cases none
  · next same => exact absurd (List.cons.inj same).1 quote
  · next same => exact absurd (List.cons.inj same).1 slash
  · next same => exact absurd (List.cons.inj same).1 slash
  · next same => exact absurd (List.cons.inj same).1 slash
  · next same => exact absurd (List.cons.inj same).1 slash
  · next same =>
    obtain ⟨rfl, rfl⟩ := List.cons.inj same
    rw [if_neg visible]
    rfl

/-- A control character is read back from the number that it is escaped as. -/
theorem readString_control {c : Char} (control : c.toNat < 32) (reversed rest : List Char) :
    readString ⟨false, none, reversed⟩ ('\\' :: 'u' :: '0' :: '0' ::
      Text.hexDigit (c.toNat / 16) :: Text.hexDigit (c.toNat % 16) :: rest) =
        readString ⟨false, none, c :: reversed⟩ rest := by
  have lead : ¬ (0xD800 ≤ c.toNat ∧ c.toNat < 0xDC00) := by omega
  have trail : ¬ (0xDC00 ≤ c.toNat ∧ c.toNat < 0xE000) := by omega
  simp only [readString, hexFour?_hexDigit control, Quoting.pushUnit, if_neg lead, if_neg trail,
    Char.ofNat_toNat]

/-- A character is read back from what it was escaped as. -/
theorem readString_escapeChar (c : Char) (reversed rest : List Char) :
    readString ⟨false, none, reversed⟩ (Json.escapeChar c ++ rest) =
      readString ⟨false, none, c :: reversed⟩ rest := by
  unfold Json.escapeChar
  split_ifs with quote slash back tab line feed home control
  · rw [quote]; rfl
  · rw [slash]; rfl
  · rw [back]; rfl
  · rw [tab]; rfl
  · rw [line]; rfl
  · rw [feed]; rfl
  · rw [home]; rfl
  · exact readString_control control reversed rest
  · exact readString_plain quote slash control reversed rest

/-- So is a string, up to its closing quote. -/
theorem readString_flatMap (text reversed rest : List Char) :
    readString ⟨false, none, reversed⟩ (text.flatMap Json.escapeChar ++ '"' :: rest) =
      (string (String.ofList (reversed.reverse ++ text)), rest) := by
  induction text generalizing reversed with
  | nil => simp [readString, Quoting.close, Quoting.unlead]
  | cons c text ih =>
    rw [List.flatMap_cons, List.append_assoc, readString_escapeChar, ih]
    simp

/-- A string is read back from its text in quotes. -/
theorem readString_writeString (text : String) (rest : List Char) :
    ∃ inside, Json.writeString text ++ rest = '"' :: inside ∧
      readString .start inside = (string text, rest) := by
  refine ⟨_, by simp only [Json.writeString, List.cons_append, List.append_assoc]; rfl, ?_⟩
  have whole := readString_flatMap text.toList [] rest
  simpa [Quoting.start] using whole

end Reading

namespace Json

mutual

/-- The value has no floating point numbers, and its integers have at most 64 bits. -/
def Plain : Json → Prop
  | null | bool _ | string _ => True
  | integer value => -0x8000000000000000 ≤ value ∧ value < 0x10000000000000000
  | real _ => False
  | array items => PlainItems items
  | object members => PlainMembers members

/-- All items are plain. -/
def PlainItems : List Json → Prop
  | [] => True
  | item :: items => item.Plain ∧ PlainItems items

/-- The values of all members are plain. -/
def PlainMembers : List (String × Json) → Prop
  | [] => True
  | (_, value) :: members => value.Plain ∧ PlainMembers members

end

mutual

/-- What a value is read as. -/
@[simp]
def reading : Json → Reading
  | null => .null
  | bool value => .bool value
  | integer value => .integer value
  | real _ => .real
  | string text => .string text
  | array items => .array (readingItems items)
  | object members => .object (readingMembers members)

/-- What items are read as. -/
@[simp]
def readingItems : List Json → ReadingItems
  | [] => .nil
  | item :: items => .cons item.reading (readingItems items)

/-- What members are read as. -/
@[simp]
def readingMembers : List (String × Json) → ReadingMembers
  | [] => .nil
  | (key, value) :: members => .cons (.string key) value.reading (readingMembers members)

end

/-- The text of a number begins with its sign or a digit. -/
theorem writeInteger_cases (value : Int) :
    (value < 0 ∧ writeInteger value = '-' :: Nat.toDigits 10 value.natAbs) ∨
      ¬ value < 0 ∧ writeInteger value = Nat.toDigits 10 value.natAbs ∧
        ∃ c rest, writeInteger value = c :: rest ∧ Reading.isDigit c = true := by
  by_cases negative : value < 0
  · exact .inl ⟨negative, if_pos negative⟩
  · have written : writeInteger value = Nat.toDigits 10 value.natAbs := if_neg negative
    obtain ⟨c, rest, same⟩ := List.exists_cons_of_ne_nil (Nat.toDigits_ne_nil (n := value.natAbs))
    have digit := Text.digits_toDigits value.natAbs c (same ▸ List.mem_cons_self)
    exact .inr ⟨negative, written, c, rest, written.trans same, Reading.isDigit_iff.mpr digit⟩

/-- A text begins with a character that is no blank and closes nothing. -/
def Begins (text : List Char) : Prop :=
  ∃ c rest, text = c :: rest ∧ Reading.isBlank c = false ∧ c ≠ ']'

theorem begins_writeInteger (value : Int) : Begins (writeInteger value) := by
  rcases writeInteger_cases value with ⟨-, written⟩ | ⟨-, -, c, rest, written, digit⟩
  · exact ⟨_, _, written, rfl, by decide⟩
  · refine ⟨c, rest, written, ?_, ?_⟩
    · rw [Bool.eq_false_iff]
      intro blank
      simp only [Reading.isBlank, Bool.or_eq_true, decide_eq_true_eq] at blank
      rcases blank with ((rfl | rfl) | rfl) | rfl <;> revert digit <;> decide
    · rintro rfl
      revert digit
      decide

/-- So does the text of every plain value. -/
theorem begins_write {value : Json} (plain : value.Plain) : Begins value.write := by
  cases value with
  | null => exact ⟨_, _, by rw [write], rfl, by decide⟩
  | bool value => cases value <;> exact ⟨_, _, by rw [write], rfl, by decide⟩
  | integer value =>
    rw [write]
    exact begins_writeInteger value
  | real value => exact absurd plain (by simp [Plain])
  | string text => exact ⟨_, _, by rw [write, writeString], rfl, by decide⟩
  | array items => cases items <;> exact ⟨_, _, by rw [write], rfl, by decide⟩
  | object members => cases members <;> exact ⟨_, _, by rw [write], rfl, by decide⟩

end Json

namespace Reading

/-- A text that begins with a digit is read as a number. -/
theorem readValue_digit {c : Char} (digit : isDigit c = true) (fuel : Nat) (rest : List Char) :
    readValue (fuel + 1) (c :: rest) = readNumber false (c :: rest) := by
  have visible : isBlank c = false := by
    rw [Bool.eq_false_iff]
    intro blank
    simp only [isBlank, Bool.or_eq_true, decide_eq_true_eq] at blank
    rcases blank with ((rfl | rfl) | rfl) | rfl <;> revert digit <;> decide
  rw [readValue, skipBlanks_cons visible]
  split
  · next none => cases none
  -- Seven characters begin a value of another kind, and none of them is a digit.
  iterate 7
    · next same => exact absurd ((List.cons.inj same).1 ▸ digit) (by decide)
  · next same =>
    obtain ⟨rfl, rfl⟩ := List.cons.inj same
    exact if_pos digit

/-- An integer of at most 64 bits is read back from its text. -/
theorem readValue_writeInteger {value : Int} (low : -0x8000000000000000 ≤ value)
    (high : value < 0x10000000000000000) (fuel : Nat) {rest : List Char}
    (delimited : Delimited rest) :
    readValue (fuel + 1) (Json.writeInteger value ++ rest) = (integer value, rest) := by
  have whole := ofWhole_toDigits low high
  rcases Json.writeInteger_cases value with
    ⟨negative, written⟩ | ⟨positive, written, c, digits, begins, digit⟩
  · rw [written, List.cons_append, readValue, skipBlanks_cons rfl]
    refine (readNumber_toDigits true _ delimited).trans ?_
    rw [← whole, decide_eq_true negative]
  · rw [begins, List.cons_append, readValue_digit digit, ← List.cons_append, ← begins, written,
      readNumber_toDigits false _ delimited, ← whole, decide_eq_false positive]

/-- What follows an item or a member ends it. -/
theorem delimited_writeItems (items : List Json) (rest : List Char) :
    Delimited (Json.writeItems items ++ rest) := by
  cases items with
  | nil => exact .inr (.inl rfl)
  | cons item items =>
    rw [Json.writeItems]
    exact .inl rfl

theorem delimited_writeMembers (members : List (String × Json)) (rest : List Char) :
    Delimited (Json.writeMembers members ++ rest) := by
  cases members with
  | nil => exact .inr (.inr rfl)
  | cons entry members =>
    rw [Json.writeMembers]
    exact .inl rfl

section Parts

variable {fuel : Nat} {text behind rest : List Char} {value : Reading}

/-- An item is read, and then what is behind it. -/
theorem readItems_cons (first : Bool) (begins : Json.Begins text) {items : ReadingItems}
    (here : readValue fuel (text ++ behind) = (value, behind))
    (later : readItemsEnd fuel behind = (items, rest)) :
    readItems (fuel + 1) first (text ++ behind) = (.cons value items, rest) := by
  obtain ⟨c, more, rfl, visible, proper⟩ := begins
  have inside : ¬ (c = ']' ∧ first = true) := fun closing => proper closing.1
  rw [List.cons_append] at here ⊢
  simp only [readItems, skipBlanks_cons visible, if_neg inside, here, later]

/-- A member is read, and then what is behind it. -/
theorem readMembers_cons (first : Bool) (key : String) {members : ReadingMembers}
    (here : readValue fuel (text ++ behind) = (value, behind))
    (later : readMembersEnd (fuel + 1) behind = (members, rest)) :
    readMembers (fuel + 2) first (Json.writeString key ++ ':' :: (text ++ behind)) =
      (.cons (.string key) value members, rest) := by
  obtain ⟨inside, same, read⟩ := readString_writeString key (':' :: (text ++ behind))
  have named : readMemberValue (fuel + 1) (':' :: (text ++ behind)) = (value, behind) := by
    rw [readMemberValue, skipBlanks_cons rfl]
    exact here
  rw [same, readMembers, skipBlanks_cons rfl]
  simp only [read, named, later]

end Parts

mutual

/-- A plain value is read back from its text, whatever follows it. -/
theorem readValue_write : ∀ (value : Json), value.Plain → ∀ (fuel : Nat) (rest : List Char),
    3 * value.write.length ≤ fuel → Delimited rest →
      readValue fuel (value.write ++ rest) = (value.reading, rest)
  | value, plain, 0, rest, enough, _ => by
    obtain ⟨c, more, same, -⟩ := Json.begins_write plain
    rw [same] at enough
    simp at enough
  | .null, _, fuel + 1, rest, _, _ => by
    rw [Json.write, Json.reading]
    rfl
  | .bool value, _, fuel + 1, rest, _, _ => by
    cases value <;> rw [Json.write, Json.reading] <;> rfl
  | .integer value, plain, fuel + 1, rest, _, delimited => by
    rw [Json.write, Json.reading]
    rw [Json.Plain] at plain
    exact readValue_writeInteger plain.1 plain.2 fuel delimited
  | .real value, plain, fuel + 1, rest, _, _ => by
    rw [Json.Plain] at plain
    exact plain.elim
  | .string text, _, fuel + 1, rest, _, _ => by
    obtain ⟨inside, same, read⟩ := readString_writeString text rest
    rw [Json.write, Json.reading, same, readValue, skipBlanks_cons rfl]
    exact read
  | .array [], _, fuel + 1, rest, enough, _ => by
    rw [Json.write] at enough
    obtain ⟨fuel, rfl⟩ : ∃ less, fuel = less + 1 := ⟨fuel - 1, by simp at enough; omega⟩
    rw [Json.write, Json.reading]
    rfl
  | .array (item :: items), plain, fuel + 1, rest, enough, _ => by
    rw [Json.Plain, Json.PlainItems] at plain
    rw [Json.write, List.length_cons, List.length_append] at enough
    obtain ⟨fuel, rfl⟩ : ∃ less, fuel = less + 1 := ⟨fuel - 1, by omega⟩
    have inside := readItems_cons true (Json.begins_write plain.1)
      (readValue_write item plain.1 fuel _ (by omega) (delimited_writeItems items rest))
      (readItemsEnd_writeItems items plain.2 fuel rest (by omega))
    rw [Json.write, List.cons_append, List.append_assoc, readValue, skipBlanks_cons rfl]
    simp only [inside, Json.reading, Json.readingItems]
  | .object [], _, fuel + 1, rest, enough, _ => by
    rw [Json.write] at enough
    obtain ⟨fuel, rfl⟩ : ∃ less, fuel = less + 1 := ⟨fuel - 1, by simp at enough; omega⟩
    rw [Json.write, Json.reading]
    rfl
  | .object ((key, value) :: members), plain, fuel + 1, rest, enough, _ => by
    rw [Json.Plain, Json.PlainMembers] at plain
    rw [Json.write] at enough
    simp only [List.length_cons, List.length_append] at enough
    obtain ⟨fuel, rfl⟩ : ∃ less, fuel = less + 2 := ⟨fuel - 2, by omega⟩
    have inside := readMembers_cons true key
      (readValue_write value plain.1 fuel _ (by omega) (delimited_writeMembers members rest))
      (readMembersEnd_writeMembers members plain.2 (fuel + 1) rest (by omega))
    rw [Json.write]
    simp only [List.cons_append, List.append_assoc]
    rw [readValue, skipBlanks_cons rfl]
    simp only [inside, Json.reading, Json.readingMembers]

/-- So are the items behind the first one, and the end of the array. -/
theorem readItemsEnd_writeItems : ∀ (items : List Json), Json.PlainItems items →
    ∀ (fuel : Nat) (rest : List Char), 3 * (Json.writeItems items).length ≤ fuel →
      readItemsEnd fuel (Json.writeItems items ++ rest) = (Json.readingItems items, rest)
  | [], _, fuel, rest, enough => by
    rw [Json.writeItems] at enough
    obtain ⟨fuel, rfl⟩ : ∃ less, fuel = less + 1 := ⟨fuel - 1, by simp at enough; omega⟩
    rw [Json.writeItems, Json.readingItems]
    rfl
  | item :: items, plain, fuel, rest, enough => by
    rw [Json.PlainItems] at plain
    rw [Json.writeItems, List.length_cons, List.length_append] at enough
    obtain ⟨fuel, rfl⟩ : ∃ less, fuel = less + 2 := ⟨fuel - 2, by omega⟩
    have inside := readItems_cons false (Json.begins_write plain.1)
      (readValue_write item plain.1 fuel _ (by omega) (delimited_writeItems items rest))
      (readItemsEnd_writeItems items plain.2 fuel rest (by omega))
    rw [Json.writeItems, List.cons_append, List.append_assoc, readItemsEnd, skipBlanks_cons rfl,
      Json.readingItems]
    exact inside

/-- So are the members behind the first one, and the end of the object. -/
theorem readMembersEnd_writeMembers : ∀ (members : List (String × Json)),
    Json.PlainMembers members → ∀ (fuel : Nat) (rest : List Char),
      3 * (Json.writeMembers members).length ≤ fuel →
        readMembersEnd fuel (Json.writeMembers members ++ rest) =
          (Json.readingMembers members, rest)
  | [], _, fuel, rest, enough => by
    rw [Json.writeMembers] at enough
    obtain ⟨fuel, rfl⟩ : ∃ less, fuel = less + 1 := ⟨fuel - 1, by simp at enough; omega⟩
    rw [Json.writeMembers, Json.readingMembers]
    rfl
  | (key, value) :: members, plain, fuel, rest, enough => by
    rw [Json.PlainMembers] at plain
    rw [Json.writeMembers] at enough
    simp only [List.length_cons, List.length_append] at enough
    obtain ⟨fuel, rfl⟩ : ∃ less, fuel = less + 3 := ⟨fuel - 3, by omega⟩
    have inside := readMembers_cons false key
      (readValue_write value plain.1 fuel _ (by omega) (delimited_writeMembers members rest))
      (readMembersEnd_writeMembers members plain.2 (fuel + 1) rest (by omega))
    rw [Json.writeMembers]
    simp only [List.cons_append, List.append_assoc]
    rw [readMembersEnd, skipBlanks_cons rfl, Json.readingMembers]
    exact inside

end

/-- A plain value is read back from its compact text, up to the end. -/
theorem ofChars_compact {value : Json} (plain : value.Plain) :
    ofChars value.compact.toList = (value.reading, []) := by
  have whole := readValue_write value plain (3 * value.write.length + 3) []
    (Nat.le_add_right _ 3) trivial
  rw [List.append_nil] at whole
  rw [Json.compact, String.toList_ofList, ofChars, whole]

end Reading

end FleetRing
