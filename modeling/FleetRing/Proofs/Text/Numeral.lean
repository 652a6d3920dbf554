import FleetRing.Text.Numeral

/-!
# Which texts are unsigned numbers

`IsWord` says it of the characters of a text: an optional plus sign, and then digits
whose value fits. `isSome_word?_iff` says that these are the texts that are read, and
`word?_toString` that a number is read back from the text that is written for it.
-/

namespace FleetRing.Text

/-- The value of a sequence of decimal digits. -/
def valueOf (digits : List Char) : Nat :=
  digits.foldl (fun value c => value * 10 + (c.toNat - 48)) 0

/-- The text is an optional plus sign and one or more ASCII digits of a value below 2^64. -/
def IsWord (text : String) : Prop :=
  ∃ digits : List Char, (text.toList = digits ∨ text.toList = '+' :: digits) ∧ digits ≠ [] ∧
    (∀ c ∈ digits, '0' ≤ c ∧ c ≤ '9') ∧ valueOf digits < UInt64.size

/-- Digits are read, each for its value, and nothing else is. -/
theorem digit?_eq (c : Char) :
    digit? c = if '0' ≤ c ∧ c ≤ '9' then some (c.toNat - 48) else none := by
  have lower : '0' ≤ c ↔ 48 ≤ c.toNat := by
    rw [Char.le_def, UInt32.le_iff_toNat_le]
    rfl
  have upper : c ≤ '9' ↔ c.toNat ≤ 57 := by
    rw [Char.le_def, UInt32.le_iff_toNat_le]
    rfl
  simp only [digit?, lower, upper]

/-- A sequence is read behind a number when it is digits, as their value behind it. -/
theorem appendDigits?_eq_some {value whole : Nat} {text : List Char} :
    appendDigits? value text = some whole ↔
      (∀ c ∈ text, '0' ≤ c ∧ c ≤ '9') ∧
        text.foldl (fun value c => value * 10 + (c.toNat - 48)) value = whole := by
  induction text generalizing value with
  | nil => simp [appendDigits?]
  | cons c rest ih =>
    rw [appendDigits?, digit?_eq, List.forall_mem_cons, List.foldl_cons]
    by_cases digit : '0' ≤ c ∧ c ≤ '9'
    · rw [if_pos digit, ih, and_assoc, and_iff_right digit]
    · rw [if_neg digit]
      exact ⟨nofun, fun whole => absurd whole.1.1 digit⟩

/-- A number is a nonempty sequence of digits. -/
theorem natural?_eq_some {text : List Char} {value : Nat} :
    natural? text = some value ↔
      text ≠ [] ∧ (∀ c ∈ text, '0' ≤ c ∧ c ≤ '9') ∧ valueOf text = value := by
  cases text with
  | nil => simp [natural?]
  | cons c rest =>
    rw [natural?, appendDigits?_eq_some]
    · exact ⟨fun number => ⟨List.cons_ne_nil c rest, number⟩, fun number => number.2⟩
    · exact List.cons_ne_nil c rest

theorem dropPlus_cases (text : List Char) : text = dropPlus text ∨ text = '+' :: dropPlus text := by
  unfold dropPlus
  split
  · exact .inr rfl
  · exact .inl rfl

/-- Digits have no plus sign in front. -/
theorem dropPlus_eq_self {digits : List Char} (all : ∀ c ∈ digits, '0' ≤ c ∧ c ≤ '9') :
    dropPlus digits = digits := by
  unfold dropPlus
  split
  · next rest => exact absurd (all '+' List.mem_cons_self).1 (by decide)
  · rfl

/-- The texts that are read are those of unsigned 64-bit numbers. -/
theorem isSome_word?_iff {text : String} : (word? text).isSome = true ↔ IsWord text := by
  have read : (word? text).isSome = true ↔
      ∃ value, natural? (dropPlus text.toList) = some value ∧ value < UInt64.size := by
    unfold word?
    cases natural? (dropPlus text.toList) with
    | none => simp
    | some value => by_cases fits : value < UInt64.size <;> simp [fits]
  rw [read]
  constructor
  · rintro ⟨value, number, fits⟩
    obtain ⟨nonempty, digits, rfl⟩ := natural?_eq_some.mp number
    exact ⟨dropPlus text.toList, dropPlus_cases text.toList, nonempty, digits, fits⟩
  · rintro ⟨digits, written, nonempty, all, fits⟩
    have same : dropPlus text.toList = digits := by
      rcases written with plain | signed
      · rw [plain, dropPlus_eq_self all]
      · rw [signed]
        rfl
    exact ⟨_, natural?_eq_some.mpr ⟨same ▸ nonempty, same ▸ all, rfl⟩, same ▸ fits⟩

instance : DecidablePred IsWord := fun _ => decidable_of_iff _ isSome_word?_iff

/-- The digits of a number are digits. -/
theorem digits_toDigits (n : Nat) : ∀ c ∈ Nat.toDigits 10 n, '0' ≤ c ∧ c ≤ '9' := by
  intro c member
  have digit := Nat.isDigit_of_mem_toDigits (by decide) (by decide) member
  simpa [Char.isDigit, Char.le_def] using digit

/-- A number is read back from its digits. -/
theorem natural?_toDigits (n : Nat) : natural? (Nat.toDigits 10 n) = some n := by
  refine natural?_eq_some.mpr ⟨Nat.toDigits_ne_nil, digits_toDigits n, ?_⟩
  have whole := Nat.ofDigitChars_ten_toDigits (n := n)
  rw [Nat.ofDigitChars_eq_foldl] at whole
  simpa [valueOf, Nat.mul_comm] using whole

/-- A word is read back from its text. -/
theorem word?_toString (word : UInt64) : word? (toString word) = some word := by
  have digits : (toString word).toList = Nat.toDigits 10 word.toNat := String.toList_ofList
  rw [word?, digits, dropPlus_eq_self (digits_toDigits word.toNat), natural?_toDigits]
  simp [word.toNat_lt]

end FleetRing.Text
