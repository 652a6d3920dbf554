import FleetRing.Ring.Arc
import Mathlib.Algebra.Order.Floor.Ring
import Mathlib.Data.Rat.Floor

/-!
# The part that serves a token

An arc is cut by multiplication, and a position is served by division. Over the rationals both are
exact: the parts end where the next ones start without being snapped to the end of the arc, and
the part that serves a position of the arc is the one that contains it (`contains_part_iff`).

Tokens lie above the lower end of an arc and up to its upper end, which is not on the arc any more.
The last token lies at that end, and is served by the last part; `serves_exactly` says this of all
tokens.
-/

namespace FleetRing

namespace Arc

section Parts

variable {α : Type} [Scalar α] {arc part : Arc α} {n i : Nat}

theorem getElem?_split_eq_some :
    (arc.split n)[i]? = some part ↔ i < n ∧ arc.part n i = part := by
  simp [split, List.getElem?_eq_some_iff]

theorem mem_split : part ∈ arc.split n ↔ ∃ i < n, arc.part n i = part := by
  simp [split]

end Parts

section Exact

variable {arc : Arc Rat} {n i : Nat} {degrees other : Rat}

theorem contains_iff : arc.contains degrees = true ↔ arc.lower ≤ degrees ∧ degrees < arc.upper := by
  simp [contains, Scalar.atMost, Scalar.below]

/-- The width of each part. -/
def step (arc : Arc Rat) (n : Nat) : Rat :=
  (arc.upper - arc.lower) / n

theorem step_pos (wide : arc.lower < arc.upper) (positive : 0 < n) : 0 < arc.step n :=
  div_pos (sub_pos.mpr wide) (Nat.cast_pos.mpr positive)

/-- The parts make up the arc. -/
theorem lower_add_steps (arc : Arc Rat) (positive : 0 < n) :
    arc.lower + n * arc.step n = arc.upper := by
  have whole : (n : Rat) ≠ 0 := Nat.cast_ne_zero.mpr positive.ne'
  rw [step, mul_div_cancel₀ _ whole, add_sub_cancel]

/-- The last part ends where the arc does without being made to. -/
theorem part_eq (arc : Arc Rat) (positive : 0 < n) (i : Nat) :
    arc.part n i = ⟨arc.lower + i * arc.step n, arc.lower + (i + 1 : Nat) * arc.step n⟩ := by
  have snapped : (if i + 1 = n then arc.upper else arc.lower + (i + 1 : Nat) * arc.step n) =
      arc.lower + (i + 1 : Nat) * arc.step n := by
    split
    · next last => rw [last, arc.lower_add_steps positive]
    · rfl
  exact congrArg (Arc.mk _) snapped

theorem partOf_eq (arc : Arc Rat) (n : Nat) (degrees : Rat) :
    arc.partOf n degrees = min ⌊(degrees - arc.lower) / arc.step n⌋.toNat (n - 1) := rfl

/-- A part contains a position when it is that many steps into the arc. -/
theorem contains_part_iff_floor (wide : arc.lower < arc.upper) (positive : 0 < n) :
    (arc.part n i).contains degrees = true ↔ ⌊(degrees - arc.lower) / arc.step n⌋ = i := by
  have stride := step_pos wide positive
  rw [part_eq arc positive, contains_iff, Int.floor_eq_iff, le_div_iff₀ stride, div_lt_iff₀ stride,
    le_sub_iff_add_le', sub_lt_iff_lt_add', Int.cast_natCast, Nat.cast_add_one]

/-- How many steps a position is into the arc. -/
theorem floor_bounds (wide : arc.lower < arc.upper) (positive : 0 < n)
    (inside : arc.contains degrees = true) :
    0 ≤ ⌊(degrees - arc.lower) / arc.step n⌋ ∧ ⌊(degrees - arc.lower) / arc.step n⌋ < n := by
  have stride := step_pos wide positive
  obtain ⟨above, below⟩ := contains_iff.mp inside
  have whole := arc.lower_add_steps positive
  constructor
  · exact Int.floor_nonneg.mpr (div_nonneg (sub_nonneg.mpr above) stride.le)
  · rw [Int.floor_lt, div_lt_iff₀ stride, Int.cast_natCast, sub_lt_iff_lt_add', whole]
    exact below

/-- The part that serves a position of the arc is the one that contains it. -/
theorem contains_part_iff (wide : arc.lower < arc.upper) (positive : 0 < n)
    (inside : arc.contains degrees = true) :
    (arc.part n i).contains degrees = true ↔ arc.partOf n degrees = i := by
  obtain ⟨least, most⟩ := floor_bounds wide positive inside
  rw [contains_part_iff_floor wide positive, partOf_eq]
  omega

/-- Positions further along are served by later parts. -/
theorem partOf_mono (wide : arc.lower < arc.upper) (positive : 0 < n) (after : degrees ≤ other) :
    arc.partOf n degrees ≤ arc.partOf n other := by
  have further : ⌊(degrees - arc.lower) / arc.step n⌋ ≤ ⌊(other - arc.lower) / arc.step n⌋ :=
    Int.floor_mono (div_le_div_of_nonneg_right (sub_le_sub_right after _)
      (step_pos wide positive).le)
  rw [partOf_eq, partOf_eq]
  omega

/-- The end of the arc is all steps into it, -/
theorem floor_upper (wide : arc.lower < arc.upper) (positive : 0 < n) :
    ⌊(arc.upper - arc.lower) / arc.step n⌋ = n := by
  rw [← arc.lower_add_steps positive, add_sub_cancel_left,
    mul_div_cancel_right₀ _ (step_pos wide positive).ne', Int.floor_natCast]

/-- The end of the arc is served by its last part. -/
theorem partOf_upper (wide : arc.lower < arc.upper) (positive : 0 < n) :
    arc.partOf n arc.upper = n - 1 := by
  rw [partOf_eq, floor_upper wide positive]
  omega

/-- The end of the arc is on none of them. -/
theorem contains_part_upper (wide : arc.lower < arc.upper) (inside : i < n) :
    (arc.part n i).contains arc.upper = false := by
  have positive : 0 < n := Nat.zero_lt_of_lt inside
  rw [← Bool.not_eq_true, contains_part_iff_floor wide positive, floor_upper wide positive]
  omega

end Exact

end Arc

namespace Token

variable {token other : Token}

theorem fraction_eq (token : Token) :
    (token.fraction : Rat) = ((token.value.toNat + 1 : Nat) : Rat) / (UInt64.size : Nat) := by
  have numerator : ((token.value.toNat + 1 : Nat) : Rat) = token.value.toNat + 1 :=
    Nat.cast_add_one _
  have denominator : ((UInt64.size : Nat) : Rat) = (UInt64.size - 1 : Nat) + 1 :=
    Nat.cast_add_one (UInt64.size - 1)
  rw [numerator, denominator]
  rfl

theorem fraction_pos (token : Token) : (0 : Rat) < token.fraction := by
  rw [fraction_eq]
  exact div_pos (Nat.cast_pos.mpr (Nat.succ_pos _)) (Nat.cast_pos.mpr (by decide))

theorem fraction_mono (after : token.value ≤ other.value) :
    (token.fraction : Rat) ≤ other.fraction := by
  rw [fraction_eq, fraction_eq]
  exact div_le_div_of_nonneg_right
    (Nat.cast_le.mpr (Nat.succ_le_succ (UInt64.le_iff_toNat_le.mp after))) (Nat.cast_nonneg _)

/-- All tokens but the last are less than one arc in, -/
theorem fraction_lt_one (early : token.value.toNat ≠ 2 ^ 64 - 1) : (token.fraction : Rat) < 1 := by
  have bound := token.value.toNat_lt
  rw [fraction_eq, div_lt_one (Nat.cast_pos.mpr (by decide)), Nat.cast_lt, UInt64.size]
  omega

/-- and the last one is one arc in. -/
theorem fraction_last (last : token.value.toNat = 2 ^ 64 - 1) : (token.fraction : Rat) = 1 := by
  rw [fraction_eq, last]
  exact div_self (Nat.cast_ne_zero.mpr (by decide))

end Token

namespace Arc

variable {arc : Arc Rat} {token other : Token} {n : Nat}

theorem position_eq (arc : Arc Rat) (fraction : Rat) :
    arc.position fraction = arc.lower + fraction * (arc.upper - arc.lower) := rfl

/-- Every token lies above the lower end, -/
theorem lower_lt_position (wide : arc.lower < arc.upper) (token : Token) :
    arc.lower < arc.position token.fraction := by
  rw [position_eq, lt_add_iff_pos_right]
  exact mul_pos token.fraction_pos (sub_pos.mpr wide)

/-- and all but the last below the upper end. -/
theorem position_lt_upper (wide : arc.lower < arc.upper) (early : token.value.toNat ≠ 2 ^ 64 - 1) :
    arc.position token.fraction < arc.upper := by
  rw [position_eq, ← lt_sub_iff_add_lt']
  exact mul_lt_of_lt_one_left (sub_pos.mpr wide) (Token.fraction_lt_one early)

/-- The last one lies at the upper end. -/
theorem position_last (last : token.value.toNat = 2 ^ 64 - 1) :
    arc.position token.fraction = arc.upper := by
  rw [position_eq, Token.fraction_last last, one_mul, add_sub_cancel]

/-- Later tokens lie further along. -/
theorem position_mono (wide : arc.lower < arc.upper) (after : token.value ≤ other.value) :
    arc.position token.fraction ≤ arc.position other.fraction := by
  rw [position_eq, position_eq, add_le_add_iff_left]
  exact mul_le_mul_of_nonneg_right (Token.fraction_mono after) (sub_pos.mpr wide).le

/-- The tokens of location `index`, which has `n` stores, are served by the stores whose parts of
its arc they lie on. -/
structure ServesExactly (arc : Arc Rat) (index n : Nat) : Prop where
  /-- Every token is served by one of the parts, -/
  served : ∀ token : Token, ∃ i < n,
    arc.storeOf index n (arc.position token.fraction) = index * n + i
  /-- namely by the one that contains its position; -/
  contains : ∀ token : Token, token.value.toNat ≠ 2 ^ 64 - 1 → ∀ i,
    (∃ part, (arc.split n)[i]? = some part ∧ part.contains (arc.position token.fraction) = true) ↔
      arc.storeOf index n (arc.position token.fraction) = index * n + i
  /-- but the last token lies at the end of the arc, and so on no part: it goes to the last. -/
  last : ∀ token : Token, token.value.toNat = 2 ^ 64 - 1 →
    arc.position token.fraction = arc.upper ∧
      (∀ part ∈ arc.split n, part.contains (arc.position token.fraction) = false) ∧
      arc.storeOf index n (arc.position token.fraction) = index * n + (n - 1)
  /-- Later tokens are served by later parts. -/
  mono : ∀ token other : Token, token.value ≤ other.value →
    arc.storeOf index n (arc.position token.fraction) ≤
      arc.storeOf index n (arc.position other.fraction)

/-- Every arc that has a width serves its tokens exactly, however many parts it has. -/
theorem serves_exactly (wide : arc.lower < arc.upper) (positive : 0 < n) (index : Nat) :
    arc.ServesExactly index n where
  served token := ⟨_, arc.partOf_lt positive _, rfl⟩
  contains token early i := by
    have inside : arc.contains (arc.position token.fraction) = true :=
      contains_iff.mpr ⟨(lower_lt_position wide token).le, position_lt_upper wide early⟩
    have bound := arc.partOf_lt positive (arc.position token.fraction)
    have chosen := contains_part_iff wide positive inside (i := i)
    rw [storeOf, Nat.add_left_cancel_iff, ← chosen]
    constructor
    · rintro ⟨part, here, on⟩
      obtain ⟨-, rfl⟩ := getElem?_split_eq_some.mp here
      exact on
    · intro on
      exact ⟨arc.part n i, getElem?_split_eq_some.mpr ⟨chosen.mp on ▸ bound, rfl⟩, on⟩
  last token last := by
    rw [position_last last]
    refine ⟨rfl, fun part member => ?_, by rw [storeOf, partOf_upper wide positive]⟩
    obtain ⟨i, inside, rfl⟩ := mem_split.mp member
    exact contains_part_upper wide inside
  mono token other after :=
    Nat.add_le_add_left (partOf_mono wide positive (position_mono wide after)) _

/-- A location of 40 degrees with four stores: its last token is served by the last of them. -/
theorem serves_exactly_eastern : (Arc.mk 40 80 : Arc Rat).ServesExactly 2 4 ∧
    (Arc.mk 40 80 : Arc Rat).storeOf 2 4 ((Arc.mk 40 80).position (Token.fraction ⟨-1⟩)) = 11 := by
  have exactly : (Arc.mk 40 80 : Arc Rat).ServesExactly 2 4 :=
    serves_exactly (by decide) (by decide) 2
  exact ⟨exactly, (exactly.last ⟨-1⟩ (by decide)).2.2⟩

end Arc

end FleetRing
