import FleetRing.Event
import FleetRing.Proofs.Window.Retention
import Mathlib.Data.List.Induction
import Mathlib.Order.Bounds.Basic

/-!
# Looking up a version

When versions never decrease from push to push, bisection cuts everything that was ever pushed in
two: what is above the version comes behind what is not. A window has given up some of the first
part only, or the look-up is refused as too old. So `lookup_lossless` can say what a window answers
in terms of all that was pushed to it, and not of what it happens to keep.

Versions may repeat, also across the point up to which items were given up.
-/

namespace FleetRing

namespace Window

variable {α : Type}

/-- The window that pushing items to an empty one leaves. -/
def ofPushes (capacity : Nat) (items : List α) : Window α :=
  items.foldl push (ofCapacity capacity)

/-- It retains these items, in the given capacity. -/
theorem retains_ofPushes (capacity : Nat) (items : List α) :
    (ofPushes capacity items).capacity = max capacity 1 ∧
      (ofPushes capacity items).Retains items := by
  induction items using List.reverseRecOn with
  | nil => exact ⟨rfl, retains_ofCapacity capacity⟩
  | append_singleton items item ih =>
    obtain ⟨same, retained⟩ := ih
    simp only [ofPushes, List.foldl_append, List.foldl_cons, List.foldl_nil] at same retained ⊢
    exact ⟨(capacity_push _ item).trans same, retained.push item⟩

variable [Versioned α] {window : Window α} {items : List α} {version : Version}

/-- A version cuts items at an index, with none above it in front and none but such behind. -/
structure CutsAt (version : Version) (items : List α) (index : Nat) : Prop where
  bound : index ≤ items.length
  before : ∀ i item, i < index → items[i]? = some item → ¬ version < Versioned.versionOf item
  after : ∀ i item, index ≤ i → items[i]? = some item → version < Versioned.versionOf item

namespace CutsAt

variable {index : Nat}

/-- What is behind the cut is all that is above the version. -/
theorem drop_eq (cuts : CutsAt version items index) :
    items.drop index = items.filter fun item => version < Versioned.versionOf item := by
  have older : (items.take index).filter (fun item => version < Versioned.versionOf item) = [] := by
    refine List.filter_eq_nil_iff.mpr fun item member => ?_
    obtain ⟨i, bound, rfl⟩ := List.mem_take_iff_getElem.mp member
    simpa using cuts.before i _ (by omega) (List.getElem?_eq_getElem (by omega))
  have newer : (items.drop index).filter (fun item => version < Versioned.versionOf item) =
      items.drop index := by
    refine List.filter_eq_self.mpr fun item member => ?_
    obtain ⟨i, bound, rfl⟩ := List.mem_drop_iff_getElem.mp member
    simpa using cuts.after (index + i) _ (by omega) (List.getElem?_eq_getElem (by omega))
  conv => rhs; rw [← List.take_append_drop index items, List.filter_append, older, newer]
  rfl

/-- The cut is behind everything exactly when the newest item is not above the version. -/
theorem eq_length_iff (cuts : CutsAt version items index) (nonempty : items ≠ []) :
    index = items.length ↔
      ∃ newest, items.getLast? = some newest ∧ Versioned.versionOf newest ≤ version := by
  have positive := List.length_pos_iff.mpr nonempty
  rw [List.getLast?_eq_getElem?, List.getElem?_eq_getElem (by omega)]
  constructor
  · intro whole
    exact ⟨_, rfl, UInt64.not_lt.mp (cuts.before _ _ (by omega) (List.getElem?_eq_getElem _))⟩
  · rintro ⟨newest, found, covered⟩
    by_contra short
    have bound := cuts.bound
    refine UInt64.not_lt.mpr covered (cuts.after (items.length - 1) newest (by omega) ?_)
    rw [List.getElem?_eq_getElem (by omega), found]

/-- Where something is above the version, the cut is the first such index. -/
theorem isLeast (cuts : CutsAt version items index) {start : Nat} (past : start ≤ index)
    (short : index < items.length) :
    IsLeast {i | start ≤ i ∧ ∃ item, items[i]? = some item ∧ version < Versioned.versionOf item}
      index := by
  constructor
  · have found := List.getElem?_eq_getElem short
    exact ⟨past, _, found, cuts.after index _ (Nat.le_refl _) found⟩
  · rintro i ⟨-, item, found, above⟩
    exact Nat.le_of_not_lt fun below => cuts.before i item below found above

end CutsAt

/-- Versions never decrease from an item to one pushed later. -/
def Ascending (items : List α) : Prop :=
  items.Pairwise fun earlier later => Versioned.versionOf earlier ≤ Versioned.versionOf later

theorem Ascending.le (ascending : Ascending items) {i j : Nat} {earlier later : α} (low : i ≤ j)
    (first : items[i]? = some earlier) (second : items[j]? = some later) :
    Versioned.versionOf earlier ≤ Versioned.versionOf later := by
  obtain ⟨inside, rfl⟩ := List.getElem?_eq_some_iff.mp first
  obtain ⟨bound, rfl⟩ := List.getElem?_eq_some_iff.mp second
  rcases Nat.eq_or_lt_of_le low with rfl | below
  · exact UInt64.le_refl _
  · exact List.pairwise_iff_getElem.mp ascending i j inside bound below

namespace Retains

/-- The oldest item kept, told by what was pushed. -/
theorem head?_toList {α : Type} {window : Window α} {items : List α}
    (retained : window.Retains items) : window.toList.head? = items[window.start]? := by
  rw [retained.toList_eq, ← retained.start_eq, List.head?_drop]

/-- A look-up below the oldest item that is kept is too old. -/
theorem indexSince_tooOld (retained : window.Retains items) {oldest : α}
    (first : items[window.start]? = some oldest) (old : version < Versioned.versionOf oldest) :
    window.indexSince version = .error (.versionTooOld version (Versioned.versionOf oldest)) := by
  obtain ⟨bound, -⟩ := List.getElem?_eq_some_iff.mp first
  have stop_eq := retained.stop_eq
  have occupied : window.start ≠ window.stop := by omega
  have here : window.at? window.start = some oldest := by
    rw [retained.at_eq _ (Nat.le_refl _) (by omega), first]
  simp only [indexSince, if_neg occupied, here, if_pos old]

/-- When versions never decrease, a look-up that is not too old finds where the version cuts all
that was pushed, behind the oldest item that is kept. -/
theorem exists_cut (retained : window.Retains items) (ascending : Ascending items)
    {oldest : α} (first : items[window.start]? = some oldest)
    (recent : ¬ version < Versioned.versionOf oldest) :
    ∃ index, window.start < index ∧ CutsAt version items index ∧
      window.indexSince version =
        if index = items.length then .error .nothingNewer else .ok index := by
  obtain ⟨inside, oldest_eq⟩ := List.getElem?_eq_some_iff.mp first
  have stop_eq := retained.stop_eq
  have occupied : window.start ≠ window.stop := by omega
  have here : window.at? window.start = some oldest := by
    rw [retained.at_eq _ (Nat.le_refl _) (by omega), first]
  obtain ⟨lower, upper, above, below⟩ :=
    bisect_spec (window.isAbove version) window.start window.stop retained.start_le_stop
  generalize index_eq : bisect (window.isAbove version) window.start window.stop = index at *
  have past : window.start < index := by
    by_contra early
    obtain rfl : index = window.start := by omega
    have test := above (by omega)
    rw [retained.isAbove_eq lower inside, oldest_eq] at test
    exact recent (of_decide_eq_true test)
  refine ⟨index, past, ⟨by omega, fun i item before found => ?_, fun i item after found => ?_⟩, ?_⟩
  -- One item settles each side: the last one in front of the cut and the first one behind it.
  · have test := below past
    rw [retained.isAbove_eq (by omega) (by omega)] at test
    have covered := UInt64.not_lt.mp (of_decide_eq_false test)
    have ordered := ascending.le (by omega) found
      (List.getElem?_eq_getElem (by omega : index - 1 < items.length))
    exact UInt64.not_lt.mpr (UInt64.le_trans ordered covered)
  · obtain ⟨bound, -⟩ := List.getElem?_eq_some_iff.mp found
    have test := above (by omega)
    rw [retained.isAbove_eq lower (by omega)] at test
    exact UInt64.lt_of_lt_of_le (of_decide_eq_true test)
      (ascending.le after (List.getElem?_eq_getElem _) found)
  · rw [← stop_eq]
    simp only [indexSince, if_neg occupied, here, if_neg recent, index_eq]

end Retains

/-- What a window of a capacity answers about a version, told by all items that were ever pushed to
it. The oldest item that it keeps is `window.toList.head?`. -/
structure LooksUp (capacity : Nat) (items : List α) (version : Version) (window : Window α) :
    Prop where
  /-- It keeps the last items, as many as fit, -/
  toList : window.toList = items.drop (items.length - max capacity 1)
  /-- which are numbered by the order of pushing. -/
  numbers : window.start = items.length - max capacity 1 ∧ window.stop = items.length
  /-- There is nothing to look through exactly when nothing was pushed. -/
  empty : window.indexSince version = .error .emptyWindow ↔ items = []
  /-- The version is too old exactly when the oldest item kept is above it. -/
  tooOld : ∀ requested oldest,
    window.indexSince version = .error (.versionTooOld requested oldest) ↔
      requested = version ∧ version < oldest ∧
        window.toList.head?.map Versioned.versionOf = some oldest
  /-- Nothing is newer exactly when the newest item is not above it. -/
  nothingNewer : window.indexSince version = .error .nothingNewer ↔
    ∃ newest, items.getLast? = some newest ∧ Versioned.versionOf newest ≤ version
  /-- In every other case the answer is the first number of an item kept that is above it. -/
  index : ∀ oldest newest, window.toList.head? = some oldest → items.getLast? = some newest →
    Versioned.versionOf oldest ≤ version → version < Versioned.versionOf newest →
    ∃ index, window.indexSince version = .ok index ∧
      IsLeast {i | window.start ≤ i ∧ ∃ item, items[i]? = some item ∧
        version < Versioned.versionOf item} index
  /-- Copies are given when the oldest item kept is not above the version, and they are all items
  ever pushed that are. -/
  since : ∀ answer, window.since version = .ok answer ↔
    (∃ oldest, window.toList.head? = some oldest ∧ Versioned.versionOf oldest ≤ version) ∧
      answer = items.filter fun item => version < Versioned.versionOf item

namespace Retains

variable {capacity : Nat}

/-- What is found when nothing was pushed. -/
theorem looksUp_nil (retained : window.Retains []) (fits : window.capacity = max capacity 1) :
    LooksUp capacity [] version window := by
  have closed : window.start = window.stop := retained.start_eq.trans (Nat.zero_sub _) |>.trans
    retained.stop_eq.symm
  have nothing : window.toList = [] := by
    rw [retained.toList_eq, List.drop_nil]
  have answer : window.indexSince version = .error .emptyWindow := by
    rw [indexSince, if_pos closed]
  have copies : window.since version = .error .emptyWindow := by
    rw [since, answer]
  exact {
    toList := by rw [nothing, List.drop_nil]
    numbers := ⟨fits ▸ retained.start_eq, retained.stop_eq⟩
    empty := iff_of_true answer rfl
    tooOld := by simp [answer, nothing]
    nothingNewer := by simp [answer]
    index := by simp [nothing]
    since := by simp [copies, nothing] }

/-- What is found when the oldest item kept is above the version. -/
theorem looksUp_of_old (retained : window.Retains items) (fits : window.capacity = max capacity 1)
    (ascending : Ascending items) {oldest : α} (first : items[window.start]? = some oldest)
    (old : version < Versioned.versionOf oldest) : LooksUp capacity items version window := by
  have answer := retained.indexSince_tooOld first old
  have copies := retained.since_tooOld first old
  have head := retained.head?_toList.trans first
  obtain ⟨inside, -⟩ := List.getElem?_eq_some_iff.mp first
  exact {
    toList := by rw [retained.toList_eq, fits]
    numbers := ⟨fits ▸ retained.start_eq, retained.stop_eq⟩
    empty := by
      refine iff_of_false (by simp [answer]) ?_
      rintro rfl
      cases first
    tooOld := by
      intro requested other
      simp only [answer, head, Option.map_some, Option.some.injEq, Except.error.injEq,
        Error.versionTooOld.injEq]
      exact ⟨fun ⟨same, other_eq⟩ => ⟨same.symm, other_eq ▸ old, other_eq⟩,
        fun ⟨same, _, other_eq⟩ => ⟨same.symm, other_eq⟩⟩
    nothingNewer := by
      refine iff_of_false (by simp [answer]) ?_
      rintro ⟨newest, last, covered⟩
      rw [List.getLast?_eq_getElem?] at last
      have ordered := ascending.le (by omega) first last
      exact UInt64.not_lt.mpr (UInt64.le_trans ordered covered) old
    index := by
      intro other newest found _ covered
      obtain rfl : oldest = other := Option.some.inj (head.symm.trans found)
      exact absurd old (UInt64.not_lt.mpr covered)
    since := by
      refine fun copied => iff_of_false (by simp [copies]) ?_
      rintro ⟨⟨other, found, covered⟩, -⟩
      obtain rfl : oldest = other := Option.some.inj (head.symm.trans found)
      exact UInt64.not_lt.mpr covered old }

/-- What is found when it is not. -/
theorem looksUp_of_recent (retained : window.Retains items)
    (fits : window.capacity = max capacity 1) (ascending : Ascending items) {oldest : α}
    (first : items[window.start]? = some oldest)
    (recent : ¬ version < Versioned.versionOf oldest) : LooksUp capacity items version window := by
  obtain ⟨index, past, cuts, answer⟩ := retained.exists_cut ascending first recent
  have head := retained.head?_toList.trans first
  have stop_eq := retained.stop_eq
  have bound := cuts.bound
  have nonempty : items ≠ [] := by
    rintro rfl
    cases first
  have copies : window.since version = .ok (items.drop index) := by
    rw [since, answer]
    by_cases behind : index = items.length
    · rw [if_pos behind, List.drop_eq_nil_of_le (Nat.le_of_eq behind.symm)]
    · have within : ¬ (index < window.start ∨ window.stop < index) := by omega
      simp only [if_neg behind, from?, if_neg within]
      rw [retained.itemsFrom_eq (Nat.le_of_lt past)]
  exact {
    toList := by rw [retained.toList_eq, fits]
    numbers := ⟨fits ▸ retained.start_eq, retained.stop_eq⟩
    empty := by
      refine iff_of_false ?_ nonempty
      rw [answer]
      split <;> simp
    tooOld := by
      intro requested other
      refine iff_of_false ?_ ?_
      · rw [answer]
        split <;> simp
      · rintro ⟨-, old, found⟩
        rw [head] at found
        exact recent (Option.some.inj found ▸ old)
    nothingNewer := by
      rw [answer, ← cuts.eq_length_iff nonempty]
      split <;> simp [*]
    index := by
      intro _ newest _ last _ above
      have short : index ≠ items.length := by
        intro behind
        obtain ⟨other, found, covered⟩ := (cuts.eq_length_iff nonempty).mp behind
        obtain rfl : newest = other := Option.some.inj (last.symm.trans found)
        exact UInt64.not_lt.mpr covered above
      exact ⟨index, answer.trans (if_neg short), cuts.isLeast (Nat.le_of_lt past) (by omega)⟩
    since := by
      intro copied
      rw [copies, cuts.drop_eq, Except.ok.injEq, eq_comm]
      exact (and_iff_right ⟨oldest, head, UInt64.not_lt.mp recent⟩).symm }

end Retains

/-- When versions never decrease, a look-up loses nothing: a window answers with all items above a
version that were ever pushed, or says that it cannot because the oldest one it keeps is. -/
theorem lookup_lossless (capacity : Nat) (items : List α) (ascending : Ascending items)
    (version : Version) : LooksUp capacity items version (ofPushes capacity items) := by
  obtain ⟨fits, retained⟩ := retains_ofPushes capacity items
  by_cases nonempty : items = []
  · subst nonempty
    exact retained.looksUp_nil fits
  · obtain ⟨oldest, first⟩ : ∃ oldest, items[(ofPushes capacity items).start]? = some oldest :=
      ⟨_, List.getElem?_eq_getElem (retained.start_lt nonempty)⟩
    by_cases old : version < Versioned.versionOf oldest
    · exact retained.looksUp_of_old fits ascending first old
    · exact retained.looksUp_of_recent fits ascending first old

/-- An update given up has the version of the oldest one that is kept. -/
theorem lookup_lossless_small :
    let updates : List Update := [1, 2, 2, 2, 5, 5].map fun version => { (default : Update) with version }
    LooksUp 4 updates 2 (ofPushes 4 updates) ∧
      (ofPushes 4 updates).since 2 = .ok (updates.drop 4) ∧
      (ofPushes 4 updates).since 1 = .error (.versionTooOld 1 2) :=
  ⟨lookup_lossless 4 _ (by unfold Ascending; decide +kernel) 2, by decide +kernel, by decide +kernel⟩

end Window

end FleetRing
