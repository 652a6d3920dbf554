import FleetRing.Window

/-!
# What a window retains

`Retains` relates a window to the whole list of items that were ever pushed to
it. An empty window retains the empty list and `Retains.push` appends to the
list, so every window in use retains some list; the bounds, the contents and the
answers of a look-up are then functions of that list and the capacity.

`Retains.since_eq_drop` needs no order of versions: whatever was pushed, a
look-up that is not too old answers with some suffix of the list. It is the
newer part of the list when the floor separates one from an older part, and empty
when no retained version is above the floor.
-/

namespace FleetRing

namespace Window

variable {α : Type}

/-- Two numbers that differ by less than the capacity use the same slot only when they
are equal. -/
private theorem eq_of_mod_eq {capacity i n : Nat} (ordered : i ≤ n)
    (close : n - i < capacity) (same : i % capacity = n % capacity) : i = n := by
  have divides : capacity ∣ n - i :=
    Nat.dvd_of_mod_eq_zero (Nat.sub_mod_eq_zero_of_mod_eq same.symm)
  have zero : n - i = 0 := Nat.eq_zero_of_dvd_of_lt divides close
  omega

/-- The window is what pushing `items`, in order, leaves: bounds that count them, and each of
the last ones in the slot of its number. -/
structure Retains (window : Window α) (items : List α) : Prop where
  positive : 0 < window.capacity
  start_eq : window.start = items.length - window.capacity
  stop_eq : window.stop = items.length
  slots_size : window.slots.size = min items.length window.capacity
  at_eq : ∀ i, window.start ≤ i → i < window.stop → window.at? i = items[i]?

/-- A new window retains nothing. -/
theorem retains_ofCapacity (capacity : Nat) :
    (ofCapacity capacity : Window α).Retains [] where
  positive := by simp only [ofCapacity]; omega
  start_eq := by simp [ofCapacity]
  stop_eq := rfl
  slots_size := by simp [ofCapacity]
  at_eq := by
    intro i _ below
    simp [ofCapacity] at below

/-- Pushing changes no capacity. -/
@[simp]
theorem capacity_push (window : Window α) (item : α) :
    (window.push item).capacity = window.capacity := by
  obtain ⟨capacity, slots, start, stop⟩ := window
  simp only [push]
  split <;> rfl

namespace Retains

variable {window : Window α} {items : List α}

/-- Pushing appends to what was ever pushed. -/
theorem push (retained : window.Retains items) (item : α) :
    (window.push item).Retains (items ++ [item]) := by
  obtain ⟨capacity, slots, start, stop⟩ := window
  obtain ⟨positive, start_eq, stop_eq, slots_size, at_eq⟩ := retained
  simp only at positive start_eq stop_eq slots_size
  simp only [at?] at at_eq
  subst stop_eq
  have advanced : (if items.length - start = capacity then start + 1 else start) =
      items.length + 1 - capacity := by
    split <;> omega
  -- A slot within bounds is in use by an older item, so the window was full.
  have kept : ∀ i, items.length + 1 - capacity ≤ i → i < items.length →
      i % capacity ≠ items.length % capacity ∧ slots[i % capacity]? = items[i]? := by
    intro i lower upper
    refine ⟨fun same => ?_, at_eq i (by omega) upper⟩
    have := eq_of_mod_eq (Nat.le_of_lt upper) (by omega) same
    omega
  simp only [Window.push, advanced]
  split
  · next inside =>
    have full : capacity ≤ items.length := by
      by_cases short : items.length < capacity
      · rw [Nat.mod_eq_of_lt short] at inside
        omega
      · omega
    refine ⟨positive, by simp, by simp, by simp [slots_size]; omega, ?_⟩
    intro i lower upper
    simp only [at?] at lower upper ⊢
    by_cases last : i = items.length
    · subst last
      simp [inside]
    · have below : i < items.length := by omega
      obtain ⟨different, same⟩ := kept i lower below
      rw [Array.getElem?_set_ne inside different.symm, same, List.getElem?_append_left below]
  · next outside =>
    have short : items.length < capacity := by
      have := Nat.mod_lt items.length positive
      omega
    have slot : items.length % capacity = slots.size := by
      rw [Nat.mod_eq_of_lt short]
      omega
    refine ⟨positive, by simp, by simp, by simp [slots_size]; omega, ?_⟩
    intro i lower upper
    simp only [at?] at lower upper ⊢
    by_cases last : i = items.length
    · subst last
      simp [slot]
    · have below : i < items.length := by omega
      obtain ⟨different, same⟩ := kept i lower below
      rw [slot] at different
      rw [Array.getElem?_push, if_neg different, same, List.getElem?_append_left below]

/-- The number of items kept: all of them, or as many as fit. -/
theorem size_eq (retained : window.Retains items) :
    window.size = min items.length window.capacity := by
  have := retained.start_eq
  have := retained.stop_eq
  simp only [size]
  omega

theorem start_le_stop (retained : window.Retains items) : window.start ≤ window.stop := by
  have := retained.start_eq
  have := retained.stop_eq
  omega

/-- Copies from a number on are the items from that number on. -/
theorem itemsFrom_eq (retained : window.Retains items) {index : Nat}
    (lower : window.start ≤ index) : window.itemsFrom index = items.drop index := by
  have copies : ∀ count index, window.start ≤ index → index + count = window.stop →
      (List.range' index count).filterMap window.at? = items.drop index := by
    intro count
    induction count with
    | zero =>
      intro index _ ends
      have := retained.stop_eq
      rw [List.drop_eq_nil_of_le (by omega)]
      rfl
    | succ count ih =>
      intro index lower ends
      have bound : index < items.length := by
        have := retained.stop_eq
        omega
      have here : window.at? index = some items[index] := by
        rw [retained.at_eq index lower (by omega), List.getElem?_eq_getElem bound]
      rw [List.range'_succ, List.filterMap_cons_some here, ih (index + 1) (by omega) (by omega)]
      exact (List.drop_eq_getElem_cons bound).symm
  by_cases within : index ≤ window.stop
  · exact copies _ index lower (by omega)
  · have := retained.stop_eq
    rw [List.drop_eq_nil_of_le (by omega), itemsFrom, Nat.sub_eq_zero_of_le (by omega)]
    rfl

/-- What a window holds: the last items, as many as fit. -/
theorem toList_eq (retained : window.Retains items) :
    window.toList = items.drop (items.length - window.capacity) := by
  rw [toList, retained.itemsFrom_eq (Nat.le_refl _), retained.start_eq]

end Retains

/-- Bisection stops within its bounds, at an end or where the test turns from false to true.
This holds of every test; only a monotone one turns once. -/
theorem bisect_spec (test : Nat → Bool) (low high : Nat) (ordered : low ≤ high) :
    low ≤ bisect test low high ∧ bisect test low high ≤ high ∧
      (bisect test low high < high → test (bisect test low high) = true) ∧
      (low < bisect test low high → test (bisect test low high - 1) = false) := by
  fun_induction bisect test low high with
  | case1 low high wide middle holds ih =>
    obtain ⟨lower, upper, here, before⟩ := ih (by omega)
    refine ⟨lower, by omega, fun _ => ?_, before⟩
    by_cases inner : bisect test low middle < middle
    · exact here inner
    · have same : bisect test low middle = middle := by omega
      rw [same]
      exact holds
  | case2 low high wide middle fails ih =>
    obtain ⟨lower, upper, here, before⟩ := ih (by omega)
    refine ⟨by omega, upper, here, fun _ => ?_⟩
    by_cases inner : middle + 1 < bisect test (middle + 1) high
    · exact before inner
    · have same : bisect test (middle + 1) high - 1 = middle := by omega
      rw [same]
      simpa using fails
  | case3 low high closed =>
    exact ⟨Nat.le_refl _, ordered, fun below => absurd below closed,
      fun above => absurd above (Nat.lt_irrefl _)⟩

namespace Retains

variable {window : Window α} {items : List α}

/-- A window that ever retained an item has an oldest one. -/
theorem start_lt (retained : window.Retains items) (nonempty : items ≠ []) :
    window.start < items.length := by
  have := List.length_pos_iff.mpr nonempty
  have := retained.positive
  have := retained.start_eq
  omega

variable [Versioned α]

/-- Whether an item is above a version, read off what was pushed. -/
theorem isAbove_eq (retained : window.Retains items) {index : Nat}
    (lower : window.start ≤ index) (bound : index < items.length) (version : Version) :
    window.isAbove version index = decide (version < Versioned.versionOf items[index]) := by
  have here : window.at? index = some items[index] := by
    rw [retained.at_eq index lower (by rw [retained.stop_eq]; exact bound),
      List.getElem?_eq_getElem bound]
  simp [isAbove, here]

/-- A floor below the oldest retained version is refused, and the refusal names that version. -/
theorem since_tooOld (retained : window.Retains items) {oldest : α} {version : Version}
    (first : items[window.start]? = some oldest) (old : version < Versioned.versionOf oldest) :
    window.since version = .error (.versionTooOld version (Versioned.versionOf oldest)) := by
  obtain ⟨bound, -⟩ := List.getElem?_eq_some_iff.mp first
  have stop_eq := retained.stop_eq
  have occupied : window.start ≠ window.stop := by omega
  have here : window.at? window.start = some oldest := by
    rw [retained.at_eq _ (Nat.le_refl _) (by omega), first]
  simp [since, indexSince, occupied, here, old]

/-- Any other floor is answered with the items from some number on: one that is the end or the
number of an item above the floor, and that comes behind an item not above it. -/
theorem since_eq_drop (retained : window.Retains items) {oldest : α} {version : Version}
    (first : items[window.start]? = some oldest)
    (recent : ¬ version < Versioned.versionOf oldest) :
    ∃ index, window.since version = .ok (items.drop index) ∧ window.start < index ∧
      index ≤ items.length ∧
      (∀ item, items[index]? = some item → version < Versioned.versionOf item) ∧
      ∀ item, items[index - 1]? = some item → ¬ version < Versioned.versionOf item := by
  obtain ⟨bound, oldest_eq⟩ := List.getElem?_eq_some_iff.mp first
  have stop_eq := retained.stop_eq
  have occupied : window.start ≠ window.stop := by omega
  have here : window.at? window.start = some oldest := by
    rw [retained.at_eq _ (Nat.le_refl _) (by omega), first]
  obtain ⟨lower, upper, above, below⟩ :=
    bisect_spec (window.isAbove version) window.start window.stop retained.start_le_stop
  generalize index_eq : bisect (window.isAbove version) window.start window.stop = index at *
  have past : window.start < index := by
    by_cases same : index = window.start
    · have test := above (by omega)
      rw [same, retained.isAbove_eq (Nat.le_refl _) bound, oldest_eq] at test
      exact absurd (of_decide_eq_true test) recent
    · omega
  refine ⟨index, ?_, past, by omega, fun item found => ?_, fun item found => ?_⟩
  · by_cases last : index = window.stop
    · have answer : window.indexSince version = .error .nothingNewer := by
        simp [indexSince, occupied, here, recent, index_eq, last]
      rw [since, answer, List.drop_eq_nil_of_le (by omega)]
    · have answer : window.indexSince version = .ok index := by
        simp [indexSince, occupied, here, recent, index_eq, last]
      have within : ¬ (index < window.start ∨ window.stop < index) := by omega
      simp only [since, answer, from?, if_neg within]
      rw [retained.itemsFrom_eq lower]
  · obtain ⟨inside, rfl⟩ := List.getElem?_eq_some_iff.mp found
    have test := above (by omega)
    rw [retained.isAbove_eq lower inside] at test
    exact of_decide_eq_true test
  · obtain ⟨inside, rfl⟩ := List.getElem?_eq_some_iff.mp found
    have test := below past
    rw [retained.isAbove_eq (by omega) inside] at test
    exact of_decide_eq_false test

/-- So whatever is answered is the end of what was pushed, and never all of it. -/
theorem exists_index (retained : window.Retains items) {version : Version} {answer : List α}
    (answered : window.since version = .ok answer) :
    ∃ index, answer = items.drop index ∧ 0 < index ∧ index ≤ items.length ∧
      (∀ item, items[index]? = some item → version < Versioned.versionOf item) ∧
      ∀ item, items[index - 1]? = some item → ¬ version < Versioned.versionOf item := by
  have stop_eq := retained.stop_eq
  have nonempty : items ≠ [] := by
    rintro rfl
    have closed : window.start = window.stop := by
      have := retained.start_le_stop
      simp only [List.length_nil] at stop_eq
      omega
    simp [since, indexSince, closed] at answered
  have bound := retained.start_lt nonempty
  have first := List.getElem?_eq_getElem bound
  have recent : ¬ version < Versioned.versionOf items[window.start] := by
    intro old
    rw [retained.since_tooOld first old] at answered
    cases answered
  obtain ⟨index, same, past, edges⟩ := retained.since_eq_drop first recent
  exact ⟨index, Except.ok.inj (answered.symm.trans same), Nat.zero_lt_of_lt past, edges⟩

/-- When versions increase, what is answered is exactly what is above the floor, and something is
not. -/
theorem exists_split (retained : window.Retains items)
    (increasing : items.Pairwise fun earlier later =>
      Versioned.versionOf earlier < Versioned.versionOf later)
    {version : Version} {answer : List α} (answered : window.since version = .ok answer) :
    ∃ older, older ≠ [] ∧ items = older ++ answer ∧
      (∀ item ∈ older, ¬ version < Versioned.versionOf item) ∧
      ∀ item ∈ answer, version < Versioned.versionOf item := by
  obtain ⟨index, rfl, positive, within, after, before⟩ := retained.exists_index answered
  have ordered := List.pairwise_iff_getElem.mp increasing
  refine ⟨items.take index, ?_, (List.take_append_drop index items).symm, fun item member => ?_,
    fun item member => ?_⟩
  · exact List.ne_nil_of_length_pos (by rw [List.length_take]; omega)
  · obtain ⟨i, bound, rfl⟩ := List.mem_take_iff_getElem.mp member
    have last := before _ (List.getElem?_eq_getElem (by omega : index - 1 < items.length))
    by_cases edge : i = index - 1
    · subst edge
      exact last
    · have below := ordered i (index - 1) (by omega) (by omega) (by omega)
      exact fun above => last (UInt64.lt_trans above below)
  · obtain ⟨i, bound, rfl⟩ := List.mem_drop_iff_getElem.mp member
    have first := after _ (List.getElem?_eq_getElem (by omega : index < items.length))
    by_cases edge : i = 0
    · subst edge
      exact first
    · exact UInt64.lt_trans first (ordered index (index + i) (by omega) (by omega) (by omega))

/-- Nothing is above a floor that no retained item exceeds, in whatever order the versions
were pushed. -/
theorem since_eq_nil (retained : window.Retains items) (nonempty : items ≠ []) {version : Version}
    (covered : ∀ item ∈ window.toList, ¬ version < Versioned.versionOf item) :
    window.since version = .ok [] := by
  rw [retained.toList_eq, ← retained.start_eq] at covered
  have kept : ∀ index item, window.start ≤ index → items[index]? = some item →
      ¬ version < Versioned.versionOf item := by
    intro index item lower found
    apply covered
    have shifted : (items.drop window.start)[index - window.start]? = some item := by
      rw [List.getElem?_drop, Nat.add_sub_cancel' lower, found]
    exact List.mem_of_getElem? shifted
  have first := List.getElem?_eq_getElem (retained.start_lt nonempty)
  obtain ⟨index, answer, past, upper, above, -⟩ :=
    retained.since_eq_drop first (kept _ _ (Nat.le_refl _) first)
  rw [answer]
  by_cases inside : index < items.length
  · have found := List.getElem?_eq_getElem inside
    exact absurd (above _ found) (kept index _ (Nat.le_of_lt past) found)
  · rw [List.drop_eq_nil_of_le (by omega)]

section Separation

variable {older newer : List α} {version : Version}

/-- A floor is too old when it lies below everything that is retained. -/
theorem exists_tooOld (retained : window.Retains (older ++ newer))
    (full : window.capacity ≤ newer.length)
    (above : ∀ item ∈ newer, version < Versioned.versionOf item) :
    ∃ oldest, window.since version = .error (.versionTooOld version oldest) := by
  have length : (older ++ newer).length = older.length + newer.length := List.length_append
  have positive := retained.positive
  have start_eq := retained.start_eq
  have bound : window.start < (older ++ newer).length := by omega
  have first := List.getElem?_eq_getElem bound
  refine ⟨_, retained.since_tooOld first (above _ ?_)⟩
  rw [List.getElem_append_right (by omega)]
  exact List.getElem_mem _

/-- A floor that separates what was pushed into an older and a newer part is answered with the
newer one, as long as something older is retained. -/
theorem since_eq_of_fits (retained : window.Retains (older ++ newer)) (nonempty : older ≠ [])
    (fits : newer.length < window.capacity)
    (covered : ∀ item ∈ older, ¬ version < Versioned.versionOf item)
    (above : ∀ item ∈ newer, version < Versioned.versionOf item) :
    window.since version = .ok newer := by
  have length : (older ++ newer).length = older.length + newer.length := List.length_append
  have some_older := List.length_pos_iff.mpr nonempty
  have start_eq := retained.start_eq
  have bound : window.start < (older ++ newer).length := by omega
  have recent : ¬ version < Versioned.versionOf (older ++ newer)[window.start] := by
    refine covered _ ?_
    rw [List.getElem_append_left (by omega)]
    exact List.getElem_mem _
  obtain ⟨index, answer, past, upper, after, before⟩ :=
    retained.since_eq_drop (List.getElem?_eq_getElem bound) recent
  -- The item in front of the answer is not above the floor, so it is an older one.
  have low : index - 1 < older.length := by
    refine Nat.lt_of_not_le fun beyond => ?_
    have inside : index - 1 < (older ++ newer).length := by omega
    refine before _ (List.getElem?_eq_getElem inside) (above _ ?_)
    rw [List.getElem_append_right (by omega)]
    exact List.getElem_mem _
  have high : older.length ≤ index := by
    refine Nat.le_of_not_lt fun short => ?_
    have inside : index < (older ++ newer).length := by omega
    refine covered _ ?_ (after _ (List.getElem?_eq_getElem inside))
    rw [List.getElem_append_left (by omega)]
    exact List.getElem_mem _
  have edge : index = older.length := by omega
  rw [answer, edge, List.drop_left]

end Separation

end Retains

end Window

end FleetRing
