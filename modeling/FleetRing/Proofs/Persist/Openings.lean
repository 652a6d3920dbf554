import FleetRing.Proofs.Chained
import FleetRing.Proofs.Persist.Attempts
import Mathlib.Data.List.DropRight

/-!
# When the breaker is open

A breaker keeps a count and a time, and forgets how it came to them. What they mean is a matter of
the whole history of runs: `Opens` says which runs open the breaker, by counting failures since the
count was started anew, which an opening does itself. Counted from the last run that persisted, the
openings are the failures whose number the threshold divides (`opens_iff`), so the count that a
breaker keeps is a remainder. The time is that of the last opening, and it may have passed.

Runs start when somebody asks for them. Nothing is assumed about these times.
-/

namespace FleetRing

/-- A run, as the history shows it. -/
structure RunRecord where
  started : Time
  outcome : PersistOutcome
  ended : Time
  deriving DecidableEq

/-- The next run, whenever it starts and whatever its attempts are. -/
inductive PersistPolicy.Step {σ : Type} (policy : PersistPolicy) :
    Breaker × σ → List RunRecord → Breaker × σ → Prop where
  | run (breaker : Breaker) (backend : σ) (now : Time) (attempt : σ → Attempt × σ) :
      Step policy (breaker, backend)
        [⟨now, (policy.run breaker now attempt backend).outcome,
          (policy.run breaker now attempt backend).ended⟩]
        ((policy.run breaker now attempt backend).breaker,
          (policy.run breaker now attempt backend).backend)

/-- A run of a history is the last one, or one of those before it. -/
theorem split_cases {history before after : List RunRecord} {run last : RunRecord}
    (split : history ++ [last] = before ++ run :: after) :
    history = before ∧ last = run ∧ after = [] ∨
      ∃ rest, after = rest ++ [last] ∧ history = before ++ run :: rest := by
  rcases List.eq_nil_or_concat after with rfl | ⟨rest, final, rfl⟩
  · obtain ⟨same, last_eq⟩ := List.append_singleton_inj.mp split
    exact .inl ⟨same, last_eq, rfl⟩
  · rw [List.concat_eq_append, ← List.cons_append, ← List.append_assoc] at split
    obtain ⟨same, rfl⟩ := List.append_singleton_inj.mp split
    exact .inr ⟨rest, List.concat_eq_append, same⟩

section Openings

variable {threshold : Nat} {history before start row : List RunRecord} {run : RunRecord}

/-- The number of failing runs in a row. Skipped runs do not count. -/
def failures (row : List RunRecord) : Nat :=
  row.countP (·.outcome.isFailure)

/-- No run of a row persisted. Skipped runs do not break it. -/
def Unbroken (row : List RunRecord) : Prop :=
  ∀ run ∈ row, run.outcome ≠ .persisted

/-- After a row, a run fails that makes the threshold full. -/
structure Completes (threshold : Nat) (row : List RunRecord) (run : RunRecord) : Prop where
  failing : run.outcome.isFailure = true
  unbroken : Unbroken row
  count : failures row + 1 = threshold

/-- The histories after which failures are counted anew. -/
inductive Anew (threshold : Nat) : List RunRecord → Prop where
  | initially : Anew threshold []
  | persisted (before : List RunRecord) {run : RunRecord} (persisted : run.outcome = .persisted) :
      Anew threshold (before ++ [run])
  | opened {before row : List RunRecord} {run : RunRecord} (anew : Anew threshold before)
      (completes : Completes threshold row run) : Anew threshold (before ++ row ++ [run])

/-- Where failures were last counted anew, and the row since then. -/
structure Latest (threshold : Nat) (start row : List RunRecord) : Prop where
  anew : Anew threshold start
  unbroken : Unbroken row
  last : ∀ front rest, row = front ++ rest → front ≠ [] → ¬ Anew threshold (start ++ front)

/-- A run that opens the breaker after a history: the failing one with the number of the threshold
since the last run that persisted or opened it. -/
def Opens (threshold : Nat) (history : List RunRecord) (run : RunRecord) : Prop :=
  ∃ start row, history = start ++ row ∧ Latest threshold start row ∧ Completes threshold row run

/-- The number of failing runs since the last one that persisted. -/
def streak (history : List RunRecord) : Nat :=
  failures (history.rtakeWhile fun run => run.outcome != .persisted)

@[simp]
theorem failures_nil : failures [] = 0 := rfl

@[simp]
theorem failures_append (earlier later : List RunRecord) :
    failures (earlier ++ later) = failures earlier + failures later :=
  List.countP_append

theorem failures_singleton (run : RunRecord) :
    failures [run] = if run.outcome.isFailure then 1 else 0 := by
  simp [failures, List.countP_singleton]

theorem Unbroken.append {earlier later : List RunRecord} (first : Unbroken earlier)
    (second : Unbroken later) : Unbroken (earlier ++ later) :=
  List.forall_mem_append.mpr ⟨first, second⟩

theorem streak_persisted (history : List RunRecord) (persisted : run.outcome = .persisted) :
    streak (history ++ [run]) = 0 := by
  rw [streak, List.rtakeWhile_concat_neg _ _ _ (by simp [persisted])]
  rfl

/-- A row that is not broken adds its failing runs. -/
theorem streak_append (history : List RunRecord) (unbroken : Unbroken row) :
    streak (history ++ row) = streak history + failures row := by
  induction row using List.reverseRecOn with
  | nil => simp
  | append_singleton row run ih =>
    obtain ⟨earlier, here⟩ := List.forall_mem_append.mp unbroken
    have kept : run.outcome ≠ .persisted := here run List.mem_cons_self
    have longer : streak (history ++ row ++ [run]) = streak (history ++ row) + failures [run] := by
      rw [streak, List.rtakeWhile_concat_pos _ _ _ (by simpa using kept), failures_append, streak]
    rw [← List.append_assoc, longer, ih earlier, failures_append, Nat.add_assoc]

theorem streak_failing (history : List RunRecord) (failing : run.outcome.isFailure = true) :
    streak (history ++ [run]) = streak history + 1 := by
  have kept : Unbroken [run] := by
    rintro other member persisted
    obtain rfl := List.mem_singleton.mp member
    simp [persisted, PersistOutcome.isFailure] at failing
  rw [streak_append history kept, failures_singleton, if_pos failing]

/-- A run that makes the threshold full has a number that it divides. -/
theorem Completes.dvd (completes : Completes threshold row run)
    (divides : threshold ∣ streak start) : threshold ∣ streak (start ++ row) + 1 := by
  rw [streak_append start completes.unbroken, Nat.add_assoc, completes.count]
  exact Nat.dvd_add divides (Nat.dvd_refl threshold)

/-- Where failures are counted anew, the threshold divides the number of failing runs since the
last one that persisted. -/
theorem Anew.dvd (anew : Anew threshold history) : threshold ∣ streak history := by
  induction anew with
  | initially => exact Nat.dvd_zero threshold
  | persisted before persisted =>
    rw [streak_persisted before persisted]
    exact Nat.dvd_zero threshold
  | opened anew completes ih =>
    rw [streak_failing _ completes.failing]
    exact completes.dvd ih

/-- The run before it persisted, or made the threshold full. -/
theorem Anew.last (anew : Anew threshold (history ++ [run])) :
    run.outcome = .persisted ∨ ∃ start row, history = start ++ row ∧ Anew threshold start ∧
      Completes threshold row run := by
  generalize whole : history ++ [run] = all at anew
  cases anew with
  | initially => simp at whole
  | persisted before persisted =>
    obtain ⟨-, rfl⟩ := List.append_singleton_inj.mp whole
    exact .inl persisted
  | opened anew completes =>
    obtain ⟨rfl, rfl⟩ := List.append_singleton_inj.mp whole
    exact .inr ⟨_, _, rfl, anew, completes⟩

/-- A row with fewer failing runs than the threshold does not start the count anew. -/
theorem Latest.of_short (anew : Anew threshold start) (unbroken : Unbroken row)
    (short : threshold = 0 ∨ failures row < threshold) : Latest threshold start row := by
  refine ⟨anew, unbroken, ?_⟩
  rintro front rest rfl nonempty again
  have whole : Unbroken front := (List.forall_mem_append.mp unbroken).1
  have divides : threshold ∣ failures front := by
    have total := again.dvd
    rw [streak_append start whole] at total
    exact (Nat.dvd_add_right anew.dvd).mp total
  have none : failures front = 0 := by
    rcases short with rfl | below
    · exact Nat.zero_dvd.mp divides
    · rw [failures_append] at below
      exact Nat.eq_zero_of_dvd_of_lt divides (by omega)
  obtain ⟨init, last, rfl⟩ := List.eq_nil_or_concat front |>.resolve_left nonempty
  rw [List.concat_eq_append] at again whole none
  rw [← List.append_assoc] at again
  rcases again.last with persisted | ⟨_, _, -, -, completes⟩
  · exact whole last (by simp) persisted
  · simp [failures_singleton, completes.failing] at none

/-- Every history has a place where failures were last counted anew, and fewer than the threshold
failed since then. -/
theorem exists_latest (threshold : Nat) (history : List RunRecord) :
    ∃ start row, history = start ++ row ∧ Latest threshold start row ∧
      (threshold = 0 ∨ failures row < threshold) := by
  have none : Unbroken [] := fun _ member => nomatch member
  have low : threshold = 0 ∨ failures [] < threshold := Nat.eq_zero_or_pos threshold
  induction history using List.reverseRecOn with
  | nil => exact ⟨[], [], rfl, .of_short .initially none low, low⟩
  | append_singleton history run ih =>
    obtain ⟨start, row, rfl, latest, short⟩ := ih
    by_cases persisted : run.outcome = .persisted
    · exact ⟨_, [], (List.append_nil _).symm, .of_short (.persisted _ persisted) none low, low⟩
    by_cases completes : Completes threshold row run
    · exact ⟨_, [], (List.append_nil _).symm,
        .of_short (.opened latest.anew completes) none low, low⟩
    · have unbroken : Unbroken (row ++ [run]) := latest.unbroken.append (by simpa [Unbroken])
      have still : threshold = 0 ∨ failures (row ++ [run]) < threshold := by
        rw [failures_append, failures_singleton]
        split
        · next failing =>
          have unfilled : failures row + 1 ≠ threshold := fun full =>
            completes ⟨failing, latest.unbroken, full⟩
          omega
        · omega
      exact ⟨start, row ++ [run], List.append_assoc start row [run],
        .of_short latest.anew unbroken still, still⟩

/-- The row since then is what the threshold leaves of the failing runs since the last one that
persisted. -/
theorem Latest.failures_eq (latest : Latest threshold start row)
    (short : threshold = 0 ∨ failures row < threshold) :
    failures row = streak (start ++ row) % threshold := by
  obtain ⟨times, divides⟩ := latest.anew.dvd
  rw [streak_append start latest.unbroken, divides, Nat.mul_add_mod]
  rcases short with rfl | below
  · exact (Nat.mod_zero _).symm
  · exact (Nat.mod_eq_of_lt below).symm

/-- The breaker is opened by failing runs whose number since the last run that persisted is divided
by the threshold. -/
theorem opens_iff : Opens threshold history run ↔
    run.outcome.isFailure = true ∧ 0 < threshold ∧ threshold ∣ streak history + 1 := by
  constructor
  · rintro ⟨start, row, rfl, latest, completes⟩
    refine ⟨completes.failing, ?_, completes.dvd latest.anew.dvd⟩
    have full := completes.count
    omega
  · rintro ⟨failing, positive, divides⟩
    obtain ⟨start, row, rfl, latest, short⟩ := exists_latest threshold history
    refine ⟨start, row, rfl, latest, failing, latest.unbroken, ?_⟩
    rw [streak_append start latest.unbroken, Nat.add_assoc] at divides
    have full := Nat.le_of_dvd (Nat.succ_pos _) ((Nat.dvd_add_right latest.anew.dvd).mp divides)
    omega

end Openings

section Recollection

variable {σ : Type} {policy : PersistPolicy} {history : List RunRecord} {breaker : Breaker}
  {run : RunRecord} {limit now : Time}

/-- A run opened the breaker until a time, and none that came later persisted. -/
def OpenedUntil (policy : PersistPolicy) (history : List RunRecord) (limit : Time) : Prop :=
  ∃ before run after, history = before ++ run :: after ∧ Opens policy.threshold before run ∧
    Unbroken after ∧ limit = run.ended + policy.cooldown

/-- The breaker is open at a time, by what happened. -/
def OpenAt (policy : PersistPolicy) (history : List RunRecord) (now : Time) : Prop :=
  ∃ before run after, history = before ++ run :: after ∧ Opens policy.threshold before run ∧
    Unbroken after ∧ now < run.ended + policy.cooldown

theorem openAt_iff :
    OpenAt policy history now ↔ ∃ limit, OpenedUntil policy history limit ∧ now < limit := by
  constructor
  · rintro ⟨before, run, after, split, opens, unbroken, early⟩
    exact ⟨_, ⟨before, run, after, split, opens, unbroken, rfl⟩, early⟩
  · rintro ⟨_, ⟨before, run, after, split, opens, unbroken, rfl⟩, early⟩
    exact ⟨before, run, after, split, opens, unbroken, early⟩

/-- The next run opens the breaker, or leaves it open as it was unless it persists. -/
theorem openedUntil_concat : OpenedUntil policy (history ++ [run]) limit ↔
    Opens policy.threshold history run ∧ limit = run.ended + policy.cooldown ∨
      run.outcome ≠ .persisted ∧ OpenedUntil policy history limit := by
  constructor
  · rintro ⟨before, opening, after, split, opens, unbroken, same⟩
    rcases split_cases split with ⟨rfl, rfl, rfl⟩ | ⟨rest, rfl, rfl⟩
    · exact .inl ⟨opens, same⟩
    · obtain ⟨earlier, here⟩ := List.forall_mem_append.mp unbroken
      exact .inr ⟨here _ List.mem_cons_self, before, opening, rest, rfl, opens, earlier, same⟩
  · rintro (⟨opens, same⟩ | ⟨kept, before, opening, after, rfl, opens, unbroken, same⟩)
    · exact ⟨history, run, [], rfl, opens, (fun _ member => nomatch member), same⟩
    · exact ⟨before, opening, after ++ [run], by simp, opens,
        unbroken.append (by simpa [Unbroken]), same⟩

/-- What the count and the time of a breaker say about the history. -/
structure Recalls (policy : PersistPolicy) (history : List RunRecord) (breaker : Breaker) :
    Prop where
  count : breaker.failures = streak history % policy.threshold
  opened : ∀ limit, breaker.openUntil = some limit → OpenedUntil policy history limit
  /-- The time kept is the latest one. -/
  latest : ∀ limit, OpenedUntil policy history limit →
    ∃ later, breaker.openUntil = some later ∧ limit ≤ later

namespace Recalls

theorem initially (policy : PersistPolicy) : Recalls policy [] {} where
  count := (Nat.zero_mod _).symm
  opened _ held := nomatch held
  latest limit opened := by
    obtain ⟨before, run, after, split, -⟩ := opened
    simp at split

/-- The breaker is open when the history says so. -/
theorem isOpen_iff (recalls : Recalls policy history breaker) (now : Time) :
    breaker.isOpen now = true ↔ OpenAt policy history now := by
  rw [openAt_iff]
  constructor
  · intro isOpen
    cases held : breaker.openUntil with
    | none => simp [Breaker.isOpen, held] at isOpen
    | some limit =>
      have early : now < limit := by simpa [Breaker.isOpen, held] using isOpen
      exact ⟨limit, recalls.opened limit held, early⟩
  · rintro ⟨limit, opened, early⟩
    obtain ⟨later, held, bound⟩ := recalls.latest limit opened
    simpa [Breaker.isOpen, held] using Nat.lt_of_lt_of_le early bound

/-- A run that is skipped leaves no trace. -/
theorem skip (recalls : Recalls policy history breaker) (skipped : run.outcome = .skipped) :
    Recalls policy (history ++ [run]) breaker := by
  have kept : Unbroken [run] := by simp [Unbroken, skipped]
  have idle : ¬ Opens policy.threshold history run := by
    simp [opens_iff, skipped, PersistOutcome.isFailure]
  have same : ∀ limit, OpenedUntil policy (history ++ [run]) limit ↔
      OpenedUntil policy history limit := fun limit => by
    simp [openedUntil_concat, idle, skipped]
  refine ⟨?_, fun limit held => (same limit).mpr (recalls.opened limit held),
    fun limit opened => recalls.latest limit ((same limit).mp opened)⟩
  rw [streak_append history kept, failures_singleton, recalls.count]
  simp [skipped, PersistOutcome.isFailure]

/-- One that persisted wipes all traces out. -/
theorem persist (persisted : run.outcome = .persisted) :
    Recalls policy (history ++ [run]) ⟨0, none⟩ := by
  have idle : ¬ Opens policy.threshold history run := by
    simp [opens_iff, persisted, PersistOutcome.isFailure]
  refine ⟨by rw [streak_persisted history persisted, Nat.zero_mod], (fun _ held => nomatch held),
    fun limit opened => ?_⟩
  simp [openedUntil_concat, idle, persisted] at opened

theorem failures_lt (recalls : Recalls policy history breaker) (positive : 0 < policy.threshold) :
    breaker.failures < policy.threshold := by
  rw [recalls.count]
  exact Nat.mod_lt _ positive

/-- One that failed is counted, -/
theorem count_failing (recalls : Recalls policy history breaker)
    (failing : run.outcome.isFailure = true) :
    streak (history ++ [run]) % policy.threshold = (breaker.failures + 1) % policy.threshold := by
  rw [streak_failing history failing, recalls.count, Nat.mod_add_mod]

/-- and opens the breaker when the count reaches the threshold. -/
theorem opens_iff_full (recalls : Recalls policy history breaker)
    (failing : run.outcome.isFailure = true) : Opens policy.threshold history run ↔
      0 < policy.threshold ∧ policy.threshold ≤ breaker.failures + 1 := by
  rw [opens_iff, ← streak_failing history failing, Nat.dvd_iff_mod_eq_zero,
    recalls.count_failing failing]
  constructor
  · rintro ⟨-, positive, full⟩
    refine ⟨positive, ?_⟩
    by_contra below
    rw [Nat.mod_eq_of_lt (by omega)] at full
    omega
  · rintro ⟨positive, full⟩
    have below := recalls.failures_lt positive
    have reached : breaker.failures + 1 = policy.threshold := by omega
    exact ⟨failing, positive, by rw [reached, Nat.mod_self]⟩

/-- It started when the breaker was not open, so it opens it for longer than before. -/
theorem fail (recalls : Recalls policy history breaker)
    (failing : run.outcome.isFailure = true) (closed : breaker.isOpen now = false)
    (later : now ≤ run.ended) :
    Recalls policy (history ++ [run]) (breaker.record policy run.outcome run.ended) := by
  have kept : run.outcome ≠ .persisted := fun persisted => by
    simp [persisted, PersistOutcome.isFailure] at failing
  have opens := recalls.opens_iff_full failing
  have counted := recalls.count_failing failing
  have expired : ∀ limit, breaker.openUntil = some limit → limit ≤ now := by
    intro limit held
    simpa [Breaker.isOpen, held] using closed
  rw [Breaker.record, if_neg kept, if_pos failing]
  split
  · next full =>
    have opening := opens.mpr full
    refine ⟨?_, fun limit held => ?_, fun limit opened => ?_⟩
    · have reached : breaker.failures + 1 = policy.threshold := by
        have below := recalls.failures_lt full.1
        omega
      rw [counted, reached, Nat.mod_self]
    · exact openedUntil_concat.mpr (.inl ⟨opening, (Option.some.inj held).symm⟩)
    · refine ⟨_, rfl, ?_⟩
      rcases openedUntil_concat.mp opened with ⟨-, rfl⟩ | ⟨-, before⟩
      · exact Nat.le_refl _
      · obtain ⟨old, held, bound⟩ := recalls.latest limit before
        exact Nat.le_add_right_of_le (bound.trans ((expired old held).trans later))
  · next unfilled =>
    have idle : ¬ Opens policy.threshold history run := fun opening => unfilled (opens.mp opening)
    refine ⟨?_, fun limit held => ?_, fun limit opened => ?_⟩
    · rw [counted]
      rcases Nat.eq_zero_or_pos policy.threshold with zero | positive
      · rw [zero, Nat.mod_zero]
      · have below : breaker.failures + 1 < policy.threshold := by
          by_contra full
          exact unfilled ⟨positive, Nat.le_of_not_lt full⟩
        exact (Nat.mod_eq_of_lt below).symm
    · exact openedUntil_concat.mpr (.inr ⟨kept, recalls.opened limit held⟩)
    · rcases openedUntil_concat.mp opened with ⟨opening, -⟩ | ⟨-, before⟩
      · exact absurd opening idle
      · exact recalls.latest limit before

end Recalls

end Recollection

/-- What a breaker does after a history of runs, and how it got there. -/
structure FollowsHistory {σ : Type} (policy : PersistPolicy) (history : List RunRecord)
    (breaker : Breaker) (backend : σ) : Prop where
  /-- It is open as long as the history says, -/
  isOpen_iff : ∀ now, breaker.isOpen now = true ↔ OpenAt policy history now
  /-- and a run that starts then is skipped, makes no attempt and changes nothing. -/
  skips : ∀ now attempt, OpenAt policy history now →
    policy.run breaker now attempt backend = ⟨.skipped, 0, breaker, backend, now⟩
  /-- At every other time a run makes its attempts. -/
  carries : ∀ now attempt, ¬ OpenAt policy history now →
    policy.Carries breaker now attempt backend (policy.run breaker now attempt backend)
  /-- It was so all along. -/
  skipped_iff : ∀ before run after, history = before ++ run :: after →
    (run.outcome = .skipped ↔ OpenAt policy before run.started)
  /-- What is counted are the failing runs since failures were last counted anew. -/
  counted : ∃ start row, history = start ++ row ∧ Latest policy.threshold start row ∧
    breaker.failures = failures row
  below : 0 < policy.threshold → breaker.failures < policy.threshold
  never : policy.threshold = 0 → ∀ now, breaker.isOpen now = false

section Law

variable {σ : Type} {policy : PersistPolicy} {history shown : List RunRecord}
  {breaker next : Breaker} {backend final start : σ}

/-- The next run is recalled as well. -/
theorem Recalls.step (recalls : Recalls policy history breaker)
    (transition : policy.Step (breaker, backend) shown (next, final)) :
    Recalls policy (history ++ shown) next := by
  cases transition with
  | run _ _ now attempt =>
    cases isOpen : breaker.isOpen now with
    | true =>
      rw [policy.run_of_open isOpen attempt backend]
      exact recalls.skip rfl
    | false =>
      have carried := policy.run_of_closed isOpen attempt backend
      generalize policy.run breaker now attempt backend = run at carried
      rw [carried.recorded]
      cases outcome : run.outcome with
      | persisted =>
        rw [Breaker.record, if_pos rfl]
        exact .persist rfl
      | skipped => exact absurd outcome carried.course.attempted
      | failed | timedOut | crashed => exact recalls.fail rfl isOpen carried.later

/-- A run is skipped exactly when the breaker was open, as the history before it says. -/
theorem Recalls.of_chained
    (runs : Chained policy.Step (({}, start) : Breaker × σ) history (breaker, backend)) :
    Recalls policy history breaker ∧
      ∀ before run after, history = before ++ run :: after →
        (run.outcome = .skipped ↔ OpenAt policy before run.started) := by
  generalize first : (({}, start) : Breaker × σ) = origin at runs
  generalize here : (breaker, backend) = state at runs
  induction runs generalizing breaker backend with
  | refl =>
    obtain ⟨rfl, -⟩ := Prod.mk.inj (first.trans here.symm)
    exact ⟨.initially policy, fun before run after split => by simp at split⟩
  | @step trace shown middle _ prior transition ih =>
    subst here
    obtain ⟨recalls, earlier⟩ := ih rfl
    refine ⟨recalls.step transition, fun before run after split => ?_⟩
    cases transition with
    | run breaker backend now attempt =>
      rcases split_cases split with ⟨rfl, rfl, rfl⟩ | ⟨rest, rfl, rfl⟩
      · rw [← recalls.isOpen_iff]
        cases isOpen : breaker.isOpen now with
        | true => simp [policy.run_of_open isOpen attempt backend]
        | false => simpa using (policy.run_of_closed isOpen attempt backend).course.attempted
      · exact earlier before run rest rfl

/-- Whatever runs were made, at whatever times and with whatever attempts, the breaker follows
their history. -/
theorem follows_history
    (runs : Chained policy.Step (({}, start) : Breaker × σ) history (breaker, backend)) :
    FollowsHistory policy history breaker backend := by
  obtain ⟨recalls, skipped⟩ := Recalls.of_chained runs
  obtain ⟨first, row, split, latest, short⟩ := exists_latest policy.threshold history
  have count : breaker.failures = failures row := by
    rw [recalls.count, latest.failures_eq short, split]
  refine {
    isOpen_iff := recalls.isOpen_iff
    skips := fun now attempt isOpen =>
      policy.run_of_open ((recalls.isOpen_iff now).mpr isOpen) attempt backend
    carries := fun now attempt closed => policy.run_of_closed ?_ attempt backend
    skipped_iff := skipped
    counted := ⟨first, row, split, latest, count⟩
    below := fun positive => ?_
    never := fun zero now => ?_ }
  · simpa using fun isOpen => closed ((recalls.isOpen_iff now).mp isOpen)
  · exact recalls.failures_lt positive
  · have closed : ¬ breaker.isOpen now = true := by
      rw [recalls.isOpen_iff]
      rintro ⟨before, run, after, -, opens, -⟩
      exact absurd (opens_iff.mp opens).2.1 (by omega)
    simpa using closed

/-- Two runs in a row that fail, the second one by hanging, open a breaker for the time of the
cooldown. The run after them is skipped. -/
theorem follows_history_of_outage : ∃ history breaker,
    Chained (PersistPolicy.Step ⟨2, 10, 2, 100⟩) (({}, 0) : Breaker × Nat) history (breaker, 3) ∧
      FollowsHistory ⟨2, 10, 2, 100⟩ history breaker 3 ∧
      history.map (·.outcome) = [.failed, .timedOut, .skipped] ∧
      breaker.isOpen 114 = true ∧ breaker.isOpen 115 = false := by
  let policy : PersistPolicy := ⟨2, 10, 2, 100⟩
  let refuse (calls : Nat) : Attempt × Nat := (⟨.refused, 1⟩, calls + 1)
  let hang (calls : Nat) : Attempt × Nat := (⟨.hung, 0⟩, calls + 1)
  have first : policy.Step ({}, 0) _ _ := .run {} 0 0 refuse
  have runs := ((Chained.single first).step (.run _ _ 5 hang)).step (.run _ _ 50 refuse)
  exact ⟨_, _, runs, follows_history runs, by decide, by decide, by decide⟩

end Law

end FleetRing
