import FleetRing.Persist.Breaker
import Mathlib.Logic.Function.Iterate

/-!
# The attempts of a run

A run that the breaker does not skip goes through the attempts that a backend would make in a row.
How these end is a sequence that does not depend on the run; `Course` says how far into it a run
comes, and what it makes of it.
-/

namespace FleetRing

section Attempts

variable {σ : Type} (attempt : σ → Attempt × σ) (backend : σ)

/-- The backend after a number of attempts in a row. -/
def afterAttempts (count : Nat) : σ :=
  (fun backend => (attempt backend).2)^[count] backend

/-- How the attempt with an index ends, if it is made. -/
def endingAt (index : Nat) : AttemptEnding :=
  (attempt (afterAttempts attempt backend index)).1.ending

/-- What a run comes to whose last attempt ended like this. -/
def AttemptEnding.outcome : AttemptEnding → PersistOutcome
  | succeeded => .persisted
  | refused => .failed
  | crashed => .crashed
  | hung => .timedOut

/-- A run that makes attempts one by one. -/
structure Course (limit attempts : Nat) (outcome : PersistOutcome) (final : σ) : Prop where
  /-- It never makes more than the limit, -/
  within : attempts ≤ limit
  /-- goes on only after an attempt was refused, -/
  refused : ∀ index, index + 1 < attempts → endingAt attempt backend index = .refused
  /-- and stops early only after one that was not. -/
  stopped : attempts < limit → ∃ last, attempts = last + 1 ∧
    endingAt attempt backend last ≠ .refused
  persisted : outcome = .persisted ↔ ∃ index < attempts,
    endingAt attempt backend index = .succeeded ∧
      ∀ earlier < index, endingAt attempt backend earlier = .refused
  crashed : outcome = .crashed ↔ ∃ index < attempts, endingAt attempt backend index = .crashed
  timedOut : outcome = .timedOut ↔ ∃ index < attempts, endingAt attempt backend index = .hung
  failed : outcome = .failed ↔
    attempts = limit ∧ ∀ index < limit, endingAt attempt backend index = .refused
  attempted : outcome ≠ .skipped
  backend : final = afterAttempts attempt backend attempts

variable {attempt backend}

/-- The attempts after the first one are those of the backend that it left. -/
theorem afterAttempts_succ {tried : Attempt} {next : σ} (given : attempt backend = (tried, next))
    (count : Nat) :
    afterAttempts attempt backend (count + 1) = afterAttempts attempt next count := by
  rw [afterAttempts, Function.iterate_succ_apply, given, afterAttempts]

theorem endingAt_succ {tried : Attempt} {next : σ} (given : attempt backend = (tried, next))
    (index : Nat) : endingAt attempt backend (index + 1) = endingAt attempt next index := by
  rw [endingAt, afterAttempts_succ given, endingAt]

/-- Attempts are made up to the first one that is not refused; without such a one they are made up
to the limit. -/
theorem makeAttempts_cases (attempt : σ → Attempt × σ) (limit made : Nat) (elapsed : Time)
    (backend : σ) :
    (∃ last < limit, (∀ index < last, endingAt attempt backend index = .refused) ∧
        endingAt attempt backend last ≠ .refused ∧ ∃ total,
          PersistPolicy.makeAttempts attempt limit made elapsed backend =
            ⟨(endingAt attempt backend last).outcome, made + (last + 1),
              afterAttempts attempt backend (last + 1), total⟩) ∨
      (∀ index < limit, endingAt attempt backend index = .refused) ∧ ∃ total,
        PersistPolicy.makeAttempts attempt limit made elapsed backend =
          ⟨.failed, made + limit, afterAttempts attempt backend limit, total⟩ := by
  induction limit generalizing made elapsed backend with
  | zero => exact .inr ⟨fun index bound => absurd bound (Nat.not_lt_zero index), elapsed, rfl⟩
  | succ limit ih =>
    obtain ⟨⟨ending, took⟩, next, given⟩ : ∃ tried next, attempt backend = (tried, next) :=
      ⟨_, _, rfl⟩
    have first : endingAt attempt backend 0 = ending := by simp [endingAt, afterAttempts, given]
    cases ending with
    | refused =>
      have unfolded : PersistPolicy.makeAttempts attempt (limit + 1) made elapsed backend =
          PersistPolicy.makeAttempts attempt limit (made + 1) (elapsed + took) next := by
        simp only [PersistPolicy.makeAttempts, given]
      rw [unfolded]
      have shift : ∀ bound, (∀ index < bound, endingAt attempt next index = .refused) →
          ∀ index < bound + 1, endingAt attempt backend index = .refused := by
        rintro bound refused (_ | index) below
        · exact first
        · rw [endingAt_succ given]
          exact refused index (Nat.lt_of_succ_lt_succ below)
      rcases ih (made + 1) (elapsed + took) next with
        ⟨last, bound, refused, decided, total, same⟩ | ⟨refused, total, same⟩
      · refine .inl ⟨last + 1, Nat.succ_lt_succ bound, shift last refused, ?_, total, ?_⟩
        · rwa [endingAt_succ given]
        · rw [same, endingAt_succ given, afterAttempts_succ given, Nat.add_right_comm made 1]
          rfl
      · refine .inr ⟨shift limit refused, total, ?_⟩
        rw [same, afterAttempts_succ given, Nat.add_right_comm made 1]
        rfl
    | succeeded | crashed | hung =>
      refine .inl ⟨0, Nat.succ_pos limit, by simp, by simp [first], ?_⟩
      simp [PersistPolicy.makeAttempts, given, first, AttemptEnding.outcome, afterAttempts]

/-- When everything before an attempt was refused, it alone can have ended otherwise. -/
theorem exists_ending_iff {last : Nat}
    (refused : ∀ index < last, endingAt attempt backend index = .refused) {ending : AttemptEnding}
    (other : ending ≠ .refused) :
    (∃ index < last + 1, endingAt attempt backend index = ending) ↔
      endingAt attempt backend last = ending := by
  refine ⟨?_, fun ends => ⟨last, Nat.lt_succ_self last, ends⟩⟩
  rintro ⟨index, bound, ends⟩
  rcases Nat.lt_succ_iff_lt_or_eq.mp bound with before | rfl
  · exact absurd (ends.symm.trans (refused index before)) other
  · exact ends

/-- Attempts that end differently make runs of different outcomes. -/
theorem AttemptEnding.outcome_eq_iff (ending other : AttemptEnding) :
    ending.outcome = other.outcome ↔ ending = other := by
  cases ending <;> cases other <;> decide

theorem AttemptEnding.outcome_ne_skipped (ending : AttemptEnding) : ending.outcome ≠ .skipped := by
  cases ending <;> decide

/-- A run up to the first attempt that is not refused. -/
theorem Course.decided {limit last : Nat} (bound : last < limit)
    (refused : ∀ index < last, endingAt attempt backend index = .refused)
    (decided : endingAt attempt backend last ≠ .refused) :
    Course attempt backend limit (last + 1) (endingAt attempt backend last).outcome
      (afterAttempts attempt backend (last + 1)) where
  within := bound
  refused index before := refused index (Nat.lt_of_succ_lt_succ before)
  stopped _ := ⟨last, rfl, decided⟩
  persisted := by
    refine (AttemptEnding.outcome_eq_iff _ .succeeded).trans
      ⟨fun succeeded => ⟨last, Nat.lt_succ_self last, succeeded, refused⟩, ?_⟩
    rintro ⟨index, before, succeeded, -⟩
    exact (exists_ending_iff refused (by decide)).mp ⟨index, before, succeeded⟩
  crashed := (AttemptEnding.outcome_eq_iff _ .crashed).trans
    (exists_ending_iff refused (by decide)).symm
  timedOut := (AttemptEnding.outcome_eq_iff _ .hung).trans
    (exists_ending_iff refused (by decide)).symm
  failed := iff_of_false (mt (AttemptEnding.outcome_eq_iff _ .refused).mp decided)
    fun all => decided (all.2 last bound)
  attempted := AttemptEnding.outcome_ne_skipped _
  backend := rfl

/-- A run whose attempts are all refused. -/
theorem Course.exhausted {limit : Nat}
    (refused : ∀ index < limit, endingAt attempt backend index = .refused) :
    Course attempt backend limit limit .failed (afterAttempts attempt backend limit) := by
  have none : ∀ ending ≠ AttemptEnding.refused,
      ¬ ∃ index < limit, endingAt attempt backend index = ending := by
    rintro ending other ⟨index, bound, ends⟩
    exact other (ends.symm.trans (refused index bound))
  exact {
    within := Nat.le_refl limit
    refused := fun index before => refused index (Nat.lt_of_succ_lt before)
    stopped := fun short => absurd short (Nat.lt_irrefl limit)
    persisted := iff_of_false (by decide) fun ⟨index, bound, ends, _⟩ =>
      none _ (by decide) ⟨index, bound, ends⟩
    crashed := iff_of_false (by decide) (none _ (by decide))
    timedOut := iff_of_false (by decide) (none _ (by decide))
    failed := iff_of_true rfl ⟨rfl, refused⟩
    attempted := by decide
    backend := rfl }

/-- The attempts of a run that is not skipped. -/
theorem course_makeAttempts (attempt : σ → Attempt × σ) (backend : σ) (limit : Nat) :
    let tries := PersistPolicy.makeAttempts attempt limit 0 0 backend
    Course attempt backend limit tries.attempts tries.outcome tries.backend := by
  rcases makeAttempts_cases attempt limit 0 0 backend with
    ⟨last, bound, refused, decided, total, same⟩ | ⟨refused, total, same⟩
  · simpa only [same, Nat.zero_add] using Course.decided bound refused decided
  · simpa only [same, Nat.zero_add] using Course.exhausted refused

end Attempts

namespace PersistPolicy

variable {σ : Type} {policy : PersistPolicy} {breaker : Breaker} {now : Time}

/-- A run that starts while the breaker is open leaves everything as it is. -/
theorem run_of_open (isOpen : breaker.isOpen now = true) (attempt : σ → Attempt × σ) (backend : σ) :
    policy.run breaker now attempt backend = ⟨.skipped, 0, breaker, backend, now⟩ :=
  if_pos isOpen

/-- Any other run makes its attempts, and the breaker takes note of what comes of them. One that
hangs is given up when the timeout has passed. -/
structure Carries (policy : PersistPolicy) (breaker : Breaker) (now : Time)
    (attempt : σ → Attempt × σ) (backend : σ) (run : PersistRun σ) : Prop where
  course : Course attempt backend policy.retryLimit run.attempts run.outcome run.backend
  recorded : run.breaker = breaker.record policy run.outcome run.ended
  later : now ≤ run.ended
  timed : run.outcome = .timedOut → run.ended = now + policy.timeout

theorem run_of_closed (closed : breaker.isOpen now = false) (attempt : σ → Attempt × σ)
    (backend : σ) :
    policy.Carries breaker now attempt backend (policy.run breaker now attempt backend) := by
  have course := course_makeAttempts attempt backend policy.retryLimit
  rw [run, if_neg (by simp [closed])]
  exact ⟨course, rfl, Nat.le_add_right now _, fun late => congrArg (now + ·) (if_pos late)⟩

end PersistPolicy

end FleetRing
