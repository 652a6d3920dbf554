import FleetRing.Event

/-!
# Bounded retry and the circuit breaker

A persistence run makes attempts one by one until one succeeds, crashes or hangs,
or the limit is reached. Runs that fail in a row open a breaker; while it is
open, runs are skipped. An attempt that hangs is given up when the timeout has
passed since the run started. That ends the run: whether the attempt ends later, and
whether others follow it then, is no part of the run, which was reported already.
-/

namespace FleetRing

/-- How an attempt ended. -/
inductive AttemptEnding where
  | succeeded
  | refused
  | crashed
  /-- It had not ended when the run was given up. -/
  | hung
  deriving DecidableEq, Repr

/-- An attempt and the time that it took. -/
structure Attempt where
  ending : AttemptEnding
  took : Time := 0
  deriving DecidableEq, Repr

/-- How a run ended. -/
inductive PersistOutcome where
  | persisted
  /-- Every attempt was refused. -/
  | failed
  | timedOut
  /-- The breaker was open; nothing was attempted. -/
  | skipped
  | crashed
  deriving DecidableEq, Repr

/-- Does a run with this outcome count as a failure? -/
def PersistOutcome.isFailure : PersistOutcome → Bool
  | failed | timedOut | crashed => true
  | persisted | skipped => false

/-- The limits of persistence runs. -/
structure PersistPolicy where
  retryLimit : Nat
  timeout : Time
  /-- Failures in a row that open the breaker; zero never opens it. -/
  threshold : Nat
  cooldown : Time
  deriving DecidableEq, Repr

/-- The failures in a row, and until when runs are skipped. -/
structure Breaker where
  failures : Nat := 0
  openUntil : Option Time := none
  deriving DecidableEq, Repr

namespace Breaker

/-- Is the breaker open at a time? -/
def isOpen (breaker : Breaker) (now : Time) : Bool :=
  match breaker.openUntil with
  | some limit => decide (now < limit)
  | none => false

/-- Take note of a run that ended at a time. A failure that reaches the threshold opens the
breaker and starts the count anew; a skipped run leaves no trace. -/
def record (breaker : Breaker) (policy : PersistPolicy) (outcome : PersistOutcome)
    (ended : Time) : Breaker :=
  if outcome = .persisted then ⟨0, none⟩
  else if outcome.isFailure then
    if 0 < policy.threshold ∧ policy.threshold ≤ breaker.failures + 1 then
      ⟨0, some (ended + policy.cooldown)⟩
    else ⟨breaker.failures + 1, breaker.openUntil⟩
  else breaker

end Breaker

/-- What a run leaves behind. -/
structure PersistRun (σ : Type) where
  outcome : PersistOutcome
  /-- How many attempts were started. -/
  attempts : Nat
  breaker : Breaker
  backend : σ
  ended : Time

namespace PersistPolicy

/-- What a sequence of attempts leaves behind. -/
structure Tries (σ : Type) where
  outcome : PersistOutcome
  attempts : Nat
  backend : σ
  elapsed : Time

/-- Make up to `limit` attempts, `made` of which were made before. The attempt that hangs is the
last one of its run; what goes on behind the run when it has ended is not followed. -/
def makeAttempts {σ : Type} (attempt : σ → Attempt × σ) : Nat → Nat → Time → σ → Tries σ
  | 0, made, elapsed, backend => ⟨.failed, made, backend, elapsed⟩
  | limit + 1, made, elapsed, backend =>
    match attempt backend with
    | (⟨.succeeded, took⟩, backend) => ⟨.persisted, made + 1, backend, elapsed + took⟩
    | (⟨.crashed, took⟩, backend) => ⟨.crashed, made + 1, backend, elapsed + took⟩
    | (⟨.hung, _⟩, backend) => ⟨.timedOut, made + 1, backend, elapsed⟩
    | (⟨.refused, took⟩, backend) =>
      makeAttempts attempt limit (made + 1) (elapsed + took) backend

/-- Run attempts against a backend, unless the breaker is open. A run ends with its timeout. -/
def run {σ : Type} (policy : PersistPolicy) (breaker : Breaker) (now : Time)
    (attempt : σ → Attempt × σ) (backend : σ) : PersistRun σ :=
  if breaker.isOpen now then ⟨.skipped, 0, breaker, backend, now⟩
  else
    let tries := makeAttempts attempt policy.retryLimit 0 0 backend
    let ended := now + if tries.outcome = .timedOut then policy.timeout else tries.elapsed
    ⟨tries.outcome, tries.attempts, breaker.record policy tries.outcome ended, tries.backend,
      ended⟩

end PersistPolicy

end FleetRing
