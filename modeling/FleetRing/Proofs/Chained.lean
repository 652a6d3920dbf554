/-!
# Runs

A run strings steps of a relation together, in any order in which they are possible, and
keeps what each of them showed.
-/

namespace FleetRing

/-- Zero or more steps of a relation, with what they showed. -/
inductive Chained {σ ω : Type} (step : σ → List ω → σ → Prop) (start : σ) : List ω → σ → Prop where
  | refl : Chained step start [] start
  | step {trace shown : List ω} {state next : σ} (prior : Chained step start trace state)
      (transition : step state shown next) : Chained step start (trace ++ shown) next

namespace Chained

variable {σ ω : Type} {step other : σ → List ω → σ → Prop} {start middle finish : σ}
  {shown earlier later : List ω}

theorem single (transition : step start shown finish) : Chained step start shown finish := by
  simpa using Chained.refl.step transition

/-- Compose two runs that meet at the same state. -/
theorem trans (first : Chained step start earlier middle)
    (second : Chained step middle later finish) :
    Chained step start (earlier ++ later) finish := by
  induction second with
  | refl => simpa using first
  | step prior transition ih =>
    rw [← List.append_assoc]
    exact .step ih transition

/-- A run of steps is a run of whatever smaller steps they consist of. -/
theorem refine (each : ∀ {state shown next}, step state shown next → Chained other state shown next)
    (run : Chained step start shown finish) : Chained other start shown finish := by
  induction run with
  | refl => exact .refl
  | step prior transition ih => exact ih.trans (each transition)

end Chained

end FleetRing
