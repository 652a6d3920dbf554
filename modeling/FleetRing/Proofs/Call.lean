/-!
# Calls that work on a state

A call reads a state and changes it, one thing after the other, and may break off
with an error. What it changed until then stays changed, so that a call which
breaks off leaves everything as it was is something to prove.
-/

namespace FleetRing

/-- A call that works on a state, and leaves it as it is then when it breaks off. -/
abbrev Call (Fault State : Type) :=
  ExceptT Fault (StateM State)

namespace Call

variable {Fault State α β : Type}

theorem run_pure (answer : α) (state : State) :
    (pure answer : Call Fault State α).run.run state = (.ok answer, state) := rfl

theorem run_get (next : State → Call Fault State α) (state : State) :
    (get >>= next).run.run state = (next state).run.run state := rfl

/-- A call goes on from the state that its first part leaves, unless that broke off. -/
theorem run_bind (first : Call Fault State β) (next : β → Call Fault State α) (state : State) :
    (first >>= next).run.run state =
      match first.run.run state with
      | (.ok answer, after) => (next answer).run.run after
      | (.error fault, after) => (.error fault, after) := by
  change StateT.run (ExceptT.run first >>= ExceptT.bindCont next) state = _
  rw [StateT.run_bind]
  rcases first.run.run state with ⟨_ | _, _⟩ <;> rfl

/-- End a call when something is wrong. -/
def refuseIf (wrong : Bool) (fault : Fault) : Call Fault State Unit :=
  if wrong then throw fault else pure ()

theorem run_refuseIf (wrong : Bool) (fault : Fault) (next : Unit → Call Fault State α)
    (state : State) : (refuseIf wrong fault >>= next).run.run state =
      if wrong then (.error fault, state) else (next ()).run.run state := by
  cases wrong <;> rfl

end Call

end FleetRing
