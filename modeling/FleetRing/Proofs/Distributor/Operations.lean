import FleetRing.Proofs.Distributor.Tenure

/-!
# Runs as lists of operations

An `Operation` is something that is asked of a distributor: by a client, by the forwarder of
one of its watches, by those who report events, or by the backend. `perform` answers it in
every state, and one that is refused or impossible changes nothing. Operations are exactly the
steps of a distributor (`perform_steps`, `exists_operation`), so a list of operations is any
run, told in a way that does not depend on the state that it starts from.
-/

namespace FleetRing

namespace ClientQueue

/-- What the forwarder of a watch or its client does. -/
inductive Service where
  | take (watch : Nat) (now : Time)
  | deliver (watch : Nat)
  | quit (watch : Nat)
  | finish (watch : Nat)
  | leave (watch : Nat)
  | receive (watch : Nat)
  | signal (watch : Nat) (signal : StopSignal)
  | release (watch : Nat)
  deriving DecidableEq, Repr

variable {queue next : ClientQueue} {occurrence : Occurrence}

/-- The forwarder of a watch makes a step, if it can. -/
def forward? (queue : ClientQueue) (watch : Nat) (step : WatchStream → Option WatchStream) :
    Option (Occurrence × ClientQueue) :=
  (queue.stream? watch).bind fun stream =>
    (step stream).map fun moved => (.forwarded watch, queue.putStream watch moved)

/-- What a service shows and leaves, if it is possible. -/
def serve? (queue : ClientQueue) : Service → Option (Occurrence × ClientQueue)
  | .take watch now => queue.forward? watch (·.take? now)
  | .deliver watch => queue.forward? watch (·.deliver?)
  | .quit watch => queue.forward? watch (·.quit?)
  | .finish watch => queue.forward? watch (·.finish? (queue.watcher == some watch))
  | .leave watch => queue.forward? watch (·.leave?)
  | .receive watch => (queue.receive? watch).map fun given => (.received watch given.1, given.2)
  | .signal watch signal =>
    if signal = .armed then none else some (.signalled watch signal, queue.signal watch signal)
  | .release watch => (queue.stream? watch).map fun stream =>
      (.released watch stream.output.toList, queue.dropReceiver watch)

theorem forward?_eq_some {watch : Nat} {step : WatchStream → Option WatchStream}
    (forwards : ∀ {stream moved}, step stream = some moved →
      stream.Forwards (queue.watcher == some watch) moved)
    (served : queue.forward? watch step = some (occurrence, next)) :
    occurrence.isService = true ∧ Step queue occurrence next := by
  obtain ⟨stream, found, rest⟩ := Option.bind_eq_some_iff.mp served
  obtain ⟨moved, stepped, same⟩ := Option.map_eq_some_iff.mp rest
  obtain ⟨rfl, rfl⟩ := Prod.mk.inj same
  exact ⟨rfl, .forward found (forwards stepped)⟩

/-- Services are the steps of a queue that it has no part in. -/
theorem exists_service_iff : (∃ service, queue.serve? service = some (occurrence, next)) ↔
    occurrence.isService = true ∧ Step queue occurrence next := by
  constructor
  · rintro ⟨service, served⟩
    cases service with
    | take watch now => exact forward?_eq_some (fun taken => .take now taken) served
    | deliver watch => exact forward?_eq_some (fun delivered => .deliver delivered) served
    | quit watch => exact forward?_eq_some (fun stopped => .quit stopped) served
    | finish watch => exact forward?_eq_some (fun drained => .finish drained) served
    | leave watch => exact forward?_eq_some (fun left => .leave left) served
    | receive watch =>
      obtain ⟨⟨event, after⟩, given, same⟩ := Option.map_eq_some_iff.mp served
      obtain ⟨rfl, rfl⟩ := Prod.mk.inj same
      exact ⟨rfl, .receive given⟩
    | signal watch signal =>
      simp only [serve?] at served
      split at served
      · cases served
      · next spent =>
        obtain ⟨rfl, rfl⟩ := Prod.mk.inj (Option.some.inj served)
        exact ⟨rfl, .signal watch signal spent⟩
    | release watch =>
      obtain ⟨stream, found, same⟩ := Option.map_eq_some_iff.mp served
      obtain ⟨rfl, rfl⟩ := Prod.mk.inj same
      exact ⟨rfl, .release found⟩
  · rintro ⟨isService, transition⟩
    cases transition with
    | push | overflow | watch | refuse => cases isService
    | @forward watch stream moved found forwards =>
      cases forwards with
      | take now taken => exact ⟨.take watch now, by simp [serve?, forward?, found, taken]⟩
      | deliver delivered => exact ⟨.deliver watch, by simp [serve?, forward?, found, delivered]⟩
      | quit stopped => exact ⟨.quit watch, by simp [serve?, forward?, found, stopped]⟩
      | finish drained => exact ⟨.finish watch, by simp [serve?, forward?, found, drained]⟩
      | leave left => exact ⟨.leave watch, by simp [serve?, forward?, found, left]⟩
    | @receive watch event _ given => exact ⟨.receive watch, by simp [serve?, given]⟩
    | signal watch signal spent => exact ⟨.signal watch signal, by simp [serve?, spent]⟩
    | @release watch stream found => exact ⟨.release watch, by simp [serve?, found]⟩

end ClientQueue

namespace Distributor

/-- Something that is asked of a distributor. -/
inductive Operation where
  | register (now : Time) (client : String) (requested : Nat)
  | ingest (now : Time) (events : List NodeEvent)
  | list (client : String)
  | watch (client : String) (floors : List (Location × Version)) (capacity : Nat)
  /-- A forwarder of the client, or the client itself, sees to one of its watches. -/
  | serve (client : String) (service : ClientQueue.Service)
  /-- The backend becomes another one. -/
  | disturb (backend : Backend)

variable {config : Config} {dist next : Distributor} {shown trace : Trace}

/-- What a service of a client shows and leaves, if it is possible. -/
def serve? (dist : Distributor) (client : String) (service : ClientQueue.Service) :
    Option (Nat × ClientQueue.Occurrence × Distributor) := do
  let held ← dist.client? client
  let queue ← dist.queues.get? held.queue
  let (occurrence, next) ← queue.serve? service
  return (held.queue, occurrence,
    { dist with queues := dist.queues.modify held.queue fun _ => next })

/-- What an operation shows and leaves. -/
def perform (dist : Distributor) : Operation → Trace × Distributor
  | .register now client requested =>
    match dist.register now client requested with
    | .ok next => ([.registered client], next)
    | .error _ => ([], dist)
  | .ingest now events =>
    (dist.intake ((receive now events).filterMap accept?), (dist.ingest now events).dist)
  | .list _ => ([], dist)
  | .watch client floors capacity =>
    match dist.watchFrom client floors capacity with
    | .ok (number, watch, next) => ([.watched client number watch], next)
    | .error _ => ([], dist)
  | .serve client service =>
    match dist.serve? client service with
    | some (number, occurrence, next) => ([.served number occurrence], next)
    | none => ([], dist)
  | .disturb backend => ([], { dist with backend })

/-- What operations show and leave, one after the other. -/
def performAll (dist : Distributor) : List Operation → Trace × Distributor
  | [] => ([], dist)
  | operation :: operations =>
    let (shown, next) := dist.perform operation
    let (rest, later) := next.performAll operations
    (shown ++ rest, later)

/-- What a client does to get the next event of a watch. -/
def fetch (client : String) (watch : Nat) : List Operation :=
  [.serve client (.take watch 0), .serve client (.deliver watch), .serve client (.receive watch)]

/-- A service that is possible is one of the client's queue. -/
theorem serve?_eq_some {client : String} {service : ClientQueue.Service} {number : Nat}
    {occurrence : ClientQueue.Occurrence} :
    dist.serve? client service = some (number, occurrence, next) ↔
      ∃ held queue after, dist.client? client = some held ∧ number = held.queue ∧
        dist.queues.get? held.queue = some queue ∧
        queue.serve? service = some (occurrence, after) ∧
        next = { dist with queues := dist.queues.modify held.queue fun _ => after } := by
  simp only [serve?, Option.bind_eq_bind, Option.bind_eq_some_iff, Option.pure_def,
    Option.some.injEq, Prod.mk.injEq, Prod.exists]
  constructor
  · rintro ⟨held, known, queue, here, _, after, served, rfl, rfl, rfl⟩
    exact ⟨held, queue, after, known, rfl, here, served, rfl⟩
  · rintro ⟨held, queue, after, known, rfl, here, served, rfl⟩
    exact ⟨held, known, queue, here, _, after, served, rfl, rfl, rfl⟩

/-- A watch that is accepted leads to what performing it leaves. -/
theorem watchFrom_eq_perform {client : String} {floors : List (Location × Version)}
    {capacity number watch : Nat}
    (accepted : (dist.watchFrom client floors capacity).toOption.map
      (fun answer => (answer.1, answer.2.1)) = some (number, watch)) :
    dist.watchFrom client floors capacity =
      .ok (number, watch, (dist.perform (.watch client floors capacity)).2) := by
  cases granted : dist.watchFrom client floors capacity with
  | error refusal => simp [granted, Except.toOption] at accepted
  | ok answer =>
    obtain ⟨rfl, rfl⟩ : answer.1 = number ∧ answer.2.1 = watch := by
      simpa [granted, Except.toOption] using accepted
    simp only [perform, granted]

/-- Every operation is a step, or none if it is refused. -/
theorem perform_steps (dist : Distributor) (operation : Operation) :
    Steps dist (dist.perform operation).1 (dist.perform operation).2 := by
  cases operation with
  | register now client requested =>
    simp only [perform]
    split
    · next accepted => exact .single (.register accepted)
    · exact .refl
  | ingest now events => exact .single (.ingest now events)
  | list => exact .refl
  | watch client floors capacity =>
    simp only [perform]
    split
    · next accepted => exact .single (.watch accepted)
    · exact .refl
  | serve client service =>
    simp only [perform]
    split
    · next served =>
      obtain ⟨held, queue, after, -, rfl, here, stepped, rfl⟩ := serve?_eq_some.mp served
      obtain ⟨isService, moved⟩ := ClientQueue.exists_service_iff.mp ⟨service, stepped⟩
      exact .single (.serve here isService moved)
    · exact .refl
  | disturb backend => exact .single (.disturb backend)

/-- So operations are a run. -/
theorem performAll_steps (dist : Distributor) (operations : List Operation) :
    Steps dist (dist.performAll operations).1 (dist.performAll operations).2 := by
  induction operations generalizing dist with
  | nil => exact .refl
  | cons operation operations ih =>
    exact (dist.perform_steps operation).trans (ih (dist.perform operation).2)

theorem performAll_append (dist : Distributor) (first second : List Operation) :
    dist.performAll (first ++ second) =
      ((dist.performAll first).1 ++ ((dist.performAll first).2.performAll second).1,
        ((dist.performAll first).2.performAll second).2) := by
  induction first generalizing dist with
  | nil => rfl
  | cons operation first ih => simp [performAll, ih, List.append_assoc]

/-- Every step of a reachable distributor is an operation. -/
theorem exists_operation (reached : Reachable config trace dist)
    (transition : Step dist shown next) :
    ∃ operation, dist.perform operation = (shown, next) := by
  cases transition with
  | @register now client requested next accepted =>
    exact ⟨.register now client requested, by simp [perform, accepted]⟩
  | ingest now events => exact ⟨.ingest now events, rfl⟩
  | @watch client floors capacity number watch next accepted =>
    exact ⟨.watch client floors capacity, by simp [perform, accepted]⟩
  | @serve number queue after occurrence here isService moved =>
    obtain ⟨held, known, rfl⟩ := reached.enrolled.client number queue here
    obtain ⟨service, stepped⟩ := ClientQueue.exists_service_iff.mpr ⟨isService, moved⟩
    have served : dist.serve? queue.client service = some (held.queue, occurrence, _) :=
      serve?_eq_some.mpr ⟨held, queue, after, known, rfl, here, stepped, rfl⟩
    exact ⟨.serve queue.client service, by simp [perform, served]⟩
  | disturb backend => exact ⟨.disturb backend, rfl⟩

/-- So every run is one of operations. -/
theorem exists_operations (reached : Reachable config trace dist) (run : Steps dist shown next) :
    ∃ operations, dist.performAll operations = (shown, next) := by
  induction run with
  | refl => exact ⟨[], rfl⟩
  | step prior transition ih =>
    obtain ⟨operations, performed⟩ := ih
    obtain ⟨last, alsoPerformed⟩ := exists_operation (reached.trans prior) transition
    refine ⟨operations ++ [last], ?_⟩
    simp [performAll_append, performed, performAll, alsoPerformed]

end Distributor

end FleetRing
