import FleetRing.Persist.Breaker
import FleetRing.Persist.Records

/-!
# A backend with scripted disturbances

The backend of a distributor is a record store behind a script. Each call uses
up one word of the script, and goes through undisturbed when there is none left.
Whatever a real backend may do to a call, some script does too: a call that would
take longer than its run may take is one that stalls. Calls take any time, and so
does the way from one run to the next; nothing passes where no time is given.
-/

namespace FleetRing

/-- What happens to a call. -/
inductive Disturbance where
  | proceed
  /-- The call reports failure without reaching the records. -/
  | refuse
  /-- The call crashes without reaching the records. -/
  | crash
  /-- The call does not return in time, and does not reach the records. -/
  | stall
  deriving DecidableEq, Repr

/-- How an attempt ends that is disturbed in some way, if it would succeed otherwise. -/
def Disturbance.ending : Disturbance → AttemptEnding
  | proceed => .succeeded
  | refuse => .refused
  | crash => .crashed
  | stall => .hung

/-- The next attempt of a script whose last word repeats for ever; attempts of an empty
script succeed. -/
def Disturbance.repeating : List Disturbance → Attempt × List Disturbance
  | [] => (⟨.succeeded, 0⟩, [])
  | [word] => (⟨word.ending, 0⟩, [word])
  | word :: next :: script => (⟨word.ending, 0⟩, next :: script)

/-- A record store behind a script. -/
structure Backend where
  script : List Disturbance := []
  records : RecordStore := {}
  /-- The times that pass before each run and in each attempt, none where nothing is said. -/
  pace : List Time := []
  /-- The order in which the entries of a version map are written. -/
  arrangement : VersionMap.Arrangement := .byText

namespace Backend

/-- How one call that writes to the records ends, with what is left of the script. -/
def answer (write : RecordStore → Bool × RecordStore) :
    List Disturbance → RecordStore → AttemptEnding × List Disturbance × RecordStore
  | .refuse :: script, records => (.refused, script, records)
  | .crash :: script, records => (.crashed, script, records)
  | .stall :: script, records => (.hung, script, records)
  | .proceed :: script, records => written script (write records)
  | [], records => written [] (write records)
where
  /-- The end of a call that went through. -/
  written (script : List Disturbance) :
      Bool × RecordStore → AttemptEnding × List Disturbance × RecordStore
    | (true, records) => (.succeeded, script, records)
    | (false, records) => (.refused, script, records)

/-- Let the next time pass. -/
def wait (backend : Backend) : Time × Backend :=
  match backend with
  | ⟨script, records, pace, arrangement⟩ =>
    (pace.headD 0, ⟨script, records, pace.tail, arrangement⟩)

/-- One call that writes to the records. -/
def attempt (write : RecordStore → Bool × RecordStore) (backend : Backend) : Attempt × Backend :=
  match backend.wait with
  | (took, ⟨script, records, pace, arrangement⟩) =>
    let (ending, script, records) := answer write script records
    (⟨ending, took⟩, ⟨script, records, pace, arrangement⟩)

/-- A persistence run for which a distributor gets ready at a time. -/
def run (backend : Backend) (policy : PersistPolicy) (breaker : Breaker) (now : Time)
    (write : RecordStore → Bool × RecordStore) : PersistRun Backend :=
  let (passed, backend) := backend.wait
  policy.run breaker (now + passed) (attempt write) backend

/-- The entries of the versions of a status, in the order in which they are written. -/
def arrange (backend : Backend) (status : StoreStatus) : List (Location × Version) :=
  backend.arrangement.entries status.versions

theorem enumerates_arrange (backend : Backend) (status : StoreStatus) :
    status.versions.Enumerates (backend.arrange status) :=
  backend.arrangement.enumerates status.versions

/-- Append words to the script. -/
def plan (backend : Backend) (words : List Disturbance) : Backend :=
  { backend with script := backend.script ++ words }

end Backend

end FleetRing
