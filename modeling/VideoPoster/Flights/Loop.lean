import Mathlib.Logic.Relation
import VideoPoster.Python.Basic

/-!
# Compiled renders on one event loop

`render_compiled_video_async` as a machine whose steps are what happens between two awaits.
-/

namespace VideoPoster.Flights
open Python Flights

variable {Contract Outcome : Type}

structure Semaphore where
  value : ℕ
  waiters : List (ℕ × Bool)

namespace Semaphore

def locked (s : Semaphore) : Bool := s.value == 0 || !s.waiters.isEmpty

def wakeFirst : List (ℕ × Bool) → Option (List (ℕ × Bool))
  | [] => none
  | (flight, true) :: rest => (wakeFirst rest).map ((flight, true) :: ·)
  | (flight, false) :: rest => some ((flight, true) :: rest)

def wakeUpNext (s : Semaphore) : Option Semaphore :=
  (wakeFirst s.waiters).map fun waiters => ⟨s.value - 1, waiters⟩

def wakeAll : ℕ → List (ℕ × Bool) → Semaphore
  | 0, waiters => ⟨0, waiters⟩
  | value + 1, waiters =>
    match wakeFirst waiters with
    | none => ⟨value + 1, waiters⟩
    | some woken => wakeAll value woken

def release (s : Semaphore) : Semaphore :=
  let released : Semaphore := ⟨s.value + 1, s.waiters⟩
  released.wakeUpNext.getD released

def admitted (s : Semaphore) (flight : ℕ) : Semaphore := wakeAll s.value (s.waiters.erase (flight, true))

end Semaphore

inductive Phase (Outcome : Type) where
  | scheduled
  | waiting
  /-- The permit is taken and the render is given to a thread. -/
  | submitted
  | rendering
  | rendered (outcome : Outcome)
  /-- The task is done and its callback has not run. -/
  | ended (outcome : Outcome)
  | unwound (outcome : Outcome)

structure Flight (Outcome : Type) where
  episode : String
  contractSha256 : String
  phase : Phase Outcome

inductive Caller (Outcome : Type) where
  | awaiting (flight : ℕ)
  | returned (flight : ℕ) (outcome : Outcome)
  | cancelled (flight : ℕ)
  | refused (error : Error)

structure State (Outcome : Type) where
  /-- `_compiled_render_flights`. -/
  flights : String → Option (String × ℕ)
  semaphore : Semaphore
  /-- All flights that were created, in order. -/
  tasks : List (Flight Outcome)
  callers : List (Caller Outcome)

def State.initial (poolSize : ℕ) : State Outcome := ⟨fun _ => none, ⟨poolSize, []⟩, [], []⟩

namespace Phase

def holds : Phase Outcome → Bool
  | .submitted | .rendering | .rendered _ => true
  | _ => false

def renders : Phase Outcome → Bool
  | .rendering => true
  | _ => false

def outcome? : Phase Outcome → Option Outcome
  | .ended outcome | .unwound outcome => some outcome
  | _ => none

def gone : Phase Outcome → Bool
  | .unwound _ => true
  | _ => false

end Phase

namespace State

def advance (s : State Outcome) (flight : ℕ) (task : Flight Outcome) (phase : Phase Outcome) : State Outcome :=
  { s with tasks := s.tasks.set flight { task with phase } }

def settle (s : State Outcome) (caller : ℕ) (value : Caller Outcome) : State Outcome :=
  { s with callers := s.callers.set caller value }

end State

inductive Act (Contract Outcome : Type) where
  /-- A caller runs until it awaits the shield; the contract is what its inputs give. -/
  | call (episode : String) (contract : Result Contract)
  | cancel (caller : ℕ)
  | resume (caller : ℕ)
  /-- The task of a flight runs for the first time, until it has the permit or waits for it. -/
  | start (flight : ℕ)
  | wake (flight : ℕ)
  | enter (flight : ℕ)
  | leave (flight : ℕ) (outcome : Outcome)
  /-- No thread takes the render. -/
  | reject (flight : ℕ) (outcome : Outcome)
  | finish (flight : ℕ)
  | releaseOwner (flight : ℕ)

section Steps
variable (digest : Contract → String)

def conflict : Error := .value "compiled render contract conflict for in-flight episode"

def call (s : State Outcome) (episode : String) : Result Contract → State Outcome
  | .error error => { s with callers := s.callers ++ [.refused error] }
  | .ok contract =>
    match s.flights episode with
    | none =>
      { s with
        flights := Function.update s.flights episode (some (digest contract, s.tasks.length))
        tasks := s.tasks ++ [⟨episode, digest contract, .scheduled⟩]
        callers := s.callers ++ [.awaiting s.tasks.length] }
    | some (active, flight) =>
      if active = digest contract then { s with callers := s.callers ++ [.awaiting flight] }
      else { s with callers := s.callers ++ [.refused conflict] }

def start (s : State Outcome) (flight : ℕ) (task : Flight Outcome) : State Outcome :=
  if s.semaphore.locked then
    { s.advance flight task .waiting with
      semaphore := { s.semaphore with waiters := s.semaphore.waiters ++ [(flight, false)] } }
  else { s.advance flight task .submitted with semaphore := { s.semaphore with value := s.semaphore.value - 1 } }

def releaseOwner (s : State Outcome) (flight : ℕ) (task : Flight Outcome) (outcome : Outcome) : State Outcome :=
  { s.advance flight task (.unwound outcome) with
    flights := if s.flights task.episode = some (task.contractSha256, flight)
      then Function.update s.flights task.episode none else s.flights }

def flightStep (s : State Outcome) (flight : ℕ) (task : Flight Outcome) :
    Act Contract Outcome → Option (State Outcome)
  | .start _ =>
    match task.phase with
    | .scheduled => some (start s flight task)
    | _ => none
  | .wake _ =>
    match task.phase with
    | .waiting =>
      if (flight, true) ∈ s.semaphore.waiters then
        some { s.advance flight task .submitted with semaphore := s.semaphore.admitted flight }
      else none
    | _ => none
  | .enter _ =>
    match task.phase with
    | .submitted => some (s.advance flight task .rendering)
    | _ => none
  | .leave _ outcome =>
    match task.phase with
    | .rendering => some (s.advance flight task (.rendered outcome))
    | _ => none
  | .reject _ outcome =>
    match task.phase with
    | .submitted => some (s.advance flight task (.rendered outcome))
    | _ => none
  | .finish _ =>
    match task.phase with
    | .rendered outcome =>
      some { s.advance flight task (.ended outcome) with semaphore := s.semaphore.release }
    | _ => none
  | .releaseOwner _ =>
    match task.phase with
    | .ended outcome => some (releaseOwner s flight task outcome)
    | _ => none
  | _ => none

def cancel (s : State Outcome) (caller : ℕ) : Option (State Outcome) :=
  match s.callers[caller]? with
  | some (.awaiting flight) => some (s.settle caller (.cancelled flight))
  | _ => none

def resume (s : State Outcome) (caller : ℕ) : Option (State Outcome) :=
  match s.callers[caller]? with
  | some (.awaiting flight) =>
    (s.tasks[flight]?.bind fun task => task.phase.outcome?).map fun outcome =>
      s.settle caller (.returned flight outcome)
  | _ => none

def Act.flight? : Act Contract Outcome → Option ℕ
  | .start flight | .wake flight | .enter flight | .leave flight _ | .reject flight _ | .finish flight
  | .releaseOwner flight => some flight
  | _ => none

def exec (s : State Outcome) (action : Act Contract Outcome) : Option (State Outcome) :=
  match action with
  | .call episode contract => some (call digest s episode contract)
  | .cancel caller => cancel s caller
  | .resume caller => resume s caller
  | action =>
    action.flight?.bind fun flight => s.tasks[flight]?.bind fun task => flightStep s flight task action

def Step (s s' : State Outcome) : Prop := ∃ action : Act Contract Outcome, exec digest s action = some s'

abbrev Reaches : State Outcome → State Outcome → Prop := Relation.ReflTransGen (Step digest)

end Steps

end VideoPoster.Flights
