import Baton.Io.Clock

/-!
# Parkers

A parker lets one thread wait for a token. The word is 1 when the token is there. Parking takes the
token if it can; else it sleeps in the kernel while there is none, until a deadline if it has one,
and looks once more after the deadline. The deadline is formed before all that, and a parking panics
if it cannot be formed. Unparking puts the token there, and wakes the sleeper if there was none.

Each atomic operation and each call of the kernel is one step. The sleeper may return without a
reason, and an action that is not possible changes nothing.
-/

namespace Baton

/-- Where the parking thread is, with the deadline of the parking if it has one. -/
inductive ParkPhase where
  | away
  /-- About to take the token. -/
  | taking (deadline : Option Instant)
  /-- Found no token; about to look at the clock. -/
  | checking (deadline : Option Instant)
  /-- About to enter the kernel. -/
  | entering (deadline : Option Instant)
  /-- Asleep in the kernel. -/
  | asleep (deadline : Option Instant)
  /-- Past the deadline; about to take the token a last time. -/
  | lastTake
  deriving DecidableEq

/-- A parker, with its thread and the threads that unpark it. -/
structure Parker where
  word : UInt32
  phase : ParkPhase
  /-- How many threads have put the token there and are about to wake the sleeper. -/
  wakers : Nat
  /-- The answers of the parkings that returned, newest first. -/
  answers : List Bool
  /-- How many parkings have panicked. -/
  panics : Nat
  deriving DecidableEq

/-- One atomic operation or call of the kernel. -/
inductive ParkAction where
  /-- Starts to park at the reading `now` of the clock, for at most `timeout` if that is given. -/
  | park (timeout : Option Span) (now : Instant)
  /-- The parking thread goes on; if it looks at the clock, it reads `now`. -/
  | advance (now : Instant)
  /-- The sleeper returns without a reason. -/
  | disturb
  /-- The sleeper's time is over. -/
  | expire
  /-- Puts the token there. -/
  | unpark
  /-- A thread that put the token there wakes the sleeper. -/
  | wake

namespace Parker

/-- A parker without a token. -/
def fresh : Parker := ⟨0, .away, 0, [], 0⟩

/-- Starts to park, which panics if the deadline cannot be formed. -/
def start (timeout : Option Span) (now : Instant) (p : Parker) : Parker :=
  match timeout with
  | none => { p with phase := .taking none }
  | some d => match now.after? d with
    | some deadline => { p with phase := .taking (some deadline) }
    | none => { p with panics := p.panics + 1 }

/-- Ends a parking. -/
def finish (answer : Bool) (p : Parker) : Parker :=
  { p with phase := .away, answers := answer :: p.answers }

/-- Goes on with a parking. -/
def advance (now : Instant) (p : Parker) : Parker :=
  match p.phase with
  | .taking deadline =>
    if p.word = 1 then { p with word := 0 }.finish true
    else { p with word := 0, phase := .checking deadline }
  | .checking deadline =>
    if deadline.any (fun d => d.reached now) then p.finish false
    else { p with phase := .entering deadline }
  | .entering deadline =>
    { p with phase := if p.word = 0 then .asleep deadline else .taking deadline }
  | .lastTake => { p with word := 0 }.finish (p.word = 1)
  | _ => p

/-- Lets the sleeper return from the kernel. -/
def rouse (p : Parker) : Parker :=
  match p.phase with
  | .asleep deadline => { p with phase := .taking deadline }
  | _ => p

/-- Lets the sleeper return from the kernel since its time is over. -/
def expire (p : Parker) : Parker :=
  match p.phase with
  | .asleep (some _) => { p with phase := .lastTake }
  | _ => p

/-- Carries out an action. -/
def step (p : Parker) : ParkAction → Parker
  | .park timeout now => if p.phase = .away then p.start timeout now else p
  | .advance now => p.advance now
  | .disturb => p.rouse
  | .expire => p.expire
  | .unpark => { p with word := 1, wakers := if p.word = 0 then p.wakers + 1 else p.wakers }
  | .wake => if p.wakers = 0 then p else { p.rouse with wakers := p.wakers - 1 }

/-- Carries out a sequence of actions. -/
def run (p : Parker) (actions : List ParkAction) : Parker := actions.foldl step p

/-- Puts the token there and wakes the sleeper. -/
def unpark (p : Parker) : Parker := p.run [.unpark, .wake]

/-- Goes on with a parking until it ends or sleeps. -/
def proceed (now : Instant) (p : Parker) : Parker :=
  p.run [.advance now, .advance now, .advance now]

/-- Parks for at most `timeout`, while nobody unparks: the token is taken at once, or the time runs
out. -/
def parkTimed (timeout : Span) (now : Instant) (p : Parker) : Parker :=
  (((p.step (.park (some timeout) now)).proceed now).step .expire).proceed now

/-- Parks without a deadline in one thread, and unparks in another once the first one sleeps. -/
def parkAndUnpark (now : Instant) (p : Parker) : Parker :=
  ((p.step (.park none now)).proceed now).unpark.proceed now

/-- Unparks, and then parks without a deadline. -/
def unparkAndPark (now : Instant) (p : Parker) : Parker :=
  (p.unpark.step (.park none now)).proceed now

/-- The answer of the parking that returned last. -/
def lastAnswer (p : Parker) : Bool := p.answers.headD false

end Parker

end Baton
