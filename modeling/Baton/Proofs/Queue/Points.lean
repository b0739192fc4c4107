import Baton.Proofs.Workload.Points
import Baton.Workload.Queue

/-!
# Queue: program points

The points at which a thread of the queue program may be while another one runs, together with those
at which it begins the next piece of its work. A spot is what a thread does next when it does not
rest; before each spot it rests. As far as locks, starts and joins are concerned, a thread behaves
like one of a balanced workload that has the queue in its sections: `skeleton` is the point of that
thread.
-/

namespace Baton

namespace Queue

open Baton.Balanced (number spawned spawns joins yielded)

/-- Who asks for the queue: a consumer, or the main thread with the items that it has not put. -/
inductive Gate where
  | consumer
  | producer (todo : List Int)

/-- What a thread does next when it does not rest. -/
inductive Spot where
  /-- A consumer begins another round, or ends its rounds because it has left. -/
  | turns (left : Bool)
  | asks (g : Gate)
  /-- A consumer that has the queue looks whether it has to sleep. -/
  | looks
  | takes
  /-- A consumer gives the queue up. -/
  | leaves (left : Bool)
  | ends
  /-- The main thread has started some of the consumers. -/
  | starts (started : Nat)
  /-- The main thread has the queue and puts the first of some items, or closes the queue. -/
  | fills (todo : List Int)
  /-- The main thread has put the first of some items, or closed the queue, and gives it up. -/
  | filled (todo : List Int)
  /-- The main thread wakes a sleeper for the first of some items, or all of them. -/
  | calls (todo : List Int)
  /-- The main thread has joined some of the consumers. -/
  | joins (joined : Nat)

/-- Where a thread of the program is. -/
inductive Point where
  /-- No thread of the program. -/
  | absent
  /-- A consumer that has not been started. -/
  | unborn
  /-- About to begin the rest before a spot. -/
  | arriving (s : Spot)
  /-- In the rest before a spot, with some yields before it; or, away, in such a yield. -/
  | resting (away : Bool) (yields : Nat) (s : Spot)
  /-- Suspended because the queue is taken. -/
  | asking (g : Gate)
  /-- Suspended because the queue is empty. -/
  | asleep
  /-- A sleeper that was woken, suspended because the queue is taken. -/
  | returning
  /-- The main thread waits for the next consumer that it joins. -/
  | awaits (joined : Nat)
  /-- The main thread waits for all that are left. -/
  | drains
  | gone
  /-- The main thread has ended the run. -/
  | halted

/-! ## Stacks -/

variable (n : Nat) (xs : List Int)

/-- The tasks of a rest. -/
def pause (k : Nat) (pace : Pace) : List Task := (rest k pace).map .instr

/-- The tasks of some instructions with a rest after each of them. -/
def road (k : Nat) (pace : Pace) : List Instr → List Task → List Task
  | [], ts => ts
  | i :: is, ts => .instr i :: (pause k pace ++ road k pace is ts)

theorem paced_tasks (k : Nat) (pace : Pace) (is : List Instr) (ts : List Task) :
    (paced k pace is).map Task.instr ++ ts = pause k pace ++ road k pace is ts := by
  induction is with
  | nil => rfl
  | cons i is ih =>
      rw [paced, List.map_append, List.map_cons, List.append_assoc, List.cons_append, ih]
      rfl

/-- The tasks with which a thread gives the queue up. -/
def outro (ts : List Task) : List Task :=
  .drop (.cell cell) :: .answer .null :: .report "end" :: ts

namespace Gate

/-- What a thread does with the queue. -/
def body (k : Nat) : Gate → List Instr
  | consumer => consume k
  | producer [] => [.setVar closedVar 1]
  | producer (x :: _) => [.push x]

/-- The tasks of a thread that has given the queue up and rested. -/
def after (k : Nat) (pace : Pace) : Gate → List Task
  | consumer => road k pace [rounds k pace] [.exit]
  | producer [] => road k pace (.condWakeAll nonempty :: joins n) [.exit]
  | producer (_ :: todo) =>
    road k pace (.condWake nonempty :: (Queue.producer k pace todo ++ joins n)) [.exit]

/-- The tasks of a thread that has the queue. -/
def inner (k : Nat) (pace : Pace) (is : List Instr) (g : Gate) : List Task :=
  road k pace is (outro (pause k pace ++ g.after n k pace))

/-- The tasks of a thread that is about to have the queue. -/
def door (k : Nat) (pace : Pace) (g : Gate) : List Task :=
  .answer .null :: .enter "cell" (.cell cell) (paced k pace (g.body k)) ::
    (pause k pace ++ g.after n k pace)

/-- Where a thread comes to when it has got the queue. -/
def spot : Gate → Spot
  | consumer => .looks
  | producer todo => .fills todo

end Gate

/-- The tasks of the thread with number `k` at a spot. -/
def Spot.tasks (k : Nat) (pace : Pace) : Spot → List Task
  | turns _ => Gate.consumer.after n k pace
  | asks g => .instr (visit k pace (g.body k)) :: (pause k pace ++ g.after n k pace)
  | looks => Gate.consumer.inner n k pace (consume k)
  | takes => Gate.consumer.inner n k pace [Balanced.alter (take k)]
  | leaves _ => Gate.consumer.inner n k pace []
  | ends => [.exit]
  | starts c => road k pace ((spawns n).drop c ++ (producer k pace xs ++ Balanced.joins n)) [.exit]
  | fills todo => (Gate.producer todo).inner n k pace ((Gate.producer todo).body k)
  | filled todo => (Gate.producer todo).inner n k pace []
  | calls todo => (Gate.producer todo).after n k pace
  | joins c => road k pace ((Balanced.joins n).drop c) [.exit]

/-- The tasks of a sleeper that has the queue again. -/
def second (k : Nat) (pace : Pace) : List Task :=
  .condSleepWhile nonempty mustSleep :: .report "cond_sleep_while" ::
    (pause k pace ++ Spot.takes.tasks n xs k pace)

/-- The tasks of the thread with number `k` at a point. -/
def Point.tasks (k : Nat) (pace : Pace) : Point → List Task
  | absent | unborn | gone | halted => []
  | arriving s => pause k pace ++ s.tasks n xs k pace
  | resting false _ s => .instr (restLoop k) :: s.tasks n xs k pace
  | resting true _ s => yielded ++ .instr (restLoop k) :: s.tasks n xs k pace
  | asking g => .awaitOwner (.cell cell) :: g.door n k pace
  | asleep => .leave (.cond nonempty) :: .acquire (.cell cell) :: second n xs k pace
  | returning => .awaitOwner (.cell cell) :: second n xs k pace
  | awaits c =>
    .awaitThread (spawned c) :: .report "join" ::
      (pause k pace ++ (Spot.joins (c + 1)).tasks n xs k pace)
  | drains => [.drain]

/-- The tasks of a thread at a point. -/
def Point.stack (pace : Nat → Pace) (t : ThreadId) (x : Point) : List Task :=
  x.tasks n xs (number t) (pace (number t))

/-! ## What a point says -/

/-- A section of the queue. -/
def grip : Balanced.Section := ⟨.cell cell, 0, 0⟩

/-- The point of a balanced workload that a spot is, as far as locks, starts and joins go. -/
def Spot.skeleton : Spot → Balanced.Point
  | starts c => .spawning c []
  | joins c => .joining c
  | looks | takes | leaves _ | fills _ | filled _ => .inside false 0 grip []
  | turns _ | asks _ | ends | calls _ => .outside false 0 []

/-- What the books say of a thread: whether a consumer has left and whether it is about to take an
item, or which items the producer has not put and whether it has closed the queue. -/
inductive Account where
  | consumer (left taking : Bool)
  | producer (pending : List Int) (closed : Bool)

/-- The account of a thread at a spot. -/
def Spot.account : Spot → Account
  | turns left | leaves left => .consumer left false
  | asks .consumer | looks => .consumer false false
  | takes => .consumer false true
  | ends => .consumer true false
  | starts _ => .producer xs false
  | asks (.producer todo) | fills todo => .producer todo false
  | filled todo | calls todo => .producer todo.tail todo.isEmpty
  | joins _ => .producer [] true

namespace Point

/-- The point of a balanced workload that a point is, as far as locks, starts and joins go. -/
def skeleton : Point → Balanced.Point
  | unborn => .unborn []
  | arriving s | resting _ _ s => s.skeleton
  | asking _ | returning => .asking grip []
  | asleep => .outside false 0 []
  | awaits c => .awaiting c
  | drains => .draining
  | absent | gone | halted => .finished

/-- The account of a thread at a point. -/
def account : Point → Option Account
  | absent => none
  | unborn | asleep | returning => some (.consumer false false)
  | arriving s | resting _ _ s => some (s.account xs)
  | asking g => some ((Spot.asks g).account xs)
  | awaits _ | drains | halted => some (.producer [] true)
  | gone => some (.consumer true false)

/-- The yields that a resting thread has before it. -/
def rest? : Point → Option Nat
  | resting _ yields _ => some yields
  | _ => none

/-- Whether the thread may be suspended. -/
def canStop : Point → Bool
  | asking _ | asleep | returning | awaits _ | drains => true
  | _ => false

/-- Whether the main thread has woken all sleepers of the closed queue. -/
def isQuiet : Point → Bool
  | arriving (.joins _) | resting _ _ (.joins _) | awaits _ | drains | halted => true
  | _ => false

/-- Whether the thread is live. -/
def isAlive (x : Point) : Bool := x.skeleton.isAlive

end Point

/-! ## Work -/

variable (untaken : Nat)

/-- The spots that a thread has before it, when some of the items have not been taken. -/
def Spot.rank : Spot → Nat
  | turns false => 5 * untaken + 7
  | turns true => 2
  | asks .consumer => 5 * untaken + 6
  | looks => 5 * untaken + 5
  | takes => 5 * untaken + 4
  | leaves false => 5 * untaken + 8
  | leaves true => 3
  | ends => 1
  | starts c => 4 * xs.length + 2 * n + 7 + (n - c)
  | asks (.producer todo) => 4 * todo.length + 2 * n + 6
  | fills todo => 4 * todo.length + 2 * n + 5
  | filled todo => 4 * todo.length + 2 * n + 4
  | calls todo => 4 * todo.length + 2 * n + 3
  | joins c => 2 * (n - c) + 2

namespace Point

/-- The work that a thread has before it, apart from the yields of its present rest. -/
def work : Point → Nat
  | unborn => 2 * (5 * untaken + 8)
  | arriving s => 2 * s.rank n xs untaken + 1
  | resting _ _ s => 2 * s.rank n xs untaken
  | asking g => 2 * (Spot.asks g).rank n xs untaken
  | asleep | returning => 2 * Spot.looks.rank n xs untaken
  | awaits c => 4 * (n - c) + 2
  | drains => 1
  | absent | gone | halted => 0

/-- What a thread has before it in its present rest. -/
def leisure : Point → Nat
  | resting away yields _ => 2 * yields + away.toNat + 1
  | _ => 0

end Point

theorem Spot.rank_mono {i j : Nat} (h : i ≤ j) (s : Spot) :
    s.rank n xs i ≤ s.rank n xs j := by
  cases s with
  | turns left | leaves left => cases left <;> simp only [Spot.rank] <;> omega
  | asks g => cases g <;> simp only [Spot.rank] <;> omega
  | looks | takes =>
      simp only [Spot.rank]
      omega
  | _ => exact Nat.le_refl _

/-- The fewer items have not been taken, the less work is left. -/
theorem Point.work_mono {i j : Nat} (h : i ≤ j) (x : Point) :
    x.work n xs i ≤ x.work n xs j := by
  cases x with
  | unborn =>
      simp only [Point.work]
      omega
  | arriving s | resting _ _ s =>
      have hrank := s.rank_mono n xs h
      simp only [Point.work]
      omega
  | asking g =>
      have hrank := (Spot.asks g).rank_mono n xs h
      simp only [Point.work]
      omega
  | asleep | returning =>
      have hrank := Spot.looks.rank_mono n xs h
      simp only [Point.work]
      omega
  | _ => exact Nat.le_refl _

end Queue

end Baton
