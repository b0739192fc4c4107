import Baton.Workload.Balanced

/-!
# A queue between threads

A producer puts items into a cell and wakes a sleeper of its condition after each; at the end it
closes the queue and wakes all. A consumer sleeps while the queue is empty and open, takes one item
at a time, and leaves when it finds the queue empty. Each thread may let others run between any two
of its instructions: it rests there, and its pace tells how often it yields at each of its rests.
-/

namespace Baton

namespace Queue

/-- The cell that holds the items. -/
def cell : Nat := 0

/-- The condition that is paired with the cell. -/
def nonempty : Nat := 0

/-- A list of the items that were taken, in the order in which they were taken. -/
def log : Place := .cell 1

/-- The variable that tells whether the queue is closed. -/
def closedVar : Nat := 0

/-- The variable that adds up the items taken. -/
def sumVar : Nat := 1

/-- The variable that counts the items taken. -/
def countVar : Nat := 2

/-- The variable that tells how often a thread still yields at its present rest. -/
def restVar (thread : Nat) : Nat := 3 * thread + 3

/-- The variable that counts the rests of a thread. -/
def stepVar (thread : Nat) : Nat := 3 * thread + 4

/-- The variable that tells whether a consumer has left. -/
def leftVar (thread : Nat) : Nat := 3 * thread + 5

/-- The items in the queue. -/
def items (m : Memory) : List Int := m.list (.cell cell)

/-- The items that were taken. -/
def taken (m : Memory) : List Int := m.list log

/-- Whether a consumer has to sleep: the queue is empty and not closed. -/
def mustSleep : Test := fun _ m => .ok ((items m).isEmpty && m.var closedVar == 0, m)

/-- Takes the first item, or leaves if there is none. -/
def take (thread : Nat) (m : Memory) : Memory :=
  match items m with
  | [] => m.setVar (leftVar thread) 1
  | x :: rest =>
    (((m.setList (.cell cell) rest).setList log (taken m ++ [x])).setVar sumVar
      (m.var sumVar + x)).setVar countVar (m.var countVar + 1)

/-! ## Rests -/

/-- How often a thread yields at its first rest, at its second one, and so on. -/
abbrev Pace := Nat → Nat

/-- The pace of a thread that never lets others run of its own accord. -/
def Pace.steady : Pace := fun _ => 0

/-- Begins a rest. -/
def settle (thread : Nat) (pace : Pace) (m : Memory) : Memory :=
  (m.setVar (restVar thread) (pace (m.var (stepVar thread)).toNat)).setVar (stepVar thread)
    (m.var (stepVar thread) + 1)

/-- Counts a yield of a rest. -/
def spend (thread : Nat) (m : Memory) : Memory :=
  m.setVar (restVar thread) (m.var (restVar thread) - 1)

/-- Whether the rest of a thread goes on. -/
def isResting (thread : Nat) (_ : Reply) (m : Memory) : Bool := 0 < m.var (restVar thread)

/-- The yields of a rest. -/
def restLoop (thread : Nat) : Instr :=
  .whilst (isResting thread) [Balanced.alter (spend thread), .yield]

/-- A rest. -/
def rest (thread : Nat) (pace : Pace) : List Instr :=
  [Balanced.alter (settle thread pace), restLoop thread]

/-- Instructions with a rest before each of them and one at the end. -/
def paced (thread : Nat) (pace : Pace) : List Instr → List Instr
  | [] => rest thread pace
  | i :: is => rest thread pace ++ i :: paced thread pace is

/-! ## Consumers and the producer -/

/-- What a consumer does with the queue. -/
def consume (thread : Nat) : List Instr :=
  [.condSleepWhile nonempty mustSleep, Balanced.alter (take thread)]

/-- Whether a consumer goes on. -/
def isWorking (thread : Nat) (_ : Reply) (m : Memory) : Bool := m.var (leftVar thread) == 0

/-- A block in which a thread has the queue. -/
def visit (thread : Nat) (pace : Pace) (body : List Instr) : Instr :=
  .scope (.cell cell) (paced thread pace body)

/-- The rounds of a consumer. -/
def rounds (thread : Nat) (pace : Pace) : Instr :=
  .whilst (isWorking thread) (paced thread pace [visit thread pace (consume thread)])

/-- The code of a consumer. -/
def consumer (thread : Nat) (pace : Pace) : List Instr :=
  paced thread pace [rounds thread pace]

/-- The instructions of a producer that has some items left to put. -/
def producer (thread : Nat) (pace : Pace) : List Int → List Instr
  | [] => [visit thread pace [.setVar closedVar 1], .condWakeAll nonempty]
  | x :: todo => visit thread pace [.push x] :: .condWake nonempty :: producer thread pace todo

/-- The program in which the main thread produces for `n` consumers. Each thread has a pace of its
own. -/
def program (n : Nat) (xs : List Int) (pace : Nat → Pace) : Program where
  host := .coop
  code := paced 0 (pace 0) (Balanced.spawns n ++ producer 0 (pace 0) xs ++ Balanced.joins n) ::
    (List.range n).map fun i => consumer (i + 1) (pace (i + 1))
  cells := [[]]
  conds := [cell]
  tables := []
  wakeups := []
  idlePoll := .ofMillis 10

/-- What the consumers took. -/
structure Totals where
  sum : Int
  count : Int

/-- The pace of a producer that yields once after each of its first `n` items. It rests four times
for an item. -/
def Pace.afterItems (n : Nat) : Pace := fun k => if 0 < k ∧ k ≤ 4 * n ∧ k % 4 = 0 then 1 else 0

/-- The totals of `n` consumers when the items are 1 to `k`. -/
def totals (n k : Nat) : Totals :=
  let xs := (List.range k).map fun (i : Nat) => (i : Int) + 1
  let pace (t : Nat) : Pace := if t = 0 then .afterItems k else .steady
  let m := ((program n xs pace).final Program.patience).memory
  ⟨m.var sumVar, m.var countVar⟩

end Queue

end Baton
