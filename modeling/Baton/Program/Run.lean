import Baton.Program.Step

/-!
# Programs and their reports

A program is code for several threads and the objects that they share. Running it gives a report:
the replies in order, how the main thread's code ended, and what was logged and printed.
-/

namespace Baton

/-- A program. -/
structure Program where
  host : Host
  /-- The code of the main thread, and the code that can be spawned. -/
  code : List (List Instr)
  /-- The lists in the cells. -/
  cells : List (List Int)
  /-- The cells that the conditions are paired with. -/
  conds : List Nat
  /-- The lists in the tables. -/
  tables : List (List Int)
  /-- The threads that are woken from outside when the scheduler is stuck for the first time. -/
  wakeups : List ThreadId
  idlePoll : Span

/-- How a run ended. -/
inductive Ending where
  /-- The main thread's code and all other threads came to an end. -/
  | ended (o : Outcome)
  /-- The scheduler was stuck, or the run did not end in time. -/
  | deadlock

/-- What a run showed. -/
structure Report where
  events : List Event
  ending : Ending
  notices : List Notice
  output : List String
  /-- Which of the wakeups from outside found a live thread. -/
  wakeups : List Bool

namespace Program

/-- The program whose main thread does nothing. -/
def blank : Program := ⟨.coop, [], [], [], [], [], .ofMillis 10⟩

/-- The memory at the start. -/
def memory (p : Program) : Memory where
  vars := .empty
  lists := ⟨(p.cells.zipIdx.map fun c => (Place.cell c.2, c.1)) ++
    p.tables.zipIdx.map fun t => (Place.behind (.table t.2), t.1)⟩

/-- The machine at the start. -/
def machine (p : Program) : Machine :=
  let sched := Sched.start p.idlePoll
  let main := (p.code.headD []).map Task.instr ++ [.exit]
  { host := p.host
    code := p.code
    pairing := p.conds
    sched
    threads := Store.empty.set sched.main ⟨main, .null, 0, .fresh⟩
    mutexes := .empty
    rendezvous := .empty
    locks := .empty
    memory := p.memory
    pipes := .empty
    outage := none
    handles := []
    outcomes := .empty
    mainOutcome := none
    events := []
    output := [] }

/-- The report of a machine that has come to rest. -/
def report (m : Machine) (wakeups : List Bool) : Report where
  events := m.events.reverse
  ending := match m.sched.turn, m.mainOutcome with
    | .over, some o => .ended o
    | _, _ => .deadlock
  notices := m.sched.journal.reverse
  output := m.output.reverse
  wakeups

/-- A number of steps that only a program reaches that runs forever. -/
def patience : Nat := 1000000000000000

/-- The machine after at most `fuel` steps, without wakeups from outside and up to the panic of a
giver. -/
def final (fuel : Nat) (p : Program) : Machine := p.machine.run fuel

/-- Runs a program, with at most `fuel` steps before and after the wakeups from outside. -/
def run (fuel : Nat) (p : Program) : Report :=
  let m := p.machine.unfold fuel
  if m.isStuck && !p.wakeups.isEmpty then
    let (answers, woken) := m.wakeAllFromOutside p.wakeups
    report (woken.unfold fuel) answers
  else report m []

end Program

end Baton
