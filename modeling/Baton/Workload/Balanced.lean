import Baton.Program.Run

/-!
# Balanced workloads

Threads that take turns in sections of shared objects: a pair of counters in a cell, or a pair of
counters behind a reader/writer lock. An exclusive section reads the first counter of its pair and
raises the second one, may let others run, and then stores what it read plus one in the first
counter. So an update is lost if two exclusive sections overlap, and the counters differ while an
exclusive section lasts. A reading section looks whether the counters of its pair differ, at its
start and after each time that others ran.
-/

namespace Baton

namespace Balanced

/-- What a section holds. -/
inductive Target where
  | cell (index : Nat)
  | write (table : Nat)
  | read (table : Nat)
  deriving DecidableEq

/-- A section, with the number of yields inside and after it. -/
structure Section where
  target : Target
  inside : Nat
  after : Nat
  deriving DecidableEq

/-- The variable that counts the reading sections. -/
def readsVar : Nat := 0

/-- The variable that counts the looks at a pair of different counters. -/
def tornVar : Nat := 1

/-- The variable in which a thread keeps what it read. -/
def ownVar (thread : Nat) : Nat := thread + 2

/-- The first counter of a pair. -/
def firstCount (p : Place) (m : Memory) : Int := (m.list p).headD 0

/-- The second counter of a pair. -/
def secondCount (p : Place) (m : Memory) : Int := (m.list p).getD 1 0

/-- Keeps the first counter and raises the second one. -/
def beginRaise (thread : Nat) (p : Place) (m : Memory) : Memory :=
  (m.setVar (ownVar thread) (firstCount p m)).setList p [firstCount p m, secondCount p m + 1]

/-- Stores the kept counter plus one. -/
def endRaise (thread : Nat) (p : Place) (m : Memory) : Memory :=
  m.setList p [m.var (ownVar thread) + 1, secondCount p m]

/-- Looks whether the two counters differ. -/
def compare (p : Place) (m : Memory) : Memory :=
  if firstCount p m = secondCount p m then m else m.setVar tornVar (m.var tornVar + 1)

/-- Counts a reading section. -/
def countRead (m : Memory) : Memory := m.setVar readsVar (m.var readsVar + 1)

/-- The instruction that changes the memory. -/
def alter (f : Memory → Memory) : Instr := .update fun _ => f

/-- Lets others run `n` times. -/
def yields (n : Nat) : List Instr := List.replicate n .yield

namespace Target

/-- How a section obtains its guard. -/
def opening : Target → Opening
  | cell i => .cell i
  | write t => .write (.table t)
  | read t => .read (.table t)

/-- Where the counters are that a section works with. -/
def place (t : Target) : Place := t.opening.guard.place

/-- Whether a section has its counters for itself. -/
def isExclusive : Target → Bool
  | read _ => false
  | _ => true

/-- What a section does when it has its guard. -/
def start (thread : Nat) (t : Target) : Memory → Memory :=
  if t.isExclusive then beginRaise thread t.place else compare t.place

/-- What a section does when others have run. -/
def look (t : Target) : List Instr := if t.isExclusive then [] else [alter (compare t.place)]

/-- What a section does before it releases its guard. -/
def finish (thread : Nat) (t : Target) : Memory → Memory :=
  if t.isExclusive then endRaise thread t.place else countRead

/-- Lets others run `n` times inside a section. -/
def rounds (n : Nat) (t : Target) : List Instr := (List.replicate n (.yield :: t.look)).flatten

end Target

/-- What a section does with its guard. -/
def Section.body (thread : Nat) (s : Section) : List Instr :=
  alter (s.target.start thread) :: s.target.rounds s.inside ++ [alter (s.target.finish thread)]

/-- The code of a section. -/
def Section.code (thread : Nat) (s : Section) : List Instr :=
  .scope s.target.opening (s.body thread) :: yields s.after

/-- The code of a thread. -/
def threadCode (thread : Nat) (sections : List Section) : List Instr :=
  sections.flatMap (Section.code thread)

/-- The identity of the thread that is spawned as number `i`. -/
def spawned (i : Nat) : ThreadId := ⟨UInt64.ofNat (i + 2)⟩

/-- Starts `n` threads. -/
def spawns (n : Nat) : List Instr := (List.range n).map fun i => .spawn (i + 1)

/-- Joins `n` threads in the order in which they were started. -/
def joins (n : Nat) : List Instr := (List.range n).map fun i => .join (spawned i)

/-- The program in which each thread goes through its list of sections. The main thread starts the
others, goes through its own list, and joins the others. -/
def program (own : List Section) (others : List (List Section)) : Program where
  host := .coop
  code := (spawns others.length ++ threadCode 0 own ++ joins others.length) ::
    others.zipIdx.map fun t => threadCode (t.2 + 1) t.1
  cells := []
  conds := []
  tables := []
  wakeups := []
  idlePoll := .ofMillis 10

/-- The memory after a run in which the main thread has no sections. -/
def finalMemory (others : List (List Section)) : Memory :=
  ((program [] others).final Program.patience).memory

/-- The counter of a cell after `n` threads have gone through `k` sections each. -/
def mutexTotal (n k : Nat) : Int :=
  firstCount (.cell 0) (finalMemory (List.replicate n (List.replicate k ⟨.cell 0, 1, 0⟩)))

/-- What a reader/writer workload counts. -/
structure PairTotals where
  first : Int
  second : Int
  reads : Int
  torn : Int

/-- The totals of `n` threads with `k` sections each: every third thread writes, the others read. -/
def pairTotals (n k : Nat) : PairTotals :=
  let sections (i : Nat) : List Section :=
    List.replicate k (if i % 3 = 0 then ⟨.write 0, 1, 1⟩ else ⟨.read 0, 1, 0⟩)
  let m := finalMemory ((List.range n).map sections)
  let p := Place.behind (.table 0)
  ⟨firstCount p m, secondCount p m, m.var readsVar, m.var tornVar⟩

end Balanced

end Baton
