import Baton.Proofs.Program.Critical
import Baton.Workload.Balanced
import Mathlib.Algebra.BigOperators.Group.Finset.Basic

/-!
# Balanced workloads: program points

The points at which a thread of a workload may be while another one runs, together with those at
which it begins the next piece of its work. What a thread has on its stack, which guard it holds or
waits for, which sections it has before it and how much work that is are all functions of its point.
-/

namespace Baton

namespace Balanced

/-- Where a thread of a workload is. -/
inductive Point where
  /-- Not started. -/
  | unborn (todo : List Section)
  /-- The main thread has started some of the others. -/
  | spawning (started : Nat) (todo : List Section)
  /-- Between two sections, with some yields before it; or, at rest, in such a yield. -/
  | outside (atRest : Bool) (left : Nat) (todo : List Section)
  /-- Suspended in front of a section whose guard it has to wait for. -/
  | asking (s : Section) (todo : List Section)
  /-- With the guard of a section that it is about to begin. -/
  | entering (s : Section) (todo : List Section)
  /-- In a section, with some yields before it; or, at rest, in such a yield. -/
  | inside (atRest : Bool) (left : Nat) (s : Section) (todo : List Section)
  /-- The main thread has joined some of the others. -/
  | joining (joined : Nat)
  /-- The main thread waits for the next one that it joins. -/
  | awaiting (joined : Nat)
  /-- The main thread waits for all that are left. -/
  | draining
  | finished

/-! ## Stacks -/

/-- The number of a thread: the main thread is number 0. -/
def number (t : ThreadId) : Nat := (t.number - 1).toNat

/-- What a thread does after its sections, in a workload with `n` other threads. -/
def lastCode (n : Nat) (t : ThreadId) : List Instr := if t = .first then joins n else []

/-- The tasks of a thread between two sections. -/
def road (n : Nat) (t : ThreadId) (left : Nat) (todo : List Section) : List Task :=
  (yields left ++ threadCode (number t) todo ++ lastCode n t).map Task.instr ++ [.exit]

/-- The tasks of a thread that has the guard of a section. -/
def door (n : Nat) (t : ThreadId) (s : Section) (todo : List Section) : List Task :=
  .enter s.target.opening.name s.target.opening.guard (s.body (number t)) :: road n t s.after todo

/-- The tasks of a thread in a section. -/
def room (n : Nat) (t : ThreadId) (left : Nat) (s : Section) (todo : List Section) : List Task :=
  (s.target.rounds left ++ [alter (s.target.finish (number t))]).map Task.instr ++
    (.drop s.target.opening.guard :: .answer .null :: .report "end" :: road n t s.after todo)

/-- The tasks that are left of a yield. -/
def yielded : List Task := [.answer .null, .report "yield"]

/-- Whether the target is one side of a table's lock. -/
def Target.isTable : Target → Bool
  | cell _ => false
  | _ => true

/-- The tasks that are left of obtaining a guard when the thread has suspended for it. -/
def Target.parked : Target → List Task
  | cell i => [.awaitOwner (.cell i), .answer .null]
  | write t =>
    [.leave (.writers (.table t)), .acquire (.inner (.table t)), .recheckWrite (.table t)]
  | read t =>
    [.leave (.readers (.table t)), .acquire (.inner (.table t)), .recheckRead (.table t)]

namespace Point

/-- The tasks of a thread at a point, in a workload with `n` other threads. -/
def stack (n : Nat) (t : ThreadId) : Point → List Task
  | unborn _ => []
  | spawning c todo => ((spawns n).drop c).map Task.instr ++ road n t 0 todo
  | outside false left todo => road n t left todo
  | outside true left todo => yielded ++ road n t left todo
  | asking s todo => s.target.parked ++ door n t s todo
  | entering s todo => door n t s todo
  | inside false left s todo => room n t left s todo
  | inside true left s todo => yielded ++ (s.target.look.map Task.instr ++ room n t left s todo)
  | joining c => ((joins n).drop c).map Task.instr ++ [.exit]
  | awaiting c =>
    .awaitThread (spawned c) :: .report "join" ::
      (((joins n).drop (c + 1)).map Task.instr ++ [.exit])
  | draining => [.drain]
  | finished => []

/-! ## What a point says -/

/-- Whether the thread is live. -/
def isAlive : Point → Bool
  | unborn _ | finished => false
  | _ => true

/-- Whether the thread may be suspended. -/
def canStop : Point → Bool
  | asking .. | awaiting _ | draining => true
  | _ => false

/-- Whether the thread goes through its sections. -/
def isWorking : Point → Bool
  | outside .. | asking .. | entering .. | inside .. => true
  | _ => false

/-- Whether the last thing that the thread was told is that it gets a guard. A thread that waits for
a cell is told so at the end of its wait. -/
def isTold : Point → Bool
  | asking s _ => s.target.isTable
  | entering .. => true
  | _ => false

/-- What the thread holds or waits for. -/
def target? : Point → Option Target
  | asking s _ | entering s _ | inside _ _ s _ => some s.target
  | _ => none

/-- What the thread holds and knows to hold. -/
def holding? : Point → Option Target
  | entering s _ | inside _ _ s _ => some s.target
  | _ => none

/-- What the thread is in a section of. -/
def within? : Point → Option Target
  | inside _ _ s _ => some s.target
  | _ => none

/-- The sections that the thread has not ended. -/
def todo : Point → List Section
  | unborn todo | spawning _ todo | outside _ _ todo => todo
  | asking s todo | entering s todo | inside _ _ s todo => s :: todo
  | _ => []

/-- At both points the thread has the same claim and the same sections before it. -/
structure Alike (x q : Point) : Prop where
  target? : q.target? = x.target?
  holding? : q.holding? = x.holding?
  within? : q.within? = x.within?
  todo : q.todo = x.todo

theorem target?_of_holding? {p : Point} {τ : Target} (h : p.holding? = some τ) :
    p.target? = some τ := by
  cases p <;> first | exact h | cases h

theorem holding?_of_within? {p : Point} {τ : Target} (h : p.within? = some τ) :
    p.holding? = some τ := by
  cases p <;> first | exact h | cases h

/-- A thread that holds or waits for something is going through its sections. -/
theorem isWorking_of_target? {p : Point} {τ : Target} (h : p.target? = some τ) :
    p.isWorking = true := by
  cases p <;> first | rfl | cases h

theorem isAlive_of_isWorking {p : Point} (h : p.isWorking = true) : p.isAlive = true := by
  cases p <;> first | rfl | cases h

/-- In its sections a thread may be suspended only in front of one. -/
theorem exists_asking_of_canStop {p : Point} (hworking : p.isWorking = true)
    (hstop : p.canStop = true) : ∃ s todo, p = asking s todo := by
  cases p with
  | asking s todo => exact ⟨s, todo, rfl⟩
  | awaiting | draining => cases hworking
  | _ => cases hstop

end Point

/-- What is the same at a thread's new point is the same for all threads. -/
theorem apply_update {α β : Type} {p : ThreadId → β} {me : ThreadId} {q : β} (f : β → α)
    (h : f q = f (p me)) (t : ThreadId) : f (Function.update p me q t) = f (p t) := by
  by_cases ht : t = me
  · rw [ht, Function.update_self, h]
  · rw [Function.update_of_ne ht]

/-! ## Work -/

/-- The work of a section, at least one for each piece that a thread does without others running. -/
def Section.work (s : Section) : Nat := 2 * s.inside + 2 * s.after + 4

/-- The work of a list of sections. -/
def workOf : List Section → Nat
  | [] => 0
  | s :: todo => s.work + workOf todo

/-- The work of the main thread after its sections. -/
def lastWork (n : Nat) (t : ThreadId) : Nat := if t = .first then 2 * n + 2 else 0

/-- The work that a thread at a point has before it. -/
def Point.work (n : Nat) (t : ThreadId) : Point → Nat
  | unborn todo => workOf todo + 3
  | spawning c todo => workOf todo + lastWork n t + 3 + (n - c)
  | outside r left todo => workOf todo + lastWork n t + 2 + 2 * left + r.toNat
  | asking s todo => workOf (s :: todo) + lastWork n t + 1
  | entering s todo => workOf (s :: todo) + lastWork n t
  | inside r left s todo => workOf todo + lastWork n t + 3 + 2 * s.after + 2 * left + r.toNat
  | joining c => lastWork n t - 2 * c
  | awaiting c => lastWork n t - 2 * c - 1
  | draining => 1
  | finished => 0

/-! ## The threads of a workload -/

/-- The threads of a workload with `n` threads beside the main one. -/
def crew (n : Nat) : Finset ThreadId := insert .first ((Finset.range n).image spawned)

variable {n i : Nat} {t u : ThreadId}

theorem mem_crew : t ∈ crew n ↔ t = .first ∨ ∃ i < n, spawned i = t := by
  simp [crew]

theorem first_mem_crew (n : Nat) : .first ∈ crew n := mem_crew.mpr (.inl rfl)

theorem spawned_mem_crew (h : i < n) : spawned i ∈ crew n := mem_crew.mpr (.inr ⟨i, h, rfl⟩)

theorem number_inj : number t = number u ↔ t = u := by
  constructor
  · intro h
    have hsub : t.number - 1 = u.number - 1 := UInt64.toNat_inj.mp h
    have hnum : t.number = u.number := (UInt64.sub_left_inj 1).mp hsub
    obtain ⟨x⟩ := t
    obtain ⟨y⟩ := u
    rw [show x = y from hnum]
  · rintro rfl
    rfl

theorem number_spawned (h : i + 1 < UInt64.size) : number (spawned i) = i + 1 := by
  have hsub : UInt64.ofNat (i + 2) - 1 = UInt64.ofNat (i + 1) := by
    rw [show i + 2 = i + 1 + 1 from rfl, UInt64.ofNat_add]
    simp
  rw [number, spawned, hsub, UInt64.toNat_ofNat_of_lt' h]

theorem number_first : number .first = 0 := rfl

theorem spawned_ne_first (h : i + 1 < UInt64.size) : spawned i ≠ .first := by
  intro he
  have hnum := number_spawned h
  rw [he, number_first] at hnum
  omega

theorem spawned_inj {j : Nat} (hi : i + 1 < UInt64.size) (hj : j + 1 < UInt64.size) :
    spawned i = spawned j ↔ i = j := by
  constructor
  · intro he
    have hnum := number_spawned hi
    rw [he, number_spawned hj] at hnum
    omega
  · rintro rfl
    rfl

end Balanced

end Baton
