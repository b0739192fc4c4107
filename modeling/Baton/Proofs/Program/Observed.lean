import Baton.Proofs.Program.Wakeups

/-!
# Machine: observed runs

An observer notes something of every step of a run, read off the machine before the step. Wakeups
from outside, the passing of time and failures of polls come at any moment and are not noted.

What links the notes to the machine is proved as an invariant of observed runs. `Observed.keeps`
asks for it where it can break: when the running thread carries out a task, and when the scheduler
looks for the next thread.
-/

namespace Baton

namespace Machine

open Sched (Quiet SameWaits)

variable {α : Type} {note : Machine → List α} {p : Program} {τ : List α} {m n : Machine}
  {me : ThreadId} {x : Task} {ts : List Task}

/-- What is noted of the task that the running thread carries out next. The observer sees the
machine from which that task has been taken off. -/
def ofTask (note : ThreadId → Machine → Task → List α) (m : Machine) : List α :=
  match m.sched.turn with
  | .held me => match m.popTask me with
    | some (x, m) => note me m x
    | none => []
  | _ => []

/-- A run of a program in which no giver panics, with the notes of an observer, oldest first. -/
inductive Observed (note : Machine → List α) (p : Program) : List α → Machine → Prop where
  | start : Observed note p [] p.machine
  | step {τ : List α} {m n : Machine} : Observed note p τ m → m.step = some n →
      Observed note p (τ ++ note m) n
  | wake {τ : List α} {m : Machine} (id : ThreadId) : Observed note p τ m →
      Observed note p τ (m.wakeFromOutside id)
  | elapse {τ : List α} {m : Machine} (d : Span) : Observed note p τ m →
      Observed note p τ (m.onSched (Sched.elapse d))
  | outage {τ : List α} {m : Machine} (e : Option Errno) : Observed note p τ m →
      Observed note p τ (m.setOutage e)

/-- What is noted in at most `fuel` steps. -/
def notes (note : Machine → List α) : Nat → Machine → List α
  | 0, _ => []
  | fuel + 1, m =>
    match m.step with
    | some next => note m ++ notes note fuel next
    | none => []

theorem ofTask_of_held {note : ThreadId → Machine → Task → List α}
    (hturn : m.sched.turn = .held me) (hstack : m.stackOf me = x :: ts) :
    m.ofTask note = note me (m.setStack me ts) x := by
  rw [ofTask, hturn]
  dsimp only
  rw [popTask_of_stack hstack]

/-- The running thread carries out the top task of its stack. -/
theorem step_of_held (hturn : m.sched.turn = .held me) (hstack : m.stackOf me = x :: ts) :
    m.step = some ((m.setStack me ts).perform me x) := by
  rw [Machine.step, hturn]
  dsimp only
  rw [popTask_of_stack hstack]
  rfl

theorem eq_perform_of_step (hturn : m.sched.turn = .held me) (hstack : m.stackOf me = x :: ts)
    (hstep : m.step = some n) : n = (m.setStack me ts).perform me x :=
  Option.some.inj (hstep.symm.trans (step_of_held hturn hstack))

theorem ofTask_of_free {note : ThreadId → Machine → Task → List α}
    (hturn : ∀ t, m.sched.turn ≠ .held t) : m.ofTask note = [] := by
  unfold ofTask
  split
  · rename_i t hheld
    exact absurd hheld (hturn t)
  · rfl

theorem Observed.reaches (h : Observed note p τ m) : Reaches p.machine m := by
  induction h with
  | start => exact .refl _
  | step _ hstep ih => exact .step ih hstep
  | wake id _ ih => exact .wake id ih
  | elapse d _ ih => exact .elapse d ih
  | outage e _ ih => exact .outage e ih

/-- Every run can be observed. -/
theorem Reaches.observed (note : Machine → List α) (h : Reaches p.machine m) :
    ∃ τ, Observed note p τ m := by
  induction h with
  | refl => exact ⟨_, .start⟩
  | step _ hstep ih => exact ih.imp' _ fun _ hτ => .step hτ hstep
  | wake id _ ih => exact ih.imp fun _ hτ => .wake id hτ
  | elapse d _ ih => exact ih.imp fun _ hτ => .elapse d hτ
  | outage e _ ih => exact ih.imp fun _ hτ => .outage e hτ

theorem Observed.run (h : Observed note p τ m) (fuel : Nat) :
    Observed note p (τ ++ notes note fuel m) (m.run fuel) := by
  induction fuel generalizing τ m with
  | zero => simpa [notes, Machine.run] using h
  | succ fuel ih =>
      unfold notes Machine.run
      cases hstep : m.step with
      | none => simpa using h
      | some n => simpa using ih (h.step hstep)

theorem observed_final (note : Machine → List α) (fuel : Nat) (p : Program) :
    Observed note p (p.machine.notes note fuel) (p.final fuel) :=
  (Observed.start : Observed note p [] p.machine).run fuel

/-- What holds at the start and is kept by the tasks, by the search for the next thread and by
wakeups holds of the whole run and its notes. -/
theorem Observed.keeps {P : List α → Machine → Prop} (h : Observed note p τ m)
    (hids : m.sched.ids.handed ≤ UInt64.size) (start : P [] p.machine)
    (perform : ∀ τ m me x ts, P τ m → Reaches p.machine m → m.sched.ids.handed ≤ UInt64.size →
      m.sched.turn = .held me → m.stackOf me = x :: ts →
      ((m.setStack me ts).perform me x).sched.ids.handed ≤ UInt64.size →
      P (τ ++ note m) ((m.setStack me ts).perform me x))
    (search : ∀ τ m s, P τ m → Reaches p.machine m → m.sched.ids.handed ≤ UInt64.size →
      (∀ t, m.sched.turn ≠ .held t) → m.sched.search m.system = some s →
      P (τ ++ note m) { m with sched := s })
    (sched : ∀ τ m s, P τ m → SameWaits m.sched s → Quiet m.sched s → P τ { m with sched := s })
    (outage : ∀ τ m e, P τ m → P τ (m.setOutage e)) : P τ m := by
  induction h with
  | start => exact start
  | @step τ m n hm hstep ih =>
      have hhanded := Nat.le_trans (handed_le_of_step hstep) hids
      rcases step_cases hstep with ⟨me, x, ts, hturn, hstack, rfl⟩ | ⟨hturn, s, hs, rfl⟩
      · exact perform τ m me x ts (ih hhanded) hm.reaches hhanded hturn hstack hids
      · exact search τ m s (ih hhanded) hm.reaches hhanded hturn hs
  | @wake τ m id _ ih =>
      have hwas := ih (by simpa [wakeFromOutside, onSched] using hids)
      exact sched τ m _ hwas (Sched.sameWaits_wakeup id _) (Sched.quiet_wakeup id _)
  | @elapse τ m d _ ih =>
      exact sched τ m _ (ih hids) { SameWaits.refl m.sched with } (Sched.sameRun_elapse d).quiet
  | @outage τ m e _ ih => exact outage τ m e (ih hids)

/-! ## Pieces of runs -/

/-- A run in which no giver panics and along which something holds up to its last moment. -/
inductive Along (P : Machine → Prop) (m : Machine) : Machine → Prop where
  | refl : Along P m m
  | step {n k : Machine} : Along P m n → P n → n.step = some k → Along P m k
  | wake {n : Machine} (id : ThreadId) : Along P m n → P n → Along P m (n.wakeFromOutside id)
  | elapse {n : Machine} (d : Span) : Along P m n → P n → Along P m (n.onSched (Sched.elapse d))
  | outage {n : Machine} (e : Option Errno) : Along P m n → P n → Along P m (n.setOutage e)

variable {P Q : Machine → Prop}

theorem Along.reaches (h : Along P m n) (hm : Reaches p.machine m) : Reaches p.machine n := by
  induction h with
  | refl => exact hm
  | step _ _ hstep ih => exact .step ih hstep
  | wake id _ _ ih => exact .wake id ih
  | elapse d _ _ ih => exact .elapse d ih
  | outage e _ _ ih => exact .outage e ih

/-- What holds at first, and is kept by the tasks, by the search for the next thread and by what
happens outside, holds at the end. -/
theorem Along.keeps_each (h : Along P m n) (hm : Reaches p.machine m)
    (hids : n.sched.ids.handed ≤ UInt64.size) (start : Q m)
    (perform : ∀ n me x ts, Q n → P n → Reaches p.machine n → n.sched.ids.handed ≤ UInt64.size →
      n.sched.turn = .held me → n.stackOf me = x :: ts →
      ((n.setStack me ts).perform me x).sched.ids.handed ≤ UInt64.size →
      Q ((n.setStack me ts).perform me x))
    (search : ∀ n s, Q n → Reaches p.machine n → n.sched.ids.handed ≤ UInt64.size →
      (∀ t, n.sched.turn ≠ .held t) → n.sched.search n.system = some s → Q { n with sched := s })
    (quiet : ∀ n s, Q n → Quiet n.sched s → Sched.Spares (fun _ => True) n.sched s →
      Q { n with sched := s })
    (outage : ∀ n e, Q n → Q (n.setOutage e)) : Q n := by
  induction h with
  | refl => exact start
  | step hn hP hstep ih =>
      have hhanded := Nat.le_trans (handed_le_of_step hstep) hids
      rcases step_cases hstep with ⟨me, x, ts, hturn, hstack, rfl⟩ | ⟨hturn, s, hs, rfl⟩
      · exact perform _ me x ts (ih hhanded) hP (hn.reaches hm) hhanded hturn hstack hids
      · exact search _ s (ih hhanded) (hn.reaches hm) hhanded hturn hs
  | wake id _ _ ih =>
      exact quiet _ _ (ih (by simpa [wakeFromOutside, onSched] using hids))
        (Sched.quiet_wakeup id _) (Sched.spares_wakeup id _)
  | elapse d _ _ ih =>
      exact quiet _ _ (ih hids) (Sched.sameRun_elapse d).quiet (Sched.spares_elapse d _)
  | outage e _ _ ih => exact outage _ e (ih hids)

/-- The same when it makes no difference what the scheduler does. -/
theorem Along.keeps (h : Along P m n) (hm : Reaches p.machine m)
    (hids : n.sched.ids.handed ≤ UInt64.size) (start : Q m)
    (perform : ∀ n me x ts, Q n → P n → Reaches p.machine n → n.sched.ids.handed ≤ UInt64.size →
      n.sched.turn = .held me → n.stackOf me = x :: ts →
      ((n.setStack me ts).perform me x).sched.ids.handed ≤ UInt64.size →
      Q ((n.setStack me ts).perform me x))
    (sched : ∀ n s, Q n → Sched.Spares (fun _ => True) n.sched s → Q { n with sched := s })
    (outage : ∀ n e, Q n → Q (n.setOutage e)) : Q n :=
  h.keeps_each hm hids start perform
    (fun n s hQ _ _ _ hs => sched n s hQ (Sched.spares_search hs))
    (fun n s hQ _ hspares => sched n s hQ hspares) outage

end Machine

end Baton
