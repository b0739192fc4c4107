import Baton.Proofs.Program.Routine
import Baton.Program.Run

/-!
# Machine: chronicles

A chronicle lists what happens to the threads of a run: who is started, woken, stopped, resumed and
taken out, how threads end, and which joins return. The happenings of a step are read off the
machine before it: they are those of the task that is carried out, or of the search for the next
thread.

A wakeup is listed when it is issued, whatever becomes of it.
-/

namespace Baton

/-- Something that happens to a thread in a run. -/
inductive Happening where
  | started (id : ThreadId)
  | woken (id : ThreadId)
  /-- The thread asks to be suspended. -/
  | stopped (id : ThreadId)
  | yielded (id : ThreadId)
  /-- The thread is given the turn. -/
  | resumed (id : ThreadId)
  /-- The code of the thread comes to its end. -/
  | ended (id : ThreadId) (o : Outcome)
  /-- The thread is taken out of the scheduler. -/
  | left (id : ThreadId)
  /-- A join of `target` in the code of `waiter` returns. -/
  | joined (waiter target : ThreadId) (o : Outcome)
  deriving DecidableEq

/-- Who gets the turn. -/
def Sched.resumption (s : Sched) : List Happening :=
  match s.turn with
  | .held t => [.resumed t]
  | _ => []

/-- What happens in a step of the search for the next thread. -/
def Sched.happenings (system : PollSystem Descriptor) (s : Sched) : List Happening :=
  match s.turn with
  | .seeking _ => (s.polled system .zero).map .woken
  | .idle _ => (s.polled system s.idlePoll).map .woken
  | _ => ((s.search system).map Sched.resumption).getD []

namespace Machine

/-- What happens when the code of `me` ends: all but the main thread leave, and wake those who wait
for that. -/
def endings (me : ThreadId) (o : Outcome) (m : Machine) : List Happening :=
  .ended me o :: if me = m.sched.main then [] else
    .left me :: (m.sched.joinersOf me ++ if m.sched.live = 2 then [m.sched.main] else []).map .woken

/-- What happens when a join of `id` looks for the outcome. -/
def joining (me id : ThreadId) (m : Machine) : List Happening :=
  ((m.outcomes.get? id).map (.joined me id)).toList

/-- What happens when `me` carries out a task. -/
def happeningsOf (me : ThreadId) (m : Machine) : Task → List Happening
  | .suspend => [.stopped me]
  | .pause => [.yielded me]
  | .spawn _ => [.started m.sched.ids.next]
  | .exit => m.endings me (.finished (m.threads.get me).produced)
  | .abort text => m.endings me (.panicked text)
  | .drain => if 1 < m.sched.live then [] else [.left me]
  | .awaitThread id => m.joining me id
  | .joinOutside id => if id ∈ m.handles then m.joining me id else []
  | x => (m.wokenBy me x).map .woken

/-- What happens in the next step. -/
def happenings (m : Machine) : List Happening :=
  match m.sched.turn with
  | .held me => match m.popTask me with
    | some (x, m) => m.happeningsOf me x
    | none => []
  | _ => m.sched.happenings m.system

/-- What happens in at most `fuel` steps. -/
def trace : Nat → Machine → List Happening
  | 0, _ => []
  | fuel + 1, m =>
    match m.step with
    | some next => m.happenings ++ trace fuel next
    | none => []

/-- A run of a program in which no giver panics, with what has happened in it. -/
inductive Chronicle (p : Program) : List Happening → Machine → Prop where
  | start : Chronicle p [.started .first] p.machine
  | step {τ : List Happening} {m n : Machine} : Chronicle p τ m → m.step = some n →
      Chronicle p (τ ++ m.happenings) n
  | wake {τ : List Happening} {m : Machine} (id : ThreadId) : Chronicle p τ m →
      Chronicle p (τ ++ [.woken id]) (m.wakeFromOutside id)
  | elapse {τ : List Happening} {m : Machine} (d : Span) : Chronicle p τ m →
      Chronicle p τ (m.onSched (Sched.elapse d))
  | outage {τ : List Happening} {m : Machine} (e : Option Errno) : Chronicle p τ m →
      Chronicle p τ (m.setOutage e)

variable {p : Program} {τ : List Happening} {m : Machine} {me : ThreadId} {x : Task}
  {ts : List Task}

theorem happenings_of_held (hturn : m.sched.turn = .held me) (hstack : m.stackOf me = x :: ts) :
    m.happenings = (m.setStack me ts).happeningsOf me x := by
  rw [happenings, hturn]
  dsimp only
  rw [popTask_of_stack hstack]

theorem happenings_of_free (hturn : ∀ t, m.sched.turn ≠ .held t) :
    m.happenings = m.sched.happenings m.system := by
  unfold happenings
  split
  · rename_i t hheld
    exact absurd hheld (hturn t)
  · rfl

theorem Chronicle.reaches (h : Chronicle p τ m) : Reaches p.machine m := by
  induction h with
  | start => exact .refl _
  | step _ hstep ih => exact .step ih hstep
  | wake id _ ih => exact .wake id ih
  | elapse d _ ih => exact .elapse d ih
  | outage e _ ih => exact .outage e ih

/-- Every run has a chronicle. -/
theorem Reaches.exists_chronicle (h : Reaches p.machine m) : ∃ τ, Chronicle p τ m := by
  induction h with
  | refl => exact ⟨_, .start⟩
  | step _ hstep ih => exact ih.imp' _ fun _ hτ => .step hτ hstep
  | wake id _ ih => exact ih.imp' _ fun _ hτ => .wake id hτ
  | elapse d _ ih => exact ih.imp fun _ hτ => .elapse d hτ
  | outage e _ ih => exact ih.imp fun _ hτ => .outage e hτ

theorem Chronicle.run (h : Chronicle p τ m) (fuel : Nat) :
    Chronicle p (τ ++ m.trace fuel) (m.run fuel) := by
  induction fuel generalizing τ m with
  | zero => simpa [trace, Machine.run] using h
  | succ fuel ih =>
      unfold trace Machine.run
      cases hstep : m.step with
      | none => simpa using h
      | some n => simpa using ih (h.step hstep)

end Machine

/-- What has happened in the first steps of a program. -/
def Program.trace (fuel : Nat) (p : Program) : List Happening :=
  .started .first :: p.machine.trace fuel

theorem Machine.chronicle_final (fuel : Nat) (p : Program) :
    Chronicle p (p.trace fuel) (p.final fuel) :=
  Chronicle.start.run fuel

end Baton
