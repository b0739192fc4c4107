import Baton.Program.Guards
import Baton.Program.Threads
import Baton.Program.Waits

/-!
# Running a machine

The thread that has the turn carries out the top task of its stack; while nobody has it, the
scheduler looks for the next thread. A run is the repetition of such steps, with wakeups from
outside at any moment (`Machine.Reaches`).

The search for the next thread waits with a deadline, and the giver panics if that cannot be formed.
This is a step of its own (`Machine.overflow`): the giver goes on with the turn while the scheduler
still takes it for a thread that waits, so what the scheduler keeps is lost. `Machine.Reaches` is
about runs without such a step, which are all runs whose waits can be timed; `Machine.Unfolds` is
about all runs.
-/

namespace Baton

namespace Machine

/-- Carries out a task that has been taken off the stack of `me`. -/
def perform (me : ThreadId) (t : Task) (m : Machine) : Machine :=
  match t with
  | .instr i => m.push me (i.tasks m.host me (m.replyOf me) m.memory)
  | .answer r => m.answer me r
  | .report name => m.report me name
  | .panic text => m.panic me text
  | .compute f =>
    let (r, memory) := f (m.replyOf me) m.memory
    { m with memory }.answer me r
  | .suspend => m.onSched (Sched.stop me)
  | .pause => m.onSched (Sched.yieldNow me)
  | .wake id => m.wake me id
  | .spawn code => m.spawn me code
  | .join id => m.join me id
  | .awaitThread id => m.awaitThread me id
  | .peek id => m.peek me id
  | .joinOutside id => m.joinOutside me id
  | .stopUntil v x count => m.stopUntil me v x count
  | .acquire name => m.acquire me name
  | .awaitOwner name => m.awaitOwner me name
  | .tryAcquire name => m.tryAcquire me name
  | .release name => m.release me name
  | .owner name => m.answer me (.owner (m.mutexes.get name).owner)
  | .sleepOn r name => m.sleepOn me r name
  | .leave r => m.leave me r
  | .signal r => m.signal r
  | .broadcast r => m.broadcast r
  | .sleepers r => m.answer me (.int (m.rendezvous.get r).sleepers.length)
  | .sleepUntil r name v x count => m.sleepUntil me r name v x count
  | .requestRead l => m.requestRead me l
  | .recheckRead l => m.recheckRead me l
  | .requestWrite l => m.requestWrite me l
  | .recheckWrite l => m.recheckWrite me l
  | .tryRead l => m.tryRead me l
  | .tryWrite l => m.tryWrite me l
  | .releaseRead l => m.releaseRead me l
  | .releaseWrite l => m.releaseWrite me l
  | .releaseHeld l => m.releaseHeld me l
  | .copyState l => (m.answer me (.snapshot (m.locks.get l))).push me [.closeSection l]
  | .closeSection l => m.closeSection me l
  | .enter name g body => m.enter me name g body
  | .drop g => m.drop me g
  | .checkDrop exclusive => m.checkDrop me exclusive
  | .getList => m.getList me
  | .pushList x => m.pushList me x
  | .popList => m.popList me
  | .condSleep k => m.condSleep me k
  | .condSleepWhile k test => m.condSleepWhile me k test
  | .condCell k => m.answer me (.int (m.pairedCell k))
  | .showCell c => m.showCell me c
  | .showLock l => m.showLock me l
  | .select entries timeout => m.select me entries timeout
  | .selectHere entries timeout => m.selectEntries me entries timeout
  | .collect => m.collect me
  | .pollHere entries timeout => m.pollHere me entries timeout
  | .forgetFound => m.forgetFound me
  | .transfer c => m.transfer me c
  | .transferRound c => m.transferRound me c
  | .attempt c => m.attempt me c
  | .close index side => m.close index side
  | .setError s =>
    { m with threads := m.threads.update me fun t => { t with errorText := t.errorText.set s } }
  | .lastError => m.answer me (.text (m.threads.get me).errorText.message)
  | .say level text => m.note (.said level (text (m.replyOf me) m.memory))
  | .print text => { m with output := text (m.replyOf me) m.memory :: m.output }
  | .exit => m.exit me
  | .abort text => m.abort me text
  | .drain => m.drain me

/-- Takes the top task off the stack of a thread. -/
def popTask (me : ThreadId) (m : Machine) : Option (Task × Machine) :=
  match (m.threads.get me).stack with
  | [] => none
  | t :: rest => some (t, m.setStack me rest)

/-- One step: of the thread that has the turn, or of the search for the next one. There is none when
the giver panics. -/
def step (m : Machine) : Option Machine :=
  match m.sched.turn with
  | .held me => (m.popTask me).map fun (t, m) => m.perform me t
  | _ => (m.sched.search m.system).map fun sched => { m with sched }

/-- Whether the present work of a thread has been ended by a panic. -/
def isPanicking (me : ThreadId) (m : Machine) : Bool :=
  (m.threads.get me).stack.any fun
    | .abort _ => true
    | _ => false

/-- The panic of a giver whose wait has a deadline that cannot be formed. A main thread that waits
after its code is done ends the run by it. There is no step if the giver has finished, since it
takes the turn with it, and none if it panics already, since that ends the whole process. -/
def overflow (m : Machine) : Option Machine :=
  match m.sched.overflow? with
  | none => none
  | some (giver, sched) =>
    if !sched.isLive giver || m.isPanicking giver then none
    else if giver = sched.main ∧ m.mainOutcome.isSome then
      some { m with
        sched := { sched with turn := .over }
        mainOutcome := some (.panicked Instant.overflowText) }
    else some ({ m with sched }.panic giver Instant.overflowText)

/-- A wakeup by a thread of the operating system. -/
def wakeFromOutside (id : ThreadId) (m : Machine) : Machine := m.onSched (Sched.wakeup id)

/-- Takes at most `fuel` steps. -/
def run : Nat → Machine → Machine
  | 0, m => m
  | fuel + 1, m =>
    match m.step with
    | some next => run fuel next
    | none => m

/-- Takes at most `fuel` steps, panics of givers among them. -/
def unfold : Nat → Machine → Machine
  | 0, m => m
  | fuel + 1, m =>
    match m.step <|> m.overflow with
    | some next => unfold fuel next
    | none => m

/-- Wakes threads from outside one after the other, and tells of each whether it was live. -/
def wakeAllFromOutside : List ThreadId → Machine → List Bool × Machine
  | [], m => ([], m)
  | id :: ids, m =>
    let (answers, woken) := wakeAllFromOutside ids (m.wakeFromOutside id)
    (m.sched.isLive id :: answers, woken)

/-- Whether the scheduler has nothing to run and nothing to wait for. -/
def isStuck (m : Machine) : Bool :=
  match m.sched.turn with
  | .stuck _ => true
  | _ => false

/-- Lets polls fail from now on, or work again. -/
def setOutage (e : Option Errno) (m : Machine) : Machine := { m with outage := e }

/-- Whether one machine is reached from another by steps, wakeups from outside, the passing of time,
and failures of the system's polls, without the panic of a giver. -/
inductive Reaches : Machine → Machine → Prop where
  | refl (m : Machine) : Reaches m m
  | step {m n k : Machine} : Reaches m n → n.step = some k → Reaches m k
  | wake {m n : Machine} (id : ThreadId) : Reaches m n → Reaches m (n.wakeFromOutside id)
  | elapse {m n : Machine} (d : Span) : Reaches m n → Reaches m (n.onSched (Sched.elapse d))
  | outage {m n : Machine} (e : Option Errno) : Reaches m n → Reaches m (n.setOutage e)

theorem Reaches.run {m n : Machine} (h : Reaches m n) (fuel : Nat) : Reaches m (n.run fuel) := by
  induction fuel generalizing n with
  | zero => exact h
  | succ fuel ih =>
    unfold Machine.run
    split
    · rename_i next hstep
      exact ih (.step h hstep)
    · exact h

/-- Whether one machine is reached from another if givers may panic on the way, too. -/
inductive Unfolds : Machine → Machine → Prop where
  | refl (m : Machine) : Unfolds m m
  | step {m n k : Machine} : Unfolds m n → n.step = some k → Unfolds m k
  | overflow {m n k : Machine} : Unfolds m n → n.overflow = some k → Unfolds m k
  | wake {m n : Machine} (id : ThreadId) : Unfolds m n → Unfolds m (n.wakeFromOutside id)
  | elapse {m n : Machine} (d : Span) : Unfolds m n → Unfolds m (n.onSched (Sched.elapse d))
  | outage {m n : Machine} (e : Option Errno) : Unfolds m n → Unfolds m (n.setOutage e)

end Machine

end Baton
