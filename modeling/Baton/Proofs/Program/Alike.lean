import Baton.Proofs.Program.Observed
import Baton.Proofs.Sched.Alike

/-!
# Machine: runs that differ in their logs only

Tasks read the threads and the mutexes by name, and nobody reads the log. So two machines that agree
up to that take the same steps, and what happens to one of them can happen to the other.
-/

namespace Baton

namespace Machine

variable {m n : Machine} {me : ThreadId} {x : Task}

/-- The machines agree in everything that a task can read; their logs may differ. -/
structure Alike (m n : Machine) : Prop where
  host : n.host = m.host
  code : n.code = m.code
  pairing : n.pairing = m.pairing
  sched : m.sched.Alike n.sched
  threads : ∀ t, n.threads.get t = m.threads.get t
  mutexes : ∀ name, n.mutexes.get name = m.mutexes.get name
  rendezvous : n.rendezvous = m.rendezvous
  locks : n.locks = m.locks
  memory : n.memory = m.memory
  pipes : n.pipes = m.pipes
  outage : n.outage = m.outage
  handles : n.handles = m.handles
  outcomes : n.outcomes = m.outcomes
  mainOutcome : n.mainOutcome = m.mainOutcome
  events : n.events = m.events
  output : n.output = m.output

namespace Alike

theorem refl (m : Machine) : m.Alike m :=
  ⟨rfl, rfl, rfl, .refl _, fun _ => rfl, fun _ => rfl, rfl, rfl, rfl, rfl, rfl, rfl, rfl, rfl, rfl,
    rfl⟩

theorem symm (h : m.Alike n) : n.Alike m where
  host := h.host.symm
  code := h.code.symm
  pairing := h.pairing.symm
  sched := h.sched.symm
  threads t := (h.threads t).symm
  mutexes name := (h.mutexes name).symm
  rendezvous := h.rendezvous.symm
  locks := h.locks.symm
  memory := h.memory.symm
  pipes := h.pipes.symm
  outage := h.outage.symm
  handles := h.handles.symm
  outcomes := h.outcomes.symm
  mainOutcome := h.mainOutcome.symm
  events := h.events.symm
  output := h.output.symm

/-! ## Reading -/

theorem replyOf (h : m.Alike n) (me : ThreadId) : n.replyOf me = m.replyOf me :=
  congrArg Thread.reply (h.threads me)

theorem guard? (h : m.Alike n) (me : ThreadId) : n.guard? me = m.guard? me := by
  rw [Machine.guard?, Machine.guard?, h.threads me]

theorem system (h : m.Alike n) : n.system = m.system := by
  rw [Machine.system, Machine.system, h.outage, h.pipes]

theorem isLive (h : m.Alike n) (id : ThreadId) : n.sched.isLive id = m.sched.isLive id :=
  (congrArg (Sched.isLive id) h.sched :)

/-! ## Writing -/

theorem onThread (h : m.Alike n) (me : ThreadId) (f : Thread → Thread) :
    Alike { m with threads := m.threads.update me f } { n with threads := n.threads.update me f } :=
  { h with
    threads := fun t => by
      show (n.threads.update me f).get t = (m.threads.update me f).get t
      rw [Store.get_update, Store.get_update, h.threads, h.threads] }

theorem push (h : m.Alike n) (me : ThreadId) (ts : List Task) :
    (m.push me ts).Alike (n.push me ts) :=
  h.onThread me _

theorem setStack (h : m.Alike n) (me : ThreadId) (ts : List Task) :
    (m.setStack me ts).Alike (n.setStack me ts) :=
  h.onThread me _

theorem answer (h : m.Alike n) (me : ThreadId) (r : Reply) :
    (m.answer me r).Alike (n.answer me r) :=
  h.onThread me _

theorem panic (h : m.Alike n) (me : ThreadId) (text : String) :
    (m.panic me text).Alike (n.panic me text) :=
  h.onThread me _

theorem report (h : m.Alike n) (me : ThreadId) (name : String) :
    (m.report me name).Alike (n.report me name) :=
  { h.onThread me _ with
    events := by
      show Event.mk _ _ _ :: n.events = Event.mk _ _ _ :: m.events
      rw [h.host, h.replyOf, h.events] }

theorem onSched (h : m.Alike n) {f : Sched → Sched} (hf : (f m.sched).Alike (f n.sched)) :
    (m.onSched f).Alike (n.onSched f) :=
  { h with sched := hf }

theorem note (h : m.Alike n) (notice : Notice) : (m.note notice).Alike (n.note notice) :=
  h.onSched (h.sched.note notice)

theorem wakeup (h : m.Alike n) (id : ThreadId) :
    (m.onSched (Sched.wakeup id)).Alike (n.onSched (Sched.wakeup id)) :=
  h.onSched (h.sched.wakeup id)

theorem setMutex (h : m.Alike n) (name : MutexName) (y : Mutex) :
    (m.setMutex name y).Alike (n.setMutex name y) :=
  { h with
    mutexes := fun k => by
      show (n.mutexes.set name y).get k = (m.mutexes.set name y).get k
      rw [Store.get_set, Store.get_set, h.mutexes] }

theorem setRendez (h : m.Alike n) (r : RendezName) (y : Rendez) :
    (m.setRendez r y).Alike (n.setRendez r y) :=
  { h with rendezvous := congrArg (Store.set · r y) h.rendezvous }

theorem setLock (h : m.Alike n) (l : LockName) (s : RwState) :
    (m.setLock l s).Alike (n.setLock l s) :=
  { h with locks := congrArg (Store.set · l s) h.locks }

theorem setPipe (h : m.Alike n) (index : Nat) (y : Pipe) :
    (m.setPipe index y).Alike (n.setPipe index y) :=
  { h with pipes := congrArg (Store.set · index y) h.pipes }

theorem setMemory (h : m.Alike n) (memory : Memory) :
    Alike { m with memory } { n with memory } :=
  { h with memory := rfl }

theorem setHandles (h : m.Alike n) (handles : List ThreadId) :
    Alike { m with handles } { n with handles } :=
  { h with handles := rfl }

/-! ## Threads -/

theorem spawn (h : m.Alike n) (me : ThreadId) (code : Nat) :
    (m.spawn me code).Alike (n.spawn me code) := by
  obtain ⟨hid, hsched⟩ := h.sched.spawn
  unfold Machine.spawn
  dsimp only
  rw [hid, h.code, h.handles]
  refine Alike.answer ?_ me _
  exact { h with
    code := rfl
    sched := hsched
    threads := fun t => by
      show (n.threads.set _ _).get t = (m.threads.set _ _).get t
      rw [Store.get_set, Store.get_set, h.threads]
    handles := rfl }

theorem join (h : m.Alike n) (me id : ThreadId) : (m.join me id).Alike (n.join me id) := by
  unfold Machine.join
  rw [h.handles]
  split
  · exact (h.setHandles _).push me _
  · exact h.answer me _

theorem awaitThread (h : m.Alike n) (me id : ThreadId) :
    (m.awaitThread me id).Alike (n.awaitThread me id) := by
  unfold Machine.awaitThread
  rw [h.outcomes]
  split
  · exact h.answer me _
  · exact (h.onSched (h.sched.addJoiner id me)).push me _

theorem peek (h : m.Alike n) (me id : ThreadId) : (m.peek me id).Alike (n.peek me id) := by
  unfold Machine.peek
  rw [h.handles, h.outcomes]
  exact h.answer me _

theorem joinOutside (h : m.Alike n) (me id : ThreadId) :
    (m.joinOutside me id).Alike (n.joinOutside me id) := by
  have houtcome : n.outcomes.get? id = m.outcomes.get? id := by rw [h.outcomes]
  unfold Machine.joinOutside
  rw [h.handles, houtcome]
  split
  · exact (h.setHandles _).answer me _
  · exact h.answer me _

theorem wake (h : m.Alike n) (me id : ThreadId) : (m.wake me id).Alike (n.wake me id) := by
  unfold Machine.wake
  rw [h.isLive]
  exact (h.answer me _).wakeup id

theorem stopUntil (h : m.Alike n) (me : ThreadId) (v : Nat) (y : Int) (count : Nat) :
    (m.stopUntil me v y count).Alike (n.stopUntil me v y count) := by
  unfold Machine.stopUntil
  rw [h.memory, h.host]
  split
  · exact h.answer me _
  · split
    · exact h.push me _
    · exact h.answer me _

theorem finish (h : m.Alike n) (me : ThreadId) (o : Outcome) :
    (m.finish me o).Alike (n.finish me o) := by
  have hmain : n.sched.main = m.sched.main := (congrArg Sched.main h.sched :)
  unfold Machine.finish
  rw [hmain]
  split
  · refine Alike.push ?_ me _
    exact { h with mainOutcome := rfl }
  · refine Alike.onSched ?_ (h.sched.finish me)
    exact { h with outcomes := congrArg (Store.set · me o) h.outcomes }

theorem exit (h : m.Alike n) (me : ThreadId) : (m.exit me).Alike (n.exit me) := by
  unfold Machine.exit
  rw [h.threads]
  exact h.finish me _

theorem abort (h : m.Alike n) (me : ThreadId) (text : String) :
    (m.abort me text).Alike (n.abort me text) := by
  have hmain : n.sched.main = m.sched.main := (congrArg Sched.main h.sched :)
  unfold Machine.abort
  rw [hmain]
  split
  · exact h.finish me _
  · exact (h.note _).finish me _

theorem drain (h : m.Alike n) (me : ThreadId) : (m.drain me).Alike (n.drain me) := by
  have hlive : n.sched.live = m.sched.live := (congrArg Sched.live h.sched :)
  unfold Machine.drain
  rw [hlive]
  split
  · exact h.push me _
  · exact h.onSched (h.sched.conclude me)

/-! ## Mutexes and rendezvous -/

theorem acquire (h : m.Alike n) (me : ThreadId) (name : MutexName) :
    (m.acquire me name).Alike (n.acquire me name) := by
  unfold Machine.acquire
  rw [h.mutexes]
  dsimp only
  split
  · exact h.setMutex name _
  · exact (h.setMutex name _).push me _
  · exact (h.setMutex name _).panic me _

theorem awaitOwner (h : m.Alike n) (me : ThreadId) (name : MutexName) :
    (m.awaitOwner me name).Alike (n.awaitOwner me name) := by
  unfold Machine.awaitOwner
  rw [h.mutexes]
  split
  · exact h
  · exact h.push me _

theorem tryAcquire (h : m.Alike n) (me : ThreadId) (name : MutexName) :
    (m.tryAcquire me name).Alike (n.tryAcquire me name) := by
  unfold Machine.tryAcquire
  rw [h.mutexes]
  exact (h.setMutex name _).answer me _

theorem release (h : m.Alike n) (me : ThreadId) (name : MutexName) :
    (m.release me name).Alike (n.release me name) := by
  unfold Machine.release
  rw [h.mutexes]
  dsimp only
  split
  · split
    · exact ((h.setMutex name _).note _).wakeup _
    · exact h.setMutex name _
  · exact h.note _

theorem sleepOn (h : m.Alike n) (me : ThreadId) (r : RendezName) (name : MutexName) :
    (m.sleepOn me r name).Alike (n.sleepOn me r name) := by
  unfold Machine.sleepOn
  rw [h.rendezvous]
  exact (h.setRendez r _).push me _

theorem leave (h : m.Alike n) (me : ThreadId) (r : RendezName) :
    (m.leave me r).Alike (n.leave me r) := by
  unfold Machine.leave
  rw [h.rendezvous]
  exact h.setRendez r _

theorem signal (h : m.Alike n) (r : RendezName) : (m.signal r).Alike (n.signal r) := by
  unfold Machine.signal
  rw [h.rendezvous]
  dsimp only
  split
  · exact (h.setRendez r _).wakeup _
  · exact h.setRendez r _

theorem broadcast (h : m.Alike n) (r : RendezName) : (m.broadcast r).Alike (n.broadcast r) := by
  unfold Machine.broadcast
  rw [h.rendezvous]
  exact (h.setRendez r _).onSched (h.sched.wakeAll _)

theorem sleepUntil (h : m.Alike n) (me : ThreadId) (r : RendezName) (name : MutexName) (v : Nat)
    (y : Int) (count : Nat) :
    (m.sleepUntil me r name v y count).Alike (n.sleepUntil me r name v y count) := by
  unfold Machine.sleepUntil
  rw [h.memory, h.host]
  split
  · exact h.answer me _
  · exact h.push me _

/-! ## Reader/writer locks -/

theorem closeSection (h : m.Alike n) (me : ThreadId) (l : LockName) :
    (m.closeSection me l).Alike (n.closeSection me l) := by
  unfold Machine.closeSection
  rw [h.locks]
  split
  · exact h.push me _
  · exact h.panic me _

theorem requestRead (h : m.Alike n) (me : ThreadId) (l : LockName) :
    (m.requestRead me l).Alike (n.requestRead me l) := by
  unfold Machine.requestRead
  rw [h.locks]
  dsimp only
  split
  · exact ((h.setLock l _).answer me _).push me _
  · exact (((h.setLock l _).note _).answer me _).push me _
  · exact (((h.setLock l _).note _).answer me _).push me _

theorem recheckRead (h : m.Alike n) (me : ThreadId) (l : LockName) :
    (m.recheckRead me l).Alike (n.recheckRead me l) := by
  unfold Machine.recheckRead
  rw [h.locks]
  exact (h.setLock l _).push me _

theorem requestWrite (h : m.Alike n) (me : ThreadId) (l : LockName) :
    (m.requestWrite me l).Alike (n.requestWrite me l) := by
  unfold Machine.requestWrite
  rw [h.locks]
  dsimp only
  split
  · exact ((h.setLock l _).answer me _).push me _
  · exact (((h.setLock l _).note _).answer me _).push me _
  · exact (((h.setLock l _).note _).answer me _).push me _

theorem recheckWrite (h : m.Alike n) (me : ThreadId) (l : LockName) :
    (m.recheckWrite me l).Alike (n.recheckWrite me l) := by
  unfold Machine.recheckWrite
  rw [h.locks]
  exact (h.setLock l _).push me _

theorem tryRead (h : m.Alike n) (me : ThreadId) (l : LockName) :
    (m.tryRead me l).Alike (n.tryRead me l) := by
  unfold Machine.tryRead
  rw [h.locks]
  exact ((h.setLock l _).answer me _).push me _

theorem tryWrite (h : m.Alike n) (me : ThreadId) (l : LockName) :
    (m.tryWrite me l).Alike (n.tryWrite me l) := by
  unfold Machine.tryWrite
  rw [h.locks]
  exact ((h.setLock l _).answer me _).push me _

theorem wakeGranted (h : m.Alike n) (l : LockName) (handoff : Handoff) :
    (m.wakeGranted l handoff).Alike (n.wakeGranted l handoff) := by
  cases handoff with
  | nobody => exact h
  | writer next => exact (h.note _).broadcast _
  | readers count => exact (h.note _).broadcast _

theorem releaseRead (h : m.Alike n) (me : ThreadId) (l : LockName) :
    (m.releaseRead me l).Alike (n.releaseRead me l) := by
  unfold Machine.releaseRead
  rw [h.locks]
  split
  · exact (((h.setLock l _).wakeGranted l _).answer me _).push me _
  · exact ((h.note _).answer me _).push me _

theorem releaseWrite (h : m.Alike n) (me : ThreadId) (l : LockName) :
    (m.releaseWrite me l).Alike (n.releaseWrite me l) := by
  unfold Machine.releaseWrite
  rw [h.locks]
  split
  · exact (((h.setLock l _).wakeGranted l _).answer me _).push me _
  · exact ((h.note _).answer me _).push me _

theorem releaseHeld (h : m.Alike n) (me : ThreadId) (l : LockName) :
    (m.releaseHeld me l).Alike (n.releaseHeld me l) := by
  unfold Machine.releaseHeld
  rw [h.locks]
  exact h.push me _

/-! ## Guards -/

theorem enter (h : m.Alike n) (me : ThreadId) (name : String) (g : Guard) (body : List Instr) :
    (m.enter me name g body).Alike (n.enter me name g body) := by
  unfold Machine.enter
  rw [h.replyOf]
  split
  · exact h.report me name
  · exact ((h.answer me _).report me name).push me _

theorem checkDrop (h : m.Alike n) (me : ThreadId) (exclusive : Bool) :
    (m.checkDrop me exclusive).Alike (n.checkDrop me exclusive) := by
  unfold Machine.checkDrop
  rw [h.replyOf]
  split
  · exact h.note _
  · exact h

theorem withGuard (h : m.Alike n) (me : ThreadId) {f : Guard → Machine → Machine}
    (hf : ∀ g, (f g m).Alike (f g n)) : (m.withGuard me f).Alike (n.withGuard me f) := by
  unfold Machine.withGuard
  rw [h.guard?]
  split
  · exact hf _
  · exact h.answer me _

theorem getList (h : m.Alike n) (me : ThreadId) : (m.getList me).Alike (n.getList me) := by
  refine h.withGuard me fun g => ?_
  rw [h.memory]
  exact h.answer me _

theorem pushList (h : m.Alike n) (me : ThreadId) (y : Int) :
    (m.pushList me y).Alike (n.pushList me y) := by
  refine h.withGuard me fun g => ?_
  rw [h.memory]
  split
  · exact (h.setMemory _).answer me _
  · exact h.answer me _

theorem popList (h : m.Alike n) (me : ThreadId) : (m.popList me).Alike (n.popList me) := by
  refine h.withGuard me fun g => ?_
  rw [h.memory]
  split
  · exact (h.setMemory _).answer me _
  · exact h.answer me _

theorem condSleepWith (h : m.Alike n) (me : ThreadId) (k c : Nat) (after : List Task) :
    (m.condSleepWith me k c after).Alike (n.condSleepWith me k c after) := by
  unfold Machine.condSleepWith pairedCell
  rw [h.pairing]
  split
  · exact (h.answer me _).push me _
  · exact (h.note _).answer me _

theorem condSleep (h : m.Alike n) (me : ThreadId) (k : Nat) :
    (m.condSleep me k).Alike (n.condSleep me k) := by
  unfold Machine.condSleep
  rw [h.guard?]
  split
  · exact h.condSleepWith me k _ _
  · exact h.answer me _

theorem condSleepWhile (h : m.Alike n) (me : ThreadId) (k : Nat) (test : Test) :
    (m.condSleepWhile me k test).Alike (n.condSleepWhile me k test) := by
  unfold Machine.condSleepWhile
  rw [h.guard?, h.memory]
  split
  · split
    · exact h.panic me _
    · dsimp only
      split
      · exact (h.setMemory _).condSleepWith me k _ _
      · exact (h.setMemory _).answer me _
  · exact h.answer me _

theorem showCell (h : m.Alike n) (me : ThreadId) (c : Nat) :
    (m.showCell me c).Alike (n.showCell me c) := by
  unfold Machine.showCell
  rw [h.replyOf, h.memory]
  split
  · exact h.answer me _
  · exact (h.answer me _).push me _

theorem showLock (h : m.Alike n) (me : ThreadId) (l : LockName) :
    (m.showLock me l).Alike (n.showLock me l) := by
  unfold Machine.showLock
  rw [h.replyOf, h.memory]
  split
  · exact h.answer me _
  · exact h.push me _

/-! ## Descriptors -/

theorem selectEntries (h : m.Alike n) (me : ThreadId) (entries : List (PollEntry Descriptor))
    (timeout : Option Span) :
    (m.selectEntries me entries timeout).Alike (n.selectEntries me entries timeout) := by
  have hpolled := h.onSched (h.sched.elapse Sched.pollCost)
  have hclock : (n.onSched (Sched.elapse Sched.pollCost)).sched.clock =
      (m.onSched (Sched.elapse Sched.pollCost)).sched.clock :=
    (congrArg Sched.clock hpolled.sched :)
  unfold Machine.selectEntries
  dsimp only
  rw [h.system, hclock]
  split
  · exact hpolled.answer me _
  · split
    · exact hpolled.answer me _
    · split
      · exact (hpolled.onSched (hpolled.sched.await _)).push me _
      · split
        · exact (hpolled.onSched (hpolled.sched.await _)).push me _
        · exact hpolled.panic me _

theorem pollHere (h : m.Alike n) (me : ThreadId) (entries : List (PollEntry Descriptor))
    (timeout : Option Span) :
    (m.pollHere me entries timeout).Alike (n.pollHere me entries timeout) := by
  have hclock : n.sched.clock = m.sched.clock := (congrArg Sched.clock h.sched :)
  unfold Machine.pollHere
  rw [h.system, hclock]
  split
  · exact h.panic me _
  · exact h.answer me _
  · split
    · exact h.answer me _
    · exact h.push me _

theorem select (h : m.Alike n) (me : ThreadId) (entries : List (Descriptor × Interest))
    (timeout : Option Span) :
    (m.select me entries timeout).Alike (n.select me entries timeout) := by
  have hentries : n.resolve entries = m.resolve entries := by
    unfold resolve
    rw [h.pipes]
  unfold Machine.select
  rw [h.host, hentries]
  split
  · exact h.pollHere me _ timeout
  · exact h.selectEntries me _ timeout

theorem collect (h : m.Alike n) (me : ThreadId) : (m.collect me).Alike (n.collect me) := by
  have hdelivery : n.sched.delivery? me = m.sched.delivery? me :=
    (congrArg (Sched.delivery? me) h.sched :)
  unfold Machine.collect
  rw [hdelivery]
  split
  · exact h.push me _
  · exact (h.onSched (h.sched.takeDelivery me)).answer me _

theorem forgetFound (h : m.Alike n) (me : ThreadId) :
    (m.forgetFound me).Alike (n.forgetFound me) := by
  unfold Machine.forgetFound
  rw [h.replyOf]
  split
  · exact h
  · exact h.answer me _

theorem transferRound (h : m.Alike n) (me : ThreadId) (c : PipeCall) :
    (m.transferRound me c).Alike (n.transferRound me c) := by
  unfold Machine.transferRound
  dsimp only
  rw [h.host]
  split
  · exact h.push me _
  · exact h.push me _
  · exact h.answer me _

theorem transfer (h : m.Alike n) (me : ThreadId) (c : PipeCall) :
    (m.transfer me c).Alike (n.transfer me c) := by
  unfold Machine.transfer
  rw [h.pipes]
  split
  · exact h.transferRound me c
  · exact h.answer me _

theorem attempt (h : m.Alike n) (me : ThreadId) (c : PipeCall) :
    (m.attempt me c).Alike (n.attempt me c) := by
  unfold Machine.attempt
  rw [h.replyOf, h.pipes]
  split
  · exact h
  · split
    · exact h.push me _
    · dsimp only
      split
      · exact (h.setPipe c.pipe _).answer me _
      · exact (h.setPipe c.pipe _).answer me _
      · exact (h.setPipe c.pipe _).push me _
      · exact (h.setPipe c.pipe _).push me _

theorem close (h : m.Alike n) (index : Nat) (side : PipeEnd) :
    (m.close index side).Alike (n.close index side) := by
  unfold Machine.close
  rw [h.pipes]
  exact h.setPipe index _

/-! ## Runs -/

/-- No task tells the two machines apart. -/
theorem perform (h : m.Alike n) (me : ThreadId) (x : Task) :
    (m.perform me x).Alike (n.perform me x) := by
  cases x with
  | instr i =>
      show (m.push me _).Alike (n.push me _)
      rw [h.host, h.replyOf, h.memory]
      exact h.push me _
  | answer r => exact h.answer me r
  | report name => exact h.report me name
  | panic text => exact h.panic me text
  | compute f =>
      show (Machine.answer me _ { m with memory := _ }).Alike
        (Machine.answer me _ { n with memory := _ })
      rw [h.replyOf, h.memory]
      exact (h.setMemory _).answer me _
  | suspend => exact h.onSched (h.sched.stop me)
  | pause => exact h.onSched (h.sched.yieldNow me)
  | wake id => exact h.wake me id
  | spawn code => exact h.spawn me code
  | join id => exact h.join me id
  | awaitThread id => exact h.awaitThread me id
  | peek id => exact h.peek me id
  | joinOutside id => exact h.joinOutside me id
  | stopUntil v y count => exact h.stopUntil me v y count
  | acquire name => exact h.acquire me name
  | awaitOwner name => exact h.awaitOwner me name
  | tryAcquire name => exact h.tryAcquire me name
  | release name => exact h.release me name
  | owner name =>
      show (m.answer me _).Alike (n.answer me _)
      rw [h.mutexes]
      exact h.answer me _
  | sleepOn r name => exact h.sleepOn me r name
  | leave r => exact h.leave me r
  | signal r => exact h.signal r
  | broadcast r => exact h.broadcast r
  | sleepers r =>
      show (m.answer me _).Alike (n.answer me _)
      rw [h.rendezvous]
      exact h.answer me _
  | sleepUntil r name v y count => exact h.sleepUntil me r name v y count
  | requestRead l => exact h.requestRead me l
  | recheckRead l => exact h.recheckRead me l
  | requestWrite l => exact h.requestWrite me l
  | recheckWrite l => exact h.recheckWrite me l
  | tryRead l => exact h.tryRead me l
  | tryWrite l => exact h.tryWrite me l
  | releaseRead l => exact h.releaseRead me l
  | releaseWrite l => exact h.releaseWrite me l
  | releaseHeld l => exact h.releaseHeld me l
  | copyState l =>
      show ((m.answer me _).push me _).Alike ((n.answer me _).push me _)
      rw [h.locks]
      exact (h.answer me _).push me _
  | closeSection l => exact h.closeSection me l
  | enter name g body => exact h.enter me name g body
  | drop g => exact h.push me _
  | checkDrop exclusive => exact h.checkDrop me exclusive
  | getList => exact h.getList me
  | pushList y => exact h.pushList me y
  | popList => exact h.popList me
  | condSleep k => exact h.condSleep me k
  | condSleepWhile k test => exact h.condSleepWhile me k test
  | condCell k =>
      show (m.answer me (.int (m.pairing.getD k 0 : Nat))).Alike
        (n.answer me (.int (n.pairing.getD k 0 : Nat)))
      rw [h.pairing]
      exact h.answer me _
  | showCell c => exact h.showCell me c
  | showLock l => exact h.showLock me l
  | select entries timeout => exact h.select me entries timeout
  | selectHere entries timeout => exact h.selectEntries me entries timeout
  | collect => exact h.collect me
  | pollHere entries timeout => exact h.pollHere me entries timeout
  | forgetFound => exact h.forgetFound me
  | transfer c => exact h.transfer me c
  | transferRound c => exact h.transferRound me c
  | attempt c => exact h.attempt me c
  | close index side => exact h.close index side
  | setError text => exact h.onThread me _
  | lastError =>
      show (m.answer me _).Alike (n.answer me _)
      rw [h.threads]
      exact h.answer me _
  | say level text =>
      show (m.note _).Alike (n.note _)
      rw [h.replyOf, h.memory]
      exact h.note _
  | print text =>
      refine { h with output := ?_ }
      show text _ _ :: n.output = text _ _ :: m.output
      rw [h.replyOf, h.memory, h.output]
  | exit => exact h.exit me
  | abort text => exact h.abort me text
  | drain => exact h.drain me

/-- The two machines take the same steps. -/
theorem step {m' : Machine} (h : m.Alike n) (hstep : m.step = some m') :
    ∃ n', n.step = some n' ∧ m'.Alike n' := by
  have hturn : n.sched.turn = m.sched.turn := (congrArg Sched.turn h.sched :)
  rcases step_cases hstep with ⟨me, x, ts, hheld, hstack, rfl⟩ | ⟨hfree, s, hs, rfl⟩
  · have hsame : n.stackOf me = x :: ts := (congrArg Thread.stack (h.threads me)).trans hstack
    exact ⟨_, step_of_held (hturn.trans hheld) hsame, (h.setStack me ts).perform me x⟩
  · obtain ⟨s', hs', halike⟩ := h.sched.search hs
    refine ⟨{ n with sched := s' }, ?_, { h with sched := halike }⟩
    unfold Machine.step
    rw [h.system, hs']
    split
    · rename_i me hheld
      exact absurd (hturn.symm.trans hheld) (hfree me)
    · rfl

/-- What can happen to one of the machines can happen to the other. -/
theorem reaches {m' : Machine} (h : m.Alike n) (hm : Reaches m m') :
    ∃ n', Reaches n n' ∧ m'.Alike n' := by
  induction hm with
  | refl => exact ⟨n, .refl n, h⟩
  | step _ hstep ih =>
      obtain ⟨i, hi, halike⟩ := ih
      obtain ⟨i', hnext, hafter⟩ := halike.step hstep
      exact ⟨i', .step hi hnext, hafter⟩
  | wake id _ ih =>
      obtain ⟨i, hi, halike⟩ := ih
      exact ⟨_, .wake id hi, halike.wakeup id⟩
  | elapse d _ ih =>
      obtain ⟨i, hi, halike⟩ := ih
      exact ⟨_, .elapse d hi, halike.onSched (halike.sched.elapse d)⟩
  | outage e _ ih =>
      obtain ⟨i, hi, halike⟩ := ih
      exact ⟨_, .outage e hi, { halike with outage := rfl }⟩

end Alike

/-- What can happen from one of the machines on can happen from the other one on, up to the logs. -/
structure SameRuns (m n : Machine) : Prop where
  onward : ∀ m', Reaches m m' → ∃ n', Reaches n n' ∧ m'.Alike n'
  back : ∀ n', Reaches n n' → ∃ m', Reaches m m' ∧ m'.Alike n'

theorem Alike.sameRuns (h : m.Alike n) : SameRuns m n where
  onward _ hm := h.reaches hm
  back _ hn := (h.symm.reaches hn).imp fun _ hm => hm.imp_right symm

end Machine

end Baton
