import Baton.Proofs.Program.Course
import Baton.Proofs.Sched.Semaphore

/-!
# Machine: routine tasks

Most tasks do no more to the scheduler than to wake some threads, and these are known before the
task is carried out: the next owner of a mutex, a sleeper of a rendezvous, all those that a lock may
have been granted to. They neither end a thread nor let the main thread wait for the others.
-/

namespace Baton

/-- Whether the task neither gives the turn away, nor starts or ends a thread, nor begins or ends a
wait for descriptors. -/
def Task.isRoutine : Task → Bool
  | suspend | pause | spawn _ | exit | abort _ | drain => false
  | select .. | selectHere .. | collect => false
  | _ => true

/-- Whether the task begins a wait for descriptors. -/
def Task.isSelect : Task → Bool
  | select .. | selectHere .. => true
  | _ => false

namespace Machine

/-- The sleepers that are woken when a lock is handed over. -/
def grantedOf (l : LockName) (h : Handoff) (m : Machine) : List ThreadId :=
  match h with
  | .nobody => []
  | .writer _ => (m.rendezvous.get (.writers l)).sleepers
  | .readers _ => (m.rendezvous.get (.readers l)).sleepers

/-- The thread that is woken when `me` releases a mutex. -/
def nextOwner (me : ThreadId) (name : MutexName) (m : Machine) : List ThreadId :=
  if (m.mutexes.get name).isOwnedBy me then (m.mutexes.get name).handOver.owner.toList else []

/-- The threads that a routine task of `me` wakes, in this order. -/
def wokenBy (me : ThreadId) (m : Machine) : Task → List ThreadId
  | .wake id => [id]
  | .release name => m.nextOwner me name
  | .signal r => (m.rendezvous.get r).pick.1.toList
  | .broadcast r => (m.rendezvous.get r).sleepers
  | .releaseRead l => match (m.locks.get l).releaseRead me with
    | some (h, _) => m.grantedOf l h
    | none => []
  | .releaseWrite l => match (m.locks.get l).releaseWrite me with
    | some (h, _) => m.grantedOf l h
    | none => []
  | _ => []

variable {me t : ThreadId} {m m' m'' : Machine} {ids ids' : List ThreadId}

/-- The threads `ids` are woken; no outcome becomes known, and nobody starts to drain. -/
structure Routine (me : ThreadId) (ids : List ThreadId) (m m' : Machine) : Prop where
  sched : Sched.Routine ids m.sched m'.sched
  outcomes : m'.outcomes = m.outcomes
  mainOutcome : m'.mainOutcome = m.mainOutcome
  drain : .drain ∈ m'.stackOf me → .drain ∈ m.stackOf me

theorem Routine.refl (me : ThreadId) (m : Machine) : Routine me [] m m :=
  ⟨.refl _, rfl, rfl, fun h => h⟩

theorem Routine.trans (h : Routine me ids m m') (h' : Routine me ids' m' m'') :
    Routine me (ids ++ ids') m m'' :=
  ⟨h.sched.trans h'.sched, h'.outcomes.trans h.outcomes, h'.mainOutcome.trans h.mainOutcome,
    fun hd => h.drain (h'.drain hd)⟩

/-! ## The thread's own part -/

theorem routine_onThread {f : Thread → Thread}
    (hf : ∀ x, .drain ∈ (f x).stack → .drain ∈ x.stack) :
    Routine me [] m { m with threads := m.threads.update me f } :=
  { Routine.refl me m with
    drain := fun h => by
      rw [stackOf_onThread] at h
      exact hf _ h }

theorem routine_push {ts : List Task} (hts : .drain ∉ ts) : Routine me [] m (m.push me ts) :=
  routine_onThread fun _ h => (List.mem_append.mp h).resolve_left hts

theorem routine_answer (me : ThreadId) (r : Reply) (m : Machine) :
    Routine me [] m (m.answer me r) :=
  routine_onThread fun _ h => h

theorem routine_report (me : ThreadId) (name : String) (m : Machine) :
    Routine me [] m (m.report me name) :=
  { (routine_onThread (f := fun x => { x with produced := x.produced + 1 }) fun _ h => h :
      Routine me [] m _) with }

theorem routine_panic (me : ThreadId) (text : String) (m : Machine) :
    Routine me [] m (m.panic me text) :=
  routine_onThread fun _ h => by
    rcases List.mem_append.mp h with h | h
    · exact (List.mem_filter.mp h).1
    · cases List.mem_singleton.mp h

theorem routine_onSched {s : Sched} (h : Sched.Routine ids m.sched s) :
    Routine me ids m { m with sched := s } :=
  ⟨h, rfl, rfl, fun h => h⟩

theorem routine_note {n : Notice} (hn : n.isAlarm = false) : Routine me [] m (m.note n) :=
  routine_onSched (Sched.routine_note hn m.sched)

/-! ## Mutexes and rendezvous -/

theorem routine_setMutex (me : ThreadId) (name : MutexName) (x : Mutex) (m : Machine) :
    Routine me [] m (m.setMutex name x) :=
  { Routine.refl me m with }

theorem routine_acquire (name : MutexName) : Routine me [] m (m.acquire me name) := by
  have hset := routine_setMutex me name ((m.mutexes.get name).request me).2 m
  unfold acquire
  dsimp only
  split
  · exact hset
  · exact hset.trans (routine_push (by simp))
  · exact hset.trans (routine_panic me _ _)

theorem routine_awaitOwner (name : MutexName) : Routine me [] m (m.awaitOwner me name) := by
  unfold awaitOwner
  split
  · exact .refl me m
  · exact routine_push (by simp)

theorem routine_tryAcquire (name : MutexName) : Routine me [] m (m.tryAcquire me name) :=
  (routine_setMutex me name _ m).trans (routine_answer me _ _)

theorem routine_release (name : MutexName) :
    Routine me (m.nextOwner me name) m (m.release me name) := by
  have hset := routine_setMutex me name (m.mutexes.get name).handOver m
  unfold release nextOwner
  dsimp only
  split
  · split
    · rename_i next hnext
      rw [hnext]
      exact (hset.trans (routine_note rfl)).trans (routine_onSched (Sched.routine_wakeup next _))
    · rename_i hnone
      rw [hnone]
      exact hset
  · exact routine_note rfl

theorem routine_setRendez (me : ThreadId) (r : RendezName) (x : Rendez) (m : Machine) :
    Routine me [] m (m.setRendez r x) :=
  { Routine.refl me m with }

theorem routine_sleepOn (r : RendezName) (name : MutexName) :
    Routine me [] m (m.sleepOn me r name) :=
  (routine_setRendez me r _ m).trans (routine_push (by simp))

theorem routine_signal (r : RendezName) :
    Routine me (m.rendezvous.get r).pick.1.toList m (m.signal r) := by
  have hset := routine_setRendez me r (m.rendezvous.get r).pick.2 m
  unfold signal
  dsimp only
  split
  · rename_i id hnext
    rw [hnext]
    exact hset.trans (routine_onSched (Sched.routine_wakeup id _))
  · rename_i hnone
    rw [hnone]
    exact hset

theorem routine_broadcast (r : RendezName) :
    Routine me (m.rendezvous.get r).sleepers m (m.broadcast r) :=
  (routine_setRendez me r .empty m).trans (routine_onSched (Sched.routine_wakeAll _ _))

theorem not_mem_primitive {x : Task} {host : Host} {ts : List Task} (hts : x ∉ ts)
    (hx : ∀ text, x ≠ .panic text) : x ∉ host.primitive ts := by
  cases host with
  | outside => exact fun h => hx _ (List.mem_singleton.mp h)
  | coop => exact hts
  | native => exact hts

theorem routine_sleepUntil (r : RendezName) (name : MutexName) (v : Nat) (x : Int) (count : Nat) :
    Routine me [] m (m.sleepUntil me r name v x count) := by
  unfold sleepUntil
  split
  · exact routine_answer me _ m
  · exact routine_push (not_mem_primitive (by simp) (by simp))

/-! ## Reader/writer locks -/

theorem routine_setLock (me : ThreadId) (l : LockName) (x : RwState) (m : Machine) :
    Routine me [] m (m.setLock l x) :=
  { Routine.refl me m with }

theorem routine_closeSection (l : LockName) : Routine me [] m (m.closeSection me l) := by
  unfold closeSection
  split
  · exact routine_push (by simp)
  · exact routine_panic me _ m

/-- The end of a section that answers. -/
theorem Routine.close (h : Routine me ids m m') (r : Reply) (l : LockName) :
    Routine me ids m ((m'.answer me r).push me [.closeSection l]) := by
  have hpush : Routine me [] (m'.answer me r) ((m'.answer me r).push me [.closeSection l]) :=
    routine_push (by simp)
  have hclose := (routine_answer me r m').trans hpush
  simpa using h.trans hclose

theorem routine_requestRead (l : LockName) : Routine me [] m (m.requestRead me l) := by
  have hset := routine_setLock me l ((m.locks.get l).requestRead me).2 m
  unfold requestRead
  dsimp only
  split
  · exact hset.close _ l
  · exact ((hset.trans (routine_note rfl)).trans (routine_answer me _ _)).trans
      (routine_push (by simp))
  · exact (hset.trans (routine_note rfl)).close _ l

theorem routine_requestWrite (l : LockName) : Routine me [] m (m.requestWrite me l) := by
  have hset := routine_setLock me l ((m.locks.get l).requestWrite me).2 m
  unfold requestWrite
  dsimp only
  split
  · exact hset.close _ l
  · exact ((hset.trans (routine_note rfl)).trans (routine_answer me _ _)).trans
      (routine_push (by simp))
  · exact (hset.trans (routine_note rfl)).close _ l

theorem routine_recheckRead (l : LockName) : Routine me [] m (m.recheckRead me l) := by
  unfold recheckRead
  dsimp only
  refine (routine_setLock me l _ m).trans (routine_push ?_)
  cases ((m.locks.get l).recheckRead me).1 <;> simp

theorem routine_recheckWrite (l : LockName) : Routine me [] m (m.recheckWrite me l) := by
  unfold recheckWrite
  dsimp only
  refine (routine_setLock me l _ m).trans (routine_push ?_)
  cases ((m.locks.get l).recheckWrite me).1 <;> simp

theorem routine_tryRead (l : LockName) : Routine me [] m (m.tryRead me l) :=
  (routine_setLock me l _ m).close _ l

theorem routine_tryWrite (l : LockName) : Routine me [] m (m.tryWrite me l) :=
  (routine_setLock me l _ m).close _ l

/-- A hand-over wakes all sleepers of the kind that the lock was granted to. -/
theorem routine_wakeGranted (l : LockName) (h : Handoff) (x : RwState) :
    Routine me (m.grantedOf l h) m ((m.setLock l x).wakeGranted l h) := by
  have hset := routine_setLock me l x m
  cases h with
  | nobody => exact hset
  | writer next =>
      have hnoted := hset.trans (routine_note (n := .writeHanded next) rfl)
      exact hnoted.trans (routine_broadcast (m := (m.setLock l x).note _) (.writers l))
  | readers count =>
      have hnoted := hset.trans (routine_note (n := .readersWoken count) rfl)
      exact hnoted.trans (routine_broadcast (m := (m.setLock l x).note _) (.readers l))

theorem routine_releaseRead (l : LockName) :
    Routine me (m.wokenBy me (.releaseRead l)) m (m.releaseRead me l) := by
  unfold releaseRead wokenBy
  dsimp only
  cases hout : (m.locks.get l).releaseRead me with
  | none => exact (routine_note rfl).close _ l
  | some out => exact (routine_wakeGranted l out.1 out.2).close _ l

theorem routine_releaseWrite (l : LockName) :
    Routine me (m.wokenBy me (.releaseWrite l)) m (m.releaseWrite me l) := by
  unfold releaseWrite wokenBy
  dsimp only
  cases hout : (m.locks.get l).releaseWrite me with
  | none => exact (routine_note rfl).close _ l
  | some out => exact (routine_wakeGranted l out.1 out.2).close _ l

theorem routine_releaseHeld (l : LockName) : Routine me [] m (m.releaseHeld me l) := by
  unfold releaseHeld
  apply routine_push
  split <;> simp [Task.section]

/-! ## Guards -/

theorem not_mem_instr {x : Task} {body : List Instr} (hx : ∀ i, x ≠ .instr i) :
    x ∉ body.map Task.instr := by
  intro h
  obtain ⟨i, -, rfl⟩ := List.mem_map.mp h
  exact hx i rfl

theorem routine_enter (name : String) (g : Guard) (body : List Instr) :
    Routine me [] m (m.enter me name g body) := by
  unfold enter
  split
  · exact routine_report me name m
  · refine ((routine_answer me _ m).trans (routine_report me name _)).trans (routine_push ?_)
    rw [List.mem_append, not_or]
    exact ⟨not_mem_instr (by simp), by simp⟩

theorem routine_drop (g : Guard) : Routine me [] m (m.drop me g) := by
  unfold drop
  apply routine_push
  cases g <;> simp [Task.section]

theorem routine_checkDrop (exclusive : Bool) : Routine me [] m (m.checkDrop me exclusive) := by
  unfold checkDrop
  split
  · exact routine_note rfl
  · exact .refl me m

theorem routine_memory (me : ThreadId) (memory : Memory) (m : Machine) :
    Routine me [] m { m with memory } :=
  { Routine.refl me m with }

theorem routine_withGuard {f : Guard → Machine → Machine} (hf : ∀ g, Routine me [] m (f g m)) :
    Routine me [] m (m.withGuard me f) := by
  unfold withGuard
  split
  · exact hf _
  · exact routine_answer me _ m

theorem routine_pushList (x : Int) : Routine me [] m (m.pushList me x) := by
  apply routine_withGuard
  intro g
  dsimp only
  split
  · exact (routine_memory me _ m).trans (routine_answer me _ _)
  · exact routine_answer me _ m

theorem routine_popList : Routine me [] m (m.popList me) := by
  apply routine_withGuard
  intro g
  dsimp only
  split
  · exact (routine_memory me _ m).trans (routine_answer me _ _)
  · exact routine_answer me _ m

theorem routine_condSleepWith (k c : Nat) {after : List Task} (hafter : .drain ∉ after) :
    Routine me [] m (m.condSleepWith me k c after) := by
  unfold condSleepWith
  split
  · exact (routine_answer me _ m).trans (routine_push (by simpa using hafter))
  · exact (routine_note rfl).trans (routine_answer me _ _)

theorem routine_condSleep (k : Nat) : Routine me [] m (m.condSleep me k) := by
  unfold condSleep
  split
  · exact routine_condSleepWith k _ (by simp)
  · exact routine_answer me _ m

theorem routine_condSleepWhile (k : Nat) (test : Test) :
    Routine me [] m (m.condSleepWhile me k test) := by
  unfold condSleepWhile
  split
  · split
    · exact routine_panic me _ m
    · rename_i again memory _
      have hmemory := routine_memory me memory m
      dsimp only
      split
      · exact hmemory.trans (routine_condSleepWith k _ (by simp))
      · exact hmemory.trans (routine_answer me _ _)
  · exact routine_answer me _ m

theorem routine_showCell (c : Nat) : Routine me [] m (m.showCell me c) := by
  unfold showCell
  split
  · exact routine_answer me _ m
  · exact (routine_answer me _ m).trans (routine_push (by simp))

theorem routine_showLock (l : LockName) : Routine me [] m (m.showLock me l) := by
  unfold showLock
  split
  · exact routine_answer me _ m
  · exact routine_push (by simp)

/-! ## Threads -/

theorem routine_takeHandle (me id : ThreadId) (m : Machine) :
    Routine me [] m { m with handles := m.handles.erase id } :=
  { Routine.refl me m with }

theorem routine_join (id : ThreadId) : Routine me [] m (m.join me id) := by
  unfold join
  split
  · exact (routine_takeHandle me id m).trans (routine_push (by simp))
  · exact routine_answer me _ m

theorem routine_awaitThread (id : ThreadId) : Routine me [] m (m.awaitThread me id) := by
  unfold awaitThread
  split
  · exact routine_answer me _ m
  · exact (routine_onSched (Sched.routine_addJoiner id me m.sched)).trans (routine_push (by simp))

theorem routine_joinOutside (id : ThreadId) : Routine me [] m (m.joinOutside me id) := by
  unfold joinOutside
  split
  · exact (routine_takeHandle me id m).trans (routine_answer me _ _)
  · exact routine_answer me _ m

theorem routine_wake (id : ThreadId) : Routine me [id] m (m.wake me id) :=
  (routine_answer me _ m).trans (routine_onSched (Sched.routine_wakeup id _))

theorem routine_stopUntil (v : Nat) (x : Int) (count : Nat) :
    Routine me [] m (m.stopUntil me v x count) := by
  unfold stopUntil
  split
  · exact routine_answer me _ m
  · split
    · exact routine_push (by simp)
    · exact routine_answer me _ m

/-! ## Descriptors -/

theorem routine_pollHere (entries : List (PollEntry Descriptor)) (timeout : Option Span) :
    Routine me [] m (m.pollHere me entries timeout) := by
  unfold pollHere
  split
  · exact routine_panic me _ m
  · exact routine_answer me _ m
  · split
    · exact routine_answer me _ m
    · exact routine_push (by simp)

theorem routine_forgetFound : Routine me [] m (m.forgetFound me) := by
  unfold forgetFound
  split
  · exact .refl me m
  · exact routine_answer me _ m

theorem routine_transferRound (c : PipeCall) : Routine me [] m (m.transferRound me c) := by
  unfold transferRound
  dsimp only
  split
  · exact routine_push (by simp)
  · exact routine_push (by simp)
  · exact routine_answer me _ m

theorem routine_transfer (c : PipeCall) : Routine me [] m (m.transfer me c) := by
  unfold transfer
  split
  · exact routine_transferRound c
  · exact routine_answer me _ m

theorem routine_setPipe (me : ThreadId) (index : Nat) (x : Pipe) (m : Machine) :
    Routine me [] m (m.setPipe index x) :=
  { Routine.refl me m with }

theorem routine_attempt (c : PipeCall) : Routine me [] m (m.attempt me c) := by
  unfold attempt
  split
  · exact .refl me m
  · split
    · exact routine_push (by simp)
    · rename_i r p _
      have hset := routine_setPipe me c.pipe p m
      dsimp only
      split
      · exact hset.trans (routine_answer me _ _)
      · exact hset.trans (routine_answer me _ _)
      · exact hset.trans (routine_push (by simp))
      · exact hset.trans (routine_push (by simp))

/-! ## All routine tasks -/

/-- No instruction stands for the end of a run. -/
theorem not_mem_tasks {host : Host} {i : Instr} (r : Reply) (memory : Memory) :
    .drain ∉ i.tasks host me r memory := by
  by_cases hi : i = .stop
  · subst hi
    cases host <;> simp [Instr.tasks, Instr.replyTasks, Host.scheduled]
  · intro h
    cases isPlain_tasks hi r memory _ h

/-- What a routine task does. -/
theorem perform_routine (me : ThreadId) (m : Machine) {x : Task} (hx : x.isRoutine = true) :
    Routine me (m.wokenBy me x) m (m.perform me x) := by
  cases x with
  | suspend | pause | spawn | exit | abort | drain | select | selectHere | collect => cases hx
  | instr i => exact routine_push (not_mem_tasks _ _)
  | answer r => exact routine_answer me r m
  | report name => exact routine_report me name m
  | panic text => exact routine_panic me text m
  | compute f => exact (routine_memory me _ m).trans (routine_answer me _ _)
  | wake id => exact routine_wake id
  | join id => exact routine_join id
  | awaitThread id => exact routine_awaitThread id
  | joinOutside id => exact routine_joinOutside id
  | stopUntil v x count => exact routine_stopUntil v x count
  | acquire name => exact routine_acquire name
  | awaitOwner name => exact routine_awaitOwner name
  | tryAcquire name => exact routine_tryAcquire name
  | release name => exact routine_release name
  | sleepOn r name => exact routine_sleepOn r name
  | leave r => exact routine_setRendez me r _ m
  | signal r => exact routine_signal r
  | broadcast r => exact routine_broadcast r
  | sleepUntil r name v x count => exact routine_sleepUntil r name v x count
  | requestRead l => exact routine_requestRead l
  | recheckRead l => exact routine_recheckRead l
  | requestWrite l => exact routine_requestWrite l
  | recheckWrite l => exact routine_recheckWrite l
  | tryRead l => exact routine_tryRead l
  | tryWrite l => exact routine_tryWrite l
  | releaseRead l => exact routine_releaseRead l
  | releaseWrite l => exact routine_releaseWrite l
  | releaseHeld l => exact routine_releaseHeld l
  | copyState l => exact (Routine.refl me m).close _ l
  | closeSection l => exact routine_closeSection l
  | enter name g body => exact routine_enter name g body
  | drop g => exact routine_drop g
  | checkDrop exclusive => exact routine_checkDrop exclusive
  | getList => exact routine_withGuard fun _ => routine_answer me _ m
  | pushList x => exact routine_pushList x
  | popList => exact routine_popList
  | condSleep k => exact routine_condSleep k
  | condSleepWhile k test => exact routine_condSleepWhile k test
  | showCell c => exact routine_showCell c
  | showLock l => exact routine_showLock l
  | pollHere entries timeout => exact routine_pollHere entries timeout
  | forgetFound => exact routine_forgetFound
  | transfer c => exact routine_transfer c
  | transferRound c => exact routine_transferRound c
  | attempt c => exact routine_attempt c
  | close index side => exact routine_setPipe me index _ m
  | setError s => exact routine_onThread fun _ h => h
  | say level text => exact routine_note rfl
  | print text => exact { Routine.refl me m with }
  | peek | owner | sleepers | condCell | lastError => exact routine_answer me _ m

/-! ## Waits for descriptors -/

theorem routine_elapse (d : Span) : Routine me [] m (m.onSched (Sched.elapse d)) :=
  routine_onSched (Sched.routine_elapse d m.sched)

/-- The machine after a wait has been registered. -/
def awaiting (w : Waiter Descriptor) (m : Machine) : Machine :=
  ((m.onSched (Sched.elapse Sched.pollCost)).onSched (Sched.await w)).push w.id [.collect]

theorem selectEntries_cases (me : ThreadId) (entries : List (PollEntry Descriptor))
    (timeout : Option Span) (m : Machine) : Routine me [] m (m.selectEntries me entries timeout) ∨
      ∃ w : Waiter Descriptor, w.id = me ∧ m.selectEntries me entries timeout = m.awaiting w := by
  have hpolled : Routine me [] m (m.onSched (Sched.elapse Sched.pollCost)) := routine_elapse _
  unfold selectEntries
  dsimp only
  split
  · exact .inl (hpolled.trans (routine_answer me _ _))
  · split
    · exact .inl (hpolled.trans (routine_answer me _ _))
    · split
      · exact .inr ⟨⟨me, entries, none⟩, rfl, rfl⟩
      · split
        · rename_i deadline _
          exact .inr ⟨⟨me, entries, some deadline⟩, rfl, rfl⟩
        · exact .inl (hpolled.trans (routine_panic me _ _))

/-- A wait for descriptors is over at once, or is registered. -/
theorem perform_select (me : ThreadId) (m : Machine) {x : Task} (hx : x.isSelect = true) :
    Routine me [] m (m.perform me x) ∨
    ∃ w : Waiter Descriptor, w.id = me ∧ m.perform me x = m.awaiting w := by
  cases x with
  | select entries timeout =>
      show Routine me [] m (m.select me entries timeout) ∨
        ∃ w : Waiter Descriptor, w.id = me ∧ m.select me entries timeout = m.awaiting w
      unfold select
      split
      · exact .inl (routine_pollHere _ timeout)
      · exact selectEntries_cases me _ timeout m
  | selectHere entries timeout => exact selectEntries_cases me entries timeout m
  | _ => cases hx

/-- A thread that waits for descriptors suspends, or takes the outcome that it has got. -/
theorem perform_collect (me : ThreadId) (m : Machine) : (m.sched.delivery? me = none ∧
      m.perform me .collect = m.push me [.suspend, .collect]) ∨
    (m.sched.delivery? me ≠ none ∧
      ∃ r, m.perform me .collect = (m.onSched (Sched.takeDelivery me)).answer me r) := by
  show (_ ∧ m.collect me = _) ∨ (_ ∧ ∃ r, m.collect me = _)
  unfold collect
  cases m.sched.delivery? me with
  | none => exact .inl ⟨rfl, rfl⟩
  | some d => exact .inr ⟨by simp, _, rfl⟩

end Machine

end Baton
