import Baton.Proofs.Program.Critical
import Baton.Proofs.Program.Observed

/-!
# Machine: which tasks work on which objects

Mutexes, rendezvous and reader/writer locks are changed by a few tasks only, each by one operation
on one of them, except that a release of a lock may empty a rendezvous of that lock too. The other
tasks leave all these objects as they are; most of them are local besides: what they put on the
stack of their thread is local again, or they end the thread's work by a panic.
-/

namespace Baton

/-- Whether the task works on a mutex, a rendezvous or a lock. -/
def Task.isShared : Task → Bool
  | acquire _ | tryAcquire _ | release _ => true
  | sleepOn .. | leave _ | signal _ | broadcast _ => true
  | requestRead _ | recheckRead _ | requestWrite _ | recheckWrite _ => true
  | tryRead _ | tryWrite _ | releaseRead _ | releaseWrite _ => true
  | _ => false

/-- Whether the task has nothing to do with mutexes, rendezvous and locks, nor with guards or the
end of a thread, and leads to such tasks only. -/
def Task.isLocal : Task → Bool
  | instr _ | awaitOwner _ | sleepUntil .. | releaseHeld _ | copyState _ | closeSection _ => false
  | enter .. | drop _ | checkDrop _ | condSleep _ | condSleepWhile .. => false
  | showCell _ | showLock _ | exit | abort _ | drain => false
  | x => !x.isShared

/-- The rendezvous whose sleepers are woken when a lock is handed over. -/
def Handoff.rendezvous? (l : LockName) : Handoff → Option RendezName
  | .nobody => none
  | .writer _ => some (.writers l)
  | .readers _ => some (.readers l)

namespace Machine

variable {m m' m'' : Machine} {me : ThreadId} {x : Task}

/-- The mutexes, rendezvous and locks are the same. -/
structure SameLocks (m m' : Machine) : Prop where
  mutexes : m'.mutexes = m.mutexes
  rendezvous : m'.rendezvous = m.rendezvous
  locks : m'.locks = m.locks

/-- Local tasks are put on the stack of a thread. -/
structure Extends (me : ThreadId) (m m' : Machine) : Prop extends SameLocks m m' where
  stack : ∃ new, (∀ y ∈ new, y.isLocal = true) ∧ m'.stackOf me = new ++ m.stackOf me

/-- What a local task does: it extends the stack by local tasks, or it panics. -/
inductive Local (me : ThreadId) (m m' : Machine) : Prop where
  | extended : Extends me m m' → Local me m m'
  | panicked (text : String) : SameLocks m m' →
      m'.stackOf me = (m.stackOf me).filter Task.isCleanup ++ [.abort text] → Local me m m'

theorem Local.sameLocks (h : Local me m m') : SameLocks m m' := by
  cases h with
  | extended h => exact h.toSameLocks
  | panicked _ h => exact h

theorem Extends.trans (h : Extends me m m') (h' : Extends me m' m'') : Extends me m m'' := by
  obtain ⟨new, hnew, hstack⟩ := h.stack
  obtain ⟨new', hnew', hstack'⟩ := h'.stack
  exact {
    mutexes := h'.mutexes.trans h.mutexes
    rendezvous := h'.rendezvous.trans h.rendezvous
    locks := h'.locks.trans h.locks
    stack := ⟨new' ++ new, List.forall_mem_append.mpr ⟨hnew', hnew⟩, by
      rw [hstack', hstack, List.append_assoc]⟩ }

theorem extends_onThread {f : Thread → Thread} (hf : ∀ x, (f x).stack = x.stack) :
    Extends me m { m with threads := m.threads.update me f } :=
  ⟨⟨rfl, rfl, rfl⟩, [], by simp, (stackOf_onThread me f m).trans (hf _)⟩

theorem extends_push {ts : List Task} (hts : ts.all Task.isLocal = true) :
    Extends me m (m.push me ts) :=
  ⟨⟨rfl, rfl, rfl⟩, ts, List.all_eq_true.mp hts, stackOf_push me ts m⟩

theorem extends_answer (me : ThreadId) (r : Reply) (m : Machine) : Extends me m (m.answer me r) :=
  extends_onThread fun _ => rfl

/-- Only the scheduler and objects of other kinds differ. -/
theorem extends_of_threads (hthreads : m'.threads = m.threads) (hmutexes : m'.mutexes = m.mutexes)
    (hrendezvous : m'.rendezvous = m.rendezvous) (hlocks : m'.locks = m.locks) :
    Extends me m m' :=
  ⟨⟨hmutexes, hrendezvous, hlocks⟩, [], by simp, by simp [stackOf, hthreads]⟩

theorem extends_onSched (me : ThreadId) (f : Sched → Sched) (m : Machine) :
    Extends me m (m.onSched f) :=
  extends_of_threads rfl rfl rfl rfl

theorem local_panic (me : ThreadId) (text : String) (m : Machine) :
    Local me m (m.panic me text) :=
  .panicked text ⟨rfl, rfl, rfl⟩ (stackOf_panic me text m)

/-! ## Local tasks -/

theorem extends_takeHandle (me id : ThreadId) (m : Machine) :
    Extends me m { m with handles := m.handles.erase id } :=
  extends_of_threads rfl rfl rfl rfl

theorem local_join (id : ThreadId) : Local me m (m.join me id) := by
  unfold join
  split
  · exact .extended ((extends_takeHandle me id m).trans (extends_push rfl))
  · exact .extended (extends_answer me _ m)

theorem local_awaitThread (id : ThreadId) : Local me m (m.awaitThread me id) := by
  unfold awaitThread
  split
  · exact .extended (extends_answer me _ m)
  · exact .extended ((extends_onSched me _ m).trans (extends_push rfl))

theorem local_joinOutside (id : ThreadId) : Local me m (m.joinOutside me id) := by
  unfold joinOutside
  split
  · exact .extended ((extends_takeHandle me id m).trans (extends_answer me _ _))
  · exact .extended (extends_answer me _ m)

theorem local_stopUntil (v : Nat) (x : Int) (count : Nat) :
    Local me m (m.stopUntil me v x count) := by
  unfold stopUntil
  split
  · exact .extended (extends_answer me _ m)
  · split
    · exact .extended (extends_push rfl)
    · exact .extended (extends_answer me _ m)

theorem local_spawn (code : Nat) (hne : me ≠ m.sched.ids.next) :
    Local me m (m.spawn me code) := by
  refine .extended ⟨⟨rfl, rfl, rfl⟩, [], by simp, ?_⟩
  unfold spawn
  rw [stackOf_answer]
  exact congrArg Thread.stack ((Store.get_set ..).trans (if_neg hne))

theorem extends_report (me : ThreadId) (name : String) (m : Machine) :
    Extends me m (m.report me name) :=
  { (extends_onThread (f := fun x => { x with produced := x.produced + 1 }) fun _ => rfl :
      Extends me m _) with }

theorem local_withGuard {f : Guard → Machine → Machine} (hf : ∀ g, Local me m (f g m)) :
    Local me m (m.withGuard me f) := by
  unfold withGuard
  split
  · exact hf _
  · exact .extended (extends_answer me _ m)

theorem extends_memory (me : ThreadId) (memory : Memory) (m : Machine) :
    Extends me m { m with memory } :=
  extends_of_threads rfl rfl rfl rfl

theorem local_pushList (x : Int) : Local me m (m.pushList me x) := by
  apply local_withGuard
  intro g
  dsimp only
  split
  · exact .extended ((extends_memory me _ m).trans (extends_answer me _ _))
  · exact .extended (extends_answer me _ m)

theorem local_popList : Local me m (m.popList me) := by
  apply local_withGuard
  intro g
  dsimp only
  split
  · exact .extended ((extends_memory me _ m).trans (extends_answer me _ _))
  · exact .extended (extends_answer me _ m)

theorem local_selectEntries (entries : List (PollEntry Descriptor)) (timeout : Option Span) :
    Local me m (m.selectEntries me entries timeout) := by
  have hpolled := extends_onSched me (Sched.elapse Sched.pollCost) m
  have hawait : ∀ deadline : Option Instant, Local me m
      (((m.onSched (Sched.elapse Sched.pollCost)).onSched
        (Sched.await ⟨me, entries, deadline⟩)).push me [.collect]) := fun deadline =>
    .extended ((hpolled.trans (extends_onSched me _ _)).trans (extends_push rfl))
  unfold selectEntries
  dsimp only
  split
  · exact .extended (hpolled.trans (extends_answer me _ _))
  · split
    · exact .extended (hpolled.trans (extends_answer me _ _))
    · split
      · exact hawait none
      · split
        · exact hawait (some _)
        · exact .panicked _ ⟨rfl, rfl, rfl⟩ (stackOf_panic me _ _)

theorem local_pollHere (entries : List (PollEntry Descriptor)) (timeout : Option Span) :
    Local me m (m.pollHere me entries timeout) := by
  unfold pollHere
  split
  · exact local_panic me _ m
  · exact .extended (extends_answer me _ m)
  · split
    · exact .extended (extends_answer me _ m)
    · exact .extended (extends_push rfl)

theorem local_select (entries : List (Descriptor × Interest)) (timeout : Option Span) :
    Local me m (m.select me entries timeout) := by
  unfold select
  split
  · exact local_pollHere _ timeout
  · exact local_selectEntries _ timeout

theorem local_collect : Local me m (m.collect me) := by
  unfold collect
  split
  · exact .extended (extends_push rfl)
  · exact .extended ((extends_onSched me _ m).trans (extends_answer me _ _))

theorem local_forgetFound : Local me m (m.forgetFound me) := by
  unfold forgetFound
  split
  · exact .extended (extends_of_threads rfl rfl rfl rfl)
  · exact .extended (extends_answer me _ m)

theorem local_transferRound (c : PipeCall) : Local me m (m.transferRound me c) := by
  unfold transferRound
  dsimp only
  split
  · exact .extended (extends_push rfl)
  · exact .extended (extends_push rfl)
  · exact .extended (extends_answer me _ m)

theorem local_transfer (c : PipeCall) : Local me m (m.transfer me c) := by
  unfold transfer
  split
  · exact local_transferRound c
  · exact .extended (extends_answer me _ m)

theorem extends_setPipe (me : ThreadId) (index : Nat) (x : Pipe) (m : Machine) :
    Extends me m (m.setPipe index x) :=
  extends_of_threads rfl rfl rfl rfl

theorem local_attempt (c : PipeCall) : Local me m (m.attempt me c) := by
  unfold attempt
  split
  · exact .extended (extends_of_threads rfl rfl rfl rfl)
  · split
    · exact .extended (extends_push rfl)
    · dsimp only
      split
      · exact .extended ((extends_setPipe me _ _ m).trans (extends_answer me _ _))
      · exact .extended ((extends_setPipe me _ _ m).trans (extends_answer me _ _))
      · exact .extended ((extends_setPipe me _ _ m).trans (extends_push rfl))
      · exact .extended ((extends_setPipe me _ _ m).trans (extends_push rfl))

/-- What local tasks do. A thread that is started is another one. -/
theorem local_perform (hx : x.isLocal = true)
    (hne : ∀ code, x = .spawn code → me ≠ m.sched.ids.next) : Local me m (m.perform me x) := by
  cases x with
  | answer r => exact .extended (extends_answer me r m)
  | report name => exact .extended (extends_report me name m)
  | panic text => exact local_panic me text m
  | compute f =>
      exact .extended ((extends_memory me _ m).trans (extends_answer me _ _))
  | suspend => exact .extended (extends_onSched me _ m)
  | pause => exact .extended (extends_onSched me _ m)
  | wake id => exact .extended ((extends_answer me _ m).trans (extends_onSched me _ _))
  | spawn code => exact local_spawn code (hne code rfl)
  | join id => exact local_join id
  | awaitThread id => exact local_awaitThread id
  | joinOutside id => exact local_joinOutside id
  | stopUntil v x count => exact local_stopUntil v x count
  | peek | owner | sleepers | condCell | lastError => exact .extended (extends_answer me _ m)
  | getList => exact local_withGuard fun _ => .extended (extends_answer me _ m)
  | pushList x => exact local_pushList x
  | popList => exact local_popList
  | select entries timeout => exact local_select entries timeout
  | selectHere entries timeout => exact local_selectEntries entries timeout
  | collect => exact local_collect
  | pollHere entries timeout => exact local_pollHere entries timeout
  | forgetFound => exact local_forgetFound
  | transfer c => exact local_transfer c
  | transferRound c => exact local_transferRound c
  | attempt c => exact local_attempt c
  | close index side => exact .extended (extends_setPipe me index _ m)
  | setError s => exact .extended (extends_onThread fun _ => rfl)
  | say level text => exact .extended (extends_onSched me _ m)
  | print text => exact .extended (extends_of_threads rfl rfl rfl rfl)
  | _ => cases hx

/-! ## The other tasks that leave the objects alone -/

theorem sameLocks_finish (me : ThreadId) (o : Outcome) (m : Machine) :
    SameLocks m (m.finish me o) := by
  unfold finish
  split <;> exact ⟨rfl, rfl, rfl⟩

theorem sameLocks_abort (me : ThreadId) (text : String) (m : Machine) :
    SameLocks m (m.abort me text) := by
  unfold abort
  split
  · exact sameLocks_finish me _ m
  · exact { sameLocks_finish me _ (m.note (.panicked me)) with }

theorem sameLocks_condSleepWith (me : ThreadId) (k c : Nat) (after : List Task) (m : Machine) :
    SameLocks m (m.condSleepWith me k c after) := by
  unfold condSleepWith
  split <;> exact ⟨rfl, rfl, rfl⟩

theorem sameLocks_condSleep (k : Nat) : SameLocks m (m.condSleep me k) := by
  unfold condSleep
  split
  · exact sameLocks_condSleepWith me k _ [] m
  · exact ⟨rfl, rfl, rfl⟩

theorem sameLocks_condSleepWhile (k : Nat) (test : Test) :
    SameLocks m (m.condSleepWhile me k test) := by
  unfold condSleepWhile
  split
  · split
    · exact ⟨rfl, rfl, rfl⟩
    · rename_i memory _
      dsimp only
      split
      · exact { sameLocks_condSleepWith me k _ _ { m with memory } with }
      · exact ⟨rfl, rfl, rfl⟩
  · exact ⟨rfl, rfl, rfl⟩

theorem sameLocks_perform (me : ThreadId) (m : Machine) (hx : x.isShared = false) :
    SameLocks m (m.perform me x) := by
  cases x with
  | instr | spawn | releaseHeld | copyState | drop => exact ⟨rfl, rfl, rfl⟩
  | awaitOwner name =>
      show SameLocks m (m.awaitOwner me name)
      unfold awaitOwner
      split <;> exact ⟨rfl, rfl, rfl⟩
  | sleepUntil r name v x count =>
      show SameLocks m (m.sleepUntil me r name v x count)
      unfold sleepUntil
      split <;> exact ⟨rfl, rfl, rfl⟩
  | closeSection l =>
      show SameLocks m (m.closeSection me l)
      unfold closeSection
      split <;> exact ⟨rfl, rfl, rfl⟩
  | enter name g body =>
      show SameLocks m (m.enter me name g body)
      unfold enter
      split <;> exact ⟨rfl, rfl, rfl⟩
  | checkDrop exclusive =>
      show SameLocks m (m.checkDrop me exclusive)
      unfold checkDrop
      split <;> exact ⟨rfl, rfl, rfl⟩
  | exit => exact sameLocks_finish me _ m
  | abort text => exact sameLocks_abort me text m
  | drain =>
      show SameLocks m (m.drain me)
      unfold drain
      split <;> exact ⟨rfl, rfl, rfl⟩
  | condSleep k => exact sameLocks_condSleep k
  | condSleepWhile k test => exact sameLocks_condSleepWhile k test
  | showCell c =>
      show SameLocks m (m.showCell me c)
      unfold showCell
      split <;> exact ⟨rfl, rfl, rfl⟩
  | showLock l =>
      show SameLocks m (m.showLock me l)
      unfold showLock
      split <;> exact ⟨rfl, rfl, rfl⟩
  | acquire | tryAcquire | release | sleepOn | leave | signal | broadcast => cases hx
  | requestRead | recheckRead | requestWrite | recheckWrite | tryRead | tryWrite => cases hx
  | releaseRead | releaseWrite => cases hx
  | _ => exact (local_perform rfl (by simp)).sameLocks

/-! ## Mutexes -/

variable {name : MutexName} {r : RendezName} {l : LockName} {side : RwSide}

theorem mutexes_acquire (me : ThreadId) (name : MutexName) (m : Machine) :
    (m.acquire me name).mutexes = m.mutexes.set name ((m.mutexes.get name).request me).2 := by
  unfold acquire
  dsimp only
  split <;> rfl

theorem mutexes_release (me : ThreadId) (name : MutexName) (m : Machine) :
    (m.release me name).mutexes = if (m.mutexes.get name).owner = some me then
      m.mutexes.set name (m.mutexes.get name).handOver else m.mutexes := by
  unfold release Mutex.isOwnedBy
  dsimp only
  by_cases ho : (m.mutexes.get name).owner = some me
  · rw [if_pos (beq_iff_eq.mpr ho), if_pos ho]
    split <;> rfl
  · rw [if_neg (by simpa using ho), if_neg ho]
    rfl

theorem wakeGranted_frame (l : LockName) (h : Handoff) (m : Machine) :
    (m.wakeGranted l h).mutexes = m.mutexes ∧ (m.wakeGranted l h).locks = m.locks := by
  cases h <;> exact ⟨rfl, rfl⟩

/-- A section of a lock leaves all mutexes alone. -/
theorem mutexes_lock (side : RwSide) (l : LockName) (me : ThreadId) (m : Machine) :
    (m.perform me (side.request l)).mutexes = m.mutexes ∧
      (m.perform me (side.release l)).mutexes = m.mutexes := by
  cases side with
  | read =>
      constructor
      · show (m.requestRead me l).mutexes = m.mutexes
        unfold requestRead
        dsimp only
        split <;> rfl
      · show (m.releaseRead me l).mutexes = m.mutexes
        unfold releaseRead
        split
        · exact (wakeGranted_frame l _ (m.setLock l _)).1
        · rfl
  | write =>
      constructor
      · show (m.requestWrite me l).mutexes = m.mutexes
        unfold requestWrite
        dsimp only
        split <;> rfl
      · show (m.releaseWrite me l).mutexes = m.mutexes
        unfold releaseWrite
        split
        · exact (wakeGranted_frame l _ (m.setLock l _)).1
        · rfl

theorem signal_frame (r : RendezName) (m : Machine) :
    (m.signal r).mutexes = m.mutexes ∧ (m.signal r).locks = m.locks := by
  unfold signal
  dsimp only
  split <;> exact ⟨rfl, rfl⟩

/-- The tasks that work on a mutex. -/
theorem mutex_perform (me : ThreadId) (x : Task) (m : Machine) (name : MutexName) :
    (x = .acquire name ∧
      (m.perform me x).mutexes.get name = ((m.mutexes.get name).request me).2) ∨
    (x = .tryAcquire name ∧
      (m.perform me x).mutexes.get name = ((m.mutexes.get name).tryTake me).2) ∨
    (x = .release name ∧ (m.mutexes.get name).owner = some me ∧
      (m.perform me x).mutexes.get name = (m.mutexes.get name).handOver) ∨
    (m.perform me x).mutexes.get name = m.mutexes.get name := by
  have hsame : (m.perform me x).mutexes = m.mutexes →
      (m.perform me x).mutexes.get name = m.mutexes.get name := congrArg (Store.get · name)
  cases hx : x.isShared with
  | false => exact .inr (.inr (.inr (hsame (sameLocks_perform me m hx).mutexes)))
  | true =>
      cases x with
      | acquire n =>
          rcases Store.get_of_eq_set (mutexes_acquire me n m) name with ⟨rfl, he⟩ | he
          · exact .inl ⟨rfl, he⟩
          · exact .inr (.inr (.inr he))
      | tryAcquire n =>
          have hmutexes : (m.perform me (.tryAcquire n)).mutexes = m.mutexes.set n _ := rfl
          rcases Store.get_of_eq_set hmutexes name with ⟨rfl, he⟩ | he
          · exact .inr (.inl ⟨rfl, he⟩)
          · exact .inr (.inr (.inr he))
      | release n =>
          have hmutexes : (m.perform me (.release n)).mutexes = _ := mutexes_release me n m
          split at hmutexes
          · rename_i ho
            rcases Store.get_of_eq_set hmutexes name with ⟨rfl, he⟩ | he
            · exact .inr (.inr (.inl ⟨rfl, ho, he⟩))
            · exact .inr (.inr (.inr he))
          · exact .inr (.inr (.inr (hsame hmutexes)))
      | signal r => exact .inr (.inr (.inr (hsame (signal_frame r m).1)))
      | requestRead l => exact .inr (.inr (.inr (hsame (mutexes_lock .read l me m).1)))
      | requestWrite l => exact .inr (.inr (.inr (hsame (mutexes_lock .write l me m).1)))
      | releaseRead l => exact .inr (.inr (.inr (hsame (mutexes_lock .read l me m).2)))
      | releaseWrite l => exact .inr (.inr (.inr (hsame (mutexes_lock .write l me m).2)))
      | sleepOn | leave | broadcast => exact .inr (.inr (.inr rfl))
      | recheckRead | recheckWrite | tryRead | tryWrite => exact .inr (.inr (.inr rfl))
      | _ => cases hx

/-! ## Reader/writer locks -/

theorem locks_request (side : RwSide) (l : LockName) (me : ThreadId) (m : Machine) :
    (m.perform me (side.request l)).locks =
      m.locks.set l ((m.locks.get l).request me side).2 := by
  cases side with
  | read =>
      show (m.requestRead me l).locks = _
      unfold requestRead
      dsimp only
      split <;> rfl
  | write =>
      show (m.requestWrite me l).locks = _
      unfold requestWrite
      dsimp only
      split <;> rfl

theorem locks_release (side : RwSide) (l : LockName) (me : ThreadId) (m : Machine) :
    (∃ out, (m.locks.get l).release me side = some out ∧
      (m.perform me (side.release l)).locks = m.locks.set l out.2) ∨
    (m.perform me (side.release l)).locks = m.locks := by
  cases side with
  | read =>
      show (∃ out, (m.locks.get l).releaseRead me = some out ∧ (m.releaseRead me l).locks = _) ∨
        (m.releaseRead me l).locks = _
      unfold releaseRead
      split
      · rename_i h s hout
        exact .inl ⟨(h, s), hout, (wakeGranted_frame l h (m.setLock l s)).2⟩
      · exact .inr rfl
  | write =>
      show (∃ out, (m.locks.get l).releaseWrite me = some out ∧ (m.releaseWrite me l).locks = _) ∨
        (m.releaseWrite me l).locks = _
      unfold releaseWrite
      split
      · rename_i h s hout
        exact .inl ⟨(h, s), hout, (wakeGranted_frame l h (m.setLock l s)).2⟩
      · exact .inr rfl

theorem locks_recheck (side : RwSide) (l : LockName) (me : ThreadId) (m : Machine) :
    (m.perform me (side.recheck l)).locks =
      m.locks.set l ((m.locks.get l).recheck me side).2 := by
  cases side <;> rfl

/-- The tasks that work on a lock. -/
theorem lock_perform (me : ThreadId) (x : Task) (m : Machine) (l : LockName) :
    (∃ side : RwSide, x = side.request l ∧
      (m.perform me x).locks.get l = ((m.locks.get l).request me side).2) ∨
    (∃ side : RwSide, x = side.recheck l ∧
      (m.perform me x).locks.get l = ((m.locks.get l).recheck me side).2) ∨
    (x = .tryRead l ∧ (m.perform me x).locks.get l = ((m.locks.get l).tryRead me).2) ∨
    (x = .tryWrite l ∧ (m.perform me x).locks.get l = ((m.locks.get l).tryWrite me).2) ∨
    (∃ (side : RwSide) (out : Handoff × RwState), x = side.release l ∧
      (m.locks.get l).release me side = some out ∧ (m.perform me x).locks.get l = out.2) ∨
    (m.perform me x).locks.get l = m.locks.get l := by
  have hsame : (m.perform me x).locks = m.locks →
      (m.perform me x).locks.get l = m.locks.get l := congrArg (Store.get · l)
  cases hx : x.isShared with
  | false => simp [hsame (sameLocks_perform me m hx).locks]
  | true =>
      cases x with
      | requestRead k =>
          rcases Store.get_of_eq_set (locks_request .read k me m) l with ⟨rfl, he⟩ | he
          · exact .inl ⟨.read, rfl, he⟩
          · exact .inr (.inr (.inr (.inr (.inr he))))
      | requestWrite k =>
          rcases Store.get_of_eq_set (locks_request .write k me m) l with ⟨rfl, he⟩ | he
          · exact .inl ⟨.write, rfl, he⟩
          · exact .inr (.inr (.inr (.inr (.inr he))))
      | recheckRead k =>
          rcases Store.get_of_eq_set (locks_recheck .read k me m) l with ⟨rfl, he⟩ | he
          · exact .inr (.inl ⟨.read, rfl, he⟩)
          · exact .inr (.inr (.inr (.inr (.inr he))))
      | recheckWrite k =>
          rcases Store.get_of_eq_set (locks_recheck .write k me m) l with ⟨rfl, he⟩ | he
          · exact .inr (.inl ⟨.write, rfl, he⟩)
          · exact .inr (.inr (.inr (.inr (.inr he))))
      | tryRead k =>
          have hlocks : (m.perform me (.tryRead k)).locks = m.locks.set k _ := rfl
          rcases Store.get_of_eq_set hlocks l with ⟨rfl, he⟩ | he
          · exact .inr (.inr (.inl ⟨rfl, he⟩))
          · exact .inr (.inr (.inr (.inr (.inr he))))
      | tryWrite k =>
          have hlocks : (m.perform me (.tryWrite k)).locks = m.locks.set k _ := rfl
          rcases Store.get_of_eq_set hlocks l with ⟨rfl, he⟩ | he
          · exact .inr (.inr (.inr (.inl ⟨rfl, he⟩)))
          · exact .inr (.inr (.inr (.inr (.inr he))))
      | releaseRead k =>
          rcases locks_release .read k me m with ⟨out, hout, hlocks⟩ | hlocks
          · rcases Store.get_of_eq_set hlocks l with ⟨rfl, he⟩ | he
            · exact .inr (.inr (.inr (.inr (.inl ⟨.read, out, rfl, hout, he⟩))))
            · exact .inr (.inr (.inr (.inr (.inr he))))
          · simp [hsame hlocks]
      | releaseWrite k =>
          rcases locks_release .write k me m with ⟨out, hout, hlocks⟩ | hlocks
          · rcases Store.get_of_eq_set hlocks l with ⟨rfl, he⟩ | he
            · exact .inr (.inr (.inr (.inr (.inl ⟨.write, out, rfl, hout, he⟩))))
            · exact .inr (.inr (.inr (.inr (.inr he))))
          · simp [hsame hlocks]
      | acquire name => simp [hsame (acquire_frame me name m).2]
      | release name => simp [hsame (release_frame me name m).2]
      | signal r => simp [hsame (signal_frame r m).2]
      | tryAcquire | sleepOn | leave | broadcast =>
          exact .inr (.inr (.inr (.inr (.inr rfl))))
      | _ => cases hx

/-! ## Rendezvous -/

/-- The rendezvous all of whose sleepers a task of `me` wakes. -/
def emptied (me : ThreadId) (m : Machine) : Task → Option RendezName
  | .broadcast r => some r
  | .releaseRead l => ((m.locks.get l).releaseRead me).bind fun out => out.1.rendezvous? l
  | .releaseWrite l => ((m.locks.get l).releaseWrite me).bind fun out => out.1.rendezvous? l
  | _ => none

theorem rendezvous_wakeGranted (l : LockName) (h : Handoff) (m : Machine) :
    (m.wakeGranted l h).rendezvous =
      ((h.rendezvous? l).map fun r => m.rendezvous.set r .empty).getD m.rendezvous := by
  cases h <;> rfl

theorem rendezvous_request (side : RwSide) (l : LockName) (me : ThreadId) (m : Machine) :
    (m.perform me (side.request l)).rendezvous = m.rendezvous := by
  cases side with
  | read =>
      show (m.requestRead me l).rendezvous = _
      unfold requestRead
      dsimp only
      split <;> rfl
  | write =>
      show (m.requestWrite me l).rendezvous = _
      unfold requestWrite
      dsimp only
      split <;> rfl

theorem rendezvous_release (side : RwSide) (l : LockName) (me : ThreadId) (m : Machine) :
    (m.perform me (side.release l)).rendezvous =
      ((m.emptied me (side.release l)).map fun r => m.rendezvous.set r .empty).getD
        m.rendezvous := by
  cases side with
  | read =>
      show (m.releaseRead me l).rendezvous = _
      unfold releaseRead
      rw [show m.emptied me (RwSide.read.release l) =
        ((m.locks.get l).releaseRead me).bind fun out => out.1.rendezvous? l from rfl]
      cases (m.locks.get l).releaseRead me with
      | none => rfl
      | some out => exact rendezvous_wakeGranted l out.1 (m.setLock l out.2)
  | write =>
      show (m.releaseWrite me l).rendezvous = _
      unfold releaseWrite
      rw [show m.emptied me (RwSide.write.release l) =
        ((m.locks.get l).releaseWrite me).bind fun out => out.1.rendezvous? l from rfl]
      cases (m.locks.get l).releaseWrite me with
      | none => rfl
      | some out => exact rendezvous_wakeGranted l out.1 (m.setLock l out.2)

theorem rendezvous_signal (r : RendezName) (m : Machine) :
    (m.signal r).rendezvous = m.rendezvous.set r (m.rendezvous.get r).pick.2 := by
  unfold signal
  dsimp only
  split <;> rfl

/-- The tasks that work on a rendezvous. -/
theorem rendez_perform (me : ThreadId) (x : Task) (m : Machine) (r : RendezName) :
    ((∃ name, x = .sleepOn r name) ∧
      (m.perform me x).rendezvous.get r = (m.rendezvous.get r).enlist me) ∨
    (x = .leave r ∧ (m.perform me x).rendezvous.get r = (m.rendezvous.get r).leave me) ∨
    (x = .signal r ∧ (m.perform me x).rendezvous.get r = (m.rendezvous.get r).pick.2) ∨
    (m.emptied me x = some r ∧ (m.perform me x).rendezvous.get r = .empty) ∨
    (m.perform me x).rendezvous.get r = m.rendezvous.get r := by
  have hsame : (m.perform me x).rendezvous = m.rendezvous →
      (m.perform me x).rendezvous.get r = m.rendezvous.get r := congrArg (Store.get · r)
  have hrelease : ∀ (side : RwSide) l, x = side.release l →
      (m.emptied me x = some r ∧ (m.perform me x).rendezvous.get r = .empty) ∨
        (m.perform me x).rendezvous.get r = m.rendezvous.get r := by
    rintro side l rfl
    have hrendez := rendezvous_release side l me m
    cases hout : m.emptied me (side.release l) with
    | none =>
        rw [hout] at hrendez
        exact .inr (hsame hrendez)
    | some k =>
        rw [hout] at hrendez
        exact (Store.get_of_eq_set hrendez r).imp_left fun h => ⟨congrArg some h.1.symm, h.2⟩
  cases hx : x.isShared with
  | false => simp [hsame (sameLocks_perform me m hx).rendezvous]
  | true =>
      cases x with
      | sleepOn k name =>
          have hrendez : (m.perform me (.sleepOn k name)).rendezvous = m.rendezvous.set k _ := rfl
          rcases Store.get_of_eq_set hrendez r with ⟨rfl, he⟩ | he
          · exact .inl ⟨⟨name, rfl⟩, he⟩
          · exact .inr (.inr (.inr (.inr he)))
      | leave k =>
          have hrendez : (m.perform me (.leave k)).rendezvous = m.rendezvous.set k _ := rfl
          rcases Store.get_of_eq_set hrendez r with ⟨rfl, he⟩ | he
          · exact .inr (.inl ⟨rfl, he⟩)
          · exact .inr (.inr (.inr (.inr he)))
      | signal k =>
          rcases Store.get_of_eq_set (rendezvous_signal k m) r with ⟨rfl, he⟩ | he
          · exact .inr (.inr (.inl ⟨rfl, he⟩))
          · exact .inr (.inr (.inr (.inr he)))
      | broadcast k =>
          have hrendez : (m.perform me (.broadcast k)).rendezvous = m.rendezvous.set k .empty := rfl
          rcases Store.get_of_eq_set hrendez r with ⟨rfl, he⟩ | he
          · exact .inr (.inr (.inr (.inl ⟨rfl, he⟩)))
          · exact .inr (.inr (.inr (.inr he)))
      | releaseRead l => exact .inr (.inr (.inr (hrelease .read l rfl)))
      | releaseWrite l => exact .inr (.inr (.inr (hrelease .write l rfl)))
      | acquire name => simp [hsame (acquire_frame me name m).1]
      | release name => simp [hsame (release_frame me name m).1]
      | requestRead l => simp [hsame (rendezvous_request .read l me m)]
      | requestWrite l => simp [hsame (rendezvous_request .write l me m)]
      | tryAcquire | recheckRead | recheckWrite | tryRead | tryWrite =>
          exact .inr (.inr (.inr (.inr rfl)))
      | _ => cases hx

end Machine

end Baton
