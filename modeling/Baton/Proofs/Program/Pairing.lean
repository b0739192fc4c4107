import Baton.Proofs.Program.Order

/-!
# Machine: conditions and their cells

Each condition is paired with a cell from the start, and no task pairs it with another one.
-/

namespace Baton

namespace Machine

variable {p : Program} {m n : Machine} {me : ThreadId}

/-! ## Threads -/

theorem pairing_finish (o : Outcome) (m : Machine) : (m.finish me o).pairing = m.pairing := by
  unfold finish
  split <;> rfl

theorem pairing_abort (text : String) (m : Machine) : (m.abort me text).pairing = m.pairing := by
  unfold abort
  rw [pairing_finish]
  split <;> rfl

theorem pairing_drain (m : Machine) : (m.drain me).pairing = m.pairing := by
  unfold drain
  split <;> rfl

theorem pairing_join (t : ThreadId) (m : Machine) : (m.join me t).pairing = m.pairing := by
  unfold join
  split <;> rfl

theorem pairing_awaitThread (t : ThreadId) (m : Machine) :
    (m.awaitThread me t).pairing = m.pairing := by
  unfold awaitThread
  split <;> rfl

theorem pairing_joinOutside (t : ThreadId) (m : Machine) :
    (m.joinOutside me t).pairing = m.pairing := by
  unfold joinOutside
  split <;> rfl

theorem pairing_stopUntil (v : Nat) (y : Int) (count : Nat) (m : Machine) :
    (m.stopUntil me v y count).pairing = m.pairing := by
  unfold stopUntil
  split
  · rfl
  · split <;> rfl

/-! ## Mutexes and rendezvous -/

theorem pairing_acquire (name : MutexName) (m : Machine) :
    (m.acquire me name).pairing = m.pairing := by
  unfold acquire
  dsimp only
  split <;> rfl

theorem pairing_awaitOwner (name : MutexName) (m : Machine) :
    (m.awaitOwner me name).pairing = m.pairing := by
  unfold awaitOwner
  split <;> rfl

theorem pairing_release (name : MutexName) (m : Machine) :
    (m.release me name).pairing = m.pairing := by
  unfold release
  dsimp only
  split
  · split <;> rfl
  · rfl

theorem pairing_signal (r : RendezName) (m : Machine) : (m.signal r).pairing = m.pairing := by
  unfold signal
  dsimp only
  split <;> rfl

theorem pairing_sleepUntil (r : RendezName) (name : MutexName) (v : Nat) (y : Int) (count : Nat)
    (m : Machine) : (m.sleepUntil me r name v y count).pairing = m.pairing := by
  unfold sleepUntil
  split <;> rfl

/-! ## Reader/writer locks -/

theorem pairing_requestRead (l : LockName) (m : Machine) :
    (m.requestRead me l).pairing = m.pairing := by
  unfold requestRead
  dsimp only
  split <;> rfl

theorem pairing_requestWrite (l : LockName) (m : Machine) :
    (m.requestWrite me l).pairing = m.pairing := by
  unfold requestWrite
  dsimp only
  split <;> rfl

theorem pairing_wakeGranted (l : LockName) (h : Handoff) (m : Machine) :
    (m.wakeGranted l h).pairing = m.pairing := by
  cases h <;> rfl

theorem pairing_releaseRead (l : LockName) (m : Machine) :
    (m.releaseRead me l).pairing = m.pairing := by
  unfold releaseRead
  split
  · exact pairing_wakeGranted l _ (m.setLock l _)
  · rfl

theorem pairing_releaseWrite (l : LockName) (m : Machine) :
    (m.releaseWrite me l).pairing = m.pairing := by
  unfold releaseWrite
  split
  · exact pairing_wakeGranted l _ (m.setLock l _)
  · rfl

theorem pairing_closeSection (l : LockName) (m : Machine) :
    (m.closeSection me l).pairing = m.pairing := by
  unfold closeSection
  split <;> rfl

/-! ## Guards and conditions -/

theorem pairing_enter (name : String) (g : Guard) (body : List Instr) (m : Machine) :
    (m.enter me name g body).pairing = m.pairing := by
  unfold enter
  split <;> rfl

theorem pairing_checkDrop (exclusive : Bool) (m : Machine) :
    (m.checkDrop me exclusive).pairing = m.pairing := by
  unfold checkDrop
  split <;> rfl

theorem pairing_withGuard {f : Guard → Machine → Machine} (hf : ∀ g, (f g m).pairing = m.pairing) :
    (m.withGuard me f).pairing = m.pairing := by
  unfold withGuard
  split
  · exact hf _
  · rfl

theorem pairing_pushList (y : Int) (m : Machine) : (m.pushList me y).pairing = m.pairing := by
  refine pairing_withGuard fun g => ?_
  dsimp only
  split <;> rfl

theorem pairing_popList (m : Machine) : (m.popList me).pairing = m.pairing := by
  refine pairing_withGuard fun g => ?_
  dsimp only
  split <;> rfl

theorem pairing_condSleepWith (k c : Nat) (us : List Task) (m : Machine) :
    (m.condSleepWith me k c us).pairing = m.pairing := by
  unfold condSleepWith
  split <;> rfl

theorem pairing_condSleep (k : Nat) (m : Machine) : (m.condSleep me k).pairing = m.pairing := by
  unfold condSleep
  split
  · exact pairing_condSleepWith k _ _ m
  · rfl

theorem pairing_condSleepWhile (k : Nat) (test : Test) (m : Machine) :
    (m.condSleepWhile me k test).pairing = m.pairing := by
  unfold condSleepWhile
  split
  · split
    · rfl
    · rename_i memory _
      dsimp only
      split
      · exact pairing_condSleepWith k _ _ { m with memory }
      · rfl
  · rfl

theorem pairing_showCell (c : Nat) (m : Machine) : (m.showCell me c).pairing = m.pairing := by
  unfold showCell
  split <;> rfl

theorem pairing_showLock (l : LockName) (m : Machine) :
    (m.showLock me l).pairing = m.pairing := by
  unfold showLock
  split <;> rfl

/-! ## Waits and transfers -/

theorem pairing_selectEntries (entries : List (PollEntry Descriptor)) (timeout : Option Span)
    (m : Machine) : (m.selectEntries me entries timeout).pairing = m.pairing := by
  unfold selectEntries
  dsimp only
  split
  · rfl
  · split
    · rfl
    · split
      · rfl
      · split <;> rfl

theorem pairing_pollHere (entries : List (PollEntry Descriptor)) (timeout : Option Span)
    (m : Machine) : (m.pollHere me entries timeout).pairing = m.pairing := by
  unfold pollHere
  split
  · rfl
  · rfl
  · split <;> rfl

theorem pairing_select (entries : List (Descriptor × Interest)) (timeout : Option Span)
    (m : Machine) : (m.select me entries timeout).pairing = m.pairing := by
  unfold select
  split
  · exact pairing_pollHere _ timeout m
  · exact pairing_selectEntries _ timeout m

theorem pairing_collect (m : Machine) : (m.collect me).pairing = m.pairing := by
  unfold collect
  split <;> rfl

theorem pairing_forgetFound (m : Machine) : (m.forgetFound me).pairing = m.pairing := by
  unfold forgetFound
  split <;> rfl

theorem pairing_transferRound (call : PipeCall) (m : Machine) :
    (m.transferRound me call).pairing = m.pairing := by
  unfold transferRound
  dsimp only
  split <;> rfl

theorem pairing_transfer (call : PipeCall) (m : Machine) :
    (m.transfer me call).pairing = m.pairing := by
  unfold transfer
  split
  · exact pairing_transferRound call m
  · rfl

theorem pairing_attempt (call : PipeCall) (m : Machine) :
    (m.attempt me call).pairing = m.pairing := by
  unfold attempt
  split
  · rfl
  · split
    · rfl
    · dsimp only
      split <;> rfl

/-! ## Tasks and runs -/

/-- No task pairs a condition with another cell. -/
theorem pairing_perform (me : ThreadId) (x : Task) (m : Machine) :
    (m.perform me x).pairing = m.pairing := by
  cases x with
  | join t => exact pairing_join t m
  | awaitThread t => exact pairing_awaitThread t m
  | joinOutside t => exact pairing_joinOutside t m
  | stopUntil v y count => exact pairing_stopUntil v y count m
  | acquire name => exact pairing_acquire name m
  | awaitOwner name => exact pairing_awaitOwner name m
  | release name => exact pairing_release name m
  | signal r => exact pairing_signal r m
  | sleepUntil r name v y count => exact pairing_sleepUntil r name v y count m
  | requestRead l => exact pairing_requestRead l m
  | requestWrite l => exact pairing_requestWrite l m
  | releaseRead l => exact pairing_releaseRead l m
  | releaseWrite l => exact pairing_releaseWrite l m
  | closeSection l => exact pairing_closeSection l m
  | enter name g body => exact pairing_enter name g body m
  | checkDrop exclusive => exact pairing_checkDrop exclusive m
  | getList => exact pairing_withGuard fun _ => rfl
  | pushList y => exact pairing_pushList y m
  | popList => exact pairing_popList m
  | condSleep k => exact pairing_condSleep k m
  | condSleepWhile k test => exact pairing_condSleepWhile k test m
  | showCell c => exact pairing_showCell c m
  | showLock l => exact pairing_showLock l m
  | select entries timeout => exact pairing_select entries timeout m
  | selectHere entries timeout => exact pairing_selectEntries entries timeout m
  | collect => exact pairing_collect m
  | pollHere entries timeout => exact pairing_pollHere entries timeout m
  | forgetFound => exact pairing_forgetFound m
  | transfer call => exact pairing_transfer call m
  | transferRound call => exact pairing_transferRound call m
  | attempt call => exact pairing_attempt call m
  | exit => exact pairing_finish _ m
  | abort text => exact pairing_abort text m
  | drain => exact pairing_drain m
  | _ => rfl

theorem Reaches.pairing (h : Reaches p.machine m) : m.pairing = p.conds := by
  induction h with
  | refl => rfl
  | step _ hstep ih =>
      rcases step_cases hstep with ⟨me, x, ts, -, -, rfl⟩ | ⟨-, s, -, rfl⟩
      · exact (pairing_perform me x _).trans ih
      · exact ih
  | wake _ _ ih | elapse _ _ ih | outage _ _ ih => exact ih

/-- The cell of a condition is the same at all moments of the runs of a program. -/
theorem Reaches.pairedCell_eq (h : Reaches p.machine m) (h' : Reaches p.machine n) (k : Nat) :
    n.pairedCell k = m.pairedCell k := by
  rw [pairedCell, pairedCell, h.pairing, h'.pairing]

end Machine

end Baton
