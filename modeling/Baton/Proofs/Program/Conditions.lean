import Baton.Proofs.Program.Critical

/-!
# Machine: loops, cells and conditions

Rules for loops, for blocks with the guard of a cell and for what a body does with its guard: it
changes the list, or it sleeps on a condition while a test holds. The last rules are for the threads
that wake such sleepers.
-/

namespace Baton

/-- The guard that a stack gives leave to work with: the one that it releases first. -/
def innermostGuard : List Task → Option Guard
  | [] => none
  | .drop g :: _ => some g
  | _ :: ts => innermostGuard ts

theorem innermostGuard_code (is : List Instr) (ts : List Task) :
    innermostGuard (is.map Task.instr ++ ts) = innermostGuard ts := by
  induction is with
  | nil => rfl
  | cons i is ih => exact ih

namespace Machine

variable {Q : Machine → Prop} {m m' m'' : Machine} {me : ThreadId} {ts : List Task} {r : Reply}
  {n k c : Nat} {e : ErrorText} {name : MutexName} {test : Test} {body : List Instr}

/-! ## Loops -/

theorem attains_whilst {cond : Reply → Memory → Bool} (hheld : m.sched.turn = .held me)
    (hhost : m.host = .coop) (hcond : cond r m.memory = true)
    (h : (m.withThread me
      ⟨body.map Task.instr ++ .instr (.whilst cond body) :: ts, r, n, e⟩).Attains Q) :
    (m.withThread me ⟨.instr (.whilst cond body) :: ts, r, n, e⟩).Attains Q := by
  apply attains_instr hheld hhost
  rw [Instr.tasks, if_pos hcond, List.append_assoc]
  exact h

theorem attains_whilst_end {cond : Reply → Memory → Bool} (hheld : m.sched.turn = .held me)
    (hhost : m.host = .coop) (hcond : cond r m.memory = false)
    (h : (m.withThread me ⟨ts, r, n, e⟩).Attains Q) :
    (m.withThread me ⟨.instr (.whilst cond body) :: ts, r, n, e⟩).Attains Q := by
  apply attains_instr hheld hhost
  rw [Instr.tasks, if_neg (by simp [hcond])]
  exact h

/-! ## Variables and cells -/

theorem attains_setVar {v : Nat} {x : Int} (hheld : m.sched.turn = .held me)
    (hhost : m.host = .coop)
    (h : (({ m with memory := m.memory.setVar v x }.reported me "set" .null).withThread me
      ⟨ts, .null, n + 1, e⟩).Attains Q) :
    (m.withThread me ⟨.instr (.setVar v x) :: ts, r, n, e⟩).Attains Q := by
  apply attains_instr hheld hhost
  apply attains_perform hheld
  show (({ m with memory := m.memory.setVar v x }.withThread me
    ⟨.report "set" :: ts, r, n, e⟩).answer me .null).Attains Q
  rw [answer_withThread]
  exact attains_report "set" hheld h

/-- A block asks for the guard of a cell. -/
theorem attains_scope_cell (hheld : m.sched.turn = .held me) (hhost : m.host = .coop)
    (h : (m.withThread me ⟨.acquire (.cell c) :: .answer .null ::
      .enter "cell" (.cell c) body :: ts, r, n, e⟩).Attains Q) :
    (m.withThread me ⟨.instr (.scope (.cell c) body) :: ts, r, n, e⟩).Attains Q :=
  attains_instr hheld hhost h

theorem guard?_withThread : (m.withThread me ⟨ts, r, n, e⟩).guard? me = innermostGuard ts := by
  rw [Machine.guard?, get_withThread, if_pos rfl]
  show List.findSome? _ ts = _
  induction ts with
  | nil => rfl
  | cons x ts ih =>
      cases x with
      | drop g => rfl
      | _ => exact ih

/-- The machine with one more item in the list of a cell. -/
def appended (c : Nat) (x : Int) (m : Machine) : Machine :=
  { m with memory := m.memory.setList (.cell c) (m.memory.list (.cell c) ++ [x]) }

/-- An item is appended to the list of a cell whose guard the thread has. -/
theorem attains_push {x : Int} (hheld : m.sched.turn = .held me) (hhost : m.host = .coop)
    (hguard : innermostGuard ts = some (.cell c))
    (h : ∀ y, (((m.appended c x).reported me "push" y).withThread me ⟨ts, y, n + 1, e⟩).Attains Q) :
    (m.withThread me ⟨.instr (.push x) :: ts, r, n, e⟩).Attains Q := by
  apply attains_instr hheld hhost
  apply attains_perform hheld
  have hhas : (m.withThread me ⟨.report "push" :: ts, r, n, e⟩).guard? me = some (.cell c) :=
    guard?_withThread.trans hguard
  have hpush : (m.withThread me ⟨.report "push" :: ts, r, n, e⟩).pushList me x =
      ((m.appended c x).withThread me ⟨.report "push" :: ts, r, n, e⟩).answer me
        (.int (m.memory.list (.cell c) ++ [x]).length) := by
    rw [Machine.pushList, Machine.withGuard, hhas]
    rfl
  show ((m.withThread me ⟨.report "push" :: ts, r, n, e⟩).pushList me x).Attains Q
  rw [hpush, answer_withThread]
  exact attains_report "push" hheld (h _)

/-! ## Sleeping on a condition -/

theorem get_setMutex_self (name : MutexName) (x : Mutex) (m : Machine) :
    (m.setMutex name x).mutexes.get name = x :=
  (Store.get_set ..).trans (if_pos rfl)

/-- A sleeper that need not sleep goes on. -/
theorem attains_condSleepWhile_done (hheld : m.sched.turn = .held me)
    (hguard : innermostGuard ts = some (.cell c)) (htest : test c m.memory = .ok (false, m.memory))
    (h : (m.withThread me ⟨ts, .null, n, e⟩).Attains Q) :
    (m.withThread me ⟨.condSleepWhile k test :: ts, r, n, e⟩).Attains Q := by
  have hhas : (m.withThread me ⟨ts, r, n, e⟩).guard? me = some (.cell c) :=
    guard?_withThread.trans hguard
  have htest' : test c (m.withThread me ⟨ts, r, n, e⟩).memory = .ok (false, m.memory) := htest
  have hdone : (m.withThread me ⟨ts, r, n, e⟩).condSleepWhile me k test =
      (m.withThread me ⟨ts, r, n, e⟩).answer me .null := by
    rw [Machine.condSleepWhile, hhas]
    simp only [htest']
    rfl
  exact attains_performed hheld (hdone.trans answer_withThread) h

theorem turn_release (me : ThreadId) (name : MutexName) (m : Machine) :
    (m.release me name).sched.turn = m.sched.turn := by
  rw [Machine.release]
  dsimp only
  split
  · split
    · exact Sched.turn_wakeup _ _
    · rfl
  · rfl

theorem isRunning_release (me : ThreadId) (name : MutexName) (m : Machine) (t : ThreadId) :
    (m.release me name).sched.isRunning t = m.sched.isRunning t := by
  rw [Machine.release]
  dsimp only
  split
  · split
    · exact Sched.isRunning_wakeup _ _ _
    · rfl
  · rfl

/-- The machine in which a thread has enlisted in a rendezvous and given up a mutex. -/
def bedded (me : ThreadId) (x : RendezName) (name : MutexName) (m : Machine) : Machine :=
  (m.setRendez x ((m.rendezvous.get x).enlist me)).release me name

theorem handedOver_bedded {x : RendezName} (howner : (m.mutexes.get name).owner = some me) :
    HandedOver name (m.setRendez x ((m.rendezvous.get x).enlist me)) (m.bedded me x name) ∧
      Sched.Mild (fun _ => True) m.sched (m.bedded me x name).sched ∧
      (m.bedded me x name).sched.turn = m.sched.turn :=
  handedOver_release (m := m.setRendez x ((m.rendezvous.get x).enlist me)) howner

theorem attains_sleepOn_mutex {x : RendezName} (hheld : m.sched.turn = .held me)
    (h : (((m.bedded me x name).onSched (Sched.stop me)).withThread me
      ⟨.leave x :: .acquire name :: ts, r, n, e⟩).Attains Q) :
    (m.withThread me ⟨.sleepOn x name :: ts, r, n, e⟩).Attains Q := by
  have hsleep : (m.withThread me ⟨ts, r, n, e⟩).sleepOn me x name =
      (m.setRendez x ((m.rendezvous.get x).enlist me)).withThread me
        ⟨.release name :: .suspend :: .leave x :: .acquire name :: ts, r, n, e⟩ := by
    show ((m.setRendez x _).withThread me ⟨ts, r, n, e⟩).push me _ = _
    exact push_withThread
  refine attains_performed hheld hsleep ?_
  apply attains_release (by exact hheld)
  exact attains_suspend ((turn_release ..).trans hheld) h

/-- A sleeper whose test holds goes to sleep, and tests again when it has been woken. -/
theorem attains_condSleepWhile_sleep (hheld : m.sched.turn = .held me)
    (hguard : innermostGuard ts = some (.cell c)) (htest : test c m.memory = .ok (true, m.memory))
    (hpair : m.pairedCell k = c)
    (h : (((m.bedded me (.cond k) (.cell c)).onSched (Sched.stop me)).withThread me
      ⟨.leave (.cond k) :: .acquire (.cell c) :: .condSleepWhile k test :: ts,
        .null, n, e⟩).Attains Q) :
    (m.withThread me ⟨.condSleepWhile k test :: ts, r, n, e⟩).Attains Q := by
  have hhas : (m.withThread me ⟨ts, r, n, e⟩).guard? me = some (.cell c) :=
    guard?_withThread.trans hguard
  have htest' : test c (m.withThread me ⟨ts, r, n, e⟩).memory = .ok (true, m.memory) := htest
  have hagain : (m.withThread me ⟨ts, r, n, e⟩).condSleepWhile me k test =
      (m.withThread me ⟨ts, r, n, e⟩).condSleepWith me k c [.condSleepWhile k test] := by
    rw [Machine.condSleepWhile, hhas]
    simp only [htest']
    rfl
  have hsleep : (m.withThread me ⟨ts, r, n, e⟩).condSleepWith me k c [.condSleepWhile k test] =
      m.withThread me
        ⟨.sleepOn (.cond k) (.cell c) :: .condSleepWhile k test :: ts, .null, n, e⟩ := by
    rw [Machine.condSleepWith, if_pos (by exact hpair), answer_withThread, push_withThread]
    rfl
  exact attains_performed hheld (hagain.trans hsleep) (attains_sleepOn_mutex hheld h)

/-- A sleeper that was woken leaves the rendezvous. -/
theorem attains_leave {x : RendezName} (hheld : m.sched.turn = .held me)
    (h : ((m.leave me x).withThread me ⟨ts, r, n, e⟩).Attains Q) :
    (m.withThread me ⟨.leave x :: ts, r, n, e⟩).Attains Q :=
  attains_perform hheld h

/-! ## Waking -/

/-- Sleepers may have been woken. Beside the scheduler only the rendezvous may differ. -/
structure Roused (m m' : Machine) : Prop extends SameThreads m m' where
  pairing : m'.pairing = m.pairing
  memory : m'.memory = m.memory
  mutexes : m'.mutexes = m.mutexes
  locks : m'.locks = m.locks
  mild : Sched.Mild (fun _ => True) m.sched m'.sched
  turn : m'.sched.turn = m.sched.turn

theorem roused_signal (x : RendezName) (m : Machine) : Roused m (m.signal x) := by
  rw [Machine.signal]
  dsimp only
  split
  · exact { SameThreads.refl m with
      pairing := rfl, memory := rfl, mutexes := rfl, locks := rfl
      mild := Sched.mild_wakeup _ _, turn := Sched.turn_wakeup _ _ }
  · exact { SameThreads.refl m with
      pairing := rfl, memory := rfl, mutexes := rfl, locks := rfl
      mild := .refl _ _, turn := rfl }

theorem roused_broadcast (x : RendezName) (m : Machine) : Roused m (m.broadcast x) :=
  { SameThreads.refl m with
    pairing := rfl, memory := rfl, mutexes := rfl, locks := rfl
    mild := Sched.mild_wakeAll _ _, turn := Sched.turn_wakeAll _ _ }

theorem signal_withThread {x : RendezName} {th : Thread} :
    (m.withThread me th).signal x = (m.signal x).withThread me th := by
  have hget : (m.withThread me th).rendezvous = m.rendezvous := rfl
  rw [Machine.signal, Machine.signal, hget]
  dsimp only
  split <;> rfl

theorem attains_condWake (hheld : m.sched.turn = .held me) (hhost : m.host = .coop)
    (h : (((m.signal (.cond k)).reported me "cond_wake" .null).withThread me
      ⟨ts, .null, n + 1, e⟩).Attains Q) :
    (m.withThread me ⟨.instr (.condWake k) :: ts, r, n, e⟩).Attains Q := by
  apply attains_instr hheld hhost
  apply attains_perform hheld
  have hheld' : (m.signal (.cond k)).sched.turn = .held me :=
    (roused_signal _ _).turn.trans hheld
  show ((m.withThread me ⟨.answer .null :: .report "cond_wake" :: ts, r, n, e⟩).signal
    (.cond k)).Attains Q
  rw [signal_withThread]
  exact attains_answer hheld' (attains_report "cond_wake" hheld' h)

theorem attains_condWakeAll (hheld : m.sched.turn = .held me) (hhost : m.host = .coop)
    (h : (((m.broadcast (.cond k)).reported me "cond_wake_all" .null).withThread me
      ⟨ts, .null, n + 1, e⟩).Attains Q) :
    (m.withThread me ⟨.instr (.condWakeAll k) :: ts, r, n, e⟩).Attains Q := by
  apply attains_instr hheld hhost
  apply attains_perform hheld
  have hheld' : (m.broadcast (.cond k)).sched.turn = .held me :=
    (roused_broadcast _ _).turn.trans hheld
  show ((m.broadcast (.cond k)).withThread me
    ⟨.answer .null :: .report "cond_wake_all" :: ts, r, n, e⟩).Attains Q
  exact attains_answer hheld' (attains_report "cond_wake_all" hheld' h)

end Machine

end Baton
