import Baton.Proofs.Program.Critical

/-!
# Machine: the beginning and the end of a thread

Rules for the tasks with which threads are started, joined and ended.
-/

namespace Baton

namespace Machine

variable {Q : Machine → Prop} {m m' : Machine} {me id : ThreadId} {ts : List Task} {r : Reply}
  {k : Nat} {e : ErrorText}

/-- The code, the shared objects and the memory are the same. -/
structure SameObjects (m m' : Machine) : Prop where
  host : m'.host = m.host
  code : m'.code = m.code
  pairing : m'.pairing = m.pairing
  mutexes : m'.mutexes = m.mutexes
  rendezvous : m'.rendezvous = m.rendezvous
  locks : m'.locks = m.locks
  memory : m'.memory = m.memory

/-! ## Starting a thread -/

/-- The part of a thread's own that it begins with. -/
def newThread (index : Nat) (m : Machine) : Thread :=
  ⟨(m.code.getD index []).map Task.instr ++ [.exit], .null, 0, .fresh⟩

/-- The machine after a thread has been started. -/
def started (index : Nat) (m : Machine) : Machine :=
  { m with
    sched := m.sched.spawn.2
    threads := m.threads.set m.sched.ids.next (m.newThread index)
    handles := m.handles ++ [m.sched.ids.next] }

/-- A thread has been started, and of the thread that has started it, `me`, nothing is said. -/
structure Started (me : ThreadId) (index : Nat) (m m' : Machine) : Prop
    extends SameObjects m m' where
  sched : m'.sched = m.sched.spawn.2
  handles : m'.handles = m.handles ++ [m.sched.ids.next]
  outcomes : m'.outcomes = m.outcomes
  mainOutcome : m'.mainOutcome = m.mainOutcome
  threads : ∀ t, t ≠ me → m'.threads.get t =
    if t = m.sched.ids.next then m.newThread index else m.threads.get t

theorem started_withThread (me : ThreadId) (index : Nat) (th : Thread) (m : Machine) :
    Started me index m ((m.withThread me th).started index) where
  toSameObjects := ⟨rfl, rfl, rfl, rfl, rfl, rfl, rfl⟩
  sched := rfl
  handles := rfl
  outcomes := rfl
  mainOutcome := rfl
  threads t ht := by
    show ((m.withThread me th).threads.set _ _).get t = _
    rw [Store.get_set, get_withThread, if_neg ht]
    rfl

theorem spawn_withThread {index : Nat} (hnew : m.sched.ids.next ≠ me) :
    (m.withThread me ⟨ts, r, k, e⟩).spawn me index =
      ((m.withThread me ⟨ts, r, k, e⟩).started index).withThread me
        ⟨ts, .thread m.sched.ids.next, k, e⟩ := by
  have hget : ((m.withThread me ⟨ts, r, k, e⟩).started index).threads.get me = ⟨ts, r, k, e⟩ := by
    show ((m.withThread me _).threads.set _ _).get me = _
    rw [Store.get_set, get_withThread, if_pos rfl]
    exact if_neg (Ne.symm hnew)
  show ((m.withThread me ⟨ts, r, k, e⟩).started index).answer me _ = _
  rw [Machine.answer, Store.update, hget]
  rfl

theorem attains_spawn {index : Nat} (hheld : m.sched.turn = .held me) (hhost : m.host = .coop)
    (hnew : m.sched.ids.next ≠ me)
    (h : ∀ m', Started me index m m' →
      (m'.withThread me ⟨ts, .thread m.sched.ids.next, k + 1, e⟩).Attains Q) :
    (m.withThread me ⟨.instr (.spawn index) :: ts, r, k, e⟩).Attains Q := by
  apply attains_instr hheld hhost
  apply attains_perform hheld
  show (Machine.spawn me index (m.withThread me ⟨.report "spawn" :: ts, r, k, e⟩)).Attains Q
  have hstarted := started_withThread me index ⟨.report "spawn" :: ts, r, k, e⟩ m
  rw [spawn_withThread hnew]
  apply attains_report "spawn" (by exact hheld)
  exact h _ { hstarted with }

/-! ## Joining a thread -/

/-- A handle is taken, and the thread that it is for is waited for. -/
theorem attains_join (hheld : m.sched.turn = .held me) (hhost : m.host = .coop)
    (hmem : id ∈ m.handles)
    (h : ({ m with handles := m.handles.erase id }.withThread me
      ⟨.awaitThread id :: .report "join" :: ts, r, k, e⟩).Attains Q) :
    (m.withThread me ⟨.instr (.join id) :: ts, r, k, e⟩).Attains Q := by
  apply attains_instr hheld hhost
  have hjoin : (m.withThread me ⟨.report "join" :: ts, r, k, e⟩).join me id =
      { m with handles := m.handles.erase id }.withThread me
        ⟨.awaitThread id :: .report "join" :: ts, r, k, e⟩ := by
    rw [Machine.join, handles_withThread, if_pos hmem]
    show ({ m with handles := m.handles.erase id }.withThread me _).push me _ = _
    exact push_withThread
  exact attains_performed hheld hjoin h

/-- The outcome of a thread that has finished is the reply. -/
theorem attains_awaitThread {o : Outcome} (hheld : m.sched.turn = .held me)
    (ho : m.outcomes.get? id = some o) (h : (m.withThread me ⟨ts, .joined o, k, e⟩).Attains Q) :
    (m.withThread me ⟨.awaitThread id :: ts, r, k, e⟩).Attains Q := by
  have hawait : (m.withThread me ⟨ts, r, k, e⟩).awaitThread me id =
      m.withThread me ⟨ts, .joined o, k, e⟩ := by
    rw [Machine.awaitThread, outcomes_withThread, ho]
    exact answer_withThread
  exact attains_performed hheld hawait h

/-- A thread that has not finished is waited for. -/
theorem attains_awaitThread_again (hheld : m.sched.turn = .held me)
    (hnone : m.outcomes.get? id = none)
    (h : ((m.onSched fun s => (s.addJoiner id me).stop me).withThread me
      ⟨.awaitThread id :: ts, r, k, e⟩).Attains Q) :
    (m.withThread me ⟨.awaitThread id :: ts, r, k, e⟩).Attains Q := by
  have hawait : (m.withThread me ⟨ts, r, k, e⟩).awaitThread me id =
      (m.onSched (Sched.addJoiner id me)).withThread me
        ⟨.suspend :: .awaitThread id :: ts, r, k, e⟩ := by
    rw [Machine.awaitThread, outcomes_withThread, hnone]
    show ((m.onSched (Sched.addJoiner id me)).withThread me _).push me _ = _
    exact push_withThread
  exact attains_performed hheld hawait (attains_suspend (by exact hheld) h)

/-! ## Ending a thread -/

/-- The main thread's code ends, and the main thread waits for the others. -/
theorem attains_exit_main (hheld : m.sched.turn = .held me) (hmain : me = m.sched.main)
    (h : ({ m with mainOutcome := some (.finished k) }.withThread me
      ⟨.drain :: ts, r, k, e⟩).Attains Q) :
    (m.withThread me ⟨.exit :: ts, r, k, e⟩).Attains Q := by
  have hexit : (m.withThread me ⟨ts, r, k, e⟩).exit me =
      { m with mainOutcome := some (.finished k) }.withThread me ⟨.drain :: ts, r, k, e⟩ := by
    rw [Machine.exit, get_withThread, if_pos rfl, Machine.finish, sched_withThread, if_pos hmain]
    show ({ m with mainOutcome := some (.finished k) }.withThread me _).push me _ = _
    exact push_withThread
  exact attains_performed hheld hexit h

/-- Another thread ends. -/
theorem attains_exit (hheld : m.sched.turn = .held me) (hmain : me ≠ m.sched.main)
    (h : (({ m with outcomes := m.outcomes.set me (.finished k) }.onSched
      (Sched.finish me)).withThread me ⟨ts, r, k, e⟩).Attains Q) :
    (m.withThread me ⟨.exit :: ts, r, k, e⟩).Attains Q := by
  have hexit : (m.withThread me ⟨ts, r, k, e⟩).exit me =
      ({ m with outcomes := m.outcomes.set me (.finished k) }.onSched (Sched.finish me)).withThread
        me ⟨ts, r, k, e⟩ := by
    rw [Machine.exit, get_withThread, if_pos rfl, Machine.finish, sched_withThread, if_neg hmain]
    rfl
  exact attains_performed hheld hexit h

/-- The main thread suspends while others live. -/
theorem attains_drain_again (hheld : m.sched.turn = .held me) (hlive : 1 < m.sched.live)
    (h : ((m.onSched (Sched.stop me)).withThread me ⟨.drain :: ts, r, k, e⟩).Attains Q) :
    (m.withThread me ⟨.drain :: ts, r, k, e⟩).Attains Q := by
  have hdrain : (m.withThread me ⟨ts, r, k, e⟩).drain me =
      m.withThread me ⟨.suspend :: .drain :: ts, r, k, e⟩ := by
    rw [Machine.drain, sched_withThread, if_pos hlive]
    exact push_withThread
  exact attains_performed hheld hdrain (attains_suspend hheld h)

/-- The main thread ends the run when it is the last one. -/
theorem attains_drain (hheld : m.sched.turn = .held me) (hlive : ¬ 1 < m.sched.live)
    (h : ((m.onSched (Sched.conclude me)).withThread me ⟨ts, r, k, e⟩).Attains Q) :
    (m.withThread me ⟨.drain :: ts, r, k, e⟩).Attains Q := by
  have hdrain : (m.withThread me ⟨ts, r, k, e⟩).drain me =
      (m.onSched (Sched.conclude me)).withThread me ⟨ts, r, k, e⟩ := by
    rw [Machine.drain, sched_withThread, if_neg hlive]
    rfl
  exact attains_performed hheld hdrain h

end Machine

end Baton
