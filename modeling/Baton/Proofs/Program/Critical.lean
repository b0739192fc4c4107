import Baton.Proofs.Program.Attains
import Baton.Proofs.RwLock.Claims

/-!
# Machine: mutexes and critical sections

Rules for the tasks of mutexes and of reader/writer locks. The inner mutex of a lock is free
whenever a thread comes to take it, since no thread gives the turn away while it owns one; so a
critical section is one piece, at whose end the inner mutex is free again.
-/

namespace Baton

/-- The task that asks for a hold. -/
def RwSide.request (l : LockName) : RwSide → Task
  | .read => .requestRead l
  | .write => .requestWrite l

/-- The task that looks whether a queued request was granted. -/
def RwSide.recheck (l : LockName) : RwSide → Task
  | .read => .recheckRead l
  | .write => .recheckWrite l

/-- The task that takes a hold if that needs no waiting. -/
def RwSide.attempt (l : LockName) : RwSide → Task
  | .read => .tryRead l
  | .write => .tryWrite l

/-- The task that gives up a hold. -/
def RwSide.release (l : LockName) : RwSide → Task
  | .read => .releaseRead l
  | .write => .releaseWrite l

/-- Where the threads sleep that are queued for a side. -/
def RwSide.sleepers (l : LockName) : RwSide → RendezName
  | .read => .readers l
  | .write => .writers l

/-- The guard of a hold. -/
def RwSide.guard (l : LockName) : RwSide → Guard
  | .read => .shared l
  | .write => .exclusive l

namespace Machine

variable {Q : Machine → Prop} {m m' m'' : Machine} {me : ThreadId} {ts : List Task} {r : Reply}
  {n : Nat} {e : ErrorText} {th : Thread} {name : MutexName} {l : LockName} {side : RwSide}

/-! ## Mutexes -/

theorem attains_acquire (hheld : m.sched.turn = .held me)
    (hfree : (m.mutexes.get name).owner = none)
    (h : ((m.setMutex name { m.mutexes.get name with owner := some me }).withThread me
      ⟨ts, r, n, e⟩).Attains Q) :
    (m.withThread me ⟨.acquire name :: ts, r, n, e⟩).Attains Q := by
  have hrequest : (m.mutexes.get name).request me =
      (.granted, { m.mutexes.get name with owner := some me }) := by
    rw [Mutex.request, if_neg (by simp [hfree]), if_pos hfree]
  have hacquire : (m.withThread me ⟨ts, r, n, e⟩).acquire me name =
      (m.setMutex name { m.mutexes.get name with owner := some me }).withThread me
        ⟨ts, r, n, e⟩ := by
    rw [Machine.acquire, mutexes_withThread, hrequest]
    rfl
  exact attains_performed hheld hacquire h

/-- A thread that finds a mutex taken queues up and suspends. -/
theorem attains_acquire_queued (hheld : m.sched.turn = .held me)
    (htaken : (m.mutexes.get name).owner ≠ none) (hother : (m.mutexes.get name).owner ≠ some me)
    (h : (((m.setMutex name { m.mutexes.get name with
        waiting := (m.mutexes.get name).waiting ++ [me] }).onSched (Sched.stop me)).withThread me
      ⟨.awaitOwner name :: ts, r, n, e⟩).Attains Q) :
    (m.withThread me ⟨.acquire name :: ts, r, n, e⟩).Attains Q := by
  have hrequest : (m.mutexes.get name).request me = (.queued, { m.mutexes.get name with
      waiting := (m.mutexes.get name).waiting ++ [me] }) := by
    rw [Mutex.request, if_neg hother, if_neg htaken]
  have hacquire : (m.withThread me ⟨ts, r, n, e⟩).acquire me name =
      (m.setMutex name { m.mutexes.get name with
        waiting := (m.mutexes.get name).waiting ++ [me] }).withThread me
        ⟨[.suspend, .awaitOwner name] ++ ts, r, n, e⟩ := by
    rw [Machine.acquire, mutexes_withThread, hrequest]
    show ((m.setMutex name _).withThread me ⟨ts, r, n, e⟩).push me _ = _
    exact push_withThread
  exact attains_performed hheld hacquire (attains_suspend hheld h)

theorem attains_awaitOwner (hheld : m.sched.turn = .held me)
    (howner : (m.mutexes.get name).owner = some me)
    (h : (m.withThread me ⟨ts, r, n, e⟩).Attains Q) :
    (m.withThread me ⟨.awaitOwner name :: ts, r, n, e⟩).Attains Q := by
  have hawait : (m.withThread me ⟨ts, r, n, e⟩).awaitOwner me name =
      m.withThread me ⟨ts, r, n, e⟩ := by
    rw [Machine.awaitOwner, mutexes_withThread, if_pos (by simpa [Mutex.isOwnedBy] using howner)]
  exact attains_performed hheld hawait h

/-- A thread that was woken before it owns the mutex suspends again. -/
theorem attains_awaitOwner_again (hheld : m.sched.turn = .held me)
    (howner : (m.mutexes.get name).owner ≠ some me)
    (h : ((m.onSched (Sched.stop me)).withThread me ⟨.awaitOwner name :: ts, r, n, e⟩).Attains Q) :
    (m.withThread me ⟨.awaitOwner name :: ts, r, n, e⟩).Attains Q := by
  have hawait : (m.withThread me ⟨ts, r, n, e⟩).awaitOwner me name =
      m.withThread me ⟨[.suspend, .awaitOwner name] ++ ts, r, n, e⟩ := by
    rw [Machine.awaitOwner, mutexes_withThread, if_neg (by simpa [Mutex.isOwnedBy] using howner),
      push_withThread]
  exact attains_performed hheld hawait (attains_suspend hheld h)

theorem release_withThread :
    (m.withThread me th).release me name = (m.release me name).withThread me th := by
  rw [Machine.release, Machine.release, mutexes_withThread]
  dsimp only
  split
  · split <;> rfl
  · rfl

theorem attains_release (hheld : m.sched.turn = .held me)
    (h : ((m.release me name).withThread me ⟨ts, r, n, e⟩).Attains Q) :
    (m.withThread me ⟨.release name :: ts, r, n, e⟩).Attains Q :=
  attains_performed hheld release_withThread h

/-- The release of a mutex that nobody waits for leaves it free. -/
theorem release_eq_setMutex_free (howner : m.mutexes.get name = ⟨some me, []⟩) :
    m.release me name = m.setMutex name .free := by
  rw [Machine.release, howner]
  simp [Mutex.isOwnedBy, Mutex.handOver, Mutex.free]

/-! ## The frame of a critical section -/

/-- Only the scheduler, the shared objects and the memory differ. -/
structure SameThreads (m m' : Machine) : Prop where
  host : m'.host = m.host
  code : m'.code = m.code
  threads : m'.threads = m.threads
  handles : m'.handles = m.handles
  outcomes : m'.outcomes = m.outcomes
  mainOutcome : m'.mainOutcome = m.mainOutcome

theorem SameThreads.refl (m : Machine) : SameThreads m m := ⟨rfl, rfl, rfl, rfl, rfl, rfl⟩

theorem SameThreads.trans (h : SameThreads m m') (h' : SameThreads m' m'') : SameThreads m m'' where
  host := h'.host.trans h.host
  code := h'.code.trans h.code
  threads := h'.threads.trans h.threads
  handles := h'.handles.trans h.handles
  outcomes := h'.outcomes.trans h.outcomes
  mainOutcome := h'.mainOutcome.trans h.mainOutcome

/-- A mutex has been handed over. Beside it only the scheduler may differ. -/
structure HandedOver (name : MutexName) (m m' : Machine) : Prop extends SameThreads m m' where
  pairing : m'.pairing = m.pairing
  memory : m'.memory = m.memory
  mutexes : m'.mutexes = m.mutexes.set name (m.mutexes.get name).handOver
  rendezvous : m'.rendezvous = m.rendezvous
  locks : m'.locks = m.locks

/-- The owner hands a mutex over, and may wake the next owner. -/
theorem handedOver_release (howner : (m.mutexes.get name).owner = some me) :
    HandedOver name m (m.release me name) ∧
      Sched.Mild (fun _ => True) m.sched (m.release me name).sched ∧
      (m.release me name).sched.turn = m.sched.turn := by
  rw [Machine.release]
  simp only [Mutex.isOwnedBy, howner, beq_self_eq_true, if_true]
  split
  · rename_i next _
    exact ⟨{ SameThreads.refl m with
        pairing := rfl, memory := rfl, mutexes := rfl, rendezvous := rfl, locks := rfl },
      (Sched.mild_note _ _).trans (Sched.mild_wakeup next _), Sched.turn_wakeup next _⟩
  · exact ⟨{ SameThreads.refl m with
        pairing := rfl, memory := rfl, mutexes := rfl, rendezvous := rfl, locks := rfl },
      .refl _ _, rfl⟩

/-- A critical section has left the lock `l` in state `s`. Beside the lock only the scheduler and
the rendezvous may differ. -/
structure Served (l : LockName) (s : RwState) (m m' : Machine) : Prop extends SameThreads m m' where
  memory : m'.memory = m.memory
  mutexes : ∀ x, m'.mutexes.get x = m.mutexes.get x
  lock : ∀ k, m'.locks.get k = if k = l then s else m.locks.get k

variable {s : RwState}

theorem Served.onSched (h : Served l s m m') (f : Sched → Sched) : Served l s m (m'.onSched f) :=
  { h with }

/-- Inside a critical section: the inner mutex is taken, and the lock may have another state. -/
structure Serving (me : ThreadId) (l : LockName) (s : RwState) (m m' : Machine) : Prop
    extends SameThreads m m' where
  memory : m'.memory = m.memory
  inner : m'.mutexes.get (.inner l) = ⟨some me, []⟩
  mutexes : ∀ x, x ≠ .inner l → m'.mutexes.get x = m.mutexes.get x
  lock : ∀ k, m'.locks.get k = if k = l then s else m.locks.get k

theorem Serving.served (h : Serving me l s m m') (hfree : m.mutexes.get (.inner l) = .free) :
    Served l s m (m'.setMutex (.inner l) .free) :=
  { h.toSameThreads with
    memory := h.memory
    mutexes := by
      intro x
      show (m'.mutexes.set _ _).get x = _
      rw [Store.get_set]
      split
      · rename_i hx
        rw [hx, hfree]
      · exact h.mutexes x ‹_›
    lock := h.lock }

/-- A section begins with the inner mutex. -/
theorem attains_section (hheld : m.sched.turn = .held me)
    (hfree : m.mutexes.get (.inner l) = .free)
    (h : ∀ m', Serving me l (m.locks.get l) m m' → m'.sched = m.sched →
      (m'.withThread me ⟨ts, r, n, e⟩).Attains Q) :
    (m.withThread me ⟨.acquire (.inner l) :: ts, r, n, e⟩).Attains Q := by
  apply attains_acquire hheld (by rw [hfree]; rfl)
  refine h _ ?_ rfl
  exact { SameThreads.refl m with
    memory := rfl
    inner := by
      show (m.mutexes.set _ _).get _ = _
      rw [Store.get_set, if_pos rfl, hfree]
      rfl
    mutexes := fun x hx => (Store.get_set ..).trans (if_neg hx)
    lock := by
      intro k
      split
      · rename_i hk
        rw [hk]
        rfl
      · rfl }

theorem Serving.setLock {s' : RwState} (h : Serving me l s m m') :
    Serving me l s' m (m'.setLock l s') :=
  { h with
    lock := by
      intro k
      show (m'.locks.set _ _).get k = _
      rw [Store.get_set, h.lock]
      split <;> simp [*] }

theorem Serving.get_lock (h : Serving me l s m m') : m'.locks.get l = s :=
  (h.lock l).trans (if_pos rfl)

/-- A section ends with the check of the state and the release of the inner mutex. -/
theorem attains_closeSection (hheld : m'.sched.turn = .held me) (hs : Serving me l s m m')
    (hok : s.isConsistent = true) (hfree : m.mutexes.get (.inner l) = .free)
    (h : ∀ m'', Served l s m m'' → m''.sched = m'.sched →
      (m''.withThread me ⟨ts, r, n, e⟩).Attains Q) :
    (m'.withThread me ⟨.closeSection l :: ts, r, n, e⟩).Attains Q := by
  have hclose : (m'.withThread me ⟨ts, r, n, e⟩).closeSection me l =
      m'.withThread me ⟨.release (.inner l) :: ts, r, n, e⟩ := by
    rw [Machine.closeSection, locks_withThread, hs.get_lock,
      RwState.violation?_eq_none_iff.mpr hok]
    exact push_withThread
  refine attains_performed hheld hclose ?_
  apply attains_release hheld
  rw [release_eq_setMutex_free hs.inner]
  exact h _ (hs.served hfree) rfl

/-- A sleeper ends its section before it suspends. -/
theorem attains_sleepOn (hheld : m'.sched.turn = .held me) (hs : Serving me l s m m')
    (hfree : m.mutexes.get (.inner l) = .free) (x : RendezName)
    (h : ∀ m'', Served l s m m'' → m''.sched = m'.sched →
      ((m''.onSched (Sched.stop me)).withThread me
        ⟨.leave x :: .acquire (.inner l) :: ts, r, n, e⟩).Attains Q) :
    (m'.withThread me ⟨.sleepOn x (.inner l) :: ts, r, n, e⟩).Attains Q := by
  have hsleep : (m'.withThread me ⟨ts, r, n, e⟩).sleepOn me x (.inner l) =
      (m'.setRendez x ((m'.rendezvous.get x).enlist me)).withThread me
        ⟨.release (.inner l) :: .suspend :: .leave x :: .acquire (.inner l) :: ts, r, n, e⟩ := by
    show ((m'.setRendez x _).withThread me ⟨ts, r, n, e⟩).push me _ = _
    exact push_withThread
  refine attains_performed hheld hsleep ?_
  have hs' : Serving me l s m (m'.setRendez x ((m'.rendezvous.get x).enlist me)) := { hs with }
  apply attains_release (by exact hheld)
  rw [release_eq_setMutex_free hs'.inner]
  apply attains_suspend (by exact hheld)
  exact h _ (hs'.served hfree) rfl

/-! ## Requests -/

theorem perform_request_granted (hv : (m.locks.get l).request me side = (.granted, s)) :
    (m.withThread me ⟨ts, r, n, e⟩).perform me (side.request l) =
      (m.setLock l s).withThread me ⟨.closeSection l :: ts, .null, n, e⟩ := by
  cases side with
  | read =>
      show (m.withThread me ⟨ts, r, n, e⟩).requestRead me l = _
      rw [Machine.requestRead, locks_withThread,
        show (m.locks.get l).requestRead me = (.granted, s) from hv]
      show (((m.setLock l s).withThread me ⟨ts, r, n, e⟩).answer me .null).push me _ = _
      rw [answer_withThread, push_withThread]
      rfl
  | write =>
      show (m.withThread me ⟨ts, r, n, e⟩).requestWrite me l = _
      rw [Machine.requestWrite, locks_withThread,
        show (m.locks.get l).requestWrite me = (.granted, s) from hv]
      show (((m.setLock l s).withThread me ⟨ts, r, n, e⟩).answer me .null).push me _ = _
      rw [answer_withThread, push_withThread]
      rfl

theorem perform_request_queued (hv : (m.locks.get l).request me side = (.queued, s)) :
    ∃ notice, (m.withThread me ⟨ts, r, n, e⟩).perform me (side.request l) =
      ((m.setLock l s).note notice).withThread me
        ⟨.sleepOn (side.sleepers l) (.inner l) :: side.recheck l :: ts, .null, n, e⟩ := by
  cases side with
  | read =>
      refine ⟨.readerQueued me s.writer, ?_⟩
      show (m.withThread me ⟨ts, r, n, e⟩).requestRead me l = _
      rw [Machine.requestRead, locks_withThread,
        show (m.locks.get l).requestRead me = (.queued, s) from hv]
      show ((((m.setLock l s).note _).withThread me ⟨ts, r, n, e⟩).answer me .null).push me _ = _
      rw [answer_withThread, push_withThread]
      rfl
  | write =>
      refine ⟨.writerQueued me, ?_⟩
      show (m.withThread me ⟨ts, r, n, e⟩).requestWrite me l = _
      rw [Machine.requestWrite, locks_withThread,
        show (m.locks.get l).requestWrite me = (.queued, s) from hv]
      show ((((m.setLock l s).note _).withThread me ⟨ts, r, n, e⟩).answer me .null).push me _ = _
      rw [answer_withThread, push_withThread]
      rfl

/-- A request that is refused fails, and the log tells. -/
theorem perform_request_refused (hv : (m.locks.get l).request me side = (.refused, s)) :
    ∃ notice, m.perform me (side.request l) =
      (((m.setLock l s).note notice).answer me (.fault .wouldDeadlock)).push me
        [.closeSection l] := by
  cases side with
  | read =>
      refine ⟨.readerRefused me, ?_⟩
      show m.requestRead me l = _
      rw [Machine.requestRead, show (m.locks.get l).requestRead me = (.refused, s) from hv]
  | write =>
      refine ⟨.writerRefused me, ?_⟩
      show m.requestWrite me l = _
      rw [Machine.requestWrite, show (m.locks.get l).requestWrite me = (.refused, s) from hv]

/-- An attempt answers whether it took the hold. -/
theorem perform_attempt (side : RwSide) (l : LockName) (me : ThreadId) (m : Machine) :
    m.perform me (side.attempt l) =
      ((m.setLock l ((m.locks.get l).attempt me side).2).answer me
        (.bool ((m.locks.get l).attempt me side).1)).push me [.closeSection l] := by
  cases side <;> rfl

/-- A thread without a claim on a lock asks for a hold: it gets the hold at once, or it suspends as
a queued one. -/
theorem attains_request (side : RwSide) (hheld : m.sched.turn = .held me)
    (hfree : m.mutexes.get (.inner l) = .free) (hregular : (m.locks.get l).Regular)
    (hclaim : ∀ d, (m.locks.get l).claim me d = 0)
    (hgranted : ∀ m', ((m.locks.get l).request me side).1 = .granted →
      Served l ((m.locks.get l).request me side).2 m m' → m'.sched = m.sched →
      (m'.withThread me ⟨ts, .null, n, e⟩).Attains Q)
    (hqueued : ∀ m' notice, Served l ((m.locks.get l).request me side).2 m m' →
      m'.sched = m.sched.note notice →
      ((m'.onSched (Sched.stop me)).withThread me
        ⟨.leave (side.sleepers l) :: .acquire (.inner l) :: side.recheck l :: ts,
          .null, n, e⟩).Attains Q) :
    (m.withThread me ⟨.acquire (.inner l) :: side.request l :: ts, r, n, e⟩).Attains Q := by
  have hok : ((m.locks.get l).request me side).2.isConsistent = true :=
    (hregular.request (RwState.not_isQueued_of_claim hclaim) side).isConsistent
  have hverdict := RwState.request_ne_refused hclaim side
  apply attains_section hheld hfree
  intro m' hserving hsched
  have hheld' : m'.sched.turn = .held me := by rw [hsched, hheld]
  apply attains_perform hheld'
  generalize hv : (m.locks.get l).request me side = v at *
  obtain ⟨verdict, s⟩ := v
  have hv' : (m'.locks.get l).request me side = (verdict, s) := by rw [hserving.get_lock, hv]
  cases verdict with
  | granted =>
      rw [perform_request_granted hv']
      apply attains_closeSection (by exact hheld') hserving.setLock hok hfree
      intro m'' hserved hsched'
      exact hgranted m'' rfl hserved (hsched'.trans hsched)
  | queued =>
      obtain ⟨notice, hperform⟩ :
          ∃ notice, (m'.withThread me ⟨ts, r, n, e⟩).perform me (side.request l) = _ :=
        perform_request_queued hv'
      rw [hperform]
      have hnoted : Serving me l s m ((m'.setLock l s).note notice) := { hserving.setLock with }
      apply attains_sleepOn (by exact hheld') hnoted hfree
      intro m'' hserved hsched'
      refine hqueued m'' notice hserved (hsched'.trans ?_)
      show m'.sched.note notice = _
      rw [hsched]
  | refused => exact absurd rfl hverdict

/-! ## Second looks -/

theorem perform_recheck {granted : Bool}
    (hv : (m.locks.get l).recheck me side = (granted, s)) :
    (m.withThread me ⟨ts, r, n, e⟩).perform me (side.recheck l) =
      (m.setLock l s).withThread me ⟨(if granted then [.closeSection l] else
        [.sleepOn (side.sleepers l) (.inner l), side.recheck l]) ++ ts, r, n, e⟩ := by
  cases side with
  | read =>
      show (m.withThread me ⟨ts, r, n, e⟩).recheckRead me l = _
      rw [Machine.recheckRead, locks_withThread,
        show (m.locks.get l).recheckRead me = (granted, s) from hv]
      show ((m.setLock l s).withThread me ⟨ts, r, n, e⟩).push me _ = _
      rw [push_withThread]
      rfl
  | write =>
      show (m.withThread me ⟨ts, r, n, e⟩).recheckWrite me l = _
      rw [Machine.recheckWrite, locks_withThread,
        show (m.locks.get l).recheckWrite me = (granted, s) from hv]
      show ((m.setLock l s).withThread me ⟨ts, r, n, e⟩).push me _ = _
      rw [push_withThread]
      rfl

/-- A queued thread that was woken looks again: it has been granted the hold, or it suspends again.
In either case the lock stays as it is. -/
theorem attains_recheck (side : RwSide) (hheld : m.sched.turn = .held me)
    (hfree : m.mutexes.get (.inner l) = .free) (hregular : (m.locks.get l).Regular)
    (hclaim : (m.locks.get l).claim me side = 1)
    (hgranted : ∀ m', me ∉ (m.locks.get l).queue side → Served l (m.locks.get l) m m' →
      m'.sched = m.sched → (m'.withThread me ⟨ts, r, n, e⟩).Attains Q)
    (hqueued : ∀ m', Served l (m.locks.get l) m m' → m'.sched = m.sched →
      ((m'.onSched (Sched.stop me)).withThread me
        ⟨.leave (side.sleepers l) :: .acquire (.inner l) :: side.recheck l :: ts,
          r, n, e⟩).Attains Q) :
    (m.withThread me ⟨.leave (side.sleepers l) :: .acquire (.inner l) :: side.recheck l :: ts,
      r, n, e⟩).Attains Q := by
  apply attains_perform hheld
  -- Leaving the rendezvous is of no consequence for the section.
  show ((m.leave me (side.sleepers l)).withThread me _).Attains Q
  apply attains_section (m := m.leave me (side.sleepers l)) hheld hfree
  intro m' hserving hsched
  have hserving : Serving me l (m.locks.get l) m m' := { hserving with }
  have hheld' : m'.sched.turn = .held me := by
    rw [hsched]
    exact hheld
  apply attains_perform hheld'
  have hv := hregular.recheck hclaim
  rw [← hserving.get_lock] at hv
  rw [perform_recheck hv, hserving.get_lock]
  by_cases hq : me ∈ (m.locks.get l).queue side
  · rw [if_neg (by simpa using hq)]
    apply attains_sleepOn (by exact hheld') hserving.setLock hfree
    intro m'' hserved hsched'
    exact hqueued m'' hserved (hsched'.trans hsched)
  · rw [if_pos (by simpa using hq)]
    apply attains_closeSection (by exact hheld') hserving.setLock hregular.isConsistent hfree
    intro m'' hserved hsched'
    exact hgranted m'' hq hserved (hsched'.trans hsched)

/-! ## Releases -/

/-- A hand-over wakes those that it is for and changes no lock. -/
theorem Serving.wakeGranted (h : Serving me l s m m') (g : Handoff) :
    Serving me l s m (m'.wakeGranted l g) := by
  cases g <;> exact { h with }

theorem mild_wakeGranted (b : ThreadId → Prop) (g : Handoff) (m : Machine) :
    Sched.Mild b m.sched (m.wakeGranted l g).sched := by
  cases g with
  | nobody => exact .refl b m.sched
  | writer next => exact (Sched.mild_note _ m.sched).trans (Sched.mild_wakeAll _ _)
  | readers count => exact (Sched.mild_note _ m.sched).trans (Sched.mild_wakeAll _ _)

theorem turn_wakeGranted (g : Handoff) (m : Machine) :
    (m.wakeGranted l g).sched.turn = m.sched.turn := by
  cases g with
  | nobody => rfl
  | writer next => exact Sched.turn_wakeAll _ (m.sched.note _)
  | readers count => exact Sched.turn_wakeAll _ (m.sched.note _)

theorem wakeGranted_withThread (g : Handoff) :
    (m.withThread me th).wakeGranted l g = (m.wakeGranted l g).withThread me th := by
  cases g <;> rfl

/-- A release that succeeds hands the lock over and wakes those that it may have been granted to. -/
theorem perform_release_of_some {out : Handoff × RwState}
    (hv : (m.locks.get l).release me side = some out) : m.perform me (side.release l) =
      (((m.setLock l out.2).wakeGranted l out.1).answer me .null).push me [.closeSection l] := by
  cases side with
  | read =>
      show m.releaseRead me l = _
      rw [releaseRead, show (m.locks.get l).releaseRead me = some out from hv]
  | write =>
      show m.releaseWrite me l = _
      rw [releaseWrite, show (m.locks.get l).releaseWrite me = some out from hv]

/-- A release of what the thread does not hold fails, and the log tells. -/
theorem perform_release_of_none (hv : (m.locks.get l).release me side = none) :
    ∃ notice, m.perform me (side.release l) =
      ((m.note notice).answer me (.fault .notHeld)).push me [.closeSection l] := by
  cases side with
  | read =>
      refine ⟨.readNotHeld me, ?_⟩
      show m.releaseRead me l = _
      rw [releaseRead, show (m.locks.get l).releaseRead me = none from hv]
  | write =>
      refine ⟨.writeNotHeld me (m.locks.get l).writer, ?_⟩
      show m.releaseWrite me l = _
      rw [releaseWrite, show (m.locks.get l).releaseWrite me = none from hv]

theorem perform_release {g : Handoff} (hv : (m.locks.get l).release me side = some (g, s)) :
    (m.withThread me ⟨ts, r, n, e⟩).perform me (side.release l) =
      ((m.setLock l s).wakeGranted l g).withThread me ⟨.closeSection l :: ts, .null, n, e⟩ := by
  rw [perform_release_of_some (m := m.withThread me ⟨ts, r, n, e⟩) hv]
  show ((((m.setLock l s).withThread me ⟨ts, r, n, e⟩).wakeGranted l g).answer me .null).push me
    [.closeSection l] = _
  rw [wakeGranted_withThread, answer_withThread, push_withThread]
  rfl

/-- A holder gives its hold up. Others may be woken. -/
theorem attains_release_lock (side : RwSide) (hheld : m.sched.turn = .held me)
    (hfree : m.mutexes.get (.inner l) = .free) (hregular : (m.locks.get l).Regular)
    (hholds : 0 < (m.locks.get l).holds me side)
    (h : ∀ m' g s, (m.locks.get l).release me side = some (g, s) → Served l s m m' →
      Sched.Mild (fun _ => True) m.sched m'.sched → m'.sched.turn = .held me →
      (m'.withThread me ⟨ts, .null, n, e⟩).Attains Q) :
    (m.withThread me ⟨.acquire (.inner l) :: side.release l :: ts, r, n, e⟩).Attains Q := by
  obtain ⟨⟨g, s⟩, hv⟩ := RwState.exists_release hholds
  apply attains_section hheld hfree
  intro m' hserving hsched
  have hheld' : m'.sched.turn = .held me := by rw [hsched, hheld]
  apply attains_perform hheld'
  have hv' : (m'.locks.get l).release me side = some (g, s) := by rw [hserving.get_lock, hv]
  rw [perform_release hv']
  have hturn := (turn_wakeGranted (l := l) g (m'.setLock l s)).trans hheld'
  apply attains_closeSection hturn (hserving.setLock.wakeGranted g)
    (hregular.release hv).isConsistent hfree
  intro m'' hserved hsched'
  have hmild := mild_wakeGranted (l := l) (fun _ => True) g (m'.setLock l s)
  rw [← hsched', show (m'.setLock l s).sched = m.sched from hsched] at hmild
  exact h m'' g s hv hserved hmild (by rw [hsched', hturn])

/-! ## Guards -/

/-- A block whose guard was obtained begins. -/
theorem attains_enter {block : String} {g : Guard} {body : List Instr}
    (hheld : m.sched.turn = .held me) (hr : r.isRefusal = false)
    (h : ((m.reported me block (.bool true)).withThread me
      ⟨body.map Task.instr ++ [.drop g, .answer .null, .report "end"] ++ ts,
        .bool true, n + 1, e⟩).Attains Q) :
    (m.withThread me ⟨.enter block g body :: ts, r, n, e⟩).Attains Q := by
  have henter : (m.withThread me ⟨ts, r, n, e⟩).enter me block g body =
      (m.reported me block (.bool true)).withThread me
        ⟨body.map Task.instr ++ [.drop g, .answer .null, .report "end"] ++ ts,
          .bool true, n + 1, e⟩ := by
    rw [Machine.enter, replyOf_withThread, if_neg (by simp [hr]), answer_withThread,
      report_withThread, push_withThread]
  exact attains_performed hheld henter h

theorem attains_drop_cell {c : Nat} (hheld : m.sched.turn = .held me)
    (howner : (m.mutexes.get (.cell c)).owner = some me)
    (h : ∀ m', HandedOver (.cell c) m m' → Sched.Mild (fun _ => True) m.sched m'.sched →
      m'.sched.turn = .held me → (m'.withThread me ⟨ts, r, n, e⟩).Attains Q) :
    (m.withThread me ⟨.drop (.cell c) :: ts, r, n, e⟩).Attains Q := by
  obtain ⟨hhanded, hmild, hturn⟩ := handedOver_release howner
  have hdrop : (m.withThread me ⟨ts, r, n, e⟩).drop me (.cell c) =
      m.withThread me ⟨.release (.cell c) :: ts, r, n, e⟩ := push_withThread
  refine attains_performed hheld hdrop ?_
  exact attains_release hheld (h _ hhanded hmild (hturn.trans hheld))

theorem attains_drop_lock (side : RwSide) (hheld : m.sched.turn = .held me)
    (hfree : m.mutexes.get (.inner l) = .free) (hregular : (m.locks.get l).Regular)
    (hholds : 0 < (m.locks.get l).holds me side)
    (h : ∀ m' g s, (m.locks.get l).release me side = some (g, s) → Served l s m m' →
      Sched.Mild (fun _ => True) m.sched m'.sched → m'.sched.turn = .held me →
      (m'.withThread me ⟨ts, .null, n, e⟩).Attains Q) :
    (m.withThread me ⟨.drop (side.guard l) :: ts, r, n, e⟩).Attains Q := by
  have hdrop : ∃ b, (m.withThread me ⟨ts, r, n, e⟩).drop me (side.guard l) =
      m.withThread me ⟨.acquire (.inner l) :: side.release l :: .checkDrop b :: ts, r, n, e⟩ := by
    cases side with
    | read => exact ⟨false, push_withThread⟩
    | write => exact ⟨true, push_withThread⟩
  obtain ⟨b, hdrop⟩ := hdrop
  refine attains_performed hheld hdrop ?_
  apply attains_release_lock side hheld hfree hregular hholds
  intro m' g s hv hserved hmild hheld'
  have hcheck : (m'.withThread me ⟨ts, .null, n, e⟩).checkDrop me b =
      m'.withThread me ⟨ts, .null, n, e⟩ := by
    rw [Machine.checkDrop, replyOf_withThread]
  exact attains_performed hheld' hcheck (h m' g s hv hserved hmild hheld')

end Machine

end Baton
