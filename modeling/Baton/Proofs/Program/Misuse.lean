import Baton.Proofs.Program.Alike
import Baton.Proofs.Program.Bookkeeping
import Baton.Proofs.Program.Secluded

/-!
# Machine: misused primitives

A thread that asks for a mutex of its own panics, a release by a thread that does not own the mutex
is logged and ignored, and a sleep with the guard of another cell is an error; from outside a
scheduler every primitive panics. None of this leaves a trace but in the thread that did it and in
the log, so the run goes on as if the thread had panicked by itself, done nothing, or been answered
the error for no reason.
-/

namespace Baton

/-- Whether the instruction works on a mutex, a rendezvous or a reader/writer lock, or on an object
that is built on them. -/
def Instr.isPrimitive : Instr → Bool
  | lock _ | tryLock _ | unlock _ | sleep .. | wake _ | wakeAll _ => true
  | readLock _ | writeLock _ | tryReadLock _ | tryWriteLock _ => true
  | readUnlock _ | writeUnlock _ | releaseAny _ | snapshot _ => true
  | scope .. | condWake _ | condWakeAll _ | showCell _ | showTable _ => true
  | ownMutex _ | ownLock _ => true
  | _ => false

/-- A misuse of a primitive by a thread of the scheduler. -/
inductive Misuse where
  /-- The thread asks for a mutex that it owns. -/
  | relock
  /-- The thread releases a mutex that somebody else owns, or nobody. -/
  | foreignUnlock (owner : Option ThreadId)
  /-- The thread sleeps on a condition with the guard of a cell that is not the condition's. -/
  | wrongGuard

namespace Misuse

/-- What the thread gets for it. -/
def respond (me : ThreadId) (m : Machine) : Misuse → Machine
  | relock => m.panic me ("CoopMutex relocked by its holder " ++ me.text)
  | foreignUnlock _ => m
  | wrongGuard => m.answer me (.fault .wrongMutex)

/-- What is logged. -/
def notices (me : ThreadId) : Misuse → List Notice
  | relock => []
  | foreignUnlock owner => [.mutexNotOwned me owner]
  | wrongGuard => [.wrongGuard]

end Misuse

namespace Machine

variable {p : Program} {m n : Machine} {me : ThreadId} {x : Task} {ts : List Task} {e : Misuse}

/-- The misuse that a task of `me` is. -/
def misuse? (me : ThreadId) (m : Machine) : Task → Option Misuse
  | .acquire name => if (m.mutexes.get name).owner = some me then some .relock else none
  | .release name =>
    if (m.mutexes.get name).owner = some me then none
    else some (.foreignUnlock (m.mutexes.get name).owner)
  | .condSleep k => match m.guard? me with
    | some (.cell c) => if m.pairedCell k = c then none else some .wrongGuard
    | _ => none
  | _ => none

/-- A call by a thread of the operating system that no scheduler hosts, up to its first task: what
has become of the caller, and the machine. The caller's record is beside those of the machine. -/
def callFromOutside (i : Instr) (m : Machine) : Thread × Machine :=
  let caller : Thread := ⟨i.tasks .outside .none .null m.memory, .null, 0, .fresh⟩
  let entered := { m with threads := m.threads.set .none caller }
  let n := match entered.popTask .none with
    | some (x, popped) => popped.perform .none x
    | none => entered
  (n.threads.get .none, { n with threads := n.threads.set .none (m.threads.get .none) })

/-- A mutex is set to the state that it has. -/
theorem alike_setMutex (name : MutexName) (m : Machine) :
    m.Alike (m.setMutex name (m.mutexes.get name)) :=
  { Alike.refl m with
    mutexes := fun k => by
      show (m.mutexes.set name _).get k = _
      rw [Store.get_set]
      split
      · rw [‹k = name›]
      · rfl }

theorem alike_note (notice : Notice) (m : Machine) : m.Alike (m.note notice) :=
  { Alike.refl m with sched := rfl }

theorem acquire_of_owner {name : MutexName} (ho : (m.mutexes.get name).owner = some me) :
    m.acquire me name = (m.setMutex name (m.mutexes.get name)).panic me
      ("CoopMutex relocked by its holder " ++ me.text) := by
  have hrequest : (m.mutexes.get name).request me = (.refused, m.mutexes.get name) := if_pos ho
  rw [acquire, hrequest]

theorem release_of_not_owner {name : MutexName} (ho : (m.mutexes.get name).owner ≠ some me) :
    m.release me name = m.note (.mutexNotOwned me (m.mutexes.get name).owner) :=
  if_neg fun he => ho (beq_iff_eq.mp he)

theorem exists_guard_of_misuse? {k : Nat} (hmisuse : m.misuse? me (.condSleep k) = some e) :
    ∃ c, m.guard? me = some (.cell c) ∧ m.pairedCell k ≠ c ∧ e = .wrongGuard := by
  unfold misuse? at hmisuse
  dsimp only at hmisuse
  split at hmisuse
  · rename_i c hguard
    obtain ⟨hother, he⟩ := Option.ite_none_left_eq_some.mp hmisuse
    exact ⟨c, hguard, hother, (Option.some.inj he).symm⟩
  · cases hmisuse

/-- A misuse is answered, and leaves no trace but in the log. -/
theorem respond_alike (hmisuse : m.misuse? me x = some e) :
    (e.respond me m).Alike (m.perform me x) ∧
      (m.perform me x).sched.journal = e.notices me ++ m.sched.journal := by
  cases x with
  | acquire name =>
      unfold misuse? at hmisuse
      obtain ⟨ho, he⟩ := Option.ite_none_right_eq_some.mp hmisuse
      cases he
      rw [show m.perform me (.acquire name) = m.acquire me name from rfl, acquire_of_owner ho]
      exact ⟨(alike_setMutex name m).panic me _, rfl⟩
  | release name =>
      unfold misuse? at hmisuse
      obtain ⟨ho, he⟩ := Option.ite_none_left_eq_some.mp hmisuse
      cases he
      rw [show m.perform me (.release name) = m.release me name from rfl, release_of_not_owner ho]
      exact ⟨alike_note _ m, rfl⟩
  | condSleep k =>
      obtain ⟨c, hguard, hother, rfl⟩ := exists_guard_of_misuse? hmisuse
      have hsleep : m.condSleep me k = (m.note .wrongGuard).answer me (.fault .wrongMutex) := by
        rw [condSleep, hguard]
        exact if_neg hother
      rw [show m.perform me (.condSleep k) = m.condSleep me k from rfl, hsleep]
      exact ⟨(alike_note _ m).answer me _, rfl⟩
  | _ => cases hmisuse

/-- Of what is shared nothing has changed, and the scheduler and the other threads are as they were;
the log may differ. -/
structure Unharmed (me : ThreadId) (m n : Machine) : Prop where
  mutexes : ∀ name, n.mutexes.get name = m.mutexes.get name
  rendezvous : n.rendezvous = m.rendezvous
  locks : n.locks = m.locks
  sched : m.sched.Alike n.sched
  others : ∀ t, t ≠ me → n.threads.get t = m.threads.get t

theorem Unharmed.refl (me : ThreadId) (m : Machine) : Unharmed me m m :=
  ⟨fun _ => rfl, rfl, rfl, rfl, fun _ _ => rfl⟩

theorem Unharmed.onThread (h : Unharmed me m n) (f : Thread → Thread) :
    Unharmed me m { n with threads := n.threads.update me f } :=
  { h with
    others := fun t ht => by
      show (n.threads.update me f).get t = _
      rw [Store.get_update, if_neg ht, h.others t ht] }

theorem Unharmed.trans_alike {k : Machine} (h : Unharmed me m n) (h' : n.Alike k) :
    Unharmed me m k where
  mutexes name := (h'.mutexes name).trans (h.mutexes name)
  rendezvous := h'.rendezvous.trans h.rendezvous
  locks := h'.locks.trans h.locks
  sched := h.sched.trans h'.sched
  others t ht := (h'.threads t).trans (h.others t ht)

/-- The answer to a misuse concerns the thread alone. -/
theorem unharmed_respond (e : Misuse) (me : ThreadId) (ts : List Task) (m : Machine) :
    Unharmed me m (e.respond me (m.setStack me ts)) := by
  have hpopped : Unharmed me m (m.setStack me ts) := (Unharmed.refl me m).onThread _
  cases e with
  | relock => exact hpopped.onThread _
  | foreignUnlock owner => exact hpopped
  | wrongGuard => exact hpopped.onThread _

/-- It makes no difference whether the task has been taken off the stack. -/
theorem misuse?_setStack (hstack : m.stackOf me = x :: ts) :
    (m.setStack me ts).misuse? me x = m.misuse? me x := by
  cases x with
  | condSleep k =>
      unfold misuse?
      dsimp only
      rw [guard?_setStack hstack rfl]
      rfl
  | _ => rfl

/-- A thread that misuses a primitive is in no critical section. -/
theorem Secluded.innerFree_of_misuse? (h : m.Secluded) (hturn : m.sched.turn = .held me)
    (hstack : m.stackOf me = x :: ts) (hmisuse : m.misuse? me x = some e) : m.InnerFree := by
  cases h.running me hturn with
  | outside _ hfree => exact hfree
  | @inside l hin hheld =>
      rw [hstack] at hin
      cases hin with
      | opening hx => cases x <;> first | cases hmisuse | cases hx
      | close | sleep => cases hmisuse
      | release =>
          have howner : (m.mutexes.get (.inner l)).owner = some me := by
            rw [hheld l, if_pos rfl]
          rw [misuse?, if_pos howner] at hmisuse
          cases hmisuse

/-- What a misuse leaves behind: the thread has its answer, the log tells of it, and nothing else
has changed, neither now nor later. Below the task the tasks of the thread are `ts`. -/
structure LeavesNoTrace (p : Program) (e : Misuse) (me : ThreadId) (x : Task) (ts : List Task)
    (m n : Machine) : Prop extends Unharmed me m n where
  answered : (e.respond me (m.setStack me ts)).Alike n
  journal : n.sched.journal = e.notices me ++ m.sched.journal
  /-- The run goes on as if the thread had just been given this answer. -/
  later : SameRuns (e.respond me (m.setStack me ts)) n
  /-- No critical section of a lock is under way. -/
  innerFree : m.sched.ids.history.Nodup → n.InnerFree
  /-- All ticket locks are at rest again. -/
  booked : ∀ d, Booked p d m → (d.visit me x (m.setStack me ts)).Shows n

theorem Reaches.leavesNoTrace (hr : Reaches p.machine m) (hturn : m.sched.turn = .held me)
    (hstack : m.stackOf me = x :: ts) (hmisuse : m.misuse? me x = some e) :
    LeavesNoTrace p e me x ts m ((m.setStack me ts).perform me x) := by
  obtain ⟨halike, hjournal⟩ := respond_alike ((misuse?_setStack hstack).trans hmisuse)
  have hunharmed := (unharmed_respond e me ts m).trans_alike halike
  exact { hunharmed with
    answered := halike
    journal := hjournal
    later := halike.sameRuns
    innerFree := fun hids l => by
      have hsecluded := hr.secluded (IdAllocator.nodup_history_iff.mp hids)
      exact (hunharmed.mutexes _).trans (hsecluded.innerFree_of_misuse? hturn hstack hmisuse l)
    booked := fun d hd => (hd.task hturn hstack).shows }

/-! ## Calls from outside -/

/-- Without a scheduler a primitive panics before it does anything. -/
theorem tasks_outside {i : Instr} (hi : i.isPrimitive = true) (me : ThreadId) (r : Reply)
    (memory : Memory) : ∃ rest, i.tasks .outside me r memory = .panic outsideText :: rest ∧
      rest.filter Task.isCleanup = [] := by
  cases i <;> first | exact ⟨_, rfl, rfl⟩ | cases hi

/-- The machine is the same as before, with the same bookkeeping, and so are the runs from it on. -/
structure LeftAlone (p : Program) (m n : Machine) : Prop where
  same : { n with threads := m.threads } = m
  threads : ∀ t, n.threads.get t = m.threads.get t
  later : SameRuns m n
  booked : ∀ d, Booked p d m → d.Shows n

/-- A caller from outside panics, and the machine is left alone. -/
theorem callFromOutside_of_isPrimitive {i : Instr} (hi : i.isPrimitive = true) (p : Program)
    (m : Machine) : (m.callFromOutside i).1.stack = [.abort outsideText] ∧
      LeftAlone p m (m.callFromOutside i).2 := by
  obtain ⟨rest, htasks, hrest⟩ := tasks_outside hi .none .null m.memory
  let entered : Machine := { m with
    threads := m.threads.set .none ⟨i.tasks .outside .none .null m.memory, .null, 0, .fresh⟩ }
  let after : Machine := (entered.setStack .none rest).panic .none outsideText
  have hstack : entered.stackOf .none = .panic outsideText :: rest := by
    rw [← htasks]
    exact congrArg Thread.stack ((Store.get_set ..).trans (if_pos rfl))
  have hcall : m.callFromOutside i = (after.threads.get .none,
      { after with threads := after.threads.set .none (m.threads.get .none) }) := by
    show (_, _) = _
    rw [popTask_of_stack hstack]
    rfl
  have hpanicked : after.stackOf .none = [.abort outsideText] := by
    rw [stackOf_panic, show (entered.setStack .none rest).stackOf .none = rest from
      stackOf_onThread .., hrest]
    rfl
  have hthreads : ∀ t, (after.threads.set .none (m.threads.get .none)).get t =
      m.threads.get t := by
    intro t
    rw [Store.get_set]
    split
    · rw [‹t = .none›]
    · rename_i hne
      have hafter : Unharmed .none entered after :=
        ((Unharmed.refl .none entered).onThread _).onThread _
      exact (hafter.others t hne).trans ((Store.get_set ..).trans (if_neg hne))
  have halike : m.Alike { after with threads := after.threads.set .none (m.threads.get .none) } :=
    { Alike.refl m with threads := hthreads }
  rw [hcall]
  exact ⟨hpanicked, rfl, hthreads, halike.sameRuns,
    fun d hd => hd.shows.congr (fun _ => rfl) fun _ => rfl⟩

/-- Whoever misuses a primitive at some moment of a run gets its answer: a thread that asks for a
mutex of its own panics, one that releases a mutex that it does not own goes on after a report, one
that sleeps on a condition with a wrong guard is told so, and any use of a primitive from outside
panics. All mutexes, rendezvous and reader/writer locks are as before, and so are the scheduler, but
for its log, and all other threads; nobody is woken, no critical section is under way and no ticket
lock held. From then on the same can happen as if the caller had just been given the answer. -/
theorem misuse_leaves_no_trace (hr : Reaches p.machine m) :
    (∃ d, Booked p d m) ∧
    (∀ (me : ThreadId) (x : Task) (ts : List Task) (e : Misuse), m.sched.turn = .held me →
      m.stackOf me = x :: ts → m.misuse? me x = some e →
      ∃ n, m.step = some n ∧ LeavesNoTrace p e me x ts m n) ∧
    ∀ i : Instr, i.isPrimitive = true →
      (m.callFromOutside i).1.stack = [.abort outsideText] ∧
        LeftAlone p m (m.callFromOutside i).2 :=
  ⟨hr.booked,
    fun _ _ _ _ hturn hstack hmisuse =>
      ⟨_, step_of_held hturn hstack, hr.leavesNoTrace hturn hstack hmisuse⟩,
    fun _ hi => callFromOutside_of_isPrimitive hi p m⟩

end Machine

open Machine (Reaches)

/-- The main thread takes a mutex. A second thread releases it, and then the main thread sleeps with
a wrong guard and asks for the mutex again. -/
def blunders : Program :=
  { Program.blank with
    code := [[.spawn 1, .lock 0, .yield, .scope (.cell 1) [.condSleep 0], .lock 0], [.unlock 0]]
    cells := [[], []]
    conds := [0] }

/-- The main thread keeps the mutex through all of this, and through a call from outside. -/
theorem Machine.misuse_leaves_no_trace_blunders :
    let owner := fun m : Machine => (m.mutexes.get (.raw 0)).owner
    (∃ n, (blunders.final 13).step = some n ∧ owner n = some 1 ∧
      n.sched.journal = .mutexNotOwned 2 (some 1) :: (blunders.final 13).sched.journal) ∧
    (∃ n, (blunders.final 27).step = some n ∧ owner n = some 1 ∧
      n.replyOf 1 = .fault .wrongMutex) ∧
    (∃ n, (blunders.final 34).step = some n ∧ owner n = some 1 ∧
      n.stackOf 1 = [.abort ("CoopMutex relocked by its holder " ++ ThreadId.text 1)]) ∧
    owner ((blunders.final 34).callFromOutside (.unlock 0)).2 = some 1 := by
  intro owner
  have hreaches : ∀ k, Reaches blunders.machine (blunders.final k) := (Reaches.refl _).run
  obtain ⟨-, hforeign, -⟩ := Machine.misuse_leaves_no_trace (hreaches 13)
  obtain ⟨-, hwrong, -⟩ := Machine.misuse_leaves_no_trace (hreaches 27)
  obtain ⟨-, hrelock, houtside⟩ := Machine.misuse_leaves_no_trace (hreaches 34)
  obtain ⟨n, hn, hleaves⟩ := hforeign 2 (.release (.raw 0))
    [.answer .null, .report "unlock", .exit] (.foreignUnlock (some 1)) (by decide) rfl rfl
  obtain ⟨k, hk, hleaves'⟩ := hwrong 1 (.condSleep 0)
    [.report "cond_sleep", .drop (.cell 1), .answer .null, .report "end", .instr (.lock 0), .exit]
    .wrongGuard (by decide) rfl rfl
  obtain ⟨i, hi, hleaves''⟩ := hrelock 1 (.acquire (.raw 0)) [.answer .null, .report "lock", .exit]
    .relock (by decide) rfl rfl
  refine ⟨⟨n, hn, ?_, hleaves.journal⟩, ⟨k, hk, ?_, ?_⟩, ⟨i, hi, ?_, ?_⟩, ?_⟩
  · exact (congrArg Mutex.owner (hleaves.mutexes _)).trans (by decide)
  · exact (congrArg Mutex.owner (hleaves'.mutexes _)).trans (by decide)
  · exact (hleaves'.answered.replyOf 1).trans (Machine.replyOf_answer ..)
  · exact (congrArg Mutex.owner (hleaves''.mutexes _)).trans (by decide)
  · exact (congrArg Thread.stack (hleaves''.answered.threads 1)).trans (Machine.stackOf_panic ..)
  · have hsame := (houtside (.unlock 0) rfl).2.same
    exact (congrArg owner hsame).trans (by decide)

end Baton
