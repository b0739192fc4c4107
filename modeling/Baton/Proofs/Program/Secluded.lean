import Baton.Proofs.Program.Critical
import Baton.Proofs.Program.Queued

/-!
# Machine: critical sections are secluded

A thread takes the inner mutex of a reader/writer lock for a critical section only, and gives it up
before it gives the turn away. So nobody ever waits for an inner mutex: at every moment of a run it
is free, or the running thread owns it and stands in a section of that lock. The same holds after a
panic, since what cleans up takes the mutex again.
-/

namespace Baton

/-- Whether the mutex protects the state of a lock. -/
def MutexName.isInner : MutexName → Bool
  | inner _ => true
  | _ => false

/-- The lock in whose critical section the task has to be carried out first. -/
def Task.opens? : Task → Option LockName
  | requestRead l | recheckRead l | requestWrite l | recheckWrite l => some l
  | tryRead l | tryWrite l | releaseRead l | releaseWrite l => some l
  | releaseHeld l | copyState l => some l
  | _ => none

/-- Whether the task has nothing to do with critical sections. -/
def Task.isAside : Task → Bool
  | acquire name | tryAcquire name | awaitOwner name | release name => !name.isInner
  | sleepOn _ name | sleepUntil _ name .. => !name.isInner
  | closeSection _ => false
  | x => x.opens?.isNone

theorem Task.isAside_of_isLocal {x : Task} (h : x.isLocal = true) : x.isAside = true := by
  cases x <;> first | rfl | cases h

theorem Task.isAside_of_opens? {x : Task} {l : LockName} (h : x.opens? = some l) :
    x.isAside = false := by
  cases x <;> first | rfl | cases h

theorem Task.isCleanup_of_opens? {x : Task} {l : LockName} (h : x.opens? = some l) :
    x.isCleanup = false := by
  cases x <;> first | rfl | cases h

/-- The tasks of a thread that is in no critical section. Each section that lies before it begins
with the inner mutex. -/
inductive Outside : List Task → Prop where
  | nil : Outside []
  | aside {x : Task} {ts : List Task} : x.isAside = true → Outside ts → Outside (x :: ts)
  | entry {l : LockName} {x : Task} {ts : List Task} : x.opens? = some l → Outside ts →
      Outside (.acquire (.inner l) :: x :: ts)

/-- The tasks of a thread that is in a critical section of `l`. -/
inductive Inside (l : LockName) : List Task → Prop where
  | opening {x : Task} {ts : List Task} : x.opens? = some l → Outside ts → Inside l (x :: ts)
  | close {ts : List Task} : Outside ts → Inside l (.closeSection l :: ts)
  | release {ts : List Task} : Outside ts → Inside l (.release (.inner l) :: ts)
  /-- A sleeper comes back to the section in which it looks again. -/
  | sleep {r : RendezName} {x : Task} {ts : List Task} : x.opens? = some l → Outside ts →
      Inside l (.sleepOn r (.inner l) :: x :: ts)

namespace Outside

variable {ts us : List Task} {x : Task} {l : LockName}

theorem append (h : Outside ts) (h' : Outside us) : Outside (ts ++ us) := by
  induction h with
  | nil => exact h'
  | aside hx _ ih => exact .aside hx ih
  | entry hx _ ih => exact .entry hx ih

theorem of_all (h : ts.all Task.isAside = true) : Outside ts := by
  induction ts with
  | nil => exact .nil
  | cons x ts ih =>
      rw [List.all_cons, Bool.and_eq_true] at h
      exact .aside h.1 (ih h.2)

theorem instrs (body : List Instr) : Outside (body.map Task.instr) :=
  of_all (List.all_eq_true.mpr fun x hx => by
    obtain ⟨i, -, rfl⟩ := List.mem_map.mp hx
    rfl)

/-- What a panic leaves of the tasks. -/
theorem cleanup (h : Outside ts) (text : String) :
    Outside (ts.filter Task.isCleanup ++ [.abort text]) := by
  refine append (of_all (List.all_eq_true.mpr fun y hy => ?_)) (of_all rfl)
  obtain ⟨hmem, hclean⟩ := List.mem_filter.mp hy
  clear hy
  induction h with
  | nil => cases hmem
  | aside hx _ ih =>
      rcases List.mem_cons.mp hmem with rfl | hmem
      · exact hx
      · exact ih hmem
  | entry hx _ ih =>
      rcases List.mem_cons.mp hmem with rfl | hmem
      · cases hclean
      rcases List.mem_cons.mp hmem with rfl | hmem
      · rw [Task.isCleanup_of_opens? hx] at hclean
        cases hclean
      · exact ih hmem

/-- The first task is aside, or takes an inner mutex for a section. -/
theorem cases_cons (h : Outside (x :: ts)) :
    (x.isAside = true ∧ Outside ts) ∨
      ∃ l y us, x = .acquire (.inner l) ∧ ts = y :: us ∧ y.opens? = some l ∧ Outside us := by
  cases h with
  | aside hx h => exact .inl ⟨hx, h⟩
  | entry hy h => exact .inr ⟨_, _, _, rfl, rfl, hy, h⟩

/-! ## Instructions -/

theorem section_append (hx : x.opens? = some l) (h : Outside us) :
    Outside (Task.section l x ++ us) :=
  .entry hx h

theorem primitive {host : Host} (h : Outside ts) : Outside (host.primitive ts) := by
  cases host with
  | outside => exact of_all rfl
  | coop | native => exact h

theorem scheduled {host : Host} (h : Outside ts) : Outside (host.scheduled ts) := by
  cases host with
  | coop => exact h
  | outside | native => exact of_all rfl

theorem opening (o : Opening) : Outside o.tasks := by
  cases o with
  | cell | tryCell => exact of_all rfl
  | read | write | tryRead | tryWrite => exact .entry rfl .nil

theorem replyTasks (host : Host) (me : ThreadId) (i : Instr) : Outside (i.replyTasks host me) := by
  cases i with
  | readLock | writeLock | tryReadLock | tryWriteLock | readUnlock | writeUnlock | releaseAny
  | snapshot => exact primitive (.entry rfl .nil)
  | showTable => exact primitive (section_append rfl (of_all rfl))
  | lock | tryLock | unlock | sleep | wake | wakeAll | condWake | condWakeAll | showCell | ownMutex
  | ownLock => exact primitive (of_all rfl)
  | stop | wakeup | spawn => exact scheduled (of_all rfl)
  | waitFor | yield | outsideWakeup | nestedRun | owner | sleepers | select =>
      cases host <;> exact of_all rfl
  | _ => exact of_all rfl

theorem tasks (host : Host) (me : ThreadId) (r : Reply) (memory : Memory) (i : Instr) :
    Outside (i.tasks host me r memory) := by
  cases i with
  | scope o body => exact primitive ((opening o).append (of_all rfl))
  | loop n body =>
      cases n with
      | zero => exact .nil
      | succ n =>
          cases body with
          | nil => exact .nil
          | cons i body => exact (instrs _).append (of_all rfl)
  | whilst c body =>
      show Outside (if c r memory = true then _ else _)
      split
      · exact (instrs body).append (of_all rfl)
      · exact .nil
  | update f => exact replyTasks host me (.update f)
  | say level text => exact replyTasks host me (.say level text)
  | print text => exact replyTasks host me (.print text)
  | _ => exact (replyTasks host me _).append (of_all rfl)

end Outside

theorem Inside.not_isAside {l : LockName} {x : Task} {ts : List Task} (h : Inside l (x :: ts)) :
    x.isAside = false := by
  cases h with
  | opening hx => exact Task.isAside_of_opens? hx
  | _ => rfl

namespace Machine

open Sched (SameWaits Quiet)

variable {p : Program} {m m' : Machine} {me t : ThreadId} {x : Task} {ts : List Task}
  {l : LockName} {name : MutexName}

/-! ## Tasks that are aside -/

theorem mutex_perform_of_isAside (me : ThreadId) (m : Machine) (hx : x.isAside = true)
    (l : LockName) :
    (m.perform me x).mutexes.get (.inner l) = m.mutexes.get (.inner l) := by
  rcases mutex_perform me x m (.inner l) with ⟨rfl, -⟩ | ⟨rfl, -⟩ | ⟨rfl, -⟩ | he
  · cases hx
  · cases hx
  · cases hx
  · exact he

theorem outside_push (hts : Outside ts) (h : Outside (m.stackOf me)) :
    Outside ((m.push me ts).stackOf me) := by
  rw [stackOf_push]
  exact hts.append h

theorem outside_panic {text : String} (h : Outside (m.stackOf me)) :
    Outside ((m.panic me text).stackOf me) := by
  rw [stackOf_panic]
  exact h.cleanup text

theorem outside_answer {r : Reply} (h : Outside (m.stackOf me)) :
    Outside ((m.answer me r).stackOf me) := by
  rwa [stackOf_answer]

theorem outside_report {label : String} (h : Outside (m.stackOf me)) :
    Outside ((m.report me label).stackOf me) := by
  obtain ⟨new, hnew, hstack⟩ := (extends_report me label m).stack
  rw [hstack]
  have hall := List.all_eq_true.mpr fun y hy => Task.isAside_of_isLocal (hnew y hy)
  exact (Outside.of_all hall).append h

theorem outside_acquire (hname : name.isInner = false) (h : Outside (m.stackOf me)) :
    Outside ((m.acquire me name).stackOf me) := by
  rcases acquire_cases me name m with ⟨-, -, text, hstack⟩ | ⟨-, -, hstack⟩ | ⟨-, -, -, hstack⟩ <;>
    rw [hstack]
  · exact h.cleanup text
  · exact h
  · exact .aside rfl (.aside (by simp [Task.isAside, hname]) h)

theorem outside_awaitOwner (hname : name.isInner = false) (h : Outside (m.stackOf me)) :
    Outside ((m.awaitOwner me name).stackOf me) := by
  rcases awaitOwner_cases me name m with ⟨-, he⟩ | ⟨-, hstack⟩
  · rwa [he]
  · rw [hstack]
    exact .aside rfl (.aside (by simp [Task.isAside, hname]) h)

theorem outside_sleepOn (r : RendezName) (hname : name.isInner = false)
    (h : Outside (m.stackOf me)) : Outside ((m.sleepOn me r name).stackOf me) := by
  refine outside_push (m := m.setRendez r _) (.of_all ?_) h
  simp [Task.isAside, hname, Task.opens?]

theorem outside_sleepUntil (r : RendezName) (v : Nat) (n : Int) (count : Nat)
    (hname : name.isInner = false) (h : Outside (m.stackOf me)) :
    Outside ((m.sleepUntil me r name v n count).stackOf me) := by
  unfold sleepUntil
  split
  · exact outside_answer h
  · refine outside_push (.primitive (.of_all ?_)) h
    simp [Task.isAside, hname]

theorem outside_enter (label : String) (g : Guard) (body : List Instr)
    (h : Outside (m.stackOf me)) : Outside ((m.enter me label g body).stackOf me) := by
  unfold enter
  split
  · exact outside_report h
  · exact outside_push ((Outside.instrs body).append (.of_all rfl))
      (outside_report (outside_answer h))

theorem outside_drop (g : Guard) (h : Outside (m.stackOf me)) :
    Outside ((m.drop me g).stackOf me) := by
  refine outside_push ?_ h
  cases g with
  | cell i => exact .of_all rfl
  | shared l | exclusive l => exact .section_append rfl (.of_all rfl)

theorem outside_condSleepWith (k c : Nat) {after : List Task} (hafter : Outside after)
    (h : Outside (m.stackOf me)) : Outside ((m.condSleepWith me k c after).stackOf me) := by
  unfold condSleepWith
  split
  · exact outside_push (.aside rfl hafter) (outside_answer h)
  · exact outside_answer (m := m.note .wrongGuard) h

theorem outside_condSleep (k : Nat) (h : Outside (m.stackOf me)) :
    Outside ((m.condSleep me k).stackOf me) := by
  unfold condSleep
  split
  · exact outside_condSleepWith k _ .nil h
  · exact outside_answer h

theorem outside_condSleepWhile (k : Nat) (test : Test) (h : Outside (m.stackOf me)) :
    Outside ((m.condSleepWhile me k test).stackOf me) := by
  unfold condSleepWhile
  split
  · split
    · exact outside_panic h
    · rename_i memory _
      dsimp only
      split
      · exact outside_condSleepWith (m := { m with memory }) k _ (.of_all rfl) h
      · exact outside_answer (m := { m with memory }) h
  · exact outside_answer h

theorem outside_showCell (c : Nat) (h : Outside (m.stackOf me)) :
    Outside ((m.showCell me c).stackOf me) := by
  unfold showCell
  split
  · exact outside_answer h
  · exact outside_push (.of_all rfl) (outside_answer h)

theorem outside_showLock (l : LockName) (h : Outside (m.stackOf me)) :
    Outside ((m.showLock me l).stackOf me) := by
  unfold showLock
  split
  · exact outside_answer h
  · exact outside_push (.of_all rfl) h

/-- A task that is aside keeps its thread out of all critical sections. -/
theorem Outside.perform (h : Outside (m.stackOf me)) (hx : x.isAside = true)
    (hne : ∀ code, x = .spawn code → me ≠ m.sched.ids.next) :
    Outside ((m.perform me x).stackOf me) := by
  have hinner : ∀ {name : MutexName}, (!name.isInner) = true → name.isInner = false := by
    intro name hname
    simpa using hname
  cases hlocal : x.isLocal with
  | true =>
      cases local_perform hlocal hne with
      | extended he =>
          obtain ⟨new, hnew, hstack⟩ := he.stack
          rw [hstack]
          exact (Outside.of_all (List.all_eq_true.mpr fun y hy =>
            Task.isAside_of_isLocal (hnew y hy))).append h
      | panicked text _ hstack =>
          rw [hstack]
          exact h.cleanup text
  | false =>
      cases x with
      | instr i => exact outside_push (.tasks _ _ _ _ i) h
      | acquire name => exact outside_acquire (hinner hx) h
      | awaitOwner name => exact outside_awaitOwner (hinner hx) h
      | tryAcquire name => exact outside_answer (m := m.setMutex name _) h
      | release name => exact (stackOf_release name : (m.release me name).stackOf me = _).symm ▸ h
      | sleepOn r name => exact outside_sleepOn r (hinner hx) h
      | leave r => exact h
      | signal r =>
          show Outside ((m.signal r).stackOf me)
          unfold signal
          dsimp only
          split <;> exact h
      | broadcast r => exact h
      | sleepUntil r name v n count => exact outside_sleepUntil r v n count (hinner hx) h
      | enter label g body => exact outside_enter label g body h
      | drop g => exact outside_drop g h
      | checkDrop exclusive =>
          show Outside ((m.checkDrop me exclusive).stackOf me)
          unfold checkDrop
          split <;> exact h
      | condSleep k => exact outside_condSleep k h
      | condSleepWhile k test => exact outside_condSleepWhile k test h
      | showCell c => exact outside_showCell c h
      | showLock l => exact outside_showLock l h
      | exit | abort =>
          rw [stackOf_end me m rfl]
          split
          · exact .aside rfl h
          · exact h
      | drain =>
          rw [show m.perform me .drain = m.drain me from rfl, stackOf_drain]
          split
          · exact .aside rfl (.aside rfl h)
          · exact h
      | requestRead | recheckRead | requestWrite | recheckWrite | tryRead | tryWrite => cases hx
      | releaseRead | releaseWrite | releaseHeld | copyState | closeSection => cases hx
      | _ => cases hlocal

/-! ## Tasks of critical sections -/

/-- Nobody owns an inner mutex or waits for one. -/
def InnerFree (m : Machine) : Prop := ∀ l, m.mutexes.get (.inner l) = .free

/-- The thread owns the inner mutex of `l`. Nobody waits for it, and the others are free. -/
def InnerHeld (me : ThreadId) (l : LockName) (m : Machine) : Prop :=
  ∀ k, m.mutexes.get (.inner k) = if k = l then ⟨some me, []⟩ else .free

/-- Where the running thread stands. -/
inductive SecludedAt (me : ThreadId) (m : Machine) : Prop where
  | outside : Outside (m.stackOf me) → m.InnerFree → SecludedAt me m
  | inside {l : LockName} : Inside l (m.stackOf me) → m.InnerHeld me l → SecludedAt me m

/-- Only the stack of the thread and the mutexes count. -/
theorem SecludedAt.congr (h : m.SecludedAt me) (hthreads : m'.threads = m.threads)
    (hmutexes : m'.mutexes = m.mutexes) : m'.SecludedAt me := by
  have hstack : m'.stackOf me = m.stackOf me := by rw [stackOf, hthreads, stackOf]
  cases h with
  | outside hout hfree => exact .outside (hstack ▸ hout) (by rwa [InnerFree, hmutexes])
  | inside hin hheld => exact .inside (hstack ▸ hin) (by rwa [InnerHeld, hmutexes])

/-- A task other than those that take, hand over or try a mutex leaves the inner mutexes alone. -/
theorem InnerHeld.perform (h : m.InnerHeld me l) (hacquire : ∀ k, x ≠ .acquire (.inner k))
    (htry : ∀ k, x ≠ .tryAcquire (.inner k)) (hrelease : ∀ k, x ≠ .release (.inner k)) :
    (m.perform me x).InnerHeld me l := by
  intro k
  rcases mutex_perform me x m (.inner k) with ⟨hx, -⟩ | ⟨hx, -⟩ | ⟨hx, -⟩ | he
  · exact absurd hx (hacquire k)
  · exact absurd hx (htry k)
  · exact absurd hx (hrelease k)
  · exact he.trans (h k)

/-- The inner mutex is free when a section takes it. -/
theorem InnerFree.acquire (h : m.InnerFree) (me : ThreadId) (l : LockName) :
    (m.acquire me (.inner l)).InnerHeld me l ∧
      (m.acquire me (.inner l)).stackOf me = m.stackOf me := by
  have howner : (m.mutexes.get (.inner l)).owner = none := by
    rw [h l]
    rfl
  rcases acquire_cases me (.inner l) m with ⟨ho, -⟩ | ⟨-, hget, hstack⟩ | ⟨-, ho, -⟩
  · cases howner.symm.trans ho
  · refine ⟨fun k => ?_, hstack⟩
    split
    · rename_i hk
      rw [hk, hget, h l]
      rfl
    · rw [mutexes_acquire, Store.get_set, if_neg (by simpa using ‹k ≠ l›)]
      exact h k
  · exact absurd howner ho

/-- What the task `x` of a section of the lock `l` leaves on the stack, with `ts` below it. -/
inductive Closes (me : ThreadId) (l : LockName) (s : RwState) (x : Task) (ts : List Task) :
    List Task → Prop where
  | closes : Closes me l s x ts (.closeSection l :: ts)
  /-- The first section of `unlock`. -/
  | again (side : RwSide) :
      Closes me l s x ts (.closeSection l :: (Task.section l (side.release l) ++ ts))
  /-- A request that has to wait goes to sleep first. -/
  | sleeps (side : RwSide) : x = side.request l ∧ (s.request me side).1 = .queued ∨
        x = side.recheck l ∧ (s.recheck me side).1 = false →
      Closes me l s x ts (.sleepOn (side.sleepers l) (.inner l) :: side.recheck l :: ts)

theorem closes_request (side : RwSide) (l : LockName) (me : ThreadId) (m : Machine) :
    Closes me l (m.locks.get l) (side.request l) (m.stackOf me)
      ((m.perform me (side.request l)).stackOf me) := by
  rcases request_thread side l me m with ⟨-, hstack, -⟩ | ⟨hv, hstack, -⟩ | ⟨-, hstack, -⟩ <;>
    rw [hstack]
  · exact .closes
  · exact .sleeps side (.inl ⟨rfl, hv⟩)
  · exact .closes

theorem closes_recheck (side : RwSide) (l : LockName) (me : ThreadId) (m : Machine) :
    Closes me l (m.locks.get l) (side.recheck l) (m.stackOf me)
      ((m.perform me (side.recheck l)).stackOf me) := by
  rw [(recheck_thread side l me m).1]
  split
  · exact .closes
  · rename_i hv
    exact .sleeps side (.inr ⟨rfl, by simpa using hv⟩)

/-- The tasks of a section that is not the one of a request. -/
theorem closes_push {n : Machine} {s : RwState} (hn : n.stackOf me = m.stackOf me) :
    Closes me l s x (m.stackOf me) ((n.push me [.closeSection l]).stackOf me) := by
  rw [stackOf_push, hn]
  exact .closes

theorem closes_release (side : RwSide) (l : LockName) (me : ThreadId) (m : Machine) :
    Closes me l (m.locks.get l) (side.release l) (m.stackOf me)
      ((m.perform me (side.release l)).stackOf me) := by
  cases hout : (m.locks.get l).release me side with
  | some out =>
      rw [perform_release_of_some hout]
      refine closes_push ?_
      rw [stackOf_answer]
      cases out.1 <;> rfl
  | none =>
      obtain ⟨notice, he⟩ := perform_release_of_none hout
      rw [he]
      exact closes_push (stackOf_answer me _ (m.note _))

theorem closes_perform (hx : x.opens? = some l) (me : ThreadId) (m : Machine) :
    Closes me l (m.locks.get l) x (m.stackOf me) ((m.perform me x).stackOf me) := by
  cases x <;> cases hx
  case requestRead => exact closes_request .read l me m
  case recheckRead => exact closes_recheck .read l me m
  case requestWrite => exact closes_request .write l me m
  case recheckWrite => exact closes_recheck .write l me m
  case tryRead => exact closes_push (stackOf_answer me _ (m.setLock l _))
  case tryWrite => exact closes_push (stackOf_answer me _ (m.setLock l _))
  case releaseRead => exact closes_release .read l me m
  case releaseWrite => exact closes_release .write l me m
  case releaseHeld =>
    show Closes _ _ _ _ _ ((m.releaseHeld me l).stackOf me)
    rw [releaseHeld, stackOf_push]
    by_cases hw : (m.locks.get l).writer = some me
    · rw [if_pos (by simpa using hw)]
      exact .again .write
    · rw [if_neg (by simpa using hw)]
      exact .again .read
  case copyState => exact closes_push (stackOf_answer me _ m)

/-- A thread in a section closes it, or goes to sleep in it. -/
theorem Closes.inside {s : RwState} {us : List Task} (h : Closes me l s x ts us)
    (hts : Outside ts) : Inside l us := by
  cases h with
  | closes => exact .close hts
  | again side => exact .close (.entry (by cases side <;> rfl) hts)
  | sleeps side => exact .sleep (by cases side <;> rfl) hts

/-- What the tasks inside a section do: the thread stays in the section until it hands the inner
mutex over, and the check of the state finds no fault. -/
theorem Inside.perform (h : Inside l (x :: ts)) (hheld : m.InnerHeld me l)
    (hstack : m.stackOf me = ts) (hregular : (m.locks.get l).Regular) :
    (m.perform me x).SecludedAt me := by
  cases h with
  | opening hx hout =>
      have hkept : (m.perform me x).InnerHeld me l :=
        hheld.perform (by rintro k rfl; cases hx) (by rintro k rfl; cases hx)
          (by rintro k rfl; cases hx)
      exact .inside ((closes_perform hx me m).inside (hstack ▸ hout)) hkept
  | close hout =>
      have hok : (m.locks.get l).violation? = none :=
        RwState.violation?_eq_none_iff.mpr hregular.isConsistent
      refine .inside ?_ (hheld.perform (by simp) (by simp) (by simp))
      show Inside l ((m.closeSection me l).stackOf me)
      rw [closeSection, hok]
      dsimp only
      rw [stackOf_push, hstack]
      exact .release hout
  | release hout =>
      refine .outside ?_ fun k => ?_
      · rw [show m.perform me (.release (.inner l)) = m.release me (.inner l) from rfl,
          stackOf_release, hstack]
        exact hout
      · show (m.release me (.inner l)).mutexes.get (.inner k) = .free
        rw [release_eq_setMutex_free (by rw [hheld l, if_pos rfl])]
        show (m.mutexes.set _ _).get _ = _
        rw [Store.get_set]
        split
        · rfl
        · rename_i hk
          rw [hheld k, if_neg fun he => hk (congrArg MutexName.inner he)]
  | sleep hy hout =>
      refine .inside ?_ (hheld.perform (by simp) (by simp) (by simp))
      show Inside l ((m.sleepOn me _ (.inner l)).stackOf me)
      rw [sleepOn, stackOf_push, show (m.setRendez _ _).stackOf me = m.stackOf me from rfl, hstack]
      exact .release (.aside rfl (.aside rfl (.entry hy hout)))

theorem turn_perform_of_not_isAside (me : ThreadId) (m : Machine) (hx : x.isAside = false) :
    (m.perform me x).sched.turn = m.sched.turn := by
  have hruns : x.changesRun = false := by cases x <;> first | rfl | cases hx
  exact (perform_gentle hruns).1.quiet.turn

/-- Every task leaves the running thread where it may be, and outside of all sections if it gives
the turn away. -/
theorem SecludedAt.perform (h : m.SecludedAt me) (hstack : m.stackOf me = x :: ts)
    (hregular : ∀ l, (m.locks.get l).Regular)
    (hne : ∀ code, x = .spawn code → me ≠ m.sched.ids.next) :
    ((m.setStack me ts).perform me x).SecludedAt me ∧
      (((m.setStack me ts).perform me x).sched.turn = m.sched.turn ∨
        Outside (((m.setStack me ts).perform me x).stackOf me) ∧
          ((m.setStack me ts).perform me x).InnerFree) := by
  have hts : (m.setStack me ts).stackOf me = ts := stackOf_onThread ..
  cases h with
  | outside hout hfree =>
      rw [hstack] at hout
      have hfree : (m.setStack me ts).InnerFree := hfree
      rcases hout.cases_cons with ⟨hx, hout⟩ | ⟨l, y, us, rfl, rfl, hy, hout⟩
      · have hsafe : Outside (((m.setStack me ts).perform me x).stackOf me) ∧
            ((m.setStack me ts).perform me x).InnerFree :=
          ⟨Outside.perform (m := m.setStack me ts) (by rwa [hts]) hx hne,
            fun l => (mutex_perform_of_isAside me _ hx l).trans (hfree l)⟩
        exact ⟨.outside hsafe.1 hsafe.2, .inr hsafe⟩
      · obtain ⟨hheld, hstays⟩ := hfree.acquire me l
        refine ⟨.inside ?_ hheld, .inl (turn_perform_of_not_isAside me _ rfl)⟩
        show Inside l (((m.setStack me (y :: us)).acquire me (.inner l)).stackOf me)
        rw [hstays, hts]
        exact .opening hy hout
  | inside hin hheld =>
      rw [hstack] at hin
      exact ⟨Inside.perform (m := m.setStack me ts) hin hheld hts (hregular _),
        .inl (turn_perform_of_not_isAside me _ hin.not_isAside)⟩

/-! ## Runs -/

/-- Only the running thread is in a critical section. -/
structure Secluded (m : Machine) : Prop where
  waiting : ∀ t, m.sched.turn ≠ .held t → Outside (m.stackOf t)
  running : ∀ t, m.sched.turn = .held t → m.SecludedAt t
  free : (∀ t, m.sched.turn ≠ .held t) → m.InnerFree

theorem Coded.outside (h : m.Coded t) : Outside (m.stackOf t) := by
  obtain ⟨code, hstack⟩ := h
  rw [hstack]
  exact (Outside.instrs code).append (.of_all rfl)

theorem secluded_machine (p : Program) : p.machine.Secluded := by
  have hout : ∀ t, Outside (p.machine.stackOf t) := by
    intro t
    show Outside ((Store.empty.set _ _ : Store ThreadId Thread).get t).stack
    rw [Store.get_set]
    split
    · exact (Outside.instrs _).append (.of_all rfl)
    · exact .nil
  exact {
    waiting := fun t _ => hout t
    running := fun t _ => .outside (hout t) fun _ => rfl
    free := fun _ _ => rfl }

theorem Secluded.perform (h : m.Secluded) (hr : Reaches p.machine m)
    (hids : m.sched.ids.handed ≤ UInt64.size) (hturn : m.sched.turn = .held me)
    (hstack : m.stackOf me = x :: ts)
    (hids' : ((m.setStack me ts).perform me x).sched.ids.handed ≤ UInt64.size) :
    ((m.setStack me ts).perform me x).Secluded := by
  have hs := hr.sound hids
  obtain ⟨hat, hgives⟩ := (h.running me hturn).perform hstack (hr.lockQueues hids).regular
    (by rintro code rfl; exact hs.ne_next code hturn hids')
  have hothers : ∀ t, t ≠ me → Outside (((m.setStack me ts).perform me x).stackOf t) := by
    intro t hne
    rcases (hs.spares hturn hstack hids').stack t hne with he | ⟨-, hcoded⟩
    · rw [he]
      exact h.waiting t (by rw [hturn]; simpa using hne.symm)
    · exact hcoded.outside
  rcases (perform_moves me x (m.setStack me ts)).turn_eq_or_isFree with hsame | hfree
  · have hsame : ((m.setStack me ts).perform me x).sched.turn = .held me := hsame.trans hturn
    refine ⟨fun t ht => hothers t ?_, fun t ht => ?_, fun hnone => absurd hsame (hnone me)⟩
    · rintro rfl
      exact ht hsame
    · rw [hsame] at ht
      exact Turn.held.inj ht ▸ hat
  · obtain ⟨hout, hinner⟩ := hgives.resolve_left fun he => hfree.2 me (he.trans hturn)
    refine ⟨fun t _ => ?_, fun t ht => absurd ht (hfree.2 t), fun _ => hinner⟩
    by_cases hne : t = me
    · exact hne ▸ hout
    · exact hothers t hne

/-- At every moment of a run the inner mutexes are free, but for the one of the section that the
running thread is in. -/
theorem Reaches.secluded (h : Reaches p.machine m) (hids : m.sched.ids.handed ≤ UInt64.size) :
    m.Secluded := by
  obtain ⟨τ, hτ⟩ := h.observed fun _ => ([] : List Unit)
  refine hτ.keeps (P := fun _ m => m.Secluded) hids (secluded_machine p)
    (fun _ _ _ _ _ hm hr hh hturn hstack hids' => hm.perform hr hh hturn hstack hids') ?_ ?_
    fun _ _ _ hm => { hm with running := fun t ht => (hm.running t ht).congr rfl rfl }
  · intro _ m s hm _ _ hturn _
    have hout : ∀ t, Outside (m.stackOf t) := fun t => hm.waiting t (hturn t)
    exact ⟨fun t _ => hout t, fun t _ => .outside (hout t) (hm.free hturn),
      fun _ => hm.free hturn⟩
  · intro _ m s hm _ hq
    exact ⟨fun t ht => hm.waiting t (hq.turn ▸ ht),
      fun t ht => (hm.running t (hq.turn ▸ ht)).congr rfl rfl,
      fun ht => hm.free (hq.turn ▸ ht)⟩

/-- Before a section all inner mutexes are free. -/
theorem Reaches.innerFree (h : Reaches p.machine m) (hids : m.sched.ids.handed ≤ UInt64.size)
    (hturn : m.sched.turn = .held me) (hstack : m.stackOf me = .acquire (.inner l) :: ts) :
    m.InnerFree := by
  cases (h.secluded hids).running me hturn with
  | outside _ hfree => exact hfree
  | inside hin _ =>
      rw [hstack] at hin
      cases hin with
      | opening hx => cases hx

end Machine

end Baton
