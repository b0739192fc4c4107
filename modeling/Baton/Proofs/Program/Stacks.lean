import Baton.Proofs.Program.Objects
import Baton.Proofs.Program.Outcomes

/-!
# Machine: what stands on a stack

A thread that is registered somewhere has a task on its stack with which it comes back to see
whether its wait is over. Such a task stands at the top or a few places below it, and no other task
than the one that registers the thread puts it there.
-/

namespace Baton

/-- Whether the task brings a registered thread back to what it is registered with. -/
def Task.isReturn : Task → Bool
  | awaitOwner _ | leave _ | recheckRead _ | recheckWrite _ => true
  | _ => false

/-- Whether the task may stand above a second look at a lock. -/
def Task.isDoze : Task → Bool
  | acquire _ | awaitOwner _ | release _ | suspend | leave _ | sleepOn .. => true
  | _ => false

/-- Whether the task may register its thread with a mutex, a rendezvous or a lock. -/
def Task.registers : Task → Bool
  | acquire _ | sleepOn .. | requestRead _ | requestWrite _ => true
  | _ => false

/-- The task that brings a thread back which this task has registered. -/
def Task.comeback? : Task → Option Task
  | acquire name | awaitOwner name => some (awaitOwner name)
  | sleepOn r _ => some (leave r)
  | requestRead l | recheckRead l => some (recheckRead l)
  | requestWrite l | recheckWrite l => some (recheckWrite l)
  | _ => none

theorem Task.isReturn_of_isRecheck {x : Task} (h : x.isRecheck = true) : x.isReturn = true := by
  cases x <;> first | rfl | cases h

theorem RwSide.isRecheck_recheck (side : RwSide) (l : LockName) :
    (side.recheck l).isRecheck = true := by
  cases side <;> rfl

theorem Task.not_isPlain_of_isReturn {x : Task} (h : x.isReturn = true) : x.isPlain = false := by
  cases x <;> first | rfl | cases h

theorem Task.not_isLocal_of_isReturn {x : Task} (h : x.isReturn = true) : x.isLocal = false := by
  cases x <;> first | rfl | cases h

namespace Sched

theorem Quiet.isLive {s s' : Sched} (h : Quiet s s') (t : ThreadId) :
    s'.isLive t = s.isLive t := by
  induction h with
  | refl => rfl
  | same _ hs ih => rw [← ih, isLive_eq, hs.standing, ← isLive_eq]
  | wakeup id _ ih => simpa using ih

end Sched

namespace Machine

open Sched (SameWaits Quiet)

variable {p : Program} {me t : ThreadId} {m m' : Machine} {ts : List Task} {x y : Task}
  {name : MutexName} {r : RendezName}

/-- What holds at the start, is kept by the tasks, and does not depend on the scheduler but for the
threads that are live, holds at every moment of a run. -/
theorem Reaches.keeps {P : Machine → Prop} (h : Reaches p.machine m)
    (hids : m.sched.ids.handed ≤ UInt64.size) (start : P p.machine)
    (perform : ∀ m me x ts, P m → Reaches p.machine m → m.sched.ids.handed ≤ UInt64.size →
      m.sched.turn = .held me → m.stackOf me = x :: ts →
      ((m.setStack me ts).perform me x).sched.ids.handed ≤ UInt64.size →
      P ((m.setStack me ts).perform me x))
    (sched : ∀ m s, P m → (∀ t, m.sched.isLive t = true → s.isLive t = true) →
      P { m with sched := s })
    (outage : ∀ m e, P m → P (m.setOutage e)) : P m := by
  obtain ⟨τ, hτ⟩ := h.observed fun _ => ([] : List Unit)
  exact hτ.keeps (P := fun _ => P) hids start (fun _ => perform)
    (fun _ m s hm _ _ _ hs => sched m s hm (Sched.spares_search (b := fun _ => True) hs).live)
    (fun _ m s hm hs _ => sched m s hm fun t => (hs.live t).trans) fun _ => outage

theorem Sound.onCourse (h : m.Sound) (t : ThreadId) : Course t m (m.stackOf t) := by
  by_cases ht : m.sched.turn = .held t
  · exact h.course t ht
  · exact .parked (h.parked t ht)

/-- The thread that is started next is not the running one. -/
theorem Sound.ne_next (h : m.Sound) (code : Nat) (ht : m.sched.turn = .held me)
    (hids : (m.perform me (.spawn code)).sched.ids.handed ≤ UInt64.size) :
    me ≠ m.sched.ids.next := by
  intro he
  have hnew := h.coherent.isLive_next hids
  have hlive := Sched.isLive_of_isRunning (h.coherent.isRunning_of_held ht)
  exact Bool.false_ne_true (hnew.symm.trans (he ▸ hlive))

/-! ## Threads that are not live -/

/-- The end of a thread leaves nothing on its stack, or the wait for the other threads. -/
theorem stackOf_finish (me : ThreadId) (o : Outcome) (m : Machine) :
    (m.finish me o).stackOf me = if me = m.sched.main then .drain :: m.stackOf me else
      m.stackOf me := by
  unfold finish
  split
  · exact stackOf_push me _ _
  · rfl

theorem stackOf_abort (me : ThreadId) (text : String) (m : Machine) :
    (m.abort me text).stackOf me = if me = m.sched.main then .drain :: m.stackOf me else
      m.stackOf me := by
  unfold abort
  split
  · rename_i hme
    rw [stackOf_finish, if_pos hme]
  · rename_i hme
    exact (stackOf_finish me _ (m.note _)).trans (if_neg hme)

theorem stackOf_end (me : ThreadId) (m : Machine) (hx : x.isEnd = true) :
    (m.perform me x).stackOf me = if me = m.sched.main then .drain :: m.stackOf me else
      m.stackOf me := by
  cases x with
  | exit => exact stackOf_finish me _ m
  | abort text => exact stackOf_abort me text m
  | _ => cases hx

theorem stackOf_drain (me : ThreadId) (m : Machine) : (m.drain me).stackOf me =
    if 1 < m.sched.live then .suspend :: .drain :: m.stackOf me else m.stackOf me := by
  unfold drain
  split
  · exact stackOf_push me _ _
  · rfl

/-- Only the end of a thread and the wait for the others take a thread out of the scheduler. Nothing
is put on its stack then. -/
theorem leaves_of_dead (hlive : m.sched.isLive me = true)
    (hdead : (m.perform me x).sched.isLive me = false) :
    (x.isEnd = true ∨ x = .drain) ∧ (m.perform me x).stackOf me = m.stackOf me := by
  have hstays : (m.perform me x).sched.isLive me = true → False := fun he =>
    Bool.false_ne_true (hdead.symm.trans he)
  cases hx : x.changesRun with
  | false => exact (hstays (((perform_gentle hx).1.quiet.isLive me).trans hlive)).elim
  | true =>
      cases x with
      | suspend => exact (hstays (((Sched.sameWaits_stop me m.sched).live me).trans hlive)).elim
      | pause =>
          have hpaused : Sched.Spares (fun _ => True) m.sched (m.sched.yieldNow me) :=
            Sched.spares_yieldNow me m.sched
          exact (hstays (hpaused.live me hlive)).elim
      | spawn code =>
          refine (hstays ?_).elim
          show m.sched.spawn.2.isLive me = true
          rw [(Sched.restands_spawn m.sched).isLive]
          split
          · rfl
          · exact hlive
      | exit =>
          have hne : me ≠ m.sched.main := fun hme => by
            rw [show m.perform me .exit = m.finish me _ from rfl, finish, if_pos hme] at hstays
            exact hstays hlive
          exact ⟨.inl rfl, (stackOf_finish me _ m).trans (if_neg hne)⟩
      | abort text =>
          have hne : me ≠ m.sched.main := fun hme => by
            rw [show m.perform me (.abort text) = m.abort me text from rfl, abort, if_pos hme,
              finish, if_pos hme] at hstays
            exact hstays hlive
          exact ⟨.inl rfl, (stackOf_abort me text m).trans (if_neg hne)⟩
      | drain =>
          have hlast : ¬ 1 < m.sched.live := fun hmany => by
            rw [show m.perform me .drain = m.drain me from rfl, drain, if_pos hmany] at hstays
            exact hstays hlive
          exact ⟨.inr rfl, (stackOf_drain me m).trans (if_neg hlast)⟩
      | _ => cases hx

/-- A thread that leaves the scheduler has only plain tasks before it. -/
theorem plain_perform_of_dead (hcourse : Course me m (x :: ts)) (hts : m.stackOf me = ts)
    (hlive : m.sched.isLive me = true) (hdead : (m.perform me x).sched.isLive me = false) :
    (m.perform me x).Plain me := by
  obtain ⟨hkind, hstack⟩ := leaves_of_dead hlive hdead
  have hchanges : x.changesRun = true ∧ x ≠ .suspend := by
    rcases hkind with hend | rfl
    · cases x with
      | exit | abort => exact ⟨rfl, by simp⟩
      | _ => cases hend
    · exact ⟨rfl, by simp⟩
  intro y hy
  rw [hstack, hts] at hy
  exact hcourse.plain_of_changesRun hchanges.1 hchanges.2 y hy

/-- A thread that is not live has only plain tasks before it. -/
theorem Reaches.plain_of_dead (h : Reaches p.machine m) (hids : m.sched.ids.handed ≤ UInt64.size) :
    ∀ t, m.sched.isLive t = false → m.Plain t := by
  refine h.keeps (P := fun m => ∀ t, m.sched.isLive t = false → m.Plain t) hids
    (fun t _ => plain_machine p t) ?_ ?_ fun _ _ hm => hm
  · intro m me x ts hm hr hh hturn hstack hids t hdead
    have hs := hr.sound hh
    have hspares := hs.spares hturn hstack hids
    by_cases hne : t = me
    · subst hne
      exact plain_perform_of_dead (m := m.setStack t ts)
        ((hstack ▸ hs.course t hturn).mono (fun _ hk => hk) (fun _ hp => hp) rfl)
        (stackOf_onThread ..) (Sched.isLive_of_isRunning (hs.coherent.isRunning_of_held hturn))
        hdead
    · rcases hspares.stack t hne with hsame | ⟨-, hcoded⟩
      · have hwas : m.sched.isLive t = false := by
          by_contra hlive
          rw [hspares.live t hne (by simpa using hlive)] at hdead
          cases hdead
        have hplain := hm t hwas
        unfold Plain at hplain ⊢
        rwa [hsame]
      · exact hcoded.plain
  · intro m s hm hlive t hdead
    refine hm t ?_
    by_contra hwas
    exact Bool.false_ne_true (hdead.symm.trans (hlive t (by simpa using hwas)))

/-- The stack of a thread is the same, or it holds only plain tasks before and after. -/
def StackKept (t : ThreadId) (m m' : Machine) : Prop :=
  m'.stackOf t = m.stackOf t ∨ m.Plain t ∧ m'.Plain t

theorem StackKept.mem_iff (h : StackKept t m m') (hy : y.isPlain = false) :
    y ∈ m'.stackOf t ↔ y ∈ m.stackOf t := by
  rcases h with hsame | ⟨hplain, hplain'⟩
  · rw [hsame]
  · have hnot : ∀ {ts : List Task}, (∀ z ∈ ts, z.isPlain = true) → y ∉ ts :=
      fun hall hmem => Bool.false_ne_true (hy.symm.trans (hall y hmem))
    exact iff_of_false (hnot hplain') (hnot hplain)

theorem StackKept.eq_of_mem (h : StackKept t m m') (hy : y.isPlain = false)
    (hmem : y ∈ m.stackOf t) : m'.stackOf t = m.stackOf t :=
  h.resolve_right fun ⟨hplain, _⟩ => Bool.false_ne_true (hy.symm.trans (hplain y hmem))

/-- The running thread leaves the stacks of the others alone, unless it starts one. -/
theorem Reaches.stackKept (h : Reaches p.machine m) (hids : m.sched.ids.handed ≤ UInt64.size)
    (hturn : m.sched.turn = .held me) (hstack : m.stackOf me = x :: ts)
    (hids' : ((m.setStack me ts).perform me x).sched.ids.handed ≤ UInt64.size) (hne : t ≠ me) :
    StackKept t m ((m.setStack me ts).perform me x) :=
  (((h.sound hids).spares hturn hstack hids').stack t hne).imp_right
    fun ⟨hdead, hcoded⟩ => ⟨h.plain_of_dead hids t hdead, hcoded.plain⟩

/-! ## Where the tasks stand that bring a thread back -/

theorem not_mem_of_plain (hy : y.isPlain = false) (h : ∀ z ∈ ts, z.isPlain = true) : y ∉ ts :=
  fun hmem => Bool.false_ne_true (hy.symm.trans (h y hmem))

theorem Tail.isRecheck_of_mem (h : Tail t m ts) (hy : y.isPlain = false) (hmem : y ∈ ts) :
    y.isRecheck = true ∧ ∃ us, ts = y :: us ∧ ∀ z ∈ us, z.isPlain = true := by
  cases h with
  | plain hall => exact absurd hmem (not_mem_of_plain hy hall)
  | @recheck x us hr _ hall =>
      obtain rfl := (List.mem_cons.mp hmem).resolve_right (not_mem_of_plain hy hall)
      exact ⟨hr, us, rfl, hall⟩

theorem Tail.awaitOwner_not_mem (h : Tail t m ts) : .awaitOwner name ∉ ts := fun hmem => by
  cases (h.isRecheck_of_mem rfl hmem).1

theorem Tail.leave_not_mem (h : Tail t m ts) : .leave r ∉ ts := fun hmem => by
  cases (h.isRecheck_of_mem rfl hmem).1

theorem Parked.awaitOwner_of_mem (h : Parked t m ts) (hmem : .awaitOwner name ∈ ts) :
    ∃ us, ts = .awaitOwner name :: us := by
  cases h with
  | tail ht => exact absurd hmem ht.awaitOwner_not_mem
  | @wait x us hw _ hall =>
      obtain rfl := (List.mem_cons.mp hmem).resolve_right (not_mem_of_plain rfl hall)
      cases hw
  | acquire ht =>
      exact absurd ((List.mem_cons.mp hmem).resolve_left (by simp)) ht.awaitOwner_not_mem
  | @awaitOwner n us _ ht =>
      rcases List.mem_cons.mp hmem with he | hmem
      · cases he
        exact ⟨us, rfl⟩
      · exact absurd hmem ht.awaitOwner_not_mem
  | leave ht =>
      have hrest := (List.mem_cons.mp hmem).resolve_left (by simp)
      exact absurd ((List.mem_cons.mp hrest).resolve_left (by simp)) ht.awaitOwner_not_mem

/-- A thread comes back to a mutex at once, or after it has suspended. -/
theorem Course.awaitOwner_of_mem (h : Course t m ts) (hmem : .awaitOwner name ∈ ts) :
    ∃ us, ts = .awaitOwner name :: us ∨ ts = .suspend :: .awaitOwner name :: us := by
  cases h with
  | parked hp => exact (hp.awaitOwner_of_mem hmem).imp fun _ => .inl
  | suspend _ _ hp =>
      obtain ⟨us, rfl⟩ := hp.awaitOwner_of_mem ((List.mem_cons.mp hmem).resolve_left (by simp))
      exact ⟨us, .inr rfl⟩
  | release _ ht =>
      simp only [List.mem_cons, reduceCtorEq, false_or] at hmem
      exact absurd hmem ht.awaitOwner_not_mem
  | sleepReader _ _ hall =>
      simp only [List.mem_cons, reduceCtorEq, false_or] at hmem
      exact absurd hmem (not_mem_of_plain rfl hall)
  | sleepWriter _ _ hall =>
      simp only [List.mem_cons, reduceCtorEq, false_or] at hmem
      exact absurd hmem (not_mem_of_plain rfl hall)

theorem Parked.leave_of_mem (h : Parked t m ts) (hmem : .leave r ∈ ts) :
    ∃ name us, ts = .leave r :: .acquire name :: us := by
  cases h with
  | tail ht => exact absurd hmem ht.leave_not_mem
  | @wait x us hw _ hall =>
      obtain rfl := (List.mem_cons.mp hmem).resolve_right (not_mem_of_plain rfl hall)
      cases hw
  | acquire ht => exact absurd ((List.mem_cons.mp hmem).resolve_left (by simp)) ht.leave_not_mem
  | awaitOwner _ ht =>
      exact absurd ((List.mem_cons.mp hmem).resolve_left (by simp)) ht.leave_not_mem
  | @leave k name us ht =>
      rcases List.mem_cons.mp hmem with he | hrest
      · cases he
        exact ⟨name, us, rfl⟩
      · exact absurd ((List.mem_cons.mp hrest).resolve_left (by simp)) ht.leave_not_mem

/-- A thread leaves a rendezvous at once, after it has suspended, or after it has released the mutex
before that. -/
theorem Course.leave_of_mem (h : Course t m ts) (hmem : .leave r ∈ ts) :
    ∃ name us, ts = .leave r :: .acquire name :: us ∨
      ts = .suspend :: .leave r :: .acquire name :: us ∨
      ∃ name', ts = .release name' :: .suspend :: .leave r :: .acquire name :: us := by
  cases h with
  | parked hp =>
      obtain ⟨name, us, he⟩ := hp.leave_of_mem hmem
      exact ⟨name, us, .inl he⟩
  | suspend _ _ hp =>
      obtain ⟨name, us, rfl⟩ := hp.leave_of_mem ((List.mem_cons.mp hmem).resolve_left (by simp))
      exact ⟨name, us, .inr (.inl rfl)⟩
  | @release name' back k us _ ht =>
      simp only [List.mem_cons, reduceCtorEq, false_or, Task.leave.injEq] at hmem
      obtain rfl := hmem.resolve_right ht.leave_not_mem
      exact ⟨back, us, .inr (.inr ⟨name', rfl⟩)⟩
  | sleepReader _ _ hall =>
      simp only [List.mem_cons, reduceCtorEq, false_or] at hmem
      exact absurd hmem (not_mem_of_plain rfl hall)
  | sleepWriter _ _ hall =>
      simp only [List.mem_cons, reduceCtorEq, false_or] at hmem
      exact absurd hmem (not_mem_of_plain rfl hall)

/-- A second look is the next task, or stands below tasks of a sleep. -/
theorem Course.recheck_of_mem (h : Course t m (x :: ts)) (hy : y.isRecheck = true)
    (hmem : y ∈ x :: ts) : (x = y ∧ ∀ z ∈ ts, z.isPlain = true) ∨ (x.isDoze = true ∧ y ∈ ts) := by
  have hplain : y.isPlain = false := by cases y <;> first | rfl | cases hy
  by_cases hx : x = y
  · subst hx
    refine .inl ⟨rfl, ?_⟩
    cases h with
    | parked hp =>
        cases hp with
        | tail ht =>
            obtain ⟨-, us, he, hall⟩ := ht.isRecheck_of_mem hplain List.mem_cons_self
            obtain rfl := (List.cons.inj he).2
            exact hall
        | wait _ _ hall => exact hall
        | _ => cases hy
    | _ => cases hy
  · have hin := (List.mem_cons.mp hmem).resolve_left (Ne.symm hx)
    refine .inr ⟨?_, hin⟩
    cases h with
    | parked hp =>
        cases hp with
        | tail ht =>
            obtain ⟨-, us, he, -⟩ := ht.isRecheck_of_mem hplain hmem
            exact absurd (List.cons.inj he).1 hx
        | wait _ _ hall => exact absurd hin (not_mem_of_plain hplain hall)
        | _ => rfl
    | _ => rfl

/-- Apart from the tasks of a sleep, what stands below the next task is plain. -/
theorem Course.plain_of_not_isDoze (h : Course t m (x :: ts)) (hx : x.isDoze = false) :
    (x.isPlain = true ∨ x.isWait = true ∨ x.isRecheck = true) ∧ ∀ y ∈ ts, y.isPlain = true := by
  cases h with
  | parked hp =>
      cases hp with
      | tail ht =>
          cases ht with
          | plain hall =>
              exact ⟨.inl (hall x List.mem_cons_self),
                fun y hy => hall y (List.mem_cons_of_mem x hy)⟩
          | recheck hr _ hall => exact ⟨.inr (.inr hr), hall⟩
      | wait hw _ hall => exact ⟨.inr (.inl hw), hall⟩
      | _ => cases hx
  | _ => cases hx

/-- Below the request for a mutex, and below the wait for it, nothing else is waited for. -/
theorem Course.tail_of_acquire (h : Course t m (x :: ts))
    (hx : x = .acquire name ∨ x = .awaitOwner name) : Tail t m ts := by
  cases h with
  | parked hp =>
      cases hp with
      | tail ht =>
          cases ht with
          | plain hall => exact .plain fun y hy => hall y (List.mem_cons_of_mem x hy)
          | recheck hr => rcases hx with rfl | rfl <;> cases hr
      | wait hw => rcases hx with rfl | rfl <;> cases hw
      | acquire ht => exact ht
      | awaitOwner _ ht => exact ht
      | leave => rcases hx with hx | hx <;> cases hx
  | _ => rcases hx with hx | hx <;> cases hx

/-! ## What a task puts on the stack -/

variable {l : LockName} {side : RwSide}

/-- A request ends its section, unless it is queued and sleeps. -/
theorem request_thread (side : RwSide) (l : LockName) (me : ThreadId) (m : Machine) :
    (((m.locks.get l).request me side).1 = .granted ∧
      (m.perform me (side.request l)).stackOf me = .closeSection l :: m.stackOf me ∧
      (m.perform me (side.request l)).replyOf me = .null) ∨
    (((m.locks.get l).request me side).1 = .queued ∧
      (m.perform me (side.request l)).stackOf me =
        .sleepOn (side.sleepers l) (.inner l) :: side.recheck l :: m.stackOf me ∧
      (m.perform me (side.request l)).replyOf me = .null) ∨
    (((m.locks.get l).request me side).1 = .refused ∧
      (m.perform me (side.request l)).stackOf me = .closeSection l :: m.stackOf me ∧
      (m.perform me (side.request l)).replyOf me = .fault .wouldDeadlock) := by
  have hclose : ∀ (n : Machine) (r : Reply) (ts : List Task),
      ((n.answer me r).push me ts).stackOf me = ts ++ n.stackOf me ∧
        ((n.answer me r).push me ts).replyOf me = r := fun n r ts =>
    ⟨by rw [stackOf_push, stackOf_answer], (replyOf_push me ts _).trans (replyOf_answer me r n)⟩
  cases side with
  | read =>
      show _ ∧ (m.requestRead me l).stackOf me = _ ∧ (m.requestRead me l).replyOf me = _ ∨
        _ ∧ (m.requestRead me l).stackOf me = _ ∧ (m.requestRead me l).replyOf me = _ ∨
        _ ∧ (m.requestRead me l).stackOf me = _ ∧ (m.requestRead me l).replyOf me = _
      rw [show (m.locks.get l).request me .read = (m.locks.get l).requestRead me from rfl]
      unfold requestRead
      dsimp only
      split
      · exact .inl ⟨‹_›, hclose ..⟩
      · exact .inr (.inl ⟨‹_›, hclose ..⟩)
      · exact .inr (.inr ⟨‹_›, hclose ..⟩)
  | write =>
      show _ ∧ (m.requestWrite me l).stackOf me = _ ∧ (m.requestWrite me l).replyOf me = _ ∨
        _ ∧ (m.requestWrite me l).stackOf me = _ ∧ (m.requestWrite me l).replyOf me = _ ∨
        _ ∧ (m.requestWrite me l).stackOf me = _ ∧ (m.requestWrite me l).replyOf me = _
      rw [show (m.locks.get l).request me .write = (m.locks.get l).requestWrite me from rfl]
      unfold requestWrite
      dsimp only
      split
      · exact .inl ⟨‹_›, hclose ..⟩
      · exact .inr (.inl ⟨‹_›, hclose ..⟩)
      · exact .inr (.inr ⟨‹_›, hclose ..⟩)

/-- A second look ends the section, or the thread sleeps again. -/
theorem recheck_thread (side : RwSide) (l : LockName) (me : ThreadId) (m : Machine) :
    (m.perform me (side.recheck l)).stackOf me =
        (if ((m.locks.get l).recheck me side).1 then [.closeSection l] else
          [.sleepOn (side.sleepers l) (.inner l), side.recheck l]) ++ m.stackOf me ∧
      (m.perform me (side.recheck l)).replyOf me = m.replyOf me := by
  cases side with
  | read => exact ⟨stackOf_push me _ (m.setLock l _), replyOf_push me _ (m.setLock l _)⟩
  | write => exact ⟨stackOf_push me _ (m.setLock l _), replyOf_push me _ (m.setLock l _)⟩

/-- A plain task, or one that waits for something else, brings its thread back nowhere unless it
registers the thread. -/
theorem mem_of_isReturn (hx : x.isPlain = true ∨ x.isWait = true) (hregisters : x.registers = false)
    (hne : ∀ code, x = .spawn code → me ≠ m.sched.ids.next) (hy : y.isReturn = true)
    (hmem : y ∈ (m.perform me x).stackOf me) : y ∈ m.stackOf me := by
  have hplain := Task.not_isPlain_of_isReturn hy
  have hnot : ∀ {ts : List Task}, (∀ z ∈ ts, z.isLocal = true) → y ∉ ts := fun hall hmem =>
    Bool.false_ne_true ((Task.not_isLocal_of_isReturn hy).symm.trans (hall y hmem))
  cases hlocal : x.isLocal with
  | true =>
      cases local_perform hlocal hne with
      | extended h =>
          obtain ⟨new, hnew, hstack⟩ := h.stack
          rw [hstack] at hmem
          exact (List.mem_append.mp hmem).resolve_left (hnot hnew)
      | panicked text _ hstack =>
          rw [hstack] at hmem
          have habort : y ∉ [Task.abort text] := by
            rw [List.mem_singleton]
            rintro rfl
            cases hy
          exact (List.mem_filter.mp ((List.mem_append.mp hmem).resolve_right habort)).1
  | false =>
      cases htame : x.isTame with
      | true =>
          cases hruns : x.changesRun with
          | false =>
              exact (((perform_gentle hruns).2 htame).fresh y hmem).resolve_right (by simp [hplain])
          | true =>
              cases x with
              | exit =>
                  rw [show m.perform me .exit = m.finish me _ from rfl, stackOf_finish] at hmem
                  grind [Task.isReturn]
              | abort text =>
                  rw [show m.perform me (.abort text) = m.abort me text from rfl,
                    stackOf_abort] at hmem
                  grind [Task.isReturn]
              | drain =>
                  rw [show m.perform me .drain = m.drain me from rfl, stackOf_drain] at hmem
                  grind [Task.isReturn]
              | suspend | pause | spawn => cases hlocal
              | _ => cases hruns
      | false =>
          cases x with
          | instr i =>
              have hmem : y ∈ (m.push me _).stackOf me := hmem
              rw [stackOf_push] at hmem
              refine (List.mem_append.mp hmem).resolve_left fun htasks => ?_
              by_cases hi : i = .stop
              · subst hi
                refine hnot ?_ htasks
                cases m.host <;> exact List.all_eq_true.mp rfl
              · exact not_mem_of_plain hplain (isPlain_tasks hi _ _) htasks
          | sleepUntil r name v n count =>
              have hr : r.isPublic = true := hx.resolve_right (by simp [Task.isWait])
              exact absurd (hr.symm.trans htame) (by simp)
          | awaitOwner | recheckRead | recheckWrite => rcases hx with hx | hx <;> cases hx
          | acquire | sleepOn | requestRead | requestWrite => cases hregisters
          | _ => simp [Task.isTame, Task.isLocal, Task.isShared] at htame hlocal

end Machine

end Baton
