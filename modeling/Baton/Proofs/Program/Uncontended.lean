import Baton.Proofs.Program.Refusals

/-!
# Machine: inner mutexes are uncontended

Whenever the turn changes hands or the scheduler looks for somebody to run, the inner mutexes are
free, so nobody ever waits for one. A thread that carries out a section of a reader/writer lock
therefore keeps the turn until it is done with the call, but for the sleep of a queued request: an
attempt, a release or a look at the state never gives the turn away.
-/

namespace Baton

/-- The side of a request, or of a second look at it: what may go to sleep. -/
def Task.sleeper? : Task → Option RwSide
  | requestRead _ | recheckRead _ => some .read
  | requestWrite _ | recheckWrite _ => some .write
  | _ => none

/-- What a sleeper does when it has the turn again. -/
def RwSide.wayBack (l : LockName) (side : RwSide) : List Task :=
  [.leave (side.sleepers l), .acquire (.inner l), side.recheck l]

@[simp] theorem RwSide.sleeper?_request (l : LockName) (side : RwSide) :
    (side.request l).sleeper? = some side := by
  cases side <;> rfl

@[simp] theorem RwSide.sleeper?_recheck (l : LockName) (side : RwSide) :
    (side.recheck l).sleeper? = some side := by
  cases side <;> rfl

@[simp] theorem RwSide.sleeper?_release (l : LockName) (side : RwSide) :
    (side.release l).sleeper? = none := by
  cases side <;> rfl

@[simp] theorem RwSide.opens?_recheck (l : LockName) (side : RwSide) :
    (side.recheck l).opens? = some l := by
  cases side <;> rfl

@[simp] theorem RwSide.opens?_release (l : LockName) (side : RwSide) :
    (side.release l).opens? = some l := by
  cases side <;> rfl

/-- Every call of a lock begins with a section of it, and only a request may have to sleep. -/
theorem RwCall.task_opens (l : LockName) (c : RwCall) : (c.task l).opens? = some l ∧
    ∀ side, (c.task l).sleeper? = some side ↔ c = side.lockCall := by
  refine ⟨by cases c <;> rfl, fun side => ?_⟩
  cases c <;> cases side <;> simp [RwCall.task, Task.sleeper?, RwSide.lockCall]

namespace RwState

variable {s : RwState} {t : ThreadId} {side : RwSide}

/-- A request that has to wait is in the queue. -/
theorem Regular.mem_queue_of_request (h : s.Regular) (hv : (s.request t side).1 = .queued) :
    t ∈ (s.request t side).2.queue side := by
  have hx : s.isExclusive = true := isExclusive_iff.mpr h.exclusive
  cases side with
  | read => exact (requestRead_queued hx hv).1
  | write => exact (requestWrite_queued hv).1

end RwState

namespace Machine

variable {p : Program} {m n : Machine} {me : ThreadId} {x : Task} {ts us : List Task}
  {l : LockName} {q : Option RwSide} {side : RwSide}

/-- A request that has to wait, or has to wait on, is in the queue. -/
theorem mem_queue_of_sleeps (hr : Reaches p.machine m) (hids : m.sched.ids.handed ≤ UInt64.size)
    (hstack : m.stackOf me = x :: us)
    (hx : x = side.request l ∧ ((m.locks.get l).request me side).1 = .queued ∨
      x = side.recheck l ∧ ((m.locks.get l).recheck me side).1 = false) :
    me ∈ (((m.setStack me us).perform me x).locks.get l).queue side := by
  have hregular := (hr.lockQueues hids).regular l
  rcases hx with ⟨rfl, hv⟩ | ⟨rfl, hv⟩
  · rw [locks_request, Store.get_set, if_pos rfl]
    exact hregular.mem_queue_of_request hv
  · rw [locks_recheck, Store.get_set, if_pos rfl]
    cases side with
    | read =>
        have hexclusive := RwState.isExclusive_iff.mpr hregular.exclusive
        exact (RwState.recheckRead_false hexclusive hv).1
    | write =>
        have hkept : m.Kept me (.recheckWrite l) :=
          (hstack ▸ (hr.sound hids).onCourse me).kept_head
        exact (RwState.recheckWrite_false hkept hv).1

/-! ## Calls that keep the turn -/

/-- What may stand on the stack above `ts` while its thread works for a call. The call may sleep on
the side `q`, and then only with `ts` alone below. -/
inductive Brief (q : Option RwSide) (l : LockName) (ts : List Task) : List Task → Prop where
  | ended : Brief q l ts ts
  | task {x : Task} {us : List Task} : x.opens? = some l →
      (∀ side, x.sleeper? = some side → q = some side ∧ us = ts) → Brief q l ts us →
      Brief q l ts (x :: us)
  | entry {us : List Task} : Brief q l ts us → Brief q l ts (.acquire (.inner l) :: us)
  | close {us : List Task} : Brief q l ts us → Brief q l ts (.closeSection l :: us)
  | leave {us : List Task} : Brief q l ts us → Brief q l ts (.release (.inner l) :: us)

theorem Brief.isAside_eq_false (h : Brief q l ts (x :: us)) (hne : x :: us ≠ ts) :
    x.isAside = false := by
  cases h with
  | ended => exact absurd rfl hne
  | task hx => exact Task.isAside_of_opens? hx
  | entry | close | leave => rfl

/-- How far a call has come that may sleep on the side `q`. -/
inductive OnCall (q : Option RwSide) (l : LockName) (ts : List Task) (me : ThreadId)
    (m : Machine) : Prop where
  | awake : m.sched.turn = .held me → Brief q l ts (m.stackOf me) → OnCall q l ts me m
  /-- The request is queued, and its thread has not given the turn away yet. -/
  | drowsy (side : RwSide) (us : List Task) : m.sched.turn = .held me → q = some side →
      me ∈ (m.locks.get l).queue side →
      us = [.sleepOn (side.sleepers l) (.inner l), side.recheck l] ∨
        us = side.sleepTasks l ∨ us = .suspend :: side.wayBack l →
      m.stackOf me = us ++ ts → OnCall q l ts me m
  | asleep (side : RwSide) : q = some side → m.stackOf me = side.wayBack l ++ ts →
      OnCall q l ts me m

/-- The task of a section. -/
theorem onCall_task (hr : Reaches p.machine m) (hids : m.sched.ids.handed ≤ UInt64.size)
    (hturn : m.sched.turn = .held me) (hstack : m.stackOf me = x :: us) (hx : x.opens? = some l)
    (hsleeper : ∀ side, x.sleeper? = some side → q = some side ∧ us = ts)
    (hus : Brief q l ts us) : OnCall q l ts me ((m.setStack me us).perform me x) := by
  have hturn' : ((m.setStack me us).perform me x).sched.turn = .held me :=
    turn_held_perform hturn (Task.isAside_of_opens? hx)
  have hcloses := closes_perform hx me (m.setStack me us)
  rw [show (m.setStack me us).stackOf me = us from stackOf_onThread ..] at hcloses
  generalize hs : ((m.setStack me us).perform me x).stackOf me = s at hcloses
  cases hcloses with
  | closes => exact .awake hturn' (hs ▸ .close hus)
  | again side =>
      exact .awake hturn' (hs ▸ .close (.entry (.task (by simp) (by simp) hus)))
  | sleeps side hwhy =>
      have hside : x.sleeper? = some side := by
        rcases hwhy with ⟨rfl, -⟩ | ⟨rfl, -⟩ <;> simp
      obtain ⟨hq, rfl⟩ := hsleeper side hside
      exact .drowsy side _ hturn' hq (mem_queue_of_sleeps hr hids hstack hwhy) (.inl rfl) hs

/-- A step of the thread that is in the call. -/
theorem OnCall.perform (h : OnCall q l ts me m) (hr : Reaches p.machine m)
    (hids : m.sched.ids.handed ≤ UInt64.size) (hturn : m.sched.turn = .held me)
    (hstack : m.stackOf me = x :: us) (hne : m.stackOf me ≠ ts) :
    OnCall q l ts me ((m.setStack me us).perform me x) := by
  have hregular : ((m.setStack me us).locks.get l).Regular := (hr.lockQueues hids).regular l
  have hus : (m.setStack me us).stackOf me = us := stackOf_onThread ..
  cases h with
  | awake _ hbrief =>
      generalize hs : m.stackOf me = s at hbrief
      cases hbrief with
      | ended => exact absurd hs hne
      | task hx hsleeper hbelow =>
          obtain ⟨rfl, rfl⟩ := List.cons.inj (hstack.symm.trans hs)
          exact onCall_task hr hids hturn hstack hx hsleeper hbelow
      | entry hbelow =>
          obtain ⟨rfl, rfl⟩ := List.cons.inj (hstack.symm.trans hs)
          obtain ⟨hpass, -⟩ := passes_acquire me (m := m.setStack me us)
            (hr.innerFree hids hturn hstack) l
          exact .awake (turn_held_perform hturn rfl) (by rwa [hpass, hus])
      | close hbelow =>
          obtain ⟨rfl, rfl⟩ := List.cons.inj (hstack.symm.trans hs)
          refine .awake (turn_held_perform hturn rfl) ?_
          rw [perform_closeSection hregular, stackOf_push, hus]
          exact .leave hbelow
      | leave hbelow =>
          obtain ⟨rfl, rfl⟩ := List.cons.inj (hstack.symm.trans hs)
          obtain ⟨hpass, -⟩ := passes_release me (m.setStack me us) l
          exact .awake (turn_held_perform hturn rfl) (by rwa [hpass, hus])
  | drowsy side ys _ hq hmem hys hs =>
      have hlocks : x.opens? = none →
          me ∈ (((m.setStack me us).perform me x).locks.get l).queue side := fun hx =>
        (locks_perform_of_opens?_eq_none me (m.setStack me us) l hx).symm ▸ hmem
      rcases hys with rfl | rfl | rfl <;>
        obtain ⟨rfl, rfl⟩ := List.cons.inj (hstack.symm.trans hs)
      · refine .drowsy side _ (turn_held_perform hturn rfl) hq (hlocks rfl) (.inr (.inl rfl)) ?_
        show (((m.setStack me _).setRendez _ _).push me _).stackOf me = _
        rw [stackOf_push]
        exact congrArg (_ ++ ·) hus
      · obtain ⟨hpass, -⟩ := passes_release me (m.setStack me _) l
        exact .drowsy side _ (turn_held_perform hturn rfl) hq (hlocks rfl) (.inr (.inr rfl))
          (hpass.trans hus)
      · exact .asleep side hq hus
  | asleep side hq hs =>
      obtain ⟨rfl, hbelow⟩ := List.cons.inj (hstack.symm.trans hs)
      have hstays : ((m.setStack me us).perform me (.leave (side.sleepers l))).stackOf me = us :=
        hus
      refine .awake hturn ?_
      rw [hstays, hbelow]
      exact .entry (.task (by simp) (by simp [hq]) .ended)

/-- What others do makes no difference to the call. -/
theorem OnCall.congr (h : OnCall q l ts me m) (hthread : n.threads.get me = m.threads.get me)
    (hheld : m.sched.turn = .held me → n.sched.turn = .held me ∧ n.locks = m.locks) :
    OnCall q l ts me n := by
  have hs : n.stackOf me = m.stackOf me := congrArg Thread.stack hthread
  cases h with
  | awake hturn hbrief => exact .awake (hheld hturn).1 (hs ▸ hbrief)
  | drowsy side us hturn hq hmem hus he =>
      obtain ⟨hturn', hlocks⟩ := hheld hturn
      exact .drowsy side us hturn' hq (hlocks ▸ hmem) hus (hs.trans he)
  | asleep side hq he => exact .asleep side hq (hs.trans he)

/-- A thread without the turn sleeps in the call. -/
theorem OnCall.away (h : OnCall q l ts me m) (hturn : m.sched.turn ≠ .held me) :
    ∃ side, q = some side ∧ m.stackOf me = side.wayBack l ++ ts := by
  cases h with
  | asleep side hq hs => exact ⟨side, hq, hs⟩
  | _ => exact absurd ‹_› hturn

theorem OnCall.live (h : OnCall q l ts me m) (hr : Reaches p.machine m)
    (hids : m.sched.ids.handed ≤ UInt64.size) (hturn : m.sched.turn ≠ .held me) :
    m.sched.isLive me = true := by
  obtain ⟨side, -, hs⟩ := h.away hturn
  by_contra hdead
  have hplain := hr.plain_of_dead hids me (by simpa using hdead) (.leave (side.sleepers l))
    (by simp [hs, RwSide.wayBack])
  cases hplain

theorem OnCall.along (h : OnCall q l ts me m) (hr : Reaches p.machine m)
    (hrun : Along (fun k => k.stackOf me ≠ ts) m n)
    (hids : n.sched.ids.handed ≤ UInt64.size) : OnCall q l ts me n :=
  hrun.keeps_own hr hids h
    (fun _ _ _ hcall hbusy hreach hhanded hturn hstack =>
      hcall.perform hreach hhanded hturn hstack hbusy)
    (fun _ hcall hreach hhanded hturn => hcall.live hreach hhanded hturn)
    fun _ _ hcall hown hheld => hcall.congr hown hheld

/-- The turn is given away by the suspension of a queued request. -/
theorem OnCall.gives (h : OnCall q l ts me m)
    (hne : m.stackOf me ≠ ts) (hturn : m.sched.turn = .held me) (hstep : m.step = some n)
    (hgives : n.sched.turn ≠ .held me) :
    ∃ side, q = some side ∧ m.stackOf me = .suspend :: (side.wayBack l ++ ts) ∧
      me ∈ (m.locks.get l).queue side := by
  rcases step_cases hstep with ⟨u, x, us, hu, hstack, rfl⟩ | ⟨hnobody, -⟩
  · obtain rfl : me = u := Turn.held.inj (hturn.symm.trans hu)
    have haside : x.isAside = true := by
      by_contra hx
      exact hgives (turn_held_perform hturn (by simpa using hx))
    cases h with
    | awake _ hbrief =>
        rw [hstack] at hbrief hne
        exact absurd haside (by simp [hbrief.isAside_eq_false hne])
    | drowsy side ys _ hq hmem hys hs =>
        rcases hys with rfl | rfl | rfl
        · obtain ⟨rfl, -⟩ := List.cons.inj (hstack.symm.trans hs)
          cases haside
        · obtain ⟨rfl, -⟩ := List.cons.inj (hstack.symm.trans hs)
          cases haside
        · exact ⟨side, hq, hs, hmem⟩
    | asleep side _ hs =>
        obtain ⟨rfl, -⟩ := List.cons.inj (hstack.symm.trans hs)
        exact absurd hturn hgives
  · exact absurd hturn (hnobody me)

/-! ## Runs -/

/-- How a thread carries out a call of `l` that begins with a section for `x`, with `ts` below it on
the stack. -/
structure KeepsTurn (me : ThreadId) (l : LockName) (x : Task) (ts : List Task) (m : Machine) :
    Prop where
  /-- It gives the turn away only where a queued request suspends. -/
  gives : ∀ n k, Along (fun k => k.stackOf me ≠ ts) m n → n.sched.ids.history.Nodup →
    n.stackOf me ≠ ts → n.step = some k → n.sched.turn = .held me → k.sched.turn ≠ .held me →
    ∃ side, x.sleeper? = some side ∧ n.stackOf me = .suspend :: (side.wayBack l ++ ts) ∧
      me ∈ (n.locks.get l).queue side
  /-- Until it gets the turn back it sleeps there. -/
  away : ∀ n, Along (fun k => k.stackOf me ≠ ts) m n → n.sched.ids.history.Nodup →
    n.sched.turn ≠ .held me →
    ∃ side, x.sleeper? = some side ∧ n.stackOf me = side.wayBack l ++ ts

/-- What holds of the inner mutexes at every moment of a run. -/
structure Uncontended (m : Machine) : Prop where
  /-- While the turn changes hands, and while the scheduler idles, they are free. -/
  free : (∀ t, m.sched.turn ≠ .held t) → ∀ l, m.mutexes.get (.inner l) = .free
  nobody_waits : ∀ l, (m.mutexes.get (.inner l)).waiting = []
  /-- So a thread takes one at once, also on its way back from a sleep. -/
  enters : ∀ me l ts, m.sched.turn = .held me → m.stackOf me = .acquire (.inner l) :: ts →
    ∃ n, m.step = some n ∧ n.sched.turn = .held me ∧ n.stackOf me = ts ∧
      n.mutexes.get (.inner l) = ⟨some me, []⟩
  calls : ∀ me l x ts, m.sched.turn = .held me → x.opens? = some l →
    m.stackOf me = Task.section l x ++ ts → m.KeepsTurn me l x ts

/-- A call that begins with a section. -/
theorem onCall_section (hturn : m.sched.turn = .held me) (hx : x.opens? = some l)
    (hstack : m.stackOf me = Task.section l x ++ ts) : OnCall x.sleeper? l ts me m :=
  .awake hturn (hstack ▸ .entry (.task hx (fun _ hside => ⟨hside, rfl⟩) .ended))

theorem Secluded.nobody_waits (h : m.Secluded) (l : LockName) :
    (m.mutexes.get (.inner l)).waiting = [] := by
  have hfree : m.InnerFree → (m.mutexes.get (.inner l)).waiting = [] := fun hfree => by
    rw [hfree l]
    rfl
  by_cases hnobody : ∀ t, m.sched.turn ≠ .held t
  · exact hfree (h.free hnobody)
  · obtain ⟨t, hturn⟩ := not_forall_not.mp hnobody
    cases h.running t hturn with
    | outside _ hall => exact hfree hall
    | inside _ hheld =>
        rw [hheld l]
        split <;> rfl

theorem Reaches.uncontended (h : Reaches p.machine m) (hids : m.sched.ids.history.Nodup) :
    m.Uncontended := by
  have hhanded := IdAllocator.nodup_history_iff.mp hids
  have hsecluded := h.secluded hhanded
  refine ⟨hsecluded.free, hsecluded.nobody_waits, ?_, ?_⟩
  · intro me l ts hturn hstack
    obtain ⟨k, hstep, hwithin⟩ := within_acquire hturn hstack (h.innerFree hhanded hturn hstack l)
    refine ⟨k, hstep, hwithin.turn.trans hturn, hwithin.stack, ?_⟩
    rw [hwithin.mutexes, Store.get_set, if_pos rfl]
  · intro me l x ts hturn hx hstack
    have hcall := onCall_section hturn hx hstack
    refine ⟨fun n k hrun hids' hne hstep ht hgives => ?_, fun n hrun hids' ht => ?_⟩
    · exact (hcall.along h hrun (IdAllocator.nodup_history_iff.mp hids')).gives hne ht hstep hgives
    · exact (hcall.along h hrun (IdAllocator.nodup_history_iff.mp hids')).away ht

end Machine

open Machine (Reaches Along)

/-- The calls of a reader/writer lock and the look at its state are sections of it. At every moment
of a run its inner mutex is free unless the running thread owns it, nobody waits for it, and such a
call keeps the turn but for the sleep of a queued request. -/
theorem inner_mutexes_uncontended :
    (∀ (me : ThreadId) (k : Nat), (∀ c : RwCall, (c.instr k).replyTasks .coop me =
        Task.section (.raw k) (c.task (.raw k))) ∧
      (Instr.snapshot k).replyTasks .coop me = Task.section (.raw k) (.copyState (.raw k))) ∧
    (∀ (l : LockName) (c : RwCall), (c.task l).opens? = some l ∧
      ∀ side, (c.task l).sleeper? = some side ↔ c = side.lockCall) ∧
    ∀ (p : Program) (m : Machine), Reaches p.machine m → m.sched.ids.history.Nodup →
      m.Uncontended :=
  ⟨fun me k => ⟨RwCall.replyTasks_instr me k, rfl⟩, RwCall.task_opens,
    fun _ _ h hids => h.uncontended hids⟩

/-- Two readers queue behind the main thread, which wakes both. -/
def crowd : Program :=
  { Program.blank with code :=
      [[.writeLock 0, .spawn 1, .spawn 1, .yield, .writeUnlock 0], [.readLock 0]] }

/-- The first reader is about to ask after eighteen steps. After fourteen more both sleep, and
nobody has the turn. After fifty steps both have been woken, and the first one takes the mutex at
once. -/
theorem inner_mutexes_uncontended_crowd :
    let m := crowd.final 18
    let asleep := m.run 14
    let woken := crowd.final 50
    asleep.sched.turn = .seeking 3 ∧ asleep.mutexes.get (.inner (.raw 0)) = .free ∧
      (∃ side : RwSide, asleep.stackOf 2 =
        side.wayBack (.raw 0) ++ [.report "read_lock", .exit]) ∧
      (woken.locks.get (.raw 0)).readers = [2, 3] ∧
      ∃ n, woken.step = some n ∧ n.sched.turn = .held 2 := by
  intro m asleep woken
  have hm : Reaches crowd.machine m := (Reaches.refl _).run 18
  have huncontended := inner_mutexes_uncontended.2.2 crowd
  have hturn : asleep.sched.turn = .seeking 3 := by decide
  have hrun : Along (fun k => k.stackOf 2 ≠ [.report "read_lock", .exit]) m asleep :=
    .run 14 fun k hk he => by
      have hlength : ∀ k < 14, ((m.run k).stackOf 2).length ≠ 2 := by decide
      exact hlength k hk (congrArg List.length he)
  have hfree := (huncontended asleep (hm.run 14) (by decide)).free (by simp [hturn])
  have hcall := (huncontended m hm (by decide)).calls 2 (.raw 0) (.requestRead (.raw 0))
    [.report "read_lock", .exit] (by decide) rfl rfl
  obtain ⟨side, -, hstack⟩ := hcall.away asleep hrun (by decide) (by simp [hturn])
  obtain ⟨n, hstep, hn, -⟩ := (huncontended woken ((Reaches.refl _).run 50) (by decide)).enters 2
    (.raw 0) _ (by decide) rfl
  exact ⟨hturn, hfree _, ⟨side, hstack⟩, by decide, n, hstep, hn⟩

end Baton
