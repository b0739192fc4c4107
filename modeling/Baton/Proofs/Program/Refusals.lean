import Baton.Proofs.Program.Holding
import Baton.Proofs.Program.Secluded
import Baton.Proofs.RwLock.Refusals

/-!
# Machine: refused calls

A call of a reader/writer lock answers an error exactly if it is refused, whatever happens before it
returns: its verdict is found in a section that nobody can interrupt, and a request that was queued
only waits for its turn after that. A section that answers an error, or that takes nothing, gives
the inner mutex back and leaves everything but the log as it was.
-/

namespace Baton

/-- The first task of a call's first section. -/
def RwCall.task (l : LockName) : RwCall → Task
  | readLock => .requestRead l
  | writeLock => .requestWrite l
  | tryReadLock => .tryRead l
  | tryWriteLock => .tryWrite l
  | readUnlock => .releaseRead l
  | writeUnlock => .releaseWrite l
  | unlock => .releaseHeld l

/-- The instruction that makes the call. -/
def RwCall.instr (k : Nat) : RwCall → Instr
  | readLock => .readLock k
  | writeLock => .writeLock k
  | tryReadLock => .tryReadLock k
  | tryWriteLock => .tryWriteLock k
  | readUnlock => .readUnlock k
  | writeUnlock => .writeUnlock k
  | unlock => .releaseAny k

/-- How many tasks a call takes that does not wait. -/
def RwCall.taskCount : RwCall → Nat
  | unlock => 8
  | _ => 4

/-- The error that a reply reports. -/
def Reply.fault? : Reply → Option Fault
  | fault e => some e
  | _ => none

/-- What a queued request still does once it has registered itself in its rendezvous. -/
def RwSide.sleepTasks (l : LockName) (side : RwSide) : List Task :=
  [.release (.inner l), .suspend, .leave (side.sleepers l), .acquire (.inner l), side.recheck l]

@[simp] theorem RwSide.task_unlockCall (l : LockName) (side : RwSide) :
    side.unlockCall.task l = side.release l := by
  cases side <;> rfl

theorem RwCall.replyTasks_instr (me : ThreadId) (k : Nat) (c : RwCall) :
    (c.instr k).replyTasks .coop me = Task.section (.raw k) (c.task (.raw k)) := by
  cases c <;> rfl

namespace Machine

variable {p : Program} {m n : Machine} {me : ThreadId} {x : Task} {ts us : List Task}
  {l : LockName} {c : RwCall} {v : Option Fault} {side : RwSide} {r : Reply}

/-! ## What a call answers -/

/-- How far a call has come whose refusal is `v`. What is on the stack below it is `ts`. -/
inductive InCall (l : LockName) (ts : List Task) (v : Option Fault) (me : ThreadId) (m : Machine) :
    Prop where
  /-- The section with the verdict lies ahead. -/
  | asking (c : RwCall) : m.sched.turn = .held me → c.refusal? me (m.locks.get l) = v →
      m.stackOf me = Task.section l (c.task l) ++ ts → InCall l ts v me m
  | deciding (c : RwCall) : m.sched.turn = .held me → c.refusal? me (m.locks.get l) = v →
      m.stackOf me = c.task l :: ts → InCall l ts v me m
  /-- The first section of `unlock` is over, and it has been found which hold to release. -/
  | between (side : RwSide) : m.sched.turn = .held me →
      side.unlockCall.refusal? me (m.locks.get l) = v →
      m.stackOf me = .closeSection l :: (Task.section l (side.release l) ++ ts) →
      InCall l ts v me m
  | again (side : RwSide) : m.sched.turn = .held me →
      side.unlockCall.refusal? me (m.locks.get l) = v →
      m.stackOf me = .release (.inner l) :: (Task.section l (side.release l) ++ ts) →
      InCall l ts v me m
  | closing : m.sched.turn = .held me → (m.replyOf me).fault? = v →
      m.stackOf me = .closeSection l :: ts → InCall l ts v me m
  | leaving : m.sched.turn = .held me → (m.replyOf me).fault? = v →
      m.stackOf me = .release (.inner l) :: ts → InCall l ts v me m
  | ended : m.sched.turn = .held me → (m.replyOf me).fault? = v → m.stackOf me = ts →
      InCall l ts v me m
  /-- The request was queued. -/
  | queued (side : RwSide) : (m.replyOf me).fault? = v → v = none →
      m.stackOf me = .sleepOn (side.sleepers l) (.inner l) :: side.recheck l :: ts →
      InCall l ts v me m
  | asleep (side : RwSide) (us : List Task) : (m.replyOf me).fault? = v → v = none → us ≠ [] →
      us <:+ side.sleepTasks l → m.stackOf me = us ++ ts → InCall l ts v me m

theorem locks_perform_of_opens?_eq_none (me : ThreadId) (m : Machine) (l : LockName)
    (hx : x.opens? = none) : (m.perform me x).locks.get l = m.locks.get l := by
  rcases lock_perform me x m l with ⟨side, rfl, -⟩ | ⟨side, rfl, -⟩ | ⟨rfl, -⟩ | ⟨rfl, -⟩ |
    ⟨side, out, rfl, -⟩ | he
  · cases side <;> cases hx
  · cases side <;> cases hx
  · cases hx
  · cases hx
  · cases side <;> cases hx
  · exact he

/-- A request is settled with its verdict, or it is queued. -/
theorem inCall_request (side : RwSide) (hturn : m.sched.turn = .held me)
    (hstack : m.stackOf me = ts) :
    InCall l ts (side.lockCall.refusal? me (m.locks.get l)) me (m.perform me (side.request l)) := by
  have hturn' : (m.perform me (side.request l)).sched.turn = .held me :=
    (turn_perform_of_not_isAside me m (by cases side <;> rfl)).trans hturn
  rw [← RwState.fault?_request]
  rcases request_thread side l me m with ⟨hv, hs, hr⟩ | ⟨hv, hs, hr⟩ | ⟨hv, hs, hr⟩ <;>
    rw [hstack] at hs <;> rw [hv]
  · exact .closing hturn' (by rw [hr]; rfl) hs
  · exact .queued side (by rw [hr]; rfl) rfl hs
  · exact .closing hturn' (by rw [hr]; rfl) hs

theorem inCall_attempt (side : RwSide) (hturn : m.sched.turn = .held me)
    (hstack : m.stackOf me = ts) : InCall l ts none me (m.perform me (side.attempt l)) := by
  have hturn' : (m.perform me (side.attempt l)).sched.turn = .held me :=
    (turn_perform_of_not_isAside me m (by cases side <;> rfl)).trans hturn
  refine .closing hturn' ?_ ?_ <;> rw [perform_attempt]
  · rw [replyOf_push, replyOf_answer]
    rfl
  · rw [stackOf_push, stackOf_answer]
    exact congrArg (.closeSection l :: ·) hstack

theorem inCall_release (side : RwSide) (hturn : m.sched.turn = .held me)
    (hstack : m.stackOf me = ts) :
    InCall l ts (side.unlockCall.refusal? me (m.locks.get l)) me
      (m.perform me (side.release l)) := by
  have hturn' : (m.perform me (side.release l)).sched.turn = .held me :=
    (turn_perform_of_not_isAside me m (by cases side <;> rfl)).trans hturn
  have hclosing : ∀ (n : Machine) (r : Reply), n.stackOf me = ts →
      m.perform me (side.release l) = (n.answer me r).push me [.closeSection l] →
      InCall l ts r.fault? me (m.perform me (side.release l)) := by
    intro n r hn he
    refine .closing hturn' ?_ ?_ <;> rw [he]
    · rw [replyOf_push, replyOf_answer]
    · rw [stackOf_push, stackOf_answer, hn]
      rfl
  cases hout : (m.locks.get l).release me side with
  | some out =>
      rw [RwState.refusal?_of_release hout]
      refine hclosing _ .null ?_ (perform_release_of_some hout)
      cases out.1 <;> exact hstack
  | none =>
      obtain ⟨notice, he⟩ := perform_release_of_none hout
      rw [RwState.release_eq_none_iff.mp hout]
      exact hclosing (m.note notice) (.fault .notHeld) hstack he

/-- The task with the verdict. -/
theorem inCall_perform_task (c : RwCall) (hturn : m.sched.turn = .held me)
    (hstack : m.stackOf me = ts) :
    InCall l ts (c.refusal? me (m.locks.get l)) me (m.perform me (c.task l)) := by
  cases c with
  | readLock => exact inCall_request .read hturn hstack
  | writeLock => exact inCall_request .write hturn hstack
  | tryReadLock => exact inCall_attempt .read hturn hstack
  | tryWriteLock => exact inCall_attempt .write hturn hstack
  | readUnlock => exact inCall_release .read hturn hstack
  | writeUnlock => exact inCall_release .write hturn hstack
  | unlock =>
      refine .between (RwSide.ofFlag ((m.locks.get l).writer = some me)) hturn
        (RwState.refusal?_unlock me (m.locks.get l)).symm ?_
      show (m.releaseHeld me l).stackOf me = _
      rw [releaseHeld, stackOf_push, hstack]
      by_cases hw : (m.locks.get l).writer = some me
      · simp [hw, RwSide.ofFlag, RwSide.release, Task.section]
      · simp [hw, RwSide.ofFlag, RwSide.release, Task.section]

/-- The check at the end of a section finds no fault. -/
theorem perform_closeSection (hregular : (m.locks.get l).Regular) :
    m.perform me (.closeSection l) = m.push me [.release (.inner l)] := by
  show m.closeSection me l = _
  rw [closeSection, RwState.violation?_eq_none_iff.mpr hregular.isConsistent]

/-- The tasks that leave the rest of the stack and the reply alone. -/
def Passes (me : ThreadId) (m m' : Machine) : Prop :=
  m'.stackOf me = m.stackOf me ∧ m'.replyOf me = m.replyOf me

theorem passes_acquire (me : ThreadId) (hfree : m.InnerFree) (l : LockName) :
    Passes me m (m.perform me (.acquire (.inner l))) :=
  ⟨(hfree.acquire me l).2, replyOf_acquire me (.inner l) m⟩

theorem passes_release (me : ThreadId) (m : Machine) (l : LockName) :
    Passes me m (m.perform me (.release (.inner l))) :=
  ⟨stackOf_release (.inner l), replyOf_release me (.inner l) m⟩

/-- A sleeper goes on until it looks at the lock. -/
theorem inCall_of_suffix (side : RwSide) (hv : (m.replyOf me).fault? = none)
    (hsuffix : x :: us <:+ side.sleepTasks l) (hne : us ≠ [])
    (hstack : m.stackOf me = us ++ ts) (hfree : x = .acquire (.inner l) → m.InnerFree) :
    InCall l ts none me (m.perform me x) := by
  have hpasses : Passes me m (m.perform me x) → InCall l ts none me (m.perform me x) := by
    rintro ⟨hs, hr⟩
    exact .asleep side us (by rw [hr, hv]) rfl hne ((List.suffix_cons x us).trans hsuffix)
      (hs.trans hstack)
  rcases (List.suffix_cons_iff.mp hsuffix) with he | hsuffix
  · obtain ⟨rfl, -⟩ := List.cons.inj he
    exact hpasses (passes_release me m l)
  rcases (List.suffix_cons_iff.mp hsuffix) with he | hsuffix
  · obtain ⟨rfl, -⟩ := List.cons.inj he
    exact hpasses ⟨rfl, rfl⟩
  rcases (List.suffix_cons_iff.mp hsuffix) with he | hsuffix
  · obtain ⟨rfl, -⟩ := List.cons.inj he
    exact hpasses ⟨rfl, rfl⟩
  rcases (List.suffix_cons_iff.mp hsuffix) with he | hsuffix
  · obtain ⟨rfl, -⟩ := List.cons.inj he
    exact hpasses (passes_acquire me (hfree rfl) l)
  · have hlength := hsuffix.length_le
    cases us with
    | nil => exact absurd rfl hne
    | cons y us => simp at hlength

/-- The second look of a queued request. -/
theorem inCall_recheck (side : RwSide) (hturn : m.sched.turn = .held me)
    (hv : (m.replyOf me).fault? = none) (hstack : m.stackOf me = ts) :
    InCall l ts none me (m.perform me (side.recheck l)) := by
  have hturn' : (m.perform me (side.recheck l)).sched.turn = .held me :=
    (turn_perform_of_not_isAside me m (by cases side <;> rfl)).trans hturn
  obtain ⟨hs, hr⟩ := recheck_thread side l me m
  rw [hstack] at hs
  split at hs
  · exact .closing hturn' (by rw [hr, hv]) hs
  · exact .queued side (by rw [hr, hv]) rfl hs

theorem turn_held_perform (hturn : m.sched.turn = .held me) (hx : x.isAside = false) :
    ((m.setStack me us).perform me x).sched.turn = .held me :=
  (turn_perform_of_not_isAside me _ hx).trans hturn

/-- A step of the thread that is in the call. -/
theorem InCall.perform (h : InCall l ts v me m) (hr : Reaches p.machine m)
    (hids : m.sched.ids.handed ≤ UInt64.size) (hturn : m.sched.turn = .held me)
    (hstack : m.stackOf me = x :: us) (hne : m.stackOf me ≠ ts) :
    InCall l ts v me ((m.setStack me us).perform me x) := by
  have hregular : ((m.setStack me us).locks.get l).Regular := (hr.lockQueues hids).regular l
  have hfree : x = .acquire (.inner l) → (m.setStack me us).InnerFree := by
    rintro rfl
    exact hr.innerFree hids hturn hstack
  have hus : (m.setStack me us).stackOf me = us := stackOf_onThread ..
  have hreply : (m.setStack me us).replyOf me = m.replyOf me := replyOf_setStack me us m
  have hlocks : ∀ {y : Task}, y.opens? = none →
      ((m.setStack me us).perform me y).locks.get l = m.locks.get l :=
    fun hy => locks_perform_of_opens?_eq_none me (m.setStack me us) l hy
  cases h with
  | asking c _ hv hs =>
      obtain ⟨rfl, rfl⟩ := List.cons.inj (hstack.symm.trans hs)
      obtain ⟨hpass, -⟩ := passes_acquire me (hfree rfl) l
      exact .deciding c (turn_held_perform hturn rfl) (by rw [hlocks rfl, hv]) (hpass.trans hus)
  | deciding c _ hv hs =>
      obtain ⟨rfl, rfl⟩ := List.cons.inj (hstack.symm.trans hs)
      exact hv ▸ inCall_perform_task (m := m.setStack me us) c hturn hus
  | between side _ hv hs =>
      obtain ⟨rfl, rfl⟩ := List.cons.inj (hstack.symm.trans hs)
      refine .again side (turn_held_perform hturn rfl) (by rw [hlocks rfl, hv]) ?_
      rw [perform_closeSection hregular, stackOf_push, hus]
      rfl
  | again side _ hv hs =>
      obtain ⟨rfl, rfl⟩ := List.cons.inj (hstack.symm.trans hs)
      obtain ⟨hpass, -⟩ := passes_release me (m.setStack me _) l
      refine .asking side.unlockCall (turn_held_perform hturn rfl) (by rw [hlocks rfl, hv]) ?_
      rw [hpass, hus, RwSide.task_unlockCall]
  | closing _ hv hs =>
      obtain ⟨rfl, rfl⟩ := List.cons.inj (hstack.symm.trans hs)
      refine .leaving (turn_held_perform hturn rfl) ?_ ?_ <;> rw [perform_closeSection hregular]
      · rw [replyOf_push, hreply, hv]
      · rw [stackOf_push, hus]
        rfl
  | leaving _ hv hs =>
      obtain ⟨rfl, rfl⟩ := List.cons.inj (hstack.symm.trans hs)
      obtain ⟨hpass, hsame⟩ := passes_release me (m.setStack me us) l
      exact .ended (turn_held_perform hturn rfl) (by rw [hsame, hreply, hv]) (hpass.trans hus)
  | ended _ _ hs => exact absurd hs hne
  | queued side hv hnone hs =>
      obtain ⟨rfl, rfl⟩ := List.cons.inj (hstack.symm.trans hs)
      subst hnone
      refine .asleep side (side.sleepTasks l) ?_ rfl (by simp [RwSide.sleepTasks])
        (List.suffix_refl _) ?_
      · show ((((m.setStack me _).setRendez _ _).push me _).replyOf me).fault? = none
        rw [replyOf_push]
        exact (congrArg Reply.fault? hreply).trans hv
      · show (((m.setStack me _).setRendez _ _).push me _).stackOf me = _
        rw [stackOf_push]
        exact congrArg (_ ++ ·) hus
  | asleep side us' hv hnone hne' hsuffix hs =>
      subst hnone
      cases us' with
      | nil => exact absurd rfl hne'
      | cons y ys =>
          obtain ⟨rfl, rfl⟩ := List.cons.inj (hstack.symm.trans hs)
          cases ys with
          | nil =>
              have hlast : x = side.recheck l := by
                simpa [RwSide.sleepTasks, List.suffix_cons_iff] using hsuffix
              subst hlast
              exact inCall_recheck side hturn (by rw [hreply, hv]) hus
          | cons z zs =>
              exact inCall_of_suffix side (by rw [hreply, hv]) hsuffix (by simp) hus hfree

/-- What others do makes no difference to the call. -/
theorem InCall.congr (h : InCall l ts v me m) (hthread : n.threads.get me = m.threads.get me)
    (hturn : m.sched.turn = .held me → n.sched.turn = .held me)
    (hlocks : m.sched.turn = .held me → n.locks.get l = m.locks.get l) :
    InCall l ts v me n := by
  have hs : n.stackOf me = m.stackOf me := congrArg Thread.stack hthread
  have hr : n.replyOf me = m.replyOf me := congrArg Thread.reply hthread
  cases h with
  | asking c ht hv he => exact .asking c (hturn ht) (by rw [hlocks ht, hv]) (hs.trans he)
  | deciding c ht hv he => exact .deciding c (hturn ht) (by rw [hlocks ht, hv]) (hs.trans he)
  | between side ht hv he => exact .between side (hturn ht) (by rw [hlocks ht, hv]) (hs.trans he)
  | again side ht hv he => exact .again side (hturn ht) (by rw [hlocks ht, hv]) (hs.trans he)
  | closing ht hv he => exact .closing (hturn ht) (by rw [hr, hv]) (hs.trans he)
  | leaving ht hv he => exact .leaving (hturn ht) (by rw [hr, hv]) (hs.trans he)
  | ended ht hv he => exact .ended (hturn ht) (by rw [hr, hv]) (hs.trans he)
  | queued side hv hnone he => exact .queued side (by rw [hr, hv]) hnone (hs.trans he)
  | asleep side us hv hnone hne hsuffix he =>
      exact .asleep side us (by rw [hr, hv]) hnone hne hsuffix (hs.trans he)

/-- A thread that has given the turn away in a call sleeps, so it has not ended. -/
theorem InCall.live (h : InCall l ts v me m) (hr : Reaches p.machine m)
    (hids : m.sched.ids.handed ≤ UInt64.size) (hturn : m.sched.turn ≠ .held me) :
    m.sched.isLive me = true := by
  have hlook : ∃ side : RwSide, side.recheck l ∈ m.stackOf me := by
    cases h with
    | queued side _ _ hs => exact ⟨side, by simp [hs]⟩
    | asleep side us _ _ hne hsuffix hs =>
        obtain ⟨front, hfront⟩ := hsuffix
        have hlast := congrArg List.getLast? hfront
        rw [List.getLast?_append_of_ne_nil _ hne] at hlast
        exact ⟨side, hs ▸ List.mem_append_left ts (List.mem_of_getLast? hlast)⟩
    | _ => exact absurd ‹_› hturn
  obtain ⟨side, hmem⟩ := hlook
  by_contra hdead
  have hplain := hr.plain_of_dead hids me (by simpa using hdead) _ hmem
  cases side <;> cases hplain

/-- What a thread's own tasks keep, and what rests on nothing but its own record and its stakes, and
on the turn and the shared objects while it has the turn, lasts as long as the thread does. -/
theorem Along.keeps_stakes {P Q : Machine → Prop} (hrun : Along P m n) (hr : Reaches p.machine m)
    (hids : n.sched.ids.handed ≤ UInt64.size) (start : Q m)
    (own : ∀ k x us, Q k → P k → Reaches p.machine k → k.sched.ids.handed ≤ UInt64.size →
      k.sched.turn = .held me → k.stackOf me = x :: us → Q ((k.setStack me us).perform me x))
    (live : ∀ k, Q k → Reaches p.machine k → k.sched.ids.handed ≤ UInt64.size →
      k.sched.turn ≠ .held me → k.sched.isLive me = true)
    (congr : ∀ k k', Q k → k'.threads.get me = k.threads.get me →
      (∀ s, k'.stake me s = k.stake me s) →
      (k.sched.turn = .held me → k'.sched.turn = .held me ∧ k'.locks = k.locks) → Q k') :
    Q n := by
  refine hrun.keeps_each hr hids start ?_ ?_ ?_
    fun k e hQ => congr k _ hQ rfl (fun _ => rfl) fun ht => ⟨ht, rfl⟩
  · intro k u x us hQ hP hreach hhanded hturn hstack hids'
    by_cases hne : me = u
    · subst hne
      exact own k x us hQ hP hreach hhanded hturn hstack
    · have hother : k.sched.turn ≠ .held me := by
        rw [hturn]
        exact fun he => hne (Turn.held.inj he).symm
      have hs := hreach.sound hhanded
      have hown := (hs.spares hturn hstack hids').own me hne (live k hQ hreach hhanded hother)
      exact congr k _ hQ hown (stake_other (hreach.lockQueues hhanded) hs hstack hne)
        (absurd · hother)
  · exact fun k s hQ _ _ hturn _ => congr k _ hQ rfl (fun _ => rfl) (absurd · (hturn me))
  · exact fun k s hQ hquiet _ =>
      congr k _ hQ rfl (fun _ => rfl) fun ht => ⟨hquiet.turn.trans ht, rfl⟩

/-- The same when the stakes make no difference. -/
theorem Along.keeps_own {P Q : Machine → Prop} (hrun : Along P m n) (hr : Reaches p.machine m)
    (hids : n.sched.ids.handed ≤ UInt64.size) (start : Q m)
    (own : ∀ k x us, Q k → P k → Reaches p.machine k → k.sched.ids.handed ≤ UInt64.size →
      k.sched.turn = .held me → k.stackOf me = x :: us → Q ((k.setStack me us).perform me x))
    (live : ∀ k, Q k → Reaches p.machine k → k.sched.ids.handed ≤ UInt64.size →
      k.sched.turn ≠ .held me → k.sched.isLive me = true)
    (congr : ∀ k k', Q k → k'.threads.get me = k.threads.get me →
      (k.sched.turn = .held me → k'.sched.turn = .held me ∧ k'.locks = k.locks) → Q k') :
    Q n :=
  hrun.keeps_stakes hr hids start own live fun k k' hQ hown _ => congr k k' hQ hown

/-- However the run goes on, the call stays on its way until it is over. -/
theorem InCall.along (h : InCall l ts v me m) (hr : Reaches p.machine m)
    (hrun : Along (fun k => k.stackOf me ≠ ts) m n)
    (hids : n.sched.ids.handed ≤ UInt64.size) : InCall l ts v me n :=
  hrun.keeps_own hr hids h
    (fun _ _ _ hcall hbusy hreach hhanded hturn hstack =>
      hcall.perform hreach hhanded hturn hstack hbusy)
    (fun _ hcall hreach hhanded hturn => hcall.live hreach hhanded hturn)
    fun _ _ hcall hown hheld => hcall.congr hown (fun ht => (hheld ht).1)
      fun ht => congrArg (Store.get · l) (hheld ht).2

/-- A call that is over has answered its verdict. -/
theorem InCall.fault? (h : InCall l ts v me m) (hstack : m.stackOf me = ts) :
    (m.replyOf me).fault? = v := by
  cases h with
  | closing _ hv | leaving _ hv | ended _ hv | queued _ hv | asleep _ _ hv => exact hv
  | asking c _ _ hs | deciding c _ _ hs | between side _ _ hs | again side _ _ hs =>
      have hlength := congrArg List.length (hs.symm.trans hstack)
      simp [Task.section] at hlength
      try omega

/-! ## Sections that leave everything as it was -/

/-- Beside the thread's own part, the log and the mutexes nothing differs. -/
structure Unmoved (me : ThreadId) (m k : Machine) : Prop where
  others : ∀ t, t ≠ me → k.threads.get t = m.threads.get t
  locks : ∀ l, k.locks.get l = m.locks.get l
  sched : { k.sched with journal := m.sched.journal } = m.sched
  rest : { k with
    threads := m.threads, mutexes := m.mutexes, locks := m.locks, sched := m.sched } = m

theorem Unmoved.refl (me : ThreadId) (m : Machine) : Unmoved me m m :=
  ⟨fun _ _ => rfl, fun _ => rfl, rfl, rfl⟩

theorem Unmoved.trans {k : Machine} (h : Unmoved me m n) (h' : Unmoved me n k) :
    Unmoved me m k where
  others t ht := (h'.others t ht).trans (h.others t ht)
  locks l := (h'.locks l).trans (h.locks l)
  sched := (congrArg (fun s : Sched => { s with journal := m.sched.journal }) h'.sched).trans
    h.sched
  rest := (congrArg (fun x : Machine => { x with
    threads := m.threads, mutexes := m.mutexes, locks := m.locks, sched := m.sched }) h'.rest).trans
    h.rest

theorem unmoved_onThread (me : ThreadId) (f : Thread → Thread) (m : Machine) :
    Unmoved me m { m with threads := m.threads.update me f } :=
  { Unmoved.refl me m with others := fun _ ht => (Store.get_update ..).trans (if_neg ht) }

theorem unmoved_setMutex (me : ThreadId) (name : MutexName) (x : Mutex) (m : Machine) :
    Unmoved me m (m.setMutex name x) :=
  { Unmoved.refl me m with }

theorem unmoved_note (me : ThreadId) (notice : Notice) (m : Machine) :
    Unmoved me m (m.note notice) :=
  { Unmoved.refl me m with }

/-- A lock is set to the state that it has. -/
theorem unmoved_setLock (me : ThreadId) (l : LockName) (m : Machine) :
    Unmoved me m (m.setLock l (m.locks.get l)) :=
  { Unmoved.refl me m with
    locks := fun k => by
      show (m.locks.set l _).get k = _
      rw [Store.get_set]
      split
      · rw [‹k = l›]
      · rfl }

/-- A task that answers and ends its section, and else moves nothing. -/
structure Ends (l : LockName) (new : List Task) (r : Reply) (me : ThreadId) (m k : Machine) :
    Prop extends Unmoved me m k where
  mutexes : k.mutexes = m.mutexes
  stack : k.stackOf me = .closeSection l :: (new ++ m.stackOf me)
  reply : k.replyOf me = r

theorem Unmoved.ends (h : Unmoved me m n) (hmutexes : n.mutexes = m.mutexes)
    (hthread : n.threads.get me = m.threads.get me) (r : Reply) :
    Ends l [] r me m ((n.answer me r).push me [.closeSection l]) :=
  { (h.trans (unmoved_onThread me _ n)).trans (unmoved_onThread me _ _) with
    mutexes := hmutexes
    stack := by
      rw [stackOf_push, stackOf_answer, stackOf, hthread]
      rfl
    reply := by rw [replyOf_push, replyOf_answer] }

theorem Unmoved.turn (h : Unmoved me m n) : n.sched.turn = m.sched.turn :=
  (congrArg Sched.turn h.sched : _)

/-- Within a section of `l` of such tasks: the inner mutex is taken, and these are the thread's
tasks and its reply. -/
structure Within (me : ThreadId) (l : LockName) (us : List Task) (r : Reply) (m k : Machine) : Prop
    extends Unmoved me m k where
  mutexes : k.mutexes = m.mutexes.set (.inner l) ⟨some me, []⟩
  stack : k.stackOf me = us
  reply : k.replyOf me = r

/-- The thread has gone on to `ts` with a reply, and nothing but the log tells of it. -/
structure Intact (me : ThreadId) (ts : List Task) (r : Reply) (m k : Machine) : Prop
    extends Unmoved me m k where
  mutexes : ∀ name, k.mutexes.get name = m.mutexes.get name
  stack : k.stackOf me = ts
  reply : k.replyOf me = r

theorem Intact.trans {us : List Task} {r' : Reply} {k : Machine} (h : Intact me us r m n)
    (h' : Intact me ts r' n k) : Intact me ts r' m k :=
  { h.toUnmoved.trans h'.toUnmoved with
    mutexes := fun name => (h'.mutexes name).trans (h.mutexes name)
    stack := h'.stack
    reply := h'.reply }

theorem within_acquire (hturn : m.sched.turn = .held me)
    (hstack : m.stackOf me = .acquire (.inner l) :: us)
    (hfree : m.mutexes.get (.inner l) = .free) :
    ∃ k, m.step = some k ∧ Within me l us (m.replyOf me) m k := by
  have hacquire : (m.setStack me us).perform me (.acquire (.inner l)) =
      (m.setStack me us).setMutex (.inner l) ⟨some me, []⟩ := by
    show (m.setStack me us).acquire me (.inner l) = _
    rw [acquire, show (m.setStack me us).mutexes = m.mutexes from rfl, hfree]
    rfl
  refine ⟨_, step_of_held hturn hstack, ?_⟩
  rw [hacquire]
  exact { (unmoved_onThread me _ m).trans (unmoved_setMutex me _ _ _) with
    mutexes := rfl
    stack := stackOf_onThread me _ m
    reply := replyOf_setStack me us m }

namespace Within

variable {k : Machine}

theorem step (h : Within me l (x :: us) r m k) (hturn : m.sched.turn = .held me) :
    k.step = some ((k.setStack me us).perform me x) :=
  step_of_held (h.turn.trans hturn) h.stack

/-- The task of the section. -/
theorem ends {new : List Task} {r' : Reply} (h : Within me l (x :: us) r m k)
    (hends : ∀ n : Machine, n.stackOf me = us → n.replyOf me = r →
      n.locks.get l = m.locks.get l → Ends l new r' me n (n.perform me x)) :
    Within me l (.closeSection l :: (new ++ us)) r' m ((k.setStack me us).perform me x) := by
  have hus : (k.setStack me us).stackOf me = us := stackOf_onThread ..
  have hended := hends _ hus ((replyOf_setStack me us k).trans h.reply) (h.locks l)
  exact { (h.toUnmoved.trans (unmoved_onThread me _ k)).trans hended.toUnmoved with
    mutexes := hended.mutexes.trans h.mutexes
    stack := by rw [hended.stack, hus]
    reply := hended.reply }

/-- The check of the state, which is the one of before. -/
theorem close (h : Within me l (.closeSection l :: us) r m k)
    (hregular : (m.locks.get l).Regular) :
    Within me l (.release (.inner l) :: us) r m
      ((k.setStack me us).perform me (.closeSection l)) := by
  have hsame : (k.setStack me us).locks.get l = m.locks.get l := h.locks l
  rw [perform_closeSection (hsame ▸ hregular)]
  exact { (h.toUnmoved.trans (unmoved_onThread me _ k)).trans (unmoved_onThread me _ _) with
    mutexes := h.mutexes
    stack := by
      rw [stackOf_push, show (k.setStack me us).stackOf me = us from stackOf_onThread ..]
      rfl
    reply := by rw [replyOf_push, replyOf_setStack, h.reply] }

/-- The inner mutex is free again. -/
theorem leave (h : Within me l (.release (.inner l) :: us) r m k)
    (hfree : m.mutexes.get (.inner l) = .free) :
    Intact me us r m ((k.setStack me us).perform me (.release (.inner l))) := by
  have hrelease : (k.setStack me us).perform me (.release (.inner l)) =
      (k.setStack me us).setMutex (.inner l) .free := by
    refine release_eq_setMutex_free ?_
    show k.mutexes.get (.inner l) = _
    rw [h.mutexes, Store.get_set, if_pos rfl]
  rw [hrelease]
  exact { (h.toUnmoved.trans (unmoved_onThread me _ k)).trans (unmoved_setMutex me _ .free _) with
    mutexes := by
      intro name
      show (k.mutexes.set _ _).get name = _
      rw [h.mutexes, Store.set_set, Store.get_set]
      split
      · rw [‹name = _›, hfree]
      · rfl
    stack := stackOf_onThread me _ k
    reply := (replyOf_setStack me us k).trans h.reply }

end Within

theorem run_succ_of_step {k : Machine} (fuel : Nat) (hstep : m.step = some k) :
    m.run (fuel + 1) = k.run fuel := by
  rw [Machine.run, hstep]

theorem run_add (a b : Nat) (m : Machine) : m.run (a + b) = (m.run a).run b := by
  induction a generalizing m with
  | zero => rw [Nat.zero_add, Machine.run]
  | succ a ih =>
      rw [Nat.add_right_comm]
      cases hstep : m.step with
      | none =>
          have hstays : ∀ fuel, m.run fuel = m := fun fuel => by
            cases fuel with
            | zero => rfl
            | succ fuel => rw [Machine.run, hstep]
          simp only [hstays]
      | some k => rw [run_succ_of_step _ hstep, run_succ_of_step _ hstep, ih]

theorem Along.run {P : Machine → Prop} (fuel : Nat) (h : ∀ k < fuel, P (m.run k)) :
    Along P m (m.run fuel) := by
  induction fuel with
  | zero => exact .refl
  | succ fuel ih =>
      have hrun := ih fun k hk => h k (Nat.lt_succ_of_lt hk)
      rw [run_add]
      cases hstep : (m.run fuel).step with
      | none =>
          rw [show (m.run fuel).run 1 = m.run fuel by rw [Machine.run, hstep]]
          exact hrun
      | some k =>
          rw [run_succ_of_step 0 hstep]
          exact hrun.step (h fuel (Nat.lt_succ_self fuel)) hstep

/-- A section with such a task takes four steps. -/
theorem intact_section {new : List Task} (hturn : m.sched.turn = .held me)
    (hstack : m.stackOf me = Task.section l x ++ ts) (hfree : m.mutexes.get (.inner l) = .free)
    (hregular : (m.locks.get l).Regular)
    (hends : ∀ n : Machine, n.stackOf me = ts → n.replyOf me = m.replyOf me →
      n.locks.get l = m.locks.get l → Ends l new r me n (n.perform me x)) :
    Intact me (new ++ ts) r m (m.run 4) := by
  obtain ⟨k, hstep, hwithin⟩ := within_acquire hturn hstack hfree
  have hended := hwithin.ends hends
  have hclosed := hended.close hregular
  rw [run_succ_of_step 3 hstep, run_succ_of_step 2 (hwithin.step hturn),
    run_succ_of_step 1 (hended.step hturn), run_succ_of_step 0 (hclosed.step hturn)]
  exact hclosed.leave hfree

theorem ends_request_refused {e : Fault} (side : RwSide)
    (he : side.lockCall.refusal? me (m.locks.get l) = some e) :
    Ends l [] (.fault e) me m (m.perform me (side.request l)) := by
  obtain ⟨hout, rfl⟩ := RwState.request_of_refusal? he
  obtain ⟨notice, hperform⟩ := perform_request_refused hout
  rw [hperform]
  exact ((unmoved_setLock me l m).trans (unmoved_note me notice _)).ends rfl rfl _

theorem ends_release_refused {e : Fault} (side : RwSide)
    (he : side.unlockCall.refusal? me (m.locks.get l) = some e) :
    Ends l [] (.fault e) me m (m.perform me (side.release l)) := by
  obtain ⟨hout, rfl⟩ := RwState.release_of_refusal? he
  obtain ⟨notice, hperform⟩ := perform_release_of_none hout
  rw [hperform]
  exact (unmoved_note me notice m).ends rfl rfl _

theorem ends_attempt_failed (side : RwSide) (hv : ((m.locks.get l).attempt me side).1 = false) :
    Ends l [] (.bool false) me m (m.perform me (side.attempt l)) := by
  rw [perform_attempt, RwState.attempt_of_false hv, hv]
  exact (unmoved_setLock me l m).ends rfl rfl _

/-- The first section of `unlock` only looks which hold its caller has. -/
theorem ends_releaseHeld (me : ThreadId) (m : Machine) (l : LockName) :
    Ends l (Task.section l ((RwSide.ofFlag ((m.locks.get l).writer = some me)).release l))
      (m.replyOf me) me m (m.perform me (.releaseHeld l)) :=
  { unmoved_onThread me _ m with
    mutexes := rfl
    stack := by
      show (m.releaseHeld me l).stackOf me = _
      rw [releaseHeld, stackOf_push]
      by_cases hw : (m.locks.get l).writer = some me
      · simp [hw, RwSide.ofFlag, RwSide.release, Task.section]
      · simp [hw, RwSide.ofFlag, RwSide.release, Task.section]
    reply := replyOf_push me _ m }

variable {e : Fault}

/-- A call that is refused leaves everything as it was. -/
theorem intact_of_refused (hturn : m.sched.turn = .held me)
    (hstack : m.stackOf me = Task.section l (c.task l) ++ ts)
    (hfree : m.mutexes.get (.inner l) = .free) (hregular : (m.locks.get l).Regular)
    (he : c.refusal? me (m.locks.get l) = some e) :
    Intact me ts (.fault e) m (m.run c.taskCount) := by
  have hrequest : ∀ side : RwSide, m.stackOf me = Task.section l (side.request l) ++ ts →
      side.lockCall.refusal? me (m.locks.get l) = some e → Intact me ts (.fault e) m (m.run 4) :=
    fun side hs he => intact_section hturn hs hfree hregular fun n _ _ hlock =>
      ends_request_refused side (hlock.symm ▸ he)
  have hrelease : ∀ {m : Machine} (side : RwSide), m.sched.turn = .held me →
      m.stackOf me = Task.section l (side.release l) ++ ts →
      m.mutexes.get (.inner l) = .free → (m.locks.get l).Regular →
      side.unlockCall.refusal? me (m.locks.get l) = some e →
      Intact me ts (.fault e) m (m.run 4) :=
    fun side hturn hs hfree hregular he => intact_section hturn hs hfree hregular
      fun n _ _ hlock => ends_release_refused side (hlock.symm ▸ he)
  cases c with
  | readLock => exact hrequest .read hstack he
  | writeLock => exact hrequest .write hstack he
  | tryReadLock | tryWriteLock => cases he
  | readUnlock => exact hrelease .read hturn hstack hfree hregular he
  | writeUnlock => exact hrelease .write hturn hstack hfree hregular he
  | unlock =>
      -- The second section finds what the first one did.
      have hlook : Intact me _ _ m (m.run 4) := intact_section hturn hstack hfree hregular
        fun n _ hr hlock => hlock ▸ hr ▸ ends_releaseHeld me n l
      rw [RwState.refusal?_unlock] at he
      rw [show RwCall.unlock.taskCount = 4 + 4 from rfl, run_add]
      refine hlook.trans (hrelease _ (hlook.turn.trans hturn) hlook.stack ?_ ?_ ?_)
      · rw [hlook.mutexes, hfree]
      · rw [hlook.locks]
        exact hregular
      · rw [hlook.locks]
        exact he

/-- So does an attempt that takes nothing. -/
theorem intact_of_untaken (side : RwSide) (hturn : m.sched.turn = .held me)
    (hstack : m.stackOf me = Task.section l (side.tryCall.task l) ++ ts)
    (hfree : m.mutexes.get (.inner l) = .free) (hregular : (m.locks.get l).Regular)
    (hv : ((m.locks.get l).attempt me side).1 = false) :
    Intact me ts (.bool false) m (m.run side.tryCall.taskCount) := by
  rw [show side.tryCall.taskCount = 4 by cases side <;> rfl]
  have hends : ∀ n : Machine, n.locks.get l = m.locks.get l →
      Ends l [] (.bool false) me n (n.perform me (side.tryCall.task l)) := by
    intro n hlock
    rw [show side.tryCall.task l = side.attempt l by cases side <;> rfl]
    exact ends_attempt_failed side (hlock.symm ▸ hv)
  exact intact_section hturn hstack hfree hregular fun n _ _ hlock => hends n hlock

/-- What holds of a call of a lock that the thread is about to carry out, with `ts` below it on the
stack. -/
structure KeepsContract (me : ThreadId) (l : LockName) (c : RwCall) (ts : List Task) (m : Machine) :
    Prop where
  /-- Whatever happens until the call is over, it answers the error of its refusal, if there is
  one. -/
  exact_refusal : ∀ n, Along (fun k => k.stackOf me ≠ ts) m n → n.sched.ids.history.Nodup →
    n.stackOf me = ts → (n.replyOf me).fault? = c.refusal? me (m.locks.get l)
  /-- If it is refused it gives the inner mutex back, wakes nobody and changes nothing. -/
  refused : ∀ e, c.refusal? me (m.locks.get l) = some e →
    Intact me ts (.fault e) m (m.run c.taskCount) ∧
      (m.run c.taskCount).mutexes.get (.inner l) = .free
  /-- So does an attempt that takes nothing. -/
  untaken : ∀ side : RwSide, c = side.tryCall → ((m.locks.get l).attempt me side).1 = false →
    Intact me ts (.bool false) m (m.run c.taskCount) ∧
      (m.run c.taskCount).mutexes.get (.inner l) = .free

theorem Reaches.keepsContract (h : Reaches p.machine m) (hids : m.sched.ids.history.Nodup)
    (hturn : m.sched.turn = .held me) (hstack : m.stackOf me = Task.section l (c.task l) ++ ts) :
    m.KeepsContract me l c ts := by
  have hhanded := IdAllocator.nodup_history_iff.mp hids
  have hfree := h.innerFree hhanded hturn hstack l
  have hregular := (h.lockQueues hhanded).regular l
  refine ⟨fun n hrun hids' hover => ?_, fun e he => ?_, ?_⟩
  · exact ((InCall.asking c hturn rfl hstack).along h hrun
      (IdAllocator.nodup_history_iff.mp hids')).fault? hover
  · have hintact := intact_of_refused hturn hstack hfree hregular he
    exact ⟨hintact, (hintact.mutexes _).trans hfree⟩
  · rintro side rfl hv
    have hintact := intact_of_untaken side hturn hstack hfree hregular hv
    exact ⟨hintact, (hintact.mutexes _).trans hfree⟩

end Machine

open Machine (Reaches)

/-- In every session of workers, and in every run of a program, a call of a reader/writer lock fails
exactly if it is refused; a call that fails, or that takes nothing, leaves everything as it was. -/
theorem calls_keep_contract :
    (∀ (s : RwSession) (t : ThreadId) (c : RwCall), s.Reachable → s.phase t = .idle →
      s.KeepsContract t c) ∧
    (∀ (me : ThreadId) (k : Nat) (c : RwCall),
      (c.instr k).replyTasks .coop me = Task.section (.raw k) (c.task (.raw k))) ∧
    ∀ (p : Program) (m : Machine) (me : ThreadId) (l : LockName) (c : RwCall) (ts : List Task),
      Reaches p.machine m → m.sched.ids.history.Nodup → m.sched.turn = .held me →
      m.stackOf me = Task.section l (c.task l) ++ ts → m.KeepsContract me l c ts :=
  ⟨fun _ _ c h hidle => h.keepsContract hidle c, RwCall.replyTasks_instr,
    fun _ _ _ _ _ _ h hids hturn hstack => h.keepsContract hids hturn hstack⟩

/-- The main thread reads, a second one waits to write, and the main thread asks for the write hold
as well. -/
def upgrading : Program :=
  { Program.blank with code :=
      [[.readLock 0, .spawn 1, .yield, .writeLock 0], [.writeLock 0]] }

/-- The request of the reader is refused, and the second thread still waits alone. In a session the
same happens between three workers, of which one reads twice. -/
theorem calls_keep_contract_upgrading :
    let m := upgrading.final 26
    let s := (((RwSession.start.call 1 .readLock).call 1 .readLock).call 2 .readLock).call 3
      .writeLock
    (m.run 4).replyOf 1 = .fault .wouldDeadlock ∧
      (m.run 4).locks.get (.raw 0) = ⟨none, [1], [], [2]⟩ ∧
      (m.run 4).mutexes.get (.inner (.raw 0)) = .free ∧
      s.lock = ⟨none, [1, 1, 2], [], [3]⟩ ∧ (s.call 1 .writeLock).lock = s.lock := by
  intro m s
  have hs : s.Reachable := .call 3 _ (.call 2 _ (.call 1 _ (.call 1 _ .start)))
  have hm : Reaches upgrading.machine m := (Reaches.refl _).run 26
  have hsession := calls_keep_contract.1 s 1 .writeLock hs (by decide)
  have hmachine := calls_keep_contract.2.2 upgrading m 1 (.raw 0) .writeLock
    [.report "write_lock", .exit] hm (by decide) (by decide) rfl
  obtain ⟨hintact, hfree⟩ := hmachine.refused .wouldDeadlock (by decide)
  refine ⟨hintact.reply, (hintact.locks _).trans (by decide), hfree, by decide, ?_⟩
  exact (hsession.refused .wouldDeadlock (by decide) (by decide)).lock

end Baton
