import Baton.Proofs.Program.Cells
import Baton.Proofs.Program.Pairing
import Baton.Proofs.Program.Refusals

/-!
# Machine: sleeping while a test holds

A thread that sleeps on a condition while a test holds evaluates the test, and sleeps and begins
anew if it holds. Whatever wakes it, and whoever has the cell in between, it evaluates the test only
when it owns the cell again, and it goes on in the very step in which the test fails. With the guard
of another cell than the condition's it evaluates the test once and does not sleep.
-/

namespace Baton

namespace Machine

variable {p : Program} {m m' n : Machine} {me : ThreadId} {x : Task} {ts us : List Task} {c k : Nat}
  {test : Test}

/-! ## Points of a call -/

/-- Where a thread stands that sleeps on the condition `k` of the cell `c` while a test holds; below
the call its tasks are `ts`. Between the release of the cell and the new request for it the thread
has no claim on the cell. -/
inductive SleepPoint (me : ThreadId) (k c : Nat) (test : Test) (ts : List Task) (m : Machine) :
    Prop where
  | testing : m.sched.turn = .held me → m.stackOf me = .condSleepWhile k test :: ts →
      SleepPoint me k c test ts m
  | registering : m.sched.turn = .held me →
      m.stackOf me = .sleepOn (.cond k) (.cell c) :: .condSleepWhile k test :: ts →
      SleepPoint me k c test ts m
  | releasing : m.sched.turn = .held me →
      m.stackOf me = .release (.cell c) :: .suspend :: .leave (.cond k) :: .acquire (.cell c) ::
        .condSleepWhile k test :: ts → SleepPoint me k c test ts m
  | suspending : m.sched.turn = .held me → m.cellClaims me c = 0 →
      m.stackOf me = .suspend :: .leave (.cond k) :: .acquire (.cell c) ::
        .condSleepWhile k test :: ts → SleepPoint me k c test ts m
  | leaving : m.cellClaims me c = 0 →
      m.stackOf me = .leave (.cond k) :: .acquire (.cell c) :: .condSleepWhile k test :: ts →
      SleepPoint me k c test ts m
  | acquiring : m.sched.turn = .held me → m.cellClaims me c = 0 →
      m.stackOf me = .acquire (.cell c) :: .condSleepWhile k test :: ts →
      SleepPoint me k c test ts m
  | waiting : m.sched.turn = .held me →
      m.stackOf me = .suspend :: .awaitOwner (.cell c) :: .condSleepWhile k test :: ts →
      SleepPoint me k c test ts m
  | awaiting : m.stackOf me = .awaitOwner (.cell c) :: .condSleepWhile k test :: ts →
      SleepPoint me k c test ts m

/-- In the step from `m` to `n` the thread evaluates the test, which fails, and goes on to `ts`. -/
structure Falls (me : ThreadId) (k c : Nat) (test : Test) (ts : List Task) (m n : Machine) :
    Prop where
  turn : m.sched.turn = .held me
  stack : m.stackOf me = .condSleepWhile k test :: ts
  fails : test c m.memory = .ok (false, n.memory)
  keeps : n.sched = m.sched ∧ n.mutexes = m.mutexes ∧ n.rendezvous = m.rendezvous
  after : n.stackOf me = ts
  reply : n.replyOf me = .null

theorem turn_perform (hx : x.changesRun = false) : (m.perform me x).sched.turn = m.sched.turn :=
  (perform_gentle hx).1.quiet.turn

/-- An evaluation of a test that does not panic. -/
theorem condSleepWhile_of_ok {again : Bool} {memory : Memory}
    (hguard : m.guard? me = some (.cell c)) (htest : test c m.memory = .ok (again, memory)) :
    m.condSleepWhile me k test = if again then
      { m with memory }.condSleepWith me k c [.condSleepWhile k test]
      else { m with memory }.answer me .null := by
  rw [condSleepWhile, hguard]
  dsimp only
  rw [htest]

/-- With the guard of the condition's cell the thread sleeps, or the test fails and it goes on. -/
theorem sleepPoint_test (hturn : m.sched.turn = .held me)
    (hstack : m.stackOf me = .condSleepWhile k test :: ts) (hguard : m.guard? me = some (.cell c))
    (hpair : m.pairedCell k = c)
    (htotal : ∀ memory, ∃ again memory', test c memory = .ok (again, memory')) :
    SleepPoint me k c test ts ((m.setStack me ts).perform me (.condSleepWhile k test)) ∨
      Falls me k c test ts m ((m.setStack me ts).perform me (.condSleepWhile k test)) := by
  have hts : (m.setStack me ts).stackOf me = ts := stackOf_onThread ..
  obtain ⟨again, memory, htest⟩ := htotal m.memory
  have hstep : (m.setStack me ts).perform me (.condSleepWhile k test) = _ :=
    condSleepWhile_of_ok (m := m.setStack me ts) ((guard?_setStack hstack rfl).trans hguard) htest
  rw [hstep]
  cases again with
  | true =>
      have hpaired : ({ m.setStack me ts with memory } : Machine).pairedCell k = c := hpair
      rw [if_pos rfl, condSleepWith, if_pos hpaired]
      refine .inl (.registering hturn ?_)
      rw [stackOf_push, stackOf_answer]
      exact congrArg (_ ++ ·) hts
  | false =>
      rw [if_neg Bool.false_ne_true]
      exact .inr ⟨hturn, hstack, htest, ⟨rfl, rfl, rfl⟩,
        (stackOf_answer me _ { m.setStack me ts with memory }).trans hts,
        replyOf_answer me _ { m.setStack me ts with memory }⟩

/-- A step of the thread itself: it stays in the call until the test fails. -/
theorem SleepPoint.perform (h : SleepPoint me k c test ts m) (hr : Reaches p.machine m)
    (hids : m.sched.ids.handed ≤ UInt64.size) (hturn : m.sched.turn = .held me)
    (hstack : m.stackOf me = x :: us)
    (hguard : m.stackOf me = .condSleepWhile k test :: ts → m.guard? me = some (.cell c))
    (hpair : m.pairedCell k = c)
    (htotal : ∀ memory, ∃ again memory', test c memory = .ok (again, memory')) :
    SleepPoint me k c test ts ((m.setStack me us).perform me x) ∨
      Falls me k c test ts m ((m.setStack me us).perform me x) := by
  have hus : (m.setStack me us).stackOf me = us := stackOf_onThread ..
  have hkeeps : x.changesRun = false → ((m.setStack me us).perform me x).sched.turn = .held me :=
    fun hx => (turn_perform hx).trans hturn
  cases h with
  | testing _ hs =>
      obtain ⟨rfl, rfl⟩ := List.cons.inj (hstack.symm.trans hs)
      exact sleepPoint_test hturn hs (hguard hs) hpair htotal
  | registering _ hs =>
      obtain ⟨rfl, rfl⟩ := List.cons.inj (hstack.symm.trans hs)
      refine .inl (.releasing (hkeeps rfl) ?_)
      show (((m.setStack me _).setRendez _ _).push me _).stackOf me = _
      rw [stackOf_push]
      exact congrArg (_ ++ ·) hus
  | releasing _ hs =>
      obtain ⟨rfl, rfl⟩ := List.cons.inj (hstack.symm.trans hs)
      have hregular := (hr.mutexQueues hids).regular (.cell c)
      have howner := hr.owner_of_release hids hturn hstack
      exact .inl (.suspending (hkeeps rfl)
        (cellClaims_release_self (m := m.setStack me _) hregular howner)
        ((stackOf_release _).trans hus))
  | suspending _ hclaims hs =>
      obtain ⟨rfl, rfl⟩ := List.cons.inj (hstack.symm.trans hs)
      exact .inl (.leaving hclaims hus)
  | leaving hclaims hs =>
      obtain ⟨rfl, rfl⟩ := List.cons.inj (hstack.symm.trans hs)
      exact .inl (.acquiring (hkeeps rfl) hclaims hus)
  | acquiring _ hclaims hs =>
      obtain ⟨rfl, rfl⟩ := List.cons.inj (hstack.symm.trans hs)
      have hne := (Mutex.claim_eq_zero_iff.mp hclaims).1
      rcases acquire_cases me (.cell c) (m.setStack me _) with ⟨ho, -⟩ | ⟨-, -, hstays⟩ |
        ⟨-, -, -, hwaits⟩
      · exact absurd ho hne
      · exact .inl (.testing (hkeeps rfl) (hstays.trans hus))
      · exact .inl (.waiting (hkeeps rfl) (hwaits.trans (congrArg (_ :: _ :: ·) hus)))
  | waiting _ hs =>
      obtain ⟨rfl, rfl⟩ := List.cons.inj (hstack.symm.trans hs)
      exact .inl (.awaiting hus)
  | awaiting hs =>
      obtain ⟨rfl, rfl⟩ := List.cons.inj (hstack.symm.trans hs)
      rcases awaitOwner_cases me (.cell c) (m.setStack me _) with ⟨-, hstays⟩ | ⟨-, hwaits⟩
      · refine .inl (.testing (hkeeps rfl) ?_)
        rw [show (m.setStack me _).perform me (.awaitOwner (.cell c)) = _ from hstays, hus]
      · exact .inl (.waiting (hkeeps rfl) (hwaits.trans (congrArg (_ :: _ :: ·) hus)))

/-- A thread in the call that has given the turn away comes back to the cell, so it has not
ended. -/
theorem SleepPoint.live (h : SleepPoint me k c test ts m) (hr : Reaches p.machine m)
    (hids : m.sched.ids.handed ≤ UInt64.size) (hturn : m.sched.turn ≠ .held me) :
    m.sched.isLive me = true := by
  by_contra hdead
  have hplain := hr.plain_of_dead hids me (by simpa using hdead)
  unfold Plain at hplain
  cases h with
  | leaving _ hs | awaiting hs =>
      rw [hs] at hplain
      cases hplain _ List.mem_cons_self
  | _ => exact hturn ‹_›

/-- What others do makes no difference to the call. -/
theorem SleepPoint.congr (h : SleepPoint me k c test ts m)
    (hthread : n.threads.get me = m.threads.get me)
    (hclaims : n.cellClaims me c = m.cellClaims me c)
    (hturn : m.sched.turn = .held me → n.sched.turn = .held me) : SleepPoint me k c test ts n := by
  have hs : n.stackOf me = m.stackOf me := congrArg Thread.stack hthread
  cases h with
  | testing ht he => exact .testing (hturn ht) (hs.trans he)
  | registering ht he => exact .registering (hturn ht) (hs.trans he)
  | releasing ht he => exact .releasing (hturn ht) (hs.trans he)
  | suspending ht hc he => exact .suspending (hturn ht) (hclaims.trans hc) (hs.trans he)
  | leaving hc he => exact .leaving (hclaims.trans hc) (hs.trans he)
  | acquiring ht hc he => exact .acquiring (hturn ht) (hclaims.trans hc) (hs.trans he)
  | waiting ht he => exact .waiting (hturn ht) (hs.trans he)
  | awaiting he => exact .awaiting (hs.trans he)

theorem SleepPoint.stack_ne (h : SleepPoint me k c test ts m) : m.stackOf me ≠ ts := by
  intro he
  cases h with
  | testing _ hs | registering _ hs | releasing _ hs | suspending _ _ hs | leaving _ hs
  | acquiring _ _ hs | waiting _ hs | awaiting hs =>
      have hlength := congrArg List.length (he.symm.trans hs)
      simp at hlength
      try omega

/-! ## The call -/

/-- The call is on its way, or it is over and the thread has the turn. -/
def SleepingWhile (me : ThreadId) (k c : Nat) (test : Test) (ts : List Task) (m : Machine) : Prop :=
  SleepPoint me k c test ts m ∨ (m.sched.turn = .held me ∧ m.stackOf me = ts)

theorem guard?_of_stack (h : n.stackOf me = m.stackOf me) : n.guard? me = m.guard? me := by
  rw [guard?, guard?, show (n.threads.get me).stack = (m.threads.get me).stack from h]

/-- However the run goes on, the thread stays in the call until the test fails. -/
theorem SleepingWhile.along (hr : Reaches p.machine m) (hturn : m.sched.turn = .held me)
    (hstack : m.stackOf me = .condSleepWhile k test :: ts) (hguard : m.guard? me = some (.cell c))
    (hpair : m.pairedCell k = c)
    (htotal : ∀ memory, ∃ again memory', test c memory = .ok (again, memory'))
    (hrun : Along (fun i => i.stackOf me ≠ ts) m n) (hids : n.sched.ids.handed ≤ UInt64.size) :
    SleepingWhile me k c test ts n := by
  have hown : ∀ i x us, SleepingWhile me k c test ts i → i.stackOf me ≠ ts →
      Reaches p.machine i → i.sched.ids.handed ≤ UInt64.size → i.sched.turn = .held me →
      i.stackOf me = x :: us → SleepingWhile me k c test ts ((i.setStack me us).perform me x) := by
    intro i x us hi hbusy hreach hhanded hheld hs
    have hpaired : i.pairedCell k = c := (hr.pairedCell_eq hreach k).trans hpair
    rcases hi with hpoint | ⟨-, hover⟩
    · refine (hpoint.perform hreach hhanded hheld hs (fun he => ?_) hpaired htotal).imp_right
        fun hfalls => ⟨?_, hfalls.after⟩
      · exact (guard?_of_stack (he.trans hstack.symm)).trans hguard
      · rw [hfalls.keeps.1]
        exact hheld
    · exact absurd hover hbusy
  refine hrun.keeps_stakes hr hids (.inl (.testing hturn hstack)) hown ?_ ?_
  · rintro i (hpoint | ⟨hheld, -⟩) hreach hhanded hother
    · exact hpoint.live hreach hhanded hother
    · exact absurd hheld hother
  · rintro i j (hpoint | ⟨hheld, hover⟩) hthread hstakes hkeeps
    · exact .inl (hpoint.congr hthread (hstakes (.mutex (.cell c))) fun ht => (hkeeps ht).1)
    · exact .inr ⟨(hkeeps hheld).1, (congrArg Thread.stack hthread).trans hover⟩

/-- When the call is over, it was the last step in which the test failed. -/
theorem SleepingWhile.exists_falls (hr : Reaches p.machine m) (hturn : m.sched.turn = .held me)
    (hstack : m.stackOf me = .condSleepWhile k test :: ts) (hguard : m.guard? me = some (.cell c))
    (hpair : m.pairedCell k = c)
    (htotal : ∀ memory, ∃ again memory', test c memory = .ok (again, memory'))
    (hrun : Along (fun i => i.stackOf me ≠ ts) m n) (hids : n.sched.ids.handed ≤ UInt64.size)
    (hover : n.stackOf me = ts) :
    ∃ i, Along (fun i => i.stackOf me ≠ ts) m i ∧ i.sched.ids.handed ≤ UInt64.size ∧
      i.step = some n ∧ Falls me k c test ts i n := by
  cases hrun with
  | refl => exact absurd (hstack.symm.trans hover) (List.cons_ne_self _ _)
  | wake id _ hbusy | elapse d _ hbusy | outage e _ hbusy => exact absurd hover hbusy
  | @step i _ hrun hbusy hstep =>
      have hhanded := Nat.le_trans (handed_le_of_step hstep) hids
      have hreach := hrun.reaches hr
      have hi := SleepingWhile.along hr hturn hstack hguard hpair htotal hrun hhanded
      have hpoint := hi.resolve_right fun hover => hbusy hover.2
      refine ⟨i, hrun, hhanded, hstep, ?_⟩
      rcases step_cases hstep with ⟨u, x, us, hheld, hs, rfl⟩ | ⟨-, s, -, rfl⟩
      · by_cases hne : me = u
        · subst hne
          have hpaired : i.pairedCell k = c := (hr.pairedCell_eq hreach k).trans hpair
          refine (hpoint.perform hreach hhanded hheld hs (fun he => ?_) hpaired htotal).resolve_left
            fun hn => hn.stack_ne hover
          exact (guard?_of_stack (he.trans hstack.symm)).trans hguard
        · have hother : i.sched.turn ≠ .held me := by
            rw [hheld]
            exact fun he => hne (Turn.held.inj he).symm
          have hown := ((hreach.sound hhanded).spares hheld hs hids).own me hne
            (hpoint.live hreach hhanded hother)
          exact absurd ((congrArg Thread.stack hown).symm.trans hover) hbusy
      · exact absurd hover hbusy

/-- With the guard of another cell the test is evaluated once, and nothing is released. -/
theorem condSleepWhile_of_ne {again : Bool} {memory : Memory}
    (hstack : m.stackOf me = .condSleepWhile k test :: ts) (hguard : m.guard? me = some (.cell c))
    (hother : m.pairedCell k ≠ c) (htest : test c m.memory = .ok (again, memory)) :
    let n := (m.setStack me ts).perform me (.condSleepWhile k test)
    n.stackOf me = ts ∧ n.replyOf me = (if again then .fault .wrongMutex else .null) ∧
      n.memory = memory ∧ n.mutexes = m.mutexes ∧ n.rendezvous = m.rendezvous ∧
      { n.sched with journal := m.sched.journal } = m.sched := by
  have hts : (m.setStack me ts).stackOf me = ts := stackOf_onThread ..
  have hstep : (m.setStack me ts).perform me (.condSleepWhile k test) = _ :=
    condSleepWhile_of_ok (m := m.setStack me ts) ((guard?_setStack hstack rfl).trans hguard) htest
  intro n
  rw [show n = _ from hstep]
  have hunpaired : ({ m.setStack me ts with memory } : Machine).pairedCell k ≠ c := hother
  cases again with
  | true =>
      rw [if_pos rfl, condSleepWith, if_neg hunpaired]
      exact ⟨(stackOf_answer me _ (note .wrongGuard { m.setStack me ts with memory })).trans hts,
        replyOf_answer me _ (note .wrongGuard { m.setStack me ts with memory }), rfl, rfl, rfl, rfl⟩
  | false =>
      exact ⟨(stackOf_answer me _ { m.setStack me ts with memory }).trans hts,
        replyOf_answer me _ { m.setStack me ts with memory }, rfl, rfl, rfl, rfl⟩

/-- A thread is about to evaluate a test that never panics, in a call that sleeps on a condition
while the test holds; its innermost guard is that of the cell `c`. It owns the cell. If the
condition is paired with the cell, the thread stays in the call, whatever the others do and whatever
wakes it, and owns the cell at each evaluation; when the call is over it has succeeded, the thread
owns the cell, and the step in which the test failed was the last one. If the condition is paired
with another cell, this evaluation is the only one, the call fails exactly if the test holds, and
the thread has not released anything or given the turn away. -/
theorem sleep_while_keeps_contract (hr : Reaches p.machine m) (hids : m.sched.ids.history.Nodup)
    (hturn : m.sched.turn = .held me) (hstack : m.stackOf me = .condSleepWhile k test :: ts)
    (hguard : m.guard? me = some (.cell c))
    (htotal : ∀ memory, ∃ again memory', test c memory = .ok (again, memory')) :
    (m.mutexes.get (.cell c)).owner = some me ∧
    (m.pairedCell k = c → ∀ n, Along (fun i => i.stackOf me ≠ ts) m n →
      n.sched.ids.history.Nodup →
      (n.stackOf me ≠ ts → SleepPoint me k c test ts n) ∧
      (n.stackOf me = .condSleepWhile k test :: ts →
        (n.mutexes.get (.cell c)).owner = some me ∧ n.guard? me = some (.cell c)) ∧
      (n.stackOf me = ts → n.replyOf me = .null ∧ n.sched.turn = .held me ∧
        (n.mutexes.get (.cell c)).owner = some me ∧
        ∃ i, Along (fun i => i.stackOf me ≠ ts) m i ∧ i.step = some n ∧
          Falls me k c test ts i n)) ∧
    (m.pairedCell k ≠ c → ∃ again n, m.step = some n ∧ test c m.memory = .ok (again, n.memory) ∧
      n.stackOf me = ts ∧ n.replyOf me = (if again then .fault .wrongMutex else .null) ∧
      n.mutexes = m.mutexes ∧ n.rendezvous = m.rendezvous ∧
      { n.sched with journal := m.sched.journal } = m.sched) := by
  have hhanded := IdAllocator.nodup_history_iff.mp hids
  refine ⟨hr.owner_of_guard? hhanded hturn hstack rfl hguard, fun hpair n hrun hids' => ?_,
    fun hother => ?_⟩
  · have hhanded' := IdAllocator.nodup_history_iff.mp hids'
    have hn := SleepingWhile.along hr hturn hstack hguard hpair htotal hrun hhanded'
    refine ⟨fun hbusy => hn.resolve_right fun hover => hbusy hover.2, fun hs => ?_, fun hover => ?_⟩
    · have hguard' : n.guard? me = some (.cell c) :=
        (guard?_of_stack (hs.trans hstack.symm)).trans hguard
      refine ⟨(hrun.reaches hr).owner_of_guard? hhanded' ?_ hs rfl hguard', hguard'⟩
      rcases hn with hpoint | hover
      · cases hpoint with
        | leaving _ he | awaiting he => cases hs.symm.trans he
        | _ => assumption
      · exact hover.1
    · obtain ⟨i, hi, hbound, hstep, hfalls⟩ :=
        SleepingWhile.exists_falls hr hturn hstack hguard hpair htotal hrun hhanded' hover
      refine ⟨hfalls.reply, ?_, ?_, i, hi, hstep, hfalls⟩
      · rw [hfalls.keeps.1]
        exact hfalls.turn
      · rw [hfalls.keeps.2.1]
        exact (hi.reaches hr).owner_of_guard? hbound hfalls.turn hfalls.stack rfl
          ((guard?_of_stack (hfalls.stack.trans hstack.symm)).trans hguard)
  · obtain ⟨again, memory, htest⟩ := htotal m.memory
    obtain ⟨hover, hreply, hmemory, hrest⟩ := condSleepWhile_of_ne hstack hguard hother htest
    exact ⟨again, _, step_of_held hturn hstack, by rw [hmemory, htest], hover, hreply, hrest⟩

end Machine

open Machine (Along Reaches)

/-- The main thread waits with the guard of the second cell on the condition of the first, and then,
with the right guard, for an element of the first cell, which a second thread brings. -/
def patientTaker : Program :=
  { Program.blank with
    code := [[.scope (.cell 1) [.condSleepWhile 0 Test.isEmpty], .spawn 1,
        .scope (.cell 0) [.condSleepWhile 0 Test.isEmpty]],
      [.scope (.cell 0) [.push 7], .condWake 0]]
    cells := [[], []]
    conds := [0] }

/-- The first wait fails at once; the second one ends when the list is not empty any more. -/
theorem Machine.sleep_while_keeps_contract_patientTaker :
    let first := patientTaker.final 5
    let second := patientTaker.final 19
    let n := patientTaker.final 48
    (∃ after, first.step = some after ∧ after.replyOf 1 = .fault .wrongMutex ∧
      after.mutexes = first.mutexes) ∧
    second.memory.list (.cell 0) = [] ∧ n.memory.list (.cell 0) = [7] ∧ n.replyOf 1 = .null ∧
      (n.mutexes.get (.cell 0)).owner = some 1 ∧ n.sched.turn = .held 1 := by
  have hover : (patientTaker.final 48).stackOf 1 =
      [.report "cond_sleep_while", .drop (.cell 0), .answer .null, .report "end", .exit] := by rfl
  intro first second n
  have hfirst : Reaches patientTaker.machine first := (Reaches.refl _).run 5
  have hsecond : Reaches patientTaker.machine second := (Reaches.refl _).run 19
  have htotal : ∀ c (memory : Memory), ∃ again memory',
      Test.isEmpty c memory = .ok (again, memory') := fun _ _ => ⟨_, _, rfl⟩
  have hbusy : ∀ j < 29, ((second.run j).stackOf 1).length ≠ 5 := by decide
  have hrun : Along (fun i => i.stackOf 1 ≠
      [.report "cond_sleep_while", .drop (.cell 0), .answer .null, .report "end", .exit])
      second n := by
    rw [show n = second.run 29 from Machine.run_add 19 29 _]
    exact Along.run 29 fun k hk he => hbusy k hk (congrArg List.length he)
  obtain ⟨-, -, hunpaired⟩ := Machine.sleep_while_keeps_contract (k := 0) (c := 1) hfirst
    (by decide) (show first.sched.turn = .held 1 by decide) rfl rfl (htotal 1)
  obtain ⟨again, after, hstep, htest, -, hfault, hmutexes, -⟩ := hunpaired (by decide)
  obtain ⟨-, hpaired, -⟩ := Machine.sleep_while_keeps_contract (k := 0) (c := 0) hsecond
    (by decide) (show second.sched.turn = .held 1 by decide) rfl rfl (htotal 0)
  obtain ⟨hreply, hturn, howner, -⟩ := (hpaired rfl n hrun (by decide)).2.2 hover
  have hholds : (Test.isEmpty 1 first.memory).map Prod.fst = .ok true := by decide
  obtain rfl : again = true :=
    Except.ok.inj ((congrArg (Except.map Prod.fst) htest).symm.trans hholds)
  exact ⟨⟨after, hstep, hfault, hmutexes⟩, by decide, by decide, hreply, howner, hturn⟩

end Baton
