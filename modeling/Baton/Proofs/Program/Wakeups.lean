import Baton.Proofs.Program.Course
import Baton.Proofs.Program.Order

/-!
# Machine: no wakeup is lost

At every moment of a run a stopped thread is registered with what it waits for, and that has not
happened. The invariant behind this is that every thread is on course and every stopped one is
registered; a step of the running thread keeps the course of that thread and spares the others, and
the search for the next thread and wakeups from outside spare everybody.
-/

namespace Baton

namespace Machine

open Sched (Moves Quiet)

variable {me t : ThreadId} {m m' : Machine} {ts : List Task} {x : Task}

/-- What holds of a machine at every moment of a run. -/
structure Sound (m : Machine) : Prop where
  coherent : m.sched.Coherent
  main_issued : m.sched.ids.Issued m.sched.main
  exclusive : ∀ l, (m.locks.get l).isExclusive = true
  handles : ∀ id ∈ m.handles, m.Spawned id
  course : ∀ t, m.sched.turn = .held t → Course t m (m.stackOf t)
  parked : ∀ t, m.sched.turn ≠ .held t → Parked t m (m.stackOf t)
  registered : ∀ t, m.sched.isStopped t = true →
    ∃ a, Await.of (m.stackOf t) = some a ∧ m.Pending t a

/-! ## When nobody runs -/

/-- The search for the next thread. -/
theorem Sound.search {s : Sched} (h : m.Sound) (hs : m.sched.search m.system = some s)
    (hturn : ∀ t, m.sched.turn ≠ .held t) : Sound { m with sched := s } := by
  have hspares : Spares (fun _ => True) m { m with sched := s } :=
    spares_onSched (Sched.spares_search hs)
  have hparked : ∀ t, Parked t { m with sched := s } (m.stackOf t) :=
    fun t => (h.parked t (hturn t)).mono fun _ => hspares.kept trivial
  exact {
    coherent := h.coherent.search hs
    main_issued := by
      show s.ids.Issued s.main
      rw [Sched.ids_search hs, (Sched.spares_search hs : Sched.Spares (fun _ => True) _ _).main]
      exact h.main_issued
    exclusive := h.exclusive
    handles := fun id hid => hspares.spawned id (h.handles id hid)
    course := fun t _ => .parked (hparked t)
    parked := fun t _ => hparked t
    registered := fun t ht => by
      obtain ⟨a, ha, hp⟩ := h.registered t (hspares.stopped t trivial ht)
      exact ⟨a, ha, hspares.pending trivial ht hp⟩ }

/-- A wakeup from outside, or the passing of time. -/
theorem Sound.onSched {s : Sched} (h : m.Sound) (hs : Sched.SameWaits m.sched s)
    (hq : Quiet m.sched s) (hstopped : ∀ t, s.isStopped t = true → m.sched.isStopped t = true) :
    Sound { m with sched := s } where
  coherent := hq.coherent h.coherent
  main_issued := by
    show s.ids.Issued s.main
    rw [hq.ids, hs.main]
    exact h.main_issued
  exclusive := h.exclusive
  handles id hid := by
    obtain ⟨hne, ho⟩ := h.handles id hid
    exact ⟨fun he => hne (he.trans hs.main), ho.imp_left ((hs.live id).trans ·)⟩
  course t ht := (h.course t (hq.turn.symm.trans ht)).mono (fun _ => kept_onSched hs)
    (fun _ => pending_onSched hs) rfl
  parked t ht := (h.parked t fun he => ht (hq.turn.trans he)).mono fun _ => kept_onSched hs
  registered t ht := by
    obtain ⟨a, ha, hp⟩ := h.registered t (hstopped t ht)
    exact ⟨a, ha, pending_onSched hs hp⟩

/-! ## A step of the running thread -/

/-- Only plain tasks are left when a task gives the turn away by other means than suspension. -/
theorem Course.plain_of_changesRun (h : Course me m (x :: ts)) (hx : x.changesRun = true)
    (hne : x ≠ .suspend) : ∀ y ∈ ts, y.isPlain = true := by
  cases h with
  | parked hparked =>
      cases hparked with
      | tail htail =>
          cases htail with
          | plain hall => exact fun y hy => hall y (List.mem_cons_of_mem x hy)
          | recheck hr _ hplain => exact hplain
      | wait _ _ hplain => exact hplain
      | acquire => cases hx
      | awaitOwner => cases hx
      | leave => cases hx
  | suspend => exact absurd rfl hne
  | release => cases hx
  | sleepReader => cases hx
  | sleepWriter => cases hx

/-- A thread that has given the turn away: it is parked, and if it is stopped it is registered. -/
structure Left (t : ThreadId) (m : Machine) : Prop where
  parked : Parked t m (m.stackOf t)
  registered : m.sched.isStopped t = true →
    ∃ a, Await.of (m.stackOf t) = some a ∧ m.Pending t a

theorem Left.of_plain (hp : m.Plain t) (hgoes : m.sched.isStopped t = false) : Left t m where
  parked := .tail (.plain hp)
  registered hstop := absurd (hstop.symm.trans hgoes) (by simp)

/-- A thread that has ended is not stopped. -/
theorem left_finish {o : Outcome} (hp : m.Plain me) (ht : m.sched.turn = .held me)
    (hleft : (m.finish me o).sched.turn ≠ .held me) : Left me (m.finish me o) := by
  unfold finish at hleft ⊢
  split
  · rename_i hme
    rw [if_pos hme] at hleft
    exact absurd ht hleft
  · refine .of_plain hp ?_
    by_contra hstop
    exact (Sched.isStopped_finish (eq_true_of_ne_false hstop)).2.1 rfl

theorem left_abort {text : String} (hp : m.Plain me) (ht : m.sched.turn = .held me)
    (hleft : (m.abort me text).sched.turn ≠ .held me) : Left me (m.abort me text) := by
  unfold abort at hleft ⊢
  split
  · rename_i hme
    rw [if_pos hme] at hleft
    exact left_finish hp ht hleft
  · rename_i hme
    rw [if_neg hme] at hleft
    exact left_finish (m := m.note _) hp ht hleft

theorem left_drain (hp : m.Plain me) (ht : m.sched.turn = .held me)
    (hleft : (m.drain me).sched.turn ≠ .held me) : Left me (m.drain me) := by
  unfold drain at hleft ⊢
  split
  · rename_i hlive
    rw [if_pos hlive] at hleft
    exact absurd ht hleft
  · refine .of_plain hp ?_
    have hretired := Sched.isStopped_retire me me .over m.sched
    simp only [ne_eq, not_true_eq_false, decide_false, Bool.and_false] at hretired
    exact hretired

/-- A thread that yields is not stopped. -/
theorem left_pause (hc : m.sched.Coherent) (hp : m.Plain me) (ht : m.sched.turn = .held me) :
    Left me (m.onSched (Sched.yieldNow me)) := by
  refine .of_plain hp ?_
  by_contra hstop
  have hspares : Sched.Spares (fun _ => True) m.sched (m.sched.yieldNow me) :=
    Sched.spares_yieldNow me m.sched
  have hwas := hspares.stopped me trivial (eq_true_of_ne_false hstop)
  have hnot := Sched.isStopped_eq_false_of_isRunning (hc.isRunning_of_held ht)
  exact absurd (hwas.symm.trans hnot) (by simp)

/-- What a thread waits for was pending before it suspends. -/
theorem Course.left_suspend (hcourse : Course me m (.suspend :: m.stackOf me)) :
    Left me (m.onSched (Sched.stop me)) := by
  have hsame := Sched.sameWaits_stop me m.sched
  cases hcourse with
  | parked hparked =>
      cases hparked with
      | tail htail =>
          cases htail with
          | plain hall => cases hall .suspend List.mem_cons_self
          | recheck hr => cases hr
      | wait hw => cases hw
  | suspend ha hpending hparked =>
      exact {
        parked := hparked.mono fun _ => kept_onSched hsame
        registered := fun _ => ⟨_, ha, pending_onSched hsame hpending⟩ }

/-- A thread that gives the turn away is parked, and registered if it is stopped. -/
theorem Course.left (hcourse : Course me m (x :: ts)) (hts : m.stackOf me = ts)
    (hc : m.sched.Coherent) (ht : m.sched.turn = .held me)
    (hleft : (m.perform me x).sched.turn ≠ .held me) : Left me (m.perform me x) := by
  cases hx : x.changesRun with
  | false => exact absurd ((perform_gentle hx).1.quiet.turn.trans ht) hleft
  | true =>
      have hplain : x ≠ .suspend → m.Plain me :=
        fun hne y hy => hcourse.plain_of_changesRun hx hne y (hts ▸ hy)
      cases x with
      | suspend => exact (hts ▸ hcourse : Course me m (.suspend :: m.stackOf me)).left_suspend
      | pause => exact left_pause hc (hplain (by simp)) ht
      | spawn code => exact absurd ht hleft
      | exit => exact left_finish (hplain (by simp)) ht hleft
      | abort text => exact left_abort (hplain (by simp)) ht hleft
      | drain => exact left_drain (hplain (by simp)) ht hleft
      | _ => cases hx

/-- The task that the running thread takes off its stack can rely on what it needs. -/
theorem Course.kept_head (h : Course me m (x :: ts)) : m.Kept me x := by
  cases h with
  | parked hparked =>
      cases hparked with
      | tail htail =>
          cases htail with
          | plain hall =>
              have hplain := hall x List.mem_cons_self
              cases x <;> trivial
          | recheck _ hk => exact hk
      | wait _ hk => exact hk
      | acquire => trivial
      | awaitOwner hk => exact hk
      | leave => trivial
  | suspend => trivial
  | release => trivial
  | sleepReader => trivial
  | sleepWriter => trivial

/-- A step of the running thread keeps its own course and spares the others. -/
theorem Sound.perform (h : m.Sound) (ht : m.sched.turn = .held me) (hstack : m.stackOf me = x :: ts)
    (hids : ((m.setStack me ts).perform me x).sched.ids.handed ≤ UInt64.size) :
    ((m.setStack me ts).perform me x).Sound := by
  have hpopped : Spares (· ≠ me) m (m.setStack me ts) := spares_onThread me _ m
  have hts : (m.setStack me ts).stackOf me = ts := stackOf_onThread me _ m
  have hcourse : Course me (m.setStack me ts) (x :: ts) :=
    (hstack ▸ h.course me ht).mono (fun _ hk => hk) (fun _ hp => hp) rfl
  have hspares := spares_perform (m := m.setStack me ts) h.coherent ht h.main_issued
    hcourse.kept_head hids
  have hmoves := perform_moves me x (m.setStack me ts)
  have hall := hpopped.trans hspares
  have hnothers : ∀ t, t ≠ me → m.sched.turn ≠ .held t := by
    intro t hne he
    exact hne (Turn.held.inj (he.symm.trans ht))
  exact {
    coherent := h.coherent.moves ht hmoves hids
    main_issued := by
      rw [hspares.main]
      exact hmoves.issued h.main_issued
    exclusive := fun l => hspares.exclusive l (h.exclusive l)
    handles := fun id hid => (hspares.handles id hid).elim
      (fun hid => hspares.spawned id (h.handles id hid)) fun hid => hid
    course := fun t hturn => by
      obtain rfl : t = me := by
        rcases hmoves.turn_eq_or_isFree with he | hfree
        · exact Turn.held.inj ((hturn.symm.trans he).trans ht)
        · exact absurd hturn (hfree.2 t)
      exact hcourse.perform hts h.coherent ht h.exclusive h.handles
    parked := fun t hturn => by
      by_cases hne : t = me
      · subst hne
        exact (hcourse.left hts h.coherent ht hturn).parked
      · rcases hall.stack t hne with hsame | ⟨-, hcoded⟩
        · rw [hsame]
          exact (h.parked t (hnothers t hne)).mono fun _ => hall.kept hne
        · exact .tail (.plain hcoded.plain)
    registered := fun t hstop => by
      by_cases hne : t = me
      · subst hne
        have hleft : ((m.setStack t ts).perform t x).sched.turn ≠ .held t := by
          intro hheld
          have hrun := (h.coherent.moves ht hmoves hids).isRunning_of_held hheld
          exact absurd (hstop.symm.trans (Sched.isStopped_eq_false_of_isRunning hrun)) (by simp)
        exact (hcourse.left hts h.coherent ht hleft).registered hstop
      · have hwas := hall.stopped t hne hstop
        obtain ⟨a, ha, hp⟩ := h.registered t hwas
        rcases hall.stack t hne with hsame | ⟨hdead, -⟩
        · exact ⟨a, hsame ▸ ha, hall.pending hne hstop hp⟩
        · exact absurd (hdead.symm.trans (Sched.isLive_of_isStopped hwas)) (by simp) }

/-! ## Runs -/

theorem Sound.step (h : m.Sound) (hstep : m.step = some m')
    (hids : m'.sched.ids.handed ≤ UInt64.size) : m'.Sound := by
  rcases step_cases hstep with ⟨me, x, ts, hturn, hstack, rfl⟩ | ⟨hturn, s, hs, rfl⟩
  · exact h.perform hturn hstack hids
  · exact h.search hs hturn

/-- At the start all stacks hold instructions only. -/
theorem plain_machine (p : Program) (t : ThreadId) : p.machine.Plain t := by
  show ∀ y ∈ ((Store.empty.set _ _ : Store ThreadId Thread).get t).stack, y.isPlain = true
  rw [Store.get_set]
  split
  · exact isPlain_code
  · exact fun y hy => absurd hy List.not_mem_nil

/-- A run starts with a plain stack for the main thread, and nobody stopped. -/
theorem sound_machine (p : Program) : p.machine.Sound := by
  have hstopped : ∀ t, p.machine.sched.isStopped t = false := by
    intro t
    show ((Store.empty.set _ _ : Store ThreadId Slot).get? t).any _ = false
    rw [Store.get?_set]
    split <;> rfl
  exact {
    coherent := Sched.coherent_start p.idlePoll
    main_issued := ⟨0, Nat.one_pos, rfl⟩
    exclusive := fun l => rfl
    handles := fun id hid => absurd hid List.not_mem_nil
    course := fun t _ => .plain (plain_machine p t)
    parked := fun t _ => .tail (.plain (plain_machine p t))
    registered := fun t ht => absurd (ht.symm.trans (hstopped t)) (by simp) }

theorem Reaches.sound {p : Program} (h : Reaches p.machine m)
    (hids : m.sched.ids.handed ≤ UInt64.size) : m.Sound := by
  induction h with
  | refl => exact sound_machine p
  | step _ hstep ih =>
      exact (ih (Nat.le_trans (handed_le_of_step hstep) hids)).step hstep hids
  | @wake n id _ ih =>
      refine (ih (by simpa [wakeFromOutside, Machine.onSched] using hids)).onSched
        (Sched.sameWaits_wakeup id n.sched) (Sched.quiet_wakeup id n.sched) fun t ht => ?_
      rw [Sched.isStopped_wakeup, Bool.and_eq_true] at ht
      exact ht.1
  | @elapse n d _ ih =>
      exact (ih hids).onSched { Sched.SameWaits.refl n.sched with } (Sched.sameRun_elapse d).quiet
        fun _ ht => ht
  | outage e _ ih =>
      have h := ih hids
      exact { h with
        course := fun t ht => (h.course t ht).mono (fun _ hk => hk) (fun _ hp => hp) rfl
        parked := fun t ht => (h.parked t ht).mono fun _ hk => hk }

/-- No wakeup is lost as long as no giver panics: a stopped thread is registered with what it waits
for, and that has not happened. -/
theorem Reaches.stopped_pending {p : Program} (h : Reaches p.machine m)
    (hids : m.sched.ids.history.Nodup) (hstop : m.sched.isStopped t = true) :
    ∃ a, Await.of (m.stackOf t) = some a ∧ m.Pending t a := by
  have hsound := h.sound (IdAllocator.nodup_history_iff.mp hids)
  exact hsound.registered t hstop

/-- The second thread holds a mutex and a write lock and sleeps in a rendezvous; the others join it
and wait for the mutex, for the lock on either side, and for a pipe. -/
def gathering : Program :=
  { Program.blank with code := [
      [.spawn 1, .spawn 2, .spawn 3, .spawn 4, .spawn 5, .join 2],
      [.lock 0, .writeLock 0, .lock 1, .sleep 0 1],
      [.lock 0], [.readLock 0], [.writeLock 0], [.waitFor 0 .reader]] }

/-- After eighty steps all six are stopped, each for a reason of its own. -/
theorem stopped_pending_gathering :
    (∀ t ∈ [1, 2, 3, 4, 5, 6], (gathering.final 80).sched.isStopped t = true) ∧
      (gathering.final 80).Pending 1 (.thread 2) ∧
      (gathering.final 80).Pending 2 (.rendez (.raw 0)) ∧
      (gathering.final 80).Pending 3 (.mutex (.raw 0)) ∧
      (gathering.final 80).Pending 4 (.reader (.raw 0)) ∧
      (gathering.final 80).Pending 5 (.writer (.raw 0)) ∧
      (gathering.final 80).Pending 6 .descriptors := by
  have hids : (gathering.final 80).sched.ids.history.Nodup := by decide
  have hstopped : ∀ t ∈ [1, 2, 3, 4, 5, 6], (gathering.final 80).sched.isStopped t = true := by
    decide
  have hpending : ∀ t ∈ [1, 2, 3, 4, 5, 6], ∀ a,
      Await.of ((gathering.final 80).stackOf t) = some a → (gathering.final 80).Pending t a := by
    intro t ht a ha
    obtain ⟨a', ha', hp⟩ :=
      Reaches.stopped_pending (p := gathering) ((Reaches.refl _).run 80) hids (hstopped t ht)
    rwa [Option.some.inj (ha.symm.trans ha')]
  exact ⟨hstopped, hpending 1 (by decide) _ rfl, hpending 2 (by decide) _ rfl,
    hpending 3 (by decide) _ rfl, hpending 4 (by decide) _ rfl, hpending 5 (by decide) _ rfl,
    hpending 6 (by decide) _ rfl⟩

end Machine

end Baton
