import Baton.Proofs.Program.Refusals
import Baton.Proofs.RwLock.Attempts

/-!
# Machine: a lock is shown to diagnostics

Diagnostics show the list of a reader/writer lock under a read hold that an attempt took, and give
the hold up as soon as the text is made. Both sections belong to the thread that has the turn, which
does not give it away in between: so the second section finds the lock as the first one left it, and
nothing tells afterwards that the lock was shown.
-/

namespace Baton

namespace Machine

variable {p : Program} {m n k : Machine} {me : ThreadId} {x : Task} {ts us : List Task}
  {l : LockName} {r r' : Reply} {s : RwState}

/-! ## Sections that change their lock -/

/-- The same lock is set in both. -/
theorem Unmoved.setLock (h : Unmoved me m k) (l : LockName) (s : RwState) :
    Unmoved me (m.setLock l s) (k.setLock l s) :=
  { h with
    locks := fun j => by
      show (k.locks.set l s).get j = (m.locks.set l s).get j
      rw [Store.get_set, Store.get_set, h.locks]
    rest := congrArg (fun x : Machine => { x with locks := m.locks.set l s }) h.rest }

theorem Within.setLock (h : Within me l us r m k) (s : RwState) :
    Within me l us r (m.setLock l s) (k.setLock l s) :=
  { h.toUnmoved.setLock l s with
    mutexes := h.mutexes
    stack := h.stack
    reply := h.reply }

/-- The task of the section changes the lock and answers. -/
theorem Within.answers (h : Within me l (x :: us) r m k)
    (hperform : (k.setStack me us).perform me x =
      (((k.setStack me us).setLock l s).answer me r').push me [.closeSection l]) :
    Within me l (.closeSection l :: us) r' (m.setLock l s) ((k.setStack me us).perform me x) := by
  have hus : Within me l us r m (k.setStack me us) :=
    { h.toUnmoved.trans (unmoved_onThread me _ k) with
      mutexes := h.mutexes
      stack := stackOf_onThread me _ k
      reply := (replyOf_setStack me us k).trans h.reply }
  have hset := hus.setLock s
  rw [hperform]
  exact { (hset.toUnmoved.trans (unmoved_onThread me _ _)).trans (unmoved_onThread me _ _) with
    mutexes := hset.mutexes
    stack := by
      rw [stackOf_push, stackOf_answer, hset.stack]
      rfl
    reply := by rw [replyOf_push, replyOf_answer] }

/-- A section that changes its lock takes four steps, and changes nothing else. -/
theorem Reaches.intact_section_setLock (hr : Reaches p.machine m)
    (hids : m.sched.ids.handed ≤ UInt64.size) (hturn : m.sched.turn = .held me)
    (hstack : m.stackOf me = Task.section l x ++ ts)
    (hperform : ∀ n : Machine, n.locks.get l = m.locks.get l →
      n.perform me x = ((n.setLock l s).answer me r).push me [.closeSection l]) :
    Intact me ts r (m.setLock l s) (m.run 4) := by
  have hfree := hr.innerFree hids hturn hstack l
  obtain ⟨k, hstep, hwithin⟩ := within_acquire hturn hstack hfree
  have hanswered := hwithin.answers (hperform _ (hwithin.locks l))
  have hnext := hwithin.step hturn
  -- The state that was set is checked, as a state of a lock that the run has come to.
  have hset : (m.setLock l s).locks.get l = s := (Store.get_set ..).trans (if_pos rfl)
  have hregular : s.Regular := by
    have hchecked := ((hr.step hstep).step hnext).lockQueues
      ((congrArg (fun c : Sched => c.ids.handed) hanswered.sched).trans_le hids)
    rw [← hset, ← hanswered.locks l]
    exact hchecked.regular l
  have hclosed := hanswered.close (hset.symm ▸ hregular)
  rw [run_succ_of_step 3 hstep, run_succ_of_step 2 hnext,
    run_succ_of_step 1 (hanswered.step (m := m.setLock l s) hturn),
    run_succ_of_step 0 (hclosed.step (m := m.setLock l s) hturn)]
  exact hclosed.leave hfree

/-! ## What is shown -/

theorem Intact.setLock (h : Intact me us r m k) (s : RwState) :
    Intact me us r (m.setLock l s) (k.setLock l s) :=
  { h.toUnmoved.setLock l s with
    mutexes := h.mutexes
    stack := h.stack
    reply := h.reply }

/-- A lock is set back to the state that it had. -/
theorem Intact.setBack (h : Intact me us r ((m.setLock l s).setLock l (m.locks.get l)) k) :
    Intact me us r m k :=
  { h with
    locks := fun j => by
      rw [h.locks]
      show ((m.locks.set l s).set l (m.locks.get l)).get j = m.locks.get j
      rw [Store.get_set, Store.get_set]
      split
      · rw [‹j = l›]
      · rfl
    rest := congrArg (fun x : Machine => { x with locks := m.locks }) h.rest }

/-- A task that changes nothing but the stack and the reply of its thread. -/
theorem Intact.next {us' : List Task} (h : Intact me (x :: us) r m k)
    (hturn : m.sched.turn = .held me)
    (hperform : ∀ n : Machine, n.stackOf me = us → n.replyOf me = r → n.memory = m.memory →
      Intact me us' r' n (n.perform me x)) : Intact me us' r' m (k.run 1) := by
  rw [run_succ_of_step 0 (step_of_held (h.turn.trans hturn) h.stack), Machine.run]
  have hpopped : Intact me us r m (k.setStack me us) :=
    { h.toUnmoved.trans (unmoved_onThread me _ k) with
      mutexes := h.mutexes
      stack := stackOf_onThread me _ k
      reply := (replyOf_setStack me us k).trans h.reply }
  have hmemory : k.memory = m.memory := (congrArg Machine.memory h.rest : _)
  exact hpopped.trans (hperform _ hpopped.stack hpopped.reply hmemory)

theorem intact_push (hstack : m.stackOf me = us) (hreply : m.replyOf me = r) (new : List Task) :
    Intact me (new ++ us) r m (m.push me new) :=
  { unmoved_onThread me _ m with
    mutexes := fun _ => rfl
    stack := by rw [stackOf_push, hstack]
    reply := by rw [replyOf_push, hreply] }

theorem intact_refl (hstack : m.stackOf me = us) (hreply : m.replyOf me = r) : Intact me us r m m :=
  { Unmoved.refl me m with
    mutexes := fun _ => rfl
    stack := hstack
    reply := hreply }

theorem intact_answer (hstack : m.stackOf me = us) (r : Reply) :
    Intact me us r m (m.answer me r) :=
  { unmoved_onThread me _ m with
    mutexes := fun _ => rfl
    stack := by rw [stackOf_answer, hstack]
    reply := replyOf_answer me r m }

/-- The text that diagnostics show of a lock. -/
def lockText (l : LockName) (m : Machine) : String :=
  describeGuarded "RwLock" (if (m.locks.get l).writer = none
    then describeList (m.memory.list (.behind l)) else Text.quoted "<locked>")

/-- How many tasks it takes to show a lock. -/
def showCount (l : LockName) (m : Machine) : Nat := if (m.locks.get l).writer = none then 12 else 5

theorem perform_tryRead (hw : (m.locks.get l).writer = none) :
    m.perform me (.tryRead l) =
      ((m.setLock l ((m.locks.get l).readBy me)).answer me (.bool true)).push me
        [.closeSection l] := by
  show m.tryRead me l = _
  rw [tryRead, RwState.tryRead_of_none me hw]

theorem perform_showLock_of_taken (hw : (m.locks.get l).writer = none)
    (hreply : n.replyOf me = .bool true) (hmemory : n.memory = m.memory) :
    n.perform me (.showLock l) =
      n.push me [.drop (.shared l), .answer (.text (m.lockText l))] := by
  show n.showLock me l = _
  rw [showLock, hreply, if_neg (by decide), hmemory, lockText, if_pos hw]

theorem perform_showLock_of_untaken (hw : (m.locks.get l).writer ≠ none)
    (hreply : n.replyOf me = .bool false) :
    n.perform me (.showLock l) = n.answer me (.text (m.lockText l)) := by
  show n.showLock me l = _
  rw [showLock, hreply, if_pos (by decide), lockText, if_neg hw]

/-- The hold under which the lock was shown is given up, which grants nobody anything. -/
theorem perform_releaseRead (hregular : s.Regular) (hw : s.writer = none)
    (hlock : m.locks.get l = s.readBy me) :
    m.perform me (.releaseRead l) =
      ((m.setLock l s).answer me .null).push me [.closeSection l] := by
  have hv : (s.attempt me .read).1 = true := by
    rw [RwState.attempt, RwState.tryRead_of_none me hw]
  have hout := hregular.release_attempt hv
  rw [RwState.attempt, RwState.tryRead_of_none me hw] at hout
  have hrelease : (m.locks.get l).release me .read = some (.nobody, s) := by
    rw [hlock]
    exact hout
  exact perform_release_of_some hrelease

theorem perform_checkDrop (hreply : m.replyOf me = .null) (exclusive : Bool) :
    m.perform me (.checkDrop exclusive) = m := by
  show m.checkDrop me exclusive = m
  rw [checkDrop, hreply]

/-- What a thread does to show a lock when it has the read hold. -/
def showTasks (l : LockName) (text : String) : List Task :=
  Task.section l (.releaseRead l) ++ [.checkDrop false, .answer (.text text)]

/-- A lock without a writer is shown under a read hold of its own. -/
theorem Reaches.intact_taken (hr : Reaches p.machine m)
    (hids : m.sched.ids.handed ≤ UInt64.size) (hturn : m.sched.turn = .held me)
    (hstack : m.stackOf me = Task.section l (.tryRead l) ++ .showLock l :: ts)
    (hw : (m.locks.get l).writer = none) :
    Intact me (showTasks l (m.lockText l) ++ ts) (.bool true)
      (m.setLock l ((m.locks.get l).readBy me)) (m.run 6) := by
  have hreads : Intact me (.showLock l :: ts) (.bool true) (m.setLock l ((m.locks.get l).readBy me))
      (m.run 4) :=
    hr.intact_section_setLock hids hturn hstack fun n hn => by
      rw [perform_tryRead (hn ▸ hw), hn]
  have hshows : Intact me (.drop (.shared l) :: .answer (.text (m.lockText l)) :: ts) (.bool true)
      (m.setLock l ((m.locks.get l).readBy me)) ((m.run 4).run 1) :=
    hreads.next hturn fun n hs hreply hmemory => by
      rw [perform_showLock_of_taken hw hreply hmemory]
      exact intact_push hs hreply [.drop (.shared l), .answer (.text (m.lockText l))]
  rw [run_add 4 2, run_add 1 1]
  exact hshows.next hturn fun n hs hreply _ =>
    intact_push hs hreply (Task.section l (.releaseRead l) ++ [.checkDrop false])

/-- Giving the hold up restores the lock. -/
theorem Reaches.intact_given (hr : Reaches p.machine m)
    (hids : m.sched.ids.handed ≤ UInt64.size) (hturn : m.sched.turn = .held me) {text : String}
    (hstack : m.stackOf me = showTasks l text ++ ts) (hregular : s.Regular)
    (hw : s.writer = none) (hlock : m.locks.get l = s.readBy me) :
    Intact me ts (.text text) (m.setLock l s) (m.run 6) := by
  have hturn' : (m.setLock l s).sched.turn = .held me := hturn
  have hgives : Intact me (.checkDrop false :: .answer (.text text) :: ts) .null (m.setLock l s)
      (m.run 4) :=
    hr.intact_section_setLock hids hturn hstack fun n hn =>
      perform_releaseRead hregular hw (hn.trans hlock)
  have hchecked : Intact me (.answer (.text text) :: ts) .null (m.setLock l s)
      ((m.run 4).run 1) :=
    hgives.next hturn' fun n hs hreply _ => by
      rw [perform_checkDrop hreply]
      exact intact_refl hs hreply
  rw [run_add 4 2, run_add 1 1]
  exact hchecked.next hturn' fun n hs _ _ => intact_answer hs _

/-- Whatever the state of a lock, showing it leaves everything as it was. -/
theorem Reaches.intact_show (hr : Reaches p.machine m)
    (hids : m.sched.ids.handed ≤ UInt64.size) (hturn : m.sched.turn = .held me)
    (hstack : m.stackOf me = Task.section l (.tryRead l) ++ .showLock l :: ts) :
    Intact me ts (.text (m.lockText l)) m (m.run (m.showCount l)) := by
  by_cases hw : (m.locks.get l).writer = none
  · -- The hold is given up in a state that is the one before but for the hold.
    have htaken := hr.intact_taken hids hturn hstack hw
    have hlock : (m.run 6).locks.get l = (m.locks.get l).readBy me :=
      (htaken.locks l).trans ((Store.get_set ..).trans (if_pos rfl))
    have hgiven := (hr.run 6).intact_given
      ((congrArg (fun c : Sched => c.ids.handed) htaken.sched).trans_le hids)
      (htaken.turn.trans hturn) htaken.stack ((hr.lockQueues hids).regular l) hw hlock
    rw [showCount, if_pos hw, run_add 6 6]
    exact ((htaken.setLock (m.locks.get l)).trans hgiven).setBack
  · have huntaken : ((m.locks.get l).attempt me .read).1 = false := by
      rw [RwState.attempt, RwState.tryRead_of_some me hw]
    have hlooked := intact_of_untaken .read hturn hstack (hr.innerFree hids hturn hstack l)
      ((hr.lockQueues hids).regular l) huntaken
    rw [showCount, if_neg hw, run_add 4 1]
    refine hlooked.next hturn fun n hs hreply _ => ?_
    rw [perform_showLock_of_untaken hw hreply]
    exact intact_answer hs _

/-! ## While a lock is shown -/

/-- Where a thread can be that shows a lock, whose state was `s` before: its stack above `ts`, its
last reply and the state of the lock. -/
inductive ShowPoint (me : ThreadId) (l : LockName) (ts : List Task) (s : RwState) :
    List Task → Reply → RwState → Prop where
  | asking (r : Reply) :
      ShowPoint me l ts s (.acquire (.inner l) :: .tryRead l :: .showLock l :: ts) r s
  | deciding (r : Reply) : ShowPoint me l ts s (.tryRead l :: .showLock l :: ts) r s
  | taken : s.writer = none → ShowPoint me l ts s (.showLock l :: ts) (.bool true) (s.readBy me)
  | untaken : ShowPoint me l ts s (.showLock l :: ts) (.bool false) s
  | dropping (r out : Reply) : s.writer = none →
      ShowPoint me l ts s (.drop (.shared l) :: .answer out :: ts) r (s.readBy me)
  | returning (r out : Reply) : s.writer = none → ShowPoint me l ts s
      (.acquire (.inner l) :: .releaseRead l :: .checkDrop false :: .answer out :: ts) r
      (s.readBy me)
  | giving (r out : Reply) : s.writer = none → ShowPoint me l ts s
      (.releaseRead l :: .checkDrop false :: .answer out :: ts) r (s.readBy me)
  | given (out : Reply) : ShowPoint me l ts s (.checkDrop false :: .answer out :: ts) .null s
  | answering (r out : Reply) : ShowPoint me l ts s (.answer out :: ts) r s
  | shown (r : Reply) : ShowPoint me l ts s ts r s
  /-- The section is over but for its check. -/
  | closing {us : List Task} {r : Reply} {s' : RwState} : ShowPoint me l ts s us r s' →
      ShowPoint me l ts s (.closeSection l :: us) r s'
  | leaving {us : List Task} {r : Reply} {s' : RwState} : ShowPoint me l ts s us r s' →
      ShowPoint me l ts s (.release (.inner l) :: us) r s'

/-- The thread has the turn and is at such a point. -/
structure Showing (me : ThreadId) (l : LockName) (ts : List Task) (s : RwState) (m : Machine) :
    Prop where
  turn : m.sched.turn = .held me
  point : ShowPoint me l ts s (m.stackOf me) (m.replyOf me) (m.locks.get l)

/-- At each point the lock is as it was, or has one more read hold. -/
theorem ShowPoint.lock {s' : RwState} (h : ShowPoint me l ts s us r s') :
    s' = s ∨ s' = s.readBy me := by
  induction h with
  | closing _ ih | leaving _ ih => exact ih
  | taken | dropping | returning | giving => exact .inr rfl
  | _ => exact .inl rfl

/-- Only the last point has no more than `ts` on the stack. -/
theorem ShowPoint.length_le {s' : RwState} (h : ShowPoint me l ts s us r s') :
    ts.length < us.length ∨ s' = s := by
  induction h with
  | closing _ ih | leaving _ ih => exact ih.imp_left fun h => Nat.lt_succ_of_lt h
  | shown => exact .inr rfl
  | _ => exact .inl (by simp; try omega)

theorem ShowPoint.showing {s' : RwState} (h : ShowPoint me l ts s us r s')
    (hturn : m.sched.turn = .held me) (hstack : m.stackOf me = us) (hreply : m.replyOf me = r)
    (hlock : m.locks.get l = s') : Showing me l ts s m :=
  ⟨hturn, by rw [hstack, hreply, hlock]; exact h⟩

/-- One task of showing, when it has been taken off the stack. -/
theorem showing_perform (hpoint : ShowPoint me l ts s (x :: us) (m.replyOf me) (m.locks.get l))
    (hne : x :: us ≠ ts) (hturn : m.sched.turn = .held me) (hstack : m.stackOf me = us)
    (hregular : s.Regular) (hchecked : (m.locks.get l).Regular)
    (hfree : x = .acquire (.inner l) → m.InnerFree) : Showing me l ts s (m.perform me x) := by
  have hturn' : x.changesRun = false → (m.perform me x).sched.turn = .held me :=
    fun hruns => (perform_gentle hruns).1.quiet.turn.trans hturn
  -- Most tasks do no more than to change what is above `ts`, and the reply.
  have hpasses : ∀ {us' : List Task} {r' : Reply}, x.changesRun = false → x.opens? = none →
      (m.perform me x).stackOf me = us' → (m.perform me x).replyOf me = r' →
      ShowPoint me l ts s us' r' (m.locks.get l) → Showing me l ts s (m.perform me x) :=
    fun hruns hopens hs hr hnext => hnext.showing (hturn' hruns) hs hr
      (locks_perform_of_opens?_eq_none me m l hopens)
  generalize hr : m.replyOf me = r at hpoint
  generalize hl : m.locks.get l = s' at hpoint hpasses hchecked
  cases hpoint with
  | asking | returning =>
      obtain ⟨hs, hreply⟩ := passes_acquire me (hfree rfl) l
      refine hpasses rfl rfl (hs.trans hstack) (hreply.trans hr) ?_
      first | exact .deciding r | exact .giving r _ ‹_›
  | deciding =>
      have hperform := perform_attempt .read l me m
      rw [hl] at hperform
      have hs : (m.perform me (.tryRead l)).stackOf me = .closeSection l :: .showLock l :: ts := by
        rw [show m.perform me (.tryRead l) = _ from hperform, stackOf_push, stackOf_answer]
        exact congrArg (.closeSection l :: ·) hstack
      have hreply : (m.perform me (.tryRead l)).replyOf me = .bool (s.tryRead me).1 := by
        rw [show m.perform me (.tryRead l) = _ from hperform, replyOf_push, replyOf_answer]
        rfl
      have hlock : (m.perform me (.tryRead l)).locks.get l = (s.tryRead me).2 := by
        rw [show m.perform me (.tryRead l) = _ from hperform]
        exact (Store.get_set ..).trans (if_pos rfl)
      by_cases hw : s.writer = none
      · rw [RwState.tryRead_of_none me hw] at hreply hlock
        exact (ShowPoint.closing (.taken hw)).showing (hturn' rfl) hs hreply hlock
      · rw [RwState.tryRead_of_some me hw] at hreply hlock
        exact (ShowPoint.closing .untaken).showing (hturn' rfl) hs hreply hlock
  | taken hw =>
      have hperform : m.perform me (.showLock l) =
          m.push me [.drop (.shared l), .answer (.text (m.lockText l))] :=
        perform_showLock_of_taken ((congrArg RwState.writer hl).trans hw) hr rfl
      refine hpasses rfl rfl ?_ ?_ (.dropping (.bool true) (.text (m.lockText l)) hw) <;>
        rw [hperform]
      · rw [stackOf_push, hstack]
        rfl
      · rw [replyOf_push, hr]
  | untaken =>
      refine hpasses rfl rfl ?_ rfl (.shown _)
      show (m.showLock me l).stackOf me = _
      rw [showLock, hr, if_pos (by decide), stackOf_answer, hstack]
  | dropping _ out hw =>
      refine hpasses rfl rfl ?_ ?_ (.returning r out hw)
      · show (m.drop me (.shared l)).stackOf me = _
        rw [drop, stackOf_push, hstack]
        rfl
      · show (m.drop me (.shared l)).replyOf me = _
        rw [drop, replyOf_push, hr]
  | giving _ out hw =>
      have hperform := perform_releaseRead hregular hw hl
      refine (ShowPoint.closing (.given out)).showing (hturn' rfl) ?_ ?_ ?_ <;> rw [hperform]
      · rw [stackOf_push, stackOf_answer]
        exact congrArg (.closeSection l :: ·) hstack
      · rw [replyOf_push, replyOf_answer]
      · exact (Store.get_set ..).trans (if_pos rfl)
  | given out =>
      have hperform := perform_checkDrop hr false
      refine hpasses rfl rfl ?_ ?_ (.answering .null out) <;> rw [hperform] <;> assumption
  | answering _ out =>
      exact hpasses rfl rfl ((stackOf_answer ..).trans hstack) (replyOf_answer ..) (.shown out)
  | shown => exact absurd rfl hne
  | closing h =>
      have hperform : m.perform me (.closeSection l) = m.push me [.release (.inner l)] :=
        perform_closeSection (hl.symm ▸ hchecked)
      refine hpasses rfl rfl ?_ ?_ h.leaving <;> rw [hperform]
      · rw [stackOf_push, hstack]
        rfl
      · rw [replyOf_push, hr]
  | leaving h =>
      obtain ⟨hs, hreply⟩ := passes_release me m l
      exact hpasses rfl rfl (hs.trans hstack) (hreply.trans hr) h

/-- However the run goes on, the thread keeps the turn until the lock has been shown. -/
theorem Showing.along (h : Showing me l ts s m) (hr : Reaches p.machine m) (hregular : s.Regular)
    (hrun : Along (fun k => k.stackOf me ≠ ts) m n) (hids : n.sched.ids.handed ≤ UInt64.size) :
    Showing me l ts s n := by
  refine hrun.keeps_own hr hids h ?_ (fun k hk _ _ hturn => absurd hk.turn hturn) ?_
  · intro k x us hk hne hreach hhanded hturn hstack
    refine showing_perform ?_ (hstack ▸ hne) hturn (stackOf_onThread ..) hregular
      ((hreach.lockQueues hhanded).regular l) ?_
    · rw [replyOf_setStack, ← hstack]
      exact hk.point
    · rintro rfl
      exact hreach.innerFree hhanded hturn hstack
  · intro k k' hk hown hheld
    obtain ⟨hturn, hlocks⟩ := hheld hk.turn
    exact hk.point.showing hturn (congrArg Thread.stack hown) (congrArg Thread.reply hown)
      (congrArg (Store.get · l) hlocks)

/-- What holds of a thread that is about to show a lock, with `ts` below on its stack. -/
structure ShowsUnseen (me : ThreadId) (l : LockName) (ts : List Task) (m : Machine) : Prop where
  /-- It answers the text, and in the end nothing but the log has changed. -/
  intact : Intact me ts (.text (m.lockText l)) m (m.run (m.showCount l))
  /-- Whatever happens outside meanwhile, it keeps the turn, and the lock has at most a read hold
  more than before. -/
  throughout : ∀ n, Along (fun k => k.stackOf me ≠ ts) m n → n.sched.ids.history.Nodup →
    n.sched.turn = .held me ∧
      (n.locks.get l = m.locks.get l ∨ n.locks.get l = (m.locks.get l).readBy me)
  /-- And when it is done the lock is the one of before. -/
  restored : ∀ n, Along (fun k => k.stackOf me ≠ ts) m n → n.sched.ids.history.Nodup →
    n.stackOf me = ts → n.locks.get l = m.locks.get l

theorem Reaches.showsUnseen (h : Reaches p.machine m) (hids : m.sched.ids.history.Nodup)
    (hturn : m.sched.turn = .held me)
    (hstack : m.stackOf me = Task.section l (.tryRead l) ++ .showLock l :: ts) :
    m.ShowsUnseen me l ts := by
  have hhanded := IdAllocator.nodup_history_iff.mp hids
  have hregular := (h.lockQueues hhanded).regular l
  have hstart : Showing me l ts (m.locks.get l) m :=
    (ShowPoint.asking (m.replyOf me)).showing hturn hstack rfl rfl
  have halong : ∀ n, Along (fun k => k.stackOf me ≠ ts) m n → n.sched.ids.history.Nodup →
      Showing me l ts (m.locks.get l) n :=
    fun n hrun hids' => hstart.along h hregular hrun (IdAllocator.nodup_history_iff.mp hids')
  refine ⟨h.intact_show hhanded hturn hstack, fun n hrun hids' => ?_,
    fun n hrun hids' hover => ?_⟩
  · exact ⟨(halong n hrun hids').turn, (halong n hrun hids').point.lock⟩
  · refine (halong n hrun hids').point.length_le.resolve_left ?_
    rw [hover]
    exact Nat.lt_irrefl _

end Machine

open Machine (Reaches)

/-- In every session of workers, and in every run of a program, giving up at once what an attempt
took restores the lock and grants nobody anything; so diagnostics show a lock unseen. -/
theorem attempts_leave_no_trace :
    (∀ (s : RwSession) (t : ThreadId) (side : RwSide), s.Reachable →
      (s.lock.attempt t side).1 = true →
      (s.lock.attempt t side).2.release t side = some (.nobody, s.lock)) ∧
    (∀ (s : RwSession) (t : ThreadId) (side : RwSide), s.Reachable → s.phase t = .idle →
      (s.lock.attempt t side).1 = true →
      RwSession.Restored t side s ((s.call t side.tryCall).call t side.unlockCall)) ∧
    (∀ (p : Program) (m : Machine) (me : ThreadId) (l : LockName) (side : RwSide),
      Reaches p.machine m → m.sched.ids.history.Nodup →
      ((m.locks.get l).attempt me side).1 = true →
      ((m.locks.get l).attempt me side).2.release me side = some (.nobody, m.locks.get l)) ∧
    (∀ (host : Host) (me : ThreadId) (i : Nat), host ≠ .outside →
      (Instr.showTable i).replyTasks host me =
        Task.section (.table i) (.tryRead (.table i)) ++ [.showLock (.table i)]) ∧
    ∀ (p : Program) (m : Machine) (me : ThreadId) (l : LockName) (ts : List Task),
      Reaches p.machine m → m.sched.ids.history.Nodup → m.sched.turn = .held me →
      m.stackOf me = Task.section l (.tryRead l) ++ .showLock l :: ts → m.ShowsUnseen me l ts := by
  refine ⟨fun s t side h => h.sound.regular.release_attempt,
    fun s t side h hidle => h.sound.restored hidle, fun p m me l side h hids => ?_, ?_,
    fun p m me l ts h hids hturn hstack => h.showsUnseen hids hturn hstack⟩
  · exact ((h.lockQueues (IdAllocator.nodup_history_iff.mp hids)).regular l).release_attempt
  · rintro (_ | _ | _) me i hhost
    · rfl
    · exact absurd rfl hhost
    · rfl

/-- The main thread shows a table that it reads, while a second thread waits to write. -/
def diagnosing : Program :=
  { Program.blank with
    code := [[.scope (.read (.table 0)) [.spawn 1, .yield, .showTable 0]],
      [.scope (.write (.table 0)) []]]
    tables := [[7, 8]] }

/-- The list is shown, and the second thread still waits. In a session the third worker waits, and
the first one reads once more than before for a moment. -/
theorem attempts_leave_no_trace_diagnosing :
    let m := diagnosing.final 26
    let s := (((RwSession.start.call 1 .readLock).call 2 .readLock).call 1 .readLock).call 3
      .writeLock
    (m.run 12).replyOf 1 = .text (Machine.describeGuarded "RwLock" "[7, 8]") ∧
      (m.run 12).locks.get (.table 0) = ⟨none, [1], [], [2]⟩ ∧
      (s.call 1 .tryReadLock).lock = ⟨none, [1, 2, 1, 1], [], [3]⟩ ∧
      ((s.call 1 .tryReadLock).call 1 .readUnlock).lock = ⟨none, [1, 2, 1], [], [3]⟩ := by
  intro m s
  have hs : s.Reachable := .call 3 _ (.call 1 _ (.call 2 _ (.call 1 _ .start)))
  have hm : Reaches diagnosing.machine m := (Reaches.refl _).run 26
  have hshown := attempts_leave_no_trace.2.2.2.2 diagnosing m 1 (.table 0)
    [.report "debug_table", .drop (.shared (.table 0)), .answer .null, .report "end", .exit] hm
    (by decide) (by decide) rfl
  have hintact := hshown.intact
  rw [show m.showCount (.table 0) = 12 by decide] at hintact
  refine ⟨hintact.reply.trans (by decide), (hintact.locks _).trans (by decide), by decide, ?_⟩
  exact (attempts_leave_no_trace.2.1 s 1 .read hs (by decide) (by decide)).lock.trans (by decide)

end Baton
