import Baton.Proofs.Program.Tasks

/-!
# Machine: the moves of the running thread

The tasks that are not gentle give the turn away, start a thread or end one. With them, every task
makes one of the moves that keep the scheduler coherent, and none disturbs another thread: the end
of a thread wakes whoever waits for that.
-/

namespace Baton

/-- Whether the task gives the turn away, starts a thread or ends one. -/
def Task.changesRun : Task → Bool
  | suspend | pause | spawn _ | exit | abort _ | drain => true
  | _ => false

/-- Whether the task never leaves anything on the stack that needs care. -/
def Task.isTame : Task → Bool
  | instr _ | join _ | awaitThread _ | stopUntil .. | acquire _ | awaitOwner _ | sleepOn .. => false
  | requestRead _ | recheckRead _ | requestWrite _ | recheckWrite _ => false
  | select .. | selectHere .. | collect => false
  | sleepUntil r .. => r.isPublic
  | _ => true

namespace Machine

open Sched (Quiet Moves)

variable {me : ThreadId} {m : Machine}

theorem Tame.gentle_and {m' : Machine} {P : Prop} (h : Tame me m m') :
    Gentle me m m' ∧ (P → Tame me m m') :=
  ⟨h.toGentle, fun _ => h⟩

theorem Gentle.and_of_eq_false {m' : Machine} {tame : Bool} (h : Gentle me m m')
    (hf : tame = false) : Gentle me m m' ∧ (tame = true → Tame me m m') :=
  ⟨h, fun ht => absurd (hf.symm.trans ht) Bool.false_ne_true⟩

/-- What the tasks do that do not change the run. -/
theorem perform_gentle {x : Task} (hx : x.changesRun = false) :
    Gentle me m (m.perform me x) ∧ (x.isTame = true → Tame me m (m.perform me x)) := by
  cases x with
  | suspend => cases hx
  | pause => cases hx
  | spawn code => cases hx
  | exit => cases hx
  | abort text => cases hx
  | drain => cases hx
  | instr i => exact (gentle_push me _ m).and_of_eq_false rfl
  | join id => exact (gentle_join id).and_of_eq_false rfl
  | awaitThread id => exact (gentle_awaitThread id).and_of_eq_false rfl
  | stopUntil v x count => exact (gentle_stopUntil v x count).and_of_eq_false rfl
  | acquire name => exact (gentle_acquire name).and_of_eq_false rfl
  | awaitOwner name => exact (gentle_awaitOwner name).and_of_eq_false rfl
  | sleepOn r name => exact (gentle_sleepOn r name).and_of_eq_false rfl
  | requestRead l => exact (gentle_requestRead l).and_of_eq_false rfl
  | recheckRead l => exact (gentle_recheckRead l).and_of_eq_false rfl
  | requestWrite l => exact (gentle_requestWrite l).and_of_eq_false rfl
  | recheckWrite l => exact (gentle_recheckWrite l).and_of_eq_false rfl
  | select entries timeout => exact (gentle_select entries timeout).and_of_eq_false rfl
  | selectHere entries timeout => exact (gentle_selectEntries entries timeout).and_of_eq_false rfl
  | collect => exact gentle_collect.and_of_eq_false rfl
  | sleepUntil r name v x count =>
      exact ⟨gentle_sleepUntil r name v x count, fun hr => tame_sleepUntil hr name v x count⟩
  | answer r => exact (tame_answer me r m).gentle_and
  | report name => exact (tame_report me name m).gentle_and
  | panic text => exact (tame_panic me text m).gentle_and
  | compute f => exact ((tame_memory _ m).trans (tame_answer me _ _)).gentle_and
  | wake id => exact (tame_wake id).gentle_and
  | peek id => exact (tame_answer me _ m).gentle_and
  | joinOutside id => exact (tame_joinOutside id).gentle_and
  | tryAcquire name => exact (tame_tryAcquire name).gentle_and
  | release name => exact (tame_release name).gentle_and
  | owner name => exact (tame_answer me _ m).gentle_and
  | leave r => exact (tame_leave r).gentle_and
  | signal r => exact (tame_signal r).gentle_and
  | broadcast r => exact (tame_broadcast r).gentle_and
  | sleepers r => exact (tame_answer me _ m).gentle_and
  | tryRead l => exact (tame_tryRead l).gentle_and
  | tryWrite l => exact (tame_tryWrite l).gentle_and
  | releaseRead l => exact (tame_releaseRead l).gentle_and
  | releaseWrite l => exact (tame_releaseWrite l).gentle_and
  | releaseHeld l => exact (tame_releaseHeld l).gentle_and
  | copyState l =>
      exact ((tame_answer me _ m).trans (tame_push (isPlain_of_all rfl))).gentle_and
  | closeSection l => exact (tame_closeSection l).gentle_and
  | enter name g body => exact (tame_enter name g body).gentle_and
  | drop g => exact (tame_drop g).gentle_and
  | checkDrop exclusive => exact (tame_checkDrop exclusive).gentle_and
  | getList => exact (tame_withGuard fun _ => tame_answer me _ m).gentle_and
  | pushList x => exact (tame_pushList x).gentle_and
  | popList => exact tame_popList.gentle_and
  | condSleep k => exact (tame_condSleep k).gentle_and
  | condSleepWhile k test => exact (tame_condSleepWhile k test).gentle_and
  | condCell k => exact (tame_answer me _ m).gentle_and
  | showCell c => exact (tame_showCell c).gentle_and
  | showLock l => exact (tame_showLock l).gentle_and
  | pollHere entries timeout => exact (tame_pollHere entries timeout).gentle_and
  | forgetFound => exact tame_forgetFound.gentle_and
  | transfer c => exact (tame_transfer c).gentle_and
  | transferRound c => exact (tame_transferRound c).gentle_and
  | attempt c => exact (tame_attempt c).gentle_and
  | close index side => exact (tame_setPipe index _).gentle_and
  | setError s =>
      exact (tame_onThread (f := fun t => { t with errorText := t.errorText.set s })
        fun _ => rfl).gentle_and
  | lastError => exact (tame_answer me _ m).gentle_and
  | say level text => exact (tame_note (by simp)).gentle_and
  | print text =>
      exact (Tame.gentle_and ⟨⟨.refl _, { Spares.refl _ m with }⟩, fun _ => .inl⟩)

/-! ## Starts and ends of threads -/

/-- A thread ends after a report at most. -/
theorem moves_finish {s : Sched} (o : Outcome) (h : Quiet s m.sched) :
    Moves me s (m.finish me o).sched := by
  unfold finish
  split
  · exact .quiet h
  · exact .finish h

theorem moves_abort (text : String) : Moves me m.sched (m.abort me text).sched := by
  unfold abort
  apply moves_finish _
  split
  · exact .refl _
  · exact (Sched.sameRun_note (by simp)).quiet

theorem moves_drain : Moves me m.sched (m.drain me).sched := by
  unfold drain
  split
  · exact .quiet (.refl _)
  · rename_i hlive
    exact .conclude (Nat.le_of_not_lt hlive)

/-- Every task of the running thread makes one of the moves that the scheduler allows. -/
theorem perform_moves (me : ThreadId) (x : Task) (m : Machine) :
    Moves me m.sched (m.perform me x).sched := by
  cases hx : x.changesRun with
  | false => exact .quiet (perform_gentle hx).1.quiet
  | true =>
      cases x with
      | suspend => exact .stop m.sched
      | pause => exact .yieldNow m.sched
      | spawn code => exact .spawn m.sched
      | exit => exact moves_finish _ (.refl _)
      | abort text => exact moves_abort text
      | drain => exact moves_drain
      | _ => cases hx

/-- The tasks of a new thread. -/
theorem isPlain_code {code : List Instr} :
    ∀ x ∈ code.map Task.instr ++ [.exit], x.isPlain = true := by
  intro x hx
  rcases List.mem_append.mp hx with hx | hx
  · exact isPlain_instr x hx
  · rw [List.mem_singleton.mp hx]
    rfl

theorem Coded.plain {t : ThreadId} (h : m.Coded t) : m.Plain t := by
  obtain ⟨code, hstack⟩ := h
  unfold Plain
  rw [hstack]
  exact isPlain_code

/-- A new thread starts with its code before it, and disturbs nobody. -/
theorem spares_spawn (code : Nat) (hnew : m.sched.isLive m.sched.ids.next = false)
    (hmain : m.sched.ids.next ≠ m.sched.main) : Spares (· ≠ me) m (m.spawn me code) := by
  have hlive : m.sched.spawn.2.isLive m.sched.ids.next = true := by
    rw [(Sched.restands_spawn m.sched).isLive, if_pos rfl]
    rfl
  have hsched : Spares (· ≠ me) m { m with sched := m.sched.spawn.2 } :=
    spares_onSched (Sched.spares_spawn hnew)
  refine Spares.trans ?_ (tame_answer me _ _).spares
  exact { hsched with
    stack := fun t _ => by
      show ((m.threads.set m.sched.ids.next _).get t).stack = _ ∨
        _ ∧ ∃ code : List Instr, ((m.threads.set m.sched.ids.next _).get t).stack = _
      rw [Store.get_set]
      split
      · rename_i he
        exact .inr ⟨he ▸ hnew, _, rfl⟩
      · exact .inl rfl
    own := fun t _ hlive => by
      refine (Store.get_set ..).trans (if_neg ?_)
      rintro rfl
      exact Bool.false_ne_true (hnew.symm.trans hlive)
    handles := fun id hid => by
      rcases List.mem_append.mp hid with hid | hid
      · exact .inl hid
      · rw [List.mem_singleton.mp hid]
        exact .inr ⟨hmain, .inl hlive⟩ }

/-- The end of a thread wakes those that wait for it, and the main thread when it is the only one
left; nobody else has waited for it. -/
theorem spares_finish (o : Outcome) (hc : m.sched.Coherent) (ht : m.sched.turn = .held me) :
    Spares (· ≠ me) m (m.finish me o) := by
  unfold finish
  split
  · exact { (gentle_push me [.drain] m).spares with }
  · rename_i hme
    have hwake : Sched.Spares (fun _ => True) (m.sched.retire me (.seeking me))
        (m.sched.finish me) := Sched.spares_wakeAll _ _
    have hlive : ∀ t, t ≠ me → m.sched.isLive t = true → (m.sched.finish me).isLive t = true := by
      intro t hne hl
      rw [Sched.isLive_finish, hl]
      simpa using hne
    refine { Spares.refl (· ≠ me) m with
      main := hwake.main
      live := hlive
      stopped := fun t _ hstop => (Sched.isStopped_finish hstop).1
      handles := fun _ hid => .inl hid
      spawned := fun id hid => ⟨fun he => hid.1 (he.trans hwake.main), ?_⟩
      collecting := fun t hne hk => ⟨hlive t hne hk.1, ?_⟩
      mutex := fun _ _ _ _ hp => hp
      rendez := fun _ _ _ _ hp => hp
      reader := fun _ _ _ _ hp => hp
      writer := fun _ _ _ _ hp => hp
      thread := fun t hne hstop id hp => ?_
      descriptors := fun t hne hstop hp => ?_
      others := fun t hne hstop hp => ⟨hp.1.trans hwake.main.symm, ?_⟩ }
    · show (m.sched.finish me).isLive id = true ∨ (m.outcomes.set me o).get? id ≠ none
      rw [Store.get?_set]
      by_cases he : id = me
      · simp [he]
      · rw [if_neg he]
        exact hid.2.imp_left (hlive id he)
    · refine hwake.collecting t trivial ?_ ?_
      · rw [Sched.isLive_retire, hk.1]
        simpa using hne
      · rw [Sched.delivery?_retire _ hne]
        exact hk.2
    · obtain ⟨-, -, hjoiner, -⟩ := Sched.isStopped_finish hstop
      have hid : id ≠ me := by
        rintro rfl
        exact hjoiner hp.2.2
      refine ⟨hlive id hid hp.1, ?_, hwake.joiners id t ?_⟩
      · exact (Store.get?_set ..).trans ((if_neg hid).trans hp.2.1)
      · rw [Sched.joinersOf_retire _ hid]
        exact hp.2.2
    · apply hwake.polled t trivial hstop hp.1
      rw [Sched.delivery?_retire _ hne]
      exact hp.2
    · rw [show t = m.sched.main from hp.1] at hstop ⊢
      exact hc.exists_live_finish ht hstop

/-- When the main thread leaves there is nobody else. -/
theorem spares_conclude (hc : m.sched.Coherent) (ht : m.sched.turn = .held me)
    (hme : me = m.sched.main) (hlast : m.sched.live ≤ 1) :
    Spares (· ≠ me) m (m.onSched (Sched.conclude me)) := by
  have hlive_me : m.sched.isLive me = true := Sched.isLive_of_isRunning (hc.isRunning_of_held ht)
  have hlive : ∀ t, t ≠ me → m.sched.isLive t = true → (m.sched.conclude me).isLive t = true := by
    intro t hne hl
    apply (Sched.isLive_retire me t .over m.sched).trans
    rw [hl]
    simpa using hne
  have hstopped : ∀ t, t ≠ me → (m.sched.conclude me).isStopped t = true →
      m.sched.isStopped t = true := by
    intro t _ hstop
    have := (Sched.isStopped_retire me t .over m.sched).symm.trans hstop
    exact (Bool.and_eq_true _ _ ▸ this).1
  have hdelivery : ∀ t, t ≠ me → (m.sched.conclude me).delivery? t = m.sched.delivery? t :=
    fun t hne => Sched.delivery?_retire .over hne
  have hnobody : ∀ t, t ≠ me → (m.sched.conclude me).isStopped t = true → False := by
    intro t hne hstop
    have htwo := hc.one_lt_live (Sched.isLive_of_isStopped (hstopped t hne hstop)) hlive_me hne
    omega
  exact { Spares.refl (· ≠ me) m with
    live := hlive
    stopped := hstopped
    handles := fun _ hid => .inl hid
    spawned := fun id hid => ⟨hid.1, hid.2.imp_left (hlive id fun he => hid.1 (he.trans hme))⟩
    collecting := fun t hne hk =>
      ⟨hlive t hne hk.1, hk.2.imp_right fun hd => hdelivery t hne ▸ hd⟩
    mutex := fun t hne hstop => (hnobody t hne hstop).elim
    rendez := fun t hne hstop => (hnobody t hne hstop).elim
    reader := fun t hne hstop => (hnobody t hne hstop).elim
    writer := fun t hne hstop => (hnobody t hne hstop).elim
    thread := fun t hne hstop => (hnobody t hne hstop).elim
    descriptors := fun t hne hstop => (hnobody t hne hstop).elim
    others := fun t hne hstop => (hnobody t hne hstop).elim }

theorem spares_abort (text : String) (hc : m.sched.Coherent) (ht : m.sched.turn = .held me) :
    Spares (· ≠ me) m (m.abort me text) := by
  unfold abort
  split
  · exact spares_finish _ hc ht
  · have hnote : Tame me m (m.note (.panicked me)) := tame_note (by simp)
    exact hnote.spares.trans
      (spares_finish _ (hnote.quiet.coherent hc) (hnote.quiet.turn.trans ht))

theorem spares_drain (hc : m.sched.Coherent) (ht : m.sched.turn = .held me)
    (hme : me = m.sched.main) : Spares (· ≠ me) m (m.drain me) := by
  unfold drain
  split
  · exact (gentle_push me _ m).spares
  · rename_i hlive
    exact spares_conclude hc ht hme (Nat.le_of_not_lt hlive)

/-- No task of the running thread disturbs the others, as long as the numbers last. -/
theorem spares_perform {x : Task} (hc : m.sched.Coherent) (ht : m.sched.turn = .held me)
    (hmain : m.sched.ids.Issued m.sched.main) (hkept : m.Kept me x)
    (hids : (m.perform me x).sched.ids.handed ≤ UInt64.size) :
    Spares (· ≠ me) m (m.perform me x) := by
  cases hx : x.changesRun with
  | false => exact (perform_gentle hx).1.spares
  | true =>
      cases x with
      | suspend => exact spares_onSched (Sched.spares_stop fun hne => hne rfl)
      | pause => exact spares_onSched (Sched.spares_yieldNow me _)
      | spawn code =>
          apply spares_spawn code (hc.isLive_next hids)
          intro he
          exact IdAllocator.not_issued_next hids (he ▸ hmain)
      | exit => exact spares_finish _ hc ht
      | abort text => exact spares_abort text hc ht
      | drain => exact spares_drain hc ht hkept
      | _ => cases hx

end Machine

end Baton
