import Baton.Proofs.Sched.Search

/-!
# Scheduler: the log makes no difference

No operation of the scheduler reads what has been reported. Two states that differ in their logs at
most go through the same operations, and differ in their logs at most afterwards.
-/

namespace Baton

namespace Sched

variable {s s' : Sched} {me id : ThreadId}

/-- The two states differ in their logs at most. -/
def Alike (s s' : Sched) : Prop := { s' with journal := s.journal } = s

namespace Alike

theorem refl (s : Sched) : s.Alike s := rfl

theorem exists_eq (h : s.Alike s') : ∃ journal, s' = { s with journal } :=
  ⟨s'.journal, by rw [← h]⟩

theorem symm (h : s.Alike s') : s'.Alike s := by
  obtain ⟨journal, rfl⟩ := h.exists_eq
  rfl

theorem trans {t : Sched} (h : s.Alike s') (h' : s'.Alike t) : s.Alike t := by
  obtain ⟨journal, rfl⟩ := h'.exists_eq
  exact h

theorem note (h : s.Alike s') (n : Notice) : (s.note n).Alike (s'.note n) := by
  obtain ⟨journal, rfl⟩ := h.exists_eq
  rfl

theorem wakeup (h : s.Alike s') (id : ThreadId) : (s.wakeup id).Alike (s'.wakeup id) := by
  obtain ⟨journal, rfl⟩ := h.exists_eq
  show Alike (if s.isStopped id then _ else _) (if s.isStopped id then _ else _)
  split <;> rfl

theorem wakeAll (h : s.Alike s') (ids : List ThreadId) :
    (s.wakeAll ids).Alike (s'.wakeAll ids) := by
  induction ids generalizing s s' with
  | nil => exact h
  | cons id ids ih => exact ih (h.wakeup id)

theorem stop (h : s.Alike s') (me : ThreadId) : (s.stop me).Alike (s'.stop me) := by
  obtain ⟨journal, rfl⟩ := h.exists_eq
  show Alike (if (s.onStatus me Status.stop).isStopped me then _ else _)
    (if (s.onStatus me Status.stop).isStopped me then _ else _)
  split <;> rfl

theorem yieldNow (h : s.Alike s') (me : ThreadId) : (s.yieldNow me).Alike (s'.yieldNow me) := by
  obtain ⟨journal, rfl⟩ := h.exists_eq
  rfl

theorem spawn (h : s.Alike s') : s'.spawn.1 = s.spawn.1 ∧ s.spawn.2.Alike s'.spawn.2 := by
  obtain ⟨journal, rfl⟩ := h.exists_eq
  exact ⟨rfl, rfl⟩

theorem finish (h : s.Alike s') (me : ThreadId) : (s.finish me).Alike (s'.finish me) := by
  obtain ⟨journal, rfl⟩ := h.exists_eq
  have hretired : (s.retire me (.seeking me)).Alike
      (retire me (.seeking me) { s with journal }) := rfl
  exact hretired.wakeAll _

theorem conclude (h : s.Alike s') (me : ThreadId) : (s.conclude me).Alike (s'.conclude me) := by
  obtain ⟨journal, rfl⟩ := h.exists_eq
  rfl

theorem addJoiner (h : s.Alike s') (id me : ThreadId) :
    (s.addJoiner id me).Alike (s'.addJoiner id me) := by
  obtain ⟨journal, rfl⟩ := h.exists_eq
  rfl

theorem await (h : s.Alike s') (w : Waiter Descriptor) : (s.await w).Alike (s'.await w) := by
  obtain ⟨journal, rfl⟩ := h.exists_eq
  rfl

theorem takeDelivery (h : s.Alike s') (me : ThreadId) :
    (s.takeDelivery me).Alike (s'.takeDelivery me) := by
  obtain ⟨journal, rfl⟩ := h.exists_eq
  rfl

theorem elapse (h : s.Alike s') (d : Span) : (s.elapse d).Alike (s'.elapse d) := by
  obtain ⟨journal, rfl⟩ := h.exists_eq
  rfl

/-! ## The search for the next thread -/

theorem tell (h : s.Alike s') (done : List (ThreadId × Delivery Descriptor)) :
    (Sched.tell done s).Alike (Sched.tell done s') := by
  induction done generalizing s s' with
  | nil => exact h
  | cons d done ih =>
      obtain ⟨journal, rfl⟩ := h.exists_eq
      exact ih rfl

theorem deliver (h : s.Alike s') (outcome : Delivery Descriptor) :
    (s.deliver outcome).Alike (s'.deliver outcome) := by
  obtain ⟨journal, rfl⟩ := h.exists_eq
  unfold Sched.deliver
  dsimp only
  generalize Waiter.settle s.clock outcome s.waiters = settled
  have hpending : Alike { s with waiters := settled.2 }
      { s with waiters := settled.2, journal } := rfl
  exact (hpending.tell settled.1).wakeAll _

theorem serveWaiters (h : s.Alike s') (system : PollSystem Descriptor) (longest : Span) :
    (s'.serveWaiters system longest).1 = (s.serveWaiters system longest).1 ∧
      (s.serveWaiters system longest).2.Alike (s'.serveWaiters system longest).2 := by
  obtain ⟨journal, rfl⟩ := h.exists_eq
  unfold Sched.serveWaiters
  dsimp only
  split
  · exact ⟨rfl, rfl⟩
  · exact ⟨rfl, deliver (elapse h _) _⟩

theorem dispatch (h : s.Alike s') (giver next : ThreadId) :
    (s.dispatch giver next).Alike (s'.dispatch giver next) := by
  obtain ⟨journal, rfl⟩ := h.exists_eq
  unfold Sched.dispatch
  dsimp only
  split <;> rfl

theorem choose (h : s.Alike s') (giver : ThreadId) : (s.choose giver).Alike (s'.choose giver) := by
  obtain ⟨journal, rfl⟩ := h.exists_eq
  unfold Sched.choose
  dsimp only
  split
  · rfl
  · rename_i id rest _
    show Alike (if isRunnable id { s with ready := rest } then _ else _)
      (if isRunnable id { s with ready := rest } then _ else _)
    split
    · have htaken : Alike { s with ready := rest } { s with ready := rest, journal } := rfl
      exact htaken.dispatch giver id
    · rfl

theorem settleIdle (h : s.Alike s') (giver : ThreadId) (woken : Bool) :
    (s.settleIdle giver woken).Alike (s'.settleIdle giver woken) := by
  obtain ⟨journal, rfl⟩ := h.exists_eq
  unfold Sched.settleIdle
  dsimp only
  split
  · rfl
  · split <;> rfl

theorem takeUp (h : s.Alike s') {t : Sched} (ht : s.takeUp = some t) :
    ∃ t', s'.takeUp = some t' ∧ t.Alike t' := by
  obtain ⟨journal, rfl⟩ := h.exists_eq
  obtain ⟨id, hid, rfl⟩ := Option.map_eq_some_iff.mp ht
  exact ⟨_, Option.map_eq_some_iff.mpr ⟨id, hid, rfl⟩, rfl⟩

/-- Both searches go on in the same way. -/
theorem search (h : s.Alike s') {system : PollSystem Descriptor} {t : Sched}
    (ht : s.search system = some t) : ∃ t', s'.search system = some t' ∧ t.Alike t' := by
  have hturn : s'.turn = s.turn := (congrArg Sched.turn h :)
  have hidle : s'.idlePoll = s.idlePoll := (congrArg Sched.idlePoll h :)
  have hpoll : ∀ longest, s'.canPoll longest = s.canPoll longest :=
    fun longest => (congrArg (canPoll longest) h :)
  cases search_cases ht with
  | poll hseeking hcan =>
      obtain ⟨journal, he⟩ := (h.serveWaiters system .zero).2.exists_eq
      refine ⟨_, search_of_seeking (hturn.trans hseeking) ((hpoll _).trans hcan), ?_⟩
      rw [he]
      rfl
  | choose hchoosing =>
      exact ⟨_, by rw [Sched.search, hturn, hchoosing], h.choose _⟩
  | rest hresting hcan =>
      obtain ⟨hflag, hpolled⟩ := h.serveWaiters system s.idlePoll
      refine ⟨_, search_of_idle (hturn.trans hresting) (by rw [hidle, hpoll, hcan]), ?_⟩
      rw [rested, rested, hidle, hflag]
      exact hpolled.settleIdle _ _
  | revive hstuck hready hcan =>
      obtain ⟨journal, rfl⟩ := h.exists_eq
      exact ⟨_, search_of_stuck hstuck hready hcan, rfl⟩
  | takeUp hpassing htake =>
      obtain ⟨t', htake', halike⟩ := h.takeUp htake
      exact ⟨t', by rw [Sched.search, hturn, hpassing]; exact htake', halike⟩

end Alike

end Sched

end Baton
