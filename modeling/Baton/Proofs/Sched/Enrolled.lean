import Baton.Proofs.Sched.Semaphore
import Mathlib.Data.List.Perm.Basic

/-!
# Scheduler: the registered waits for descriptors

Nobody waits for descriptors twice at a time, and whoever is registered is live and has not got the
outcome yet. A poll shares the registered threads out: some get an outcome and are woken, and the
others stay registered as they are.
-/

namespace Baton

namespace Waiter

variable {δ : Type}

/-- Those that are done and those that keep waiting are all that have waited. -/
theorem settle_perm (now : Instant) (outcome : Delivery δ) (ws : List (Waiter δ)) :
    ((settle now outcome ws).1.map (·.1) ++ (settle now outcome ws).2.map Waiter.id).Perm
      (ws.map Waiter.id) := by
  induction ws generalizing outcome with
  | nil => exact .refl _
  | cons w ws ih =>
      have htail := ih (outcome.map (List.drop w.entries.length))
      rw [settle]
      dsimp only
      split_ifs
      · exact htail.cons w.id
      · exact List.perm_middle.trans (htail.cons w.id)

/-- Whoever keeps waiting has waited before. -/
theorem settle_subset (now : Instant) (outcome : Delivery δ) (ws : List (Waiter δ)) :
    (settle now outcome ws).2 ⊆ ws := by
  induction ws generalizing outcome with
  | nil => exact List.Subset.refl _
  | cons w ws ih =>
      have htail := ih (outcome.map (List.drop w.entries.length))
      rw [settle]
      dsimp only
      split_ifs
      · exact List.subset_cons_of_subset w htail
      · exact List.cons_subset_cons w htail

end Waiter

namespace Sched

variable {s s' : Sched} {me t id giver : ThreadId}

/-- What holds of the registered waits. -/
structure Enrolled (s : Sched) : Prop where
  nodup : (s.waiters.map Waiter.id).Nodup
  live : ∀ w ∈ s.waiters, s.isLive w.id = true
  undelivered : ∀ w ∈ s.waiters, s.delivery? w.id = none

/-- The registered threads are left alone. -/
theorem Enrolled.congr (h : s.Enrolled) (hwaiters : s'.waiters = s.waiters)
    (hlive : ∀ w ∈ s.waiters, s'.isLive w.id = s.isLive w.id)
    (hdelivery : ∀ w ∈ s.waiters, s'.delivery? w.id = s.delivery? w.id) : s'.Enrolled where
  nodup := hwaiters ▸ h.nodup
  live w hw := by
    rw [hwaiters] at hw
    exact (hlive w hw).trans (h.live w hw)
  undelivered w hw := by
    rw [hwaiters] at hw
    exact (hdelivery w hw).trans (h.undelivered w hw)

theorem Enrolled.sameWaits (h : s.Enrolled) (hs : SameWaits s s') : s'.Enrolled :=
  h.congr hs.waiters (fun w _ => hs.live w.id) fun w _ => hs.delivery w.id

/-- A thread that is not registered yet begins to wait. -/
theorem Enrolled.await (h : s.Enrolled) {w : Waiter Descriptor} (hlive : s.isLive w.id = true)
    (hnew : ∀ v ∈ s.waiters, v.id ≠ w.id) : (s.await w).Enrolled := by
  have hdelivery : ∀ t, (s.await w).delivery? t = if t = w.id then none else s.delivery? t := by
    intro t
    refine (delivery?_onSlot w.id t _ s).trans ?_
    split
    · cases s.slots.get? w.id <;> rfl
    · rfl
  have hlives : ∀ t, (s.await w).isLive t = s.isLive t := fun t => isLive_onSlot ..
  have hmem : ∀ v, v ∈ (s.await w).waiters ↔ v ∈ s.waiters ∨ v = w := by
    intro v
    show v ∈ s.waiters ++ [w] ↔ _
    simp
  refine {
    nodup := ?_
    live := fun v hv => ?_
    undelivered := fun v hv => ?_ }
  · show ((s.waiters ++ [w]).map Waiter.id).Nodup
    rw [List.map_append, List.nodup_append]
    refine ⟨h.nodup, List.nodup_singleton _, fun a ha b hb => ?_⟩
    obtain ⟨v, hv, rfl⟩ := List.mem_map.mp ha
    rw [List.mem_singleton.mp hb]
    exact hnew v hv
  · rw [hlives]
    rcases (hmem v).mp hv with hv | rfl
    · exact h.live v hv
    · exact hlive
  · rw [hdelivery]
    rcases (hmem v).mp hv with hv | rfl
    · rw [if_neg (hnew v hv)]
      exact h.undelivered v hv
    · exact if_pos rfl

/-! ## Polls -/

/-- Whoever is not told keeps what it had. -/
theorem delivery?_tell_of_not_mem {done : List (ThreadId × Delivery Descriptor)}
    (h : t ∉ done.map (·.1)) : (s.tell done).delivery? t = s.delivery? t := by
  induction done generalizing s with
  | nil => rfl
  | cons d done ih =>
      obtain ⟨hne, hlater⟩ := List.ne_and_not_mem_of_not_mem_cons h
      refine (ih hlater).trans ?_
      rw [delivery?_onSlot, if_neg hne]

theorem isLive_serveWaiters (system : PollSystem Descriptor) (longest : Span) (t : ThreadId)
    (s : Sched) : (s.serveWaiters system longest).2.isLive t = s.isLive t := by
  rw [isLive_eq_semaphore?, semaphore?_serveWaiters, Option.isSome_map, isLive_eq_semaphore?]

theorem waiters_tell (done : List (ThreadId × Delivery Descriptor)) (s : Sched) :
    (s.tell done).waiters = s.waiters := by
  induction done generalizing s with
  | nil => rfl
  | cons d done ih => exact ih _

theorem waiters_deliver (outcome : Delivery Descriptor) (s : Sched) :
    (s.deliver outcome).waiters = (Waiter.settle s.clock outcome s.waiters).2 :=
  (mild_wakeAll (b := fun _ => True) _ _).waiters.trans (waiters_tell _ _)

/-- After a poll those are registered that were and have not been told anything. -/
theorem Enrolled.serveWaiters (h : s.Enrolled) (system : PollSystem Descriptor) (longest : Span) :
    (s.serveWaiters system longest).2.Enrolled ∧
      (s.serveWaiters system longest).2.waiters ⊆ s.waiters := by
  have hlives := isLive_serveWaiters system longest
  unfold Sched.serveWaiters at *
  split
  · exact ⟨h, List.Subset.refl _⟩
  · dsimp only
    generalize Waiter.pollAll system s.waiters = outcome
    generalize hlater : s.elapse (pollLength outcome _) = later
    have hwaiters : later.waiters = s.waiters := by
      rw [← hlater]
      rfl
    have hsubset := Waiter.settle_subset later.clock outcome later.waiters
    have hperm := Waiter.settle_perm later.clock outcome later.waiters
    have hnodup := hperm.nodup_iff.mpr (hwaiters ▸ h.nodup)
    rw [← waiters_deliver] at hsubset hnodup
    obtain ⟨-, hpending, hdisjoint⟩ := List.nodup_append.mp hnodup
    refine ⟨⟨hpending, fun w hw => ?_, fun w hw => ?_⟩, hwaiters ▸ hsubset⟩
    · have hwas := h.live w (hwaiters ▸ hsubset hw)
      have hsame : later.isLive w.id = s.isLive w.id := by
        rw [← hlater]
        rfl
      rw [isLive_eq_semaphore?, isLive_eq_semaphore?] at *
      show ((Sched.wakeAll _ (tell _ { later with waiters := _ })).semaphore? w.id).isSome = true
      rw [semaphore?_wakeAll, Option.isSome_map, semaphore?_tell]
      exact hsame.trans hwas
    · have hnot : w.id ∉ (Waiter.settle later.clock outcome later.waiters).1.map (·.1) :=
        fun hin => hdisjoint _ hin _ (List.mem_map_of_mem hw) rfl
      have hwas := h.undelivered w (hwaiters ▸ hsubset hw)
      have hsame : later.delivery? w.id = s.delivery? w.id := by
        rw [← hlater]
        rfl
      refine ((routine_wakeAll _ _).delivery w.id).trans ?_
      exact (delivery?_tell_of_not_mem hnot).trans (hsame.trans hwas)

/-! ## The search -/

theorem sameWaits_baton (id : ThreadId) (baton : Bool) (s : Sched) :
    SameWaits s (s.onSlot id fun slot => { slot with baton }) where
  main := rfl
  waiters := rfl
  live _ := isLive_onSlot ..
  delivery t := by
    rw [delivery?_onSlot]
    split
    · rename_i h
      rw [h]
      rfl
    · rfl
  joiners j := by
    unfold joinersOf
    rw [get?_onSlot]
    split
    · rename_i h
      rw [h]
      cases s.slots.get? id <;> rfl
    · rfl

theorem SameWaits.trans {s'' : Sched} (h : SameWaits s s') (h' : SameWaits s' s'') :
    SameWaits s s'' where
  main := h'.main.trans h.main
  waiters := h'.waiters.trans h.waiters
  live t := (h'.live t).trans (h.live t)
  delivery t := (h'.delivery t).trans (h.delivery t)
  joiners id := (h'.joiners id).trans (h.joiners id)

theorem sameWaits_dispatch (giver next : ThreadId) (s : Sched) :
    SameWaits s (s.dispatch giver next) := by
  have hrun := sameWaits_onStatus next (Status.enter .running) s
  rw [dispatch]
  split
  · exact { hrun with }
  · exact { hrun.trans (sameWaits_baton next true _) with }

theorem sameWaits_choose (giver : ThreadId) (s : Sched) : SameWaits s (s.choose giver) := by
  unfold choose
  split
  · exact { SameWaits.refl s with }
  · rename_i id rest _
    have htaken : SameWaits s { s with ready := rest } := { SameWaits.refl s with }
    dsimp only
    split
    · exact htaken.trans (sameWaits_dispatch giver id _)
    · exact { htaken with }

theorem sameWaits_settleIdle (giver : ThreadId) (woken : Bool) (s : Sched) :
    SameWaits s (s.settleIdle giver woken) := by
  unfold settleIdle
  split
  · exact { SameWaits.refl s with }
  · dsimp only
    split <;> exact { SameWaits.refl s with }

theorem sameWaits_takeUp (htake : s.takeUp = some s') : SameWaits s s' := by
  obtain ⟨id, -, rfl⟩ := Option.map_eq_some_iff.mp htake
  exact { sameWaits_baton id false s with }

/-- The search registers nobody. -/
theorem Enrolled.search (h : s.Enrolled) {system : PollSystem Descriptor}
    (hs : s.search system = some s') : s'.Enrolled ∧ s'.waiters ⊆ s.waiters := by
  have hpoll := h.serveWaiters system
  have hsame : ∀ {s'}, SameWaits s s' → s'.Enrolled ∧ s'.waiters ⊆ s.waiters :=
    fun hw => ⟨h.sameWaits hw, hw.waiters ▸ List.Subset.refl _⟩
  cases search_cases hs with
  | poll =>
      obtain ⟨henrolled, hsub⟩ := hpoll .zero
      exact ⟨{ henrolled with }, hsub⟩
  | choose => exact hsame (sameWaits_choose _ s)
  | @rest giver =>
      obtain ⟨henrolled, hsub⟩ := hpoll s.idlePoll
      have hwaits : SameWaits _ (s.rested system giver) := sameWaits_settleIdle ..
      exact ⟨henrolled.sameWaits hwaits, hwaits.waiters ▸ hsub⟩
  | revive => exact hsame { SameWaits.refl s with }
  | takeUp _ htake => exact hsame (sameWaits_takeUp htake)

end Sched

end Baton
