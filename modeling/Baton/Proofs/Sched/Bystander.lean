import Baton.Proofs.Sched.Turns

/-!
# Scheduler: what an operation does to the other threads

`Spares b` says of an operation what the threads in `b` can rely on: none of them is stopped by it,
nobody is taken out of the scheduler or off a list of joiners, and a wait for descriptors stays
registered unless its outcome is delivered together with a wakeup. The ends of threads, which do
take them out, are not of this kind.
-/

namespace Baton

namespace Sched

/-- Whether a thread's wait for descriptors is registered. -/
def Registered (t : ThreadId) (s : Sched) : Prop := ∃ w ∈ s.waiters, w.id = t

/-- What the threads in `b` can rely on in a change of the scheduler. -/
structure Spares (b : ThreadId → Prop) (s s' : Sched) : Prop where
  main : s'.main = s.main
  live : ∀ t, s.isLive t = true → s'.isLive t = true
  stopped : ∀ t, b t → s'.isStopped t = true → s.isStopped t = true
  joiners : ∀ id t, t ∈ s.joinersOf id → t ∈ s'.joinersOf id
  /-- A wait for descriptors is registered or has its outcome. -/
  collecting : ∀ t, b t → s.isLive t = true → s.Registered t ∨ s.delivery? t ≠ none →
    s'.Registered t ∨ s'.delivery? t ≠ none
  /-- A wait without an outcome that is still stopped has none yet. -/
  polled : ∀ t, b t → s'.isStopped t = true → s.Registered t → s.delivery? t = none →
    s'.Registered t ∧ s'.delivery? t = none

variable {b : ThreadId → Prop} {s s' s'' : Sched} {me t id : ThreadId}

namespace Spares

theorem refl (b : ThreadId → Prop) (s : Sched) : Spares b s s where
  main := rfl
  live _ h := h
  stopped _ _ h := h
  joiners _ _ h := h
  collecting _ _ _ h := h
  polled _ _ _ hr hd := ⟨hr, hd⟩

theorem trans (h : Spares b s s') (h' : Spares b s' s'') : Spares b s s'' where
  main := h'.main.trans h.main
  live t ht := h'.live t (h.live t ht)
  stopped t hb ht := h.stopped t hb (h'.stopped t hb ht)
  joiners id t ht := h'.joiners id t (h.joiners id t ht)
  collecting t hb hl hc := h'.collecting t hb (h.live t hl) (h.collecting t hb hl hc)
  polled t hb ht hr hd := by
    obtain ⟨hr', hd'⟩ := h.polled t hb (h'.stopped t hb ht) hr hd
    exact h'.polled t hb ht hr' hd'

end Spares

theorem Spares.mono {c : ThreadId → Prop} (h : Spares b s s') (hc : ∀ t, c t → b t) :
    Spares c s s' where
  main := h.main
  live := h.live
  stopped t ht := h.stopped t (hc t ht)
  joiners := h.joiners
  collecting t ht := h.collecting t (hc t ht)
  polled t ht := h.polled t (hc t ht)

/-! ## Changes of one slot -/

theorem isLive_onSlot (id t : ThreadId) (f : Slot → Slot) (s : Sched) :
    (s.onSlot id f).isLive t = s.isLive t := by
  unfold isLive
  rw [get?_onSlot]
  split
  · rename_i h
    simp [h]
  · rfl

theorem delivery?_onSlot (id t : ThreadId) (f : Slot → Slot) (s : Sched) :
    (s.onSlot id f).delivery? t =
      if t = id then (s.slots.get? id).bind fun x => (f x).delivery else s.delivery? t := by
  unfold delivery?
  rw [get?_onSlot]
  split
  · cases s.slots.get? id <;> rfl
  · rfl

theorem mem_joinersOf : t ∈ s.joinersOf id ↔
    ∃ slot, s.slots.get? id = some slot ∧ t ∈ slot.joiners := by
  unfold joinersOf
  cases s.slots.get? id <;> simp

/-- A change that keeps the joiners, and of a bystander the outcome too, and that stops no
bystander. -/
theorem spares_onSlot {f : Slot → Slot} (hjoiners : ∀ x, ∀ t ∈ x.joiners, t ∈ (f x).joiners)
    (hdelivery : ∀ x, b id → (f x).delivery = x.delivery)
    (hstopped : ∀ x, b id → (f x).status.isStopped = true → x.status.isStopped = true) :
    Spares b s (s.onSlot id f) := by
  have hsame : ∀ t, b t → (s.onSlot id f).delivery? t = s.delivery? t := by
    intro t hb
    rw [delivery?_onSlot]
    split
    · rename_i h
      subst h
      unfold delivery?
      cases s.slots.get? t with
      | none => rfl
      | some x => exact hdelivery x hb
    · rfl
  refine {
    main := rfl
    live := fun t h => (isLive_onSlot id t f s).trans h
    stopped := fun t hb h => ?_
    joiners := fun j t h => ?_
    collecting := fun t hb _ h => by rw [hsame t hb]; exact h
    polled := fun t hb _ hr hd => ⟨hr, (hsame t hb).trans hd⟩ }
  · unfold isStopped at h ⊢
    rw [get?_onSlot] at h
    split at h
    · rename_i he
      subst he
      cases hx : s.slots.get? t with
      | none => simp [hx] at h
      | some x => simpa using hstopped x hb (by simpa [hx] using h)
    · exact h
  · obtain ⟨x, hx, hmem⟩ := mem_joinersOf.mp h
    apply mem_joinersOf.mpr
    rw [get?_onSlot]
    split
    · rename_i he
      subst he
      exact ⟨f x, by simp [hx], hjoiners x t hmem⟩
    · exact ⟨x, hx, hmem⟩

/-! ## Changes of statuses -/

/-- The two states agree in all that waits depend on. -/
structure SameWaits (s s' : Sched) : Prop where
  main : s'.main = s.main
  waiters : s'.waiters = s.waiters
  live : ∀ t, s'.isLive t = s.isLive t
  delivery : ∀ t, s'.delivery? t = s.delivery? t
  joiners : ∀ id, s'.joinersOf id = s.joinersOf id

theorem SameWaits.refl (s : Sched) : SameWaits s s :=
  ⟨rfl, rfl, fun _ => rfl, fun _ => rfl, fun _ => rfl⟩

theorem SameWaits.spares (h : SameWaits s s')
    (hstopped : ∀ t, b t → s'.isStopped t = true → s.isStopped t = true) : Spares b s s' where
  main := h.main
  live t ht := (h.live t).trans ht
  stopped := hstopped
  joiners id _ ht := (h.joiners id).symm ▸ ht
  collecting t _ _ hc := hc.imp (fun ⟨w, hw, hid⟩ => ⟨w, h.waiters.symm ▸ hw, hid⟩)
    fun hd => (h.delivery t).trans_ne hd
  polled t _ _ := fun ⟨w, hw, hid⟩ hd =>
    ⟨⟨w, h.waiters.symm ▸ hw, hid⟩, (h.delivery t).trans hd⟩

theorem sameWaits_onStatus (id : ThreadId) (f : Status → Status) (s : Sched) :
    SameWaits s (s.onStatus id f) where
  main := rfl
  waiters := rfl
  live _ := isLive_onSlot ..
  delivery t := by
    unfold onStatus
    rw [delivery?_onSlot]
    split
    · rename_i h
      rw [h]
      rfl
    · rfl
  joiners j := by
    unfold onStatus joinersOf
    rw [get?_onSlot]
    split
    · rename_i h
      rw [h]
      cases s.slots.get? id <;> rfl
    · rfl

theorem sameWaits_wakeup (id : ThreadId) (s : Sched) : SameWaits s (s.wakeup id) := by
  have h := sameWaits_onStatus id Status.wake s
  unfold wakeup
  dsimp only
  split
  · exact { h with }
  · exact h

theorem sameWaits_stop (me : ThreadId) (s : Sched) : SameWaits s (s.stop me) := by
  have h := sameWaits_onStatus me Status.stop s
  unfold Sched.stop
  dsimp only
  split
  · exact { h with }
  · exact h

/-! ## The operations -/

theorem spares_note (n : Notice) (s : Sched) : Spares b s (s.note n) :=
  { Spares.refl b s with }

theorem spares_elapse (d : Span) (s : Sched) : Spares b s (s.elapse d) :=
  { Spares.refl b s with }

theorem spares_addJoiner (target waiter : ThreadId) (s : Sched) :
    Spares b s (s.addJoiner target waiter) :=
  spares_onSlot (fun _ _ h => List.mem_append_left _ h) (fun _ _ => rfl) fun _ _ h => h

theorem spares_takeDelivery (hme : ¬ b me) : Spares b s (s.takeDelivery me) :=
  spares_onSlot (fun _ _ h => h) (fun _ h => absurd h hme) fun _ _ h => h

theorem mem_joinersOf_addJoiner {waiter : ThreadId} (hlive : s.isLive id = true) :
    waiter ∈ (s.addJoiner id waiter).joinersOf id := by
  rw [isLive, Option.isSome_iff_exists] at hlive
  obtain ⟨x, hx⟩ := hlive
  refine mem_joinersOf.mpr ⟨{ x with joiners := x.joiners ++ [waiter] }, ?_, by simp⟩
  exact (get?_onSlot ..).trans (by simp [hx])

theorem registered_await (w : Waiter Descriptor) (s : Sched) : (s.await w).Registered w.id :=
  ⟨w, List.mem_append_right _ (List.mem_singleton_self w), rfl⟩

theorem spares_await {w : Waiter Descriptor} (hme : ¬ b w.id) : Spares b s (s.await w) := by
  have hfresh : Spares b s (s.takeDelivery w.id) := spares_takeDelivery hme
  have hmore : ∀ t, (s.takeDelivery w.id).Registered t → (s.await w).Registered t :=
    fun t ⟨v, hv, hid⟩ => ⟨v, List.mem_append_left _ hv, hid⟩
  exact { hfresh with
    collecting := fun t hb hl h => (hfresh.collecting t hb hl h).imp_left (hmore t)
    polled := fun t hb ht hr hd => (hfresh.polled t hb ht hr hd).imp_left (hmore t) }

theorem spares_wakeup (id : ThreadId) (s : Sched) : Spares b s (s.wakeup id) :=
  (sameWaits_wakeup id s).spares fun t _ h => by
    rw [isStopped_wakeup, Bool.and_eq_true] at h
    exact h.1

theorem spares_wakeAll (ids : List ThreadId) (s : Sched) : Spares b s (s.wakeAll ids) := by
  induction ids generalizing s with
  | nil => exact .refl b s
  | cons id ids ih => exact (spares_wakeup id s).trans (ih _)

theorem spares_yieldNow (me : ThreadId) (s : Sched) : Spares b s (s.yieldNow me) := by
  have hslot : Spares b s (s.onStatus me (Status.enter .runnable)) :=
    spares_onSlot (fun _ _ h => h) (fun _ _ => rfl) fun x _ h => by
      simp [Status.isStopped] at h
  exact { hslot with }

theorem spares_stop (hme : ¬ b me) : Spares b s (s.stop me) := by
  apply (sameWaits_stop me s).spares
  intro t hb h
  have hne : t ≠ me := fun he => hme (he ▸ hb)
  have hother : (s.onStatus me Status.stop).isStopped t = s.isStopped t := by
    unfold isStopped onStatus
    rw [get?_onSlot, if_neg hne]
  unfold Sched.stop at h
  dsimp only at h
  split at h <;> exact hother.symm.trans h

/-- A new thread disturbs nobody, since its identity is new. -/
theorem spares_spawn (hnew : s.isLive s.ids.next = false) : Spares b s s.spawn.2 := by
  have hget : ∀ t, s.spawn.2.slots.get? t =
      if t = s.ids.next then some ⟨⟨.runnable, false⟩, false, [], none⟩ else s.slots.get? t :=
    fun t => Store.get?_set ..
  have hother : ∀ t, s.isLive t = true → t ≠ s.ids.next := by
    rintro t ht rfl
    rw [ht] at hnew
    cases hnew
  have hsame : ∀ t, t ≠ s.ids.next → s.spawn.2.slots.get? t = s.slots.get? t :=
    fun t ht => (hget t).trans (if_neg ht)
  refine {
    main := rfl
    live := fun t h => ?_
    stopped := fun t _ h => ?_
    joiners := fun id t h => ?_
    collecting := fun t _ hl h => ?_
    polled := fun t _ ht hr hd => ⟨hr, ?_⟩ }
  · unfold isLive
    rw [hsame t (hother t h)]
    exact h
  · unfold isStopped at h ⊢
    rw [hget] at h
    split at h
    · simp [Status.isStopped] at h
    · exact h
  · obtain ⟨x, hx, hmem⟩ := mem_joinersOf.mp h
    have hid : s.isLive id = true := by simp [isLive, hx]
    exact mem_joinersOf.mpr ⟨x, (hsame id (hother id hid)).trans hx, hmem⟩
  · unfold delivery?
    rw [hsame t (hother t hl)]
    exact h
  · unfold delivery? isStopped at *
    rw [hget] at ht ⊢
    split at ht
    · simp [Status.isStopped] at ht
    · rename_i hne
      rw [if_neg hne]
      exact hd

/-! ## Polls -/

/-- A waiter is either done or keeps waiting. -/
theorem settle_done_or_pending {δ : Type} (now : Instant) (outcome : Delivery δ)
    (ws : List (Waiter δ)) {w : Waiter δ} (hw : w ∈ ws) :
    (∃ d, (w.id, d) ∈ (Waiter.settle now outcome ws).1) ∨
      w ∈ (Waiter.settle now outcome ws).2 := by
  induction ws generalizing outcome with
  | nil => cases hw
  | cons v ws ih =>
      have htail : w ∈ ws → _ := ih (outcome.map (List.drop v.entries.length))
      rw [Waiter.settle]
      dsimp only
      rcases List.mem_cons.mp hw with rfl | hmem
      · split_ifs
        · exact .inl ⟨_, List.mem_cons_self⟩
        · exact .inr List.mem_cons_self
      · split_ifs
        · exact (htail hmem).imp_left fun ⟨d, hd⟩ => ⟨d, List.mem_cons_of_mem _ hd⟩
        · exact (htail hmem).imp_right (List.mem_cons_of_mem _)

/-- Nobody is disturbed by the outcomes of others. -/
theorem spares_tell (done : List (ThreadId × Delivery Descriptor)) (s : Sched) :
    Spares (fun t => ∀ d, (t, d) ∉ done) s (s.tell done) := by
  induction done generalizing s with
  | nil => exact .refl _ s
  | cons d done ih =>
      have hslot : Spares (fun t => ∀ e, (t, e) ∉ d :: done) s
          (s.onSlot d.1 fun slot => { slot with delivery := some d.2 }) :=
        spares_onSlot (fun _ _ h => h) (fun _ h => absurd List.mem_cons_self (h d.2))
          fun _ _ h => h
      have hrest := ih (s.onSlot d.1 fun slot => { slot with delivery := some d.2 })
      have hfewer : ∀ t, (∀ e, (t, e) ∉ d :: done) → ∀ e, (t, e) ∉ done :=
        fun t h e he => h e (List.mem_cons_of_mem _ he)
      exact hslot.trans (hrest.mono hfewer)

theorem delivery?_tell_of_ne_none {done : List (ThreadId × Delivery Descriptor)}
    (h : s.delivery? t ≠ none) : (s.tell done).delivery? t ≠ none := by
  induction done generalizing s with
  | nil => exact h
  | cons e done ih =>
      apply ih
      rw [delivery?_onSlot]
      split
      · rename_i he
        subst he
        unfold delivery? at h
        cases hx : s.slots.get? e.1 with
        | none => simp [hx] at h
        | some x => simp
      · exact h

/-- Whoever is told has an outcome. -/
theorem delivery?_tell {done : List (ThreadId × Delivery Descriptor)} {d : Delivery Descriptor}
    (hlive : s.isLive t = true) (hd : (t, d) ∈ done) : (s.tell done).delivery? t ≠ none := by
  induction done generalizing s with
  | nil => cases hd
  | cons e done ih =>
      rcases List.mem_cons.mp hd with rfl | hlater
      · have hset :
            (s.onSlot t fun slot => { slot with delivery := some d }).delivery? t ≠ none := by
          rw [isLive, Option.isSome_iff_exists] at hlive
          obtain ⟨x, hx⟩ := hlive
          simp [delivery?_onSlot, hx]
        exact (delivery?_tell_of_ne_none hset : (tell done _).delivery? t ≠ none)
      · exact ih ((isLive_onSlot ..).trans hlive) hlater

/-- An outcome comes together with a wakeup, and without an outcome a wait stays registered. -/
theorem spares_deliver (outcome : Delivery Descriptor) (s : Sched) :
    Spares b s (s.deliver outcome) := by
  have hcover := fun w (hw : w ∈ s.waiters) => settle_done_or_pending s.clock outcome s.waiters hw
  unfold deliver
  generalize Waiter.settle s.clock outcome s.waiters = settled at *
  obtain ⟨done, pending⟩ := settled
  dsimp only at hcover ⊢
  have htell := spares_tell done { s with waiters := pending }
  have hwake : Spares (fun _ => True) (tell done { s with waiters := pending }) _ :=
    spares_wakeAll (done.map (·.1)) _
  have hnotdone : ∀ t, t ∉ done.map (·.1) → ∀ d, (t, d) ∉ done :=
    fun t ht d hd => ht (List.mem_map.mpr ⟨_, hd, rfl⟩)
  have hpending : ∀ t, (∀ d, (t, d) ∉ done) → s.Registered t →
      Registered t { s with waiters := pending } := by
    rintro t ht ⟨w, hw, rfl⟩
    exact ⟨w, (hcover w hw).resolve_left fun ⟨d, hd⟩ => ht d hd, rfl⟩
  refine {
    main := hwake.main.trans htell.main
    live := fun t ht => hwake.live t (htell.live t ht)
    stopped := fun t _ ht => ?_
    joiners := fun id t ht => hwake.joiners id t (htell.joiners id t ht)
    collecting := fun t _ hl h => ?_
    polled := fun t _ ht hr hd => ?_ }
  · rw [isStopped_wakeAll, Bool.and_eq_true, decide_eq_true_iff] at ht
    exact htell.stopped t (hnotdone t ht.2) ht.1
  · refine hwake.collecting t trivial (htell.live t hl) ?_
    by_cases hdone : ∃ d, (t, d) ∈ done
    · obtain ⟨d, hd⟩ := hdone
      exact .inr (delivery?_tell hl hd)
    · have hnone : ∀ d, (t, d) ∉ done := fun d hd => hdone ⟨d, hd⟩
      exact htell.collecting t hnone hl (h.imp_left (hpending t hnone))
  · have hstill := hwake.stopped t trivial ht
    rw [isStopped_wakeAll, Bool.and_eq_true, decide_eq_true_iff] at ht
    have hnone := hnotdone t ht.2
    obtain ⟨hr', hd'⟩ := htell.polled t hnone hstill (hpending t hnone hr) hd
    refine hwake.polled t trivial ?_ hr' hd'
    rw [isStopped_wakeAll, Bool.and_eq_true, decide_eq_true_iff]
    exact ht

theorem spares_serveWaiters (system : PollSystem Descriptor) (longest : Span) (s : Sched) :
    Spares b s (s.serveWaiters system longest).2 := by
  unfold serveWaiters
  split
  · exact .refl b s
  · exact (spares_elapse _ s).trans (spares_deliver _ _)

/-! ## The search for the next thread -/

theorem spares_dispatch (giver next : ThreadId) (s : Sched) :
    Spares b s (s.dispatch giver next) := by
  have hrun : Spares b s (s.onStatus next (Status.enter .running)) :=
    spares_onSlot (fun _ _ h => h) (fun _ _ => rfl) fun x _ h => by
      simp [Status.isStopped] at h
  have hbaton : Spares b (s.onStatus next (Status.enter .running))
      ((s.onStatus next (Status.enter .running)).onSlot next fun slot =>
        { slot with baton := true }) :=
    spares_onSlot (fun _ _ h => h) (fun _ _ => rfl) fun _ _ h => h
  unfold dispatch
  dsimp only
  split
  · exact { hrun with }
  · exact { hrun.trans hbaton with }

theorem spares_choose (giver : ThreadId) (s : Sched) : Spares b s (s.choose giver) := by
  unfold choose
  split
  · exact { Spares.refl b s with }
  · rename_i id rest _
    have htaken : Spares b s { s with ready := rest } := { Spares.refl b s with }
    dsimp only
    split
    · exact htaken.trans (spares_dispatch giver id _)
    · exact { htaken with }

theorem spares_settleIdle (giver : ThreadId) (woken : Bool) (s : Sched) :
    Spares b s (s.settleIdle giver woken) := by
  unfold settleIdle
  split
  · exact { Spares.refl b s with }
  · dsimp only
    split <;> exact { Spares.refl b s with }

theorem spares_takeUp (htake : s.takeUp = some s') : Spares b s s' := by
  obtain ⟨id, -, rfl⟩ := Option.map_eq_some_iff.mp htake
  have hslot : Spares b s (s.onSlot id fun slot => { slot with baton := false }) :=
    spares_onSlot (fun _ _ h => h) (fun _ _ => rfl) fun _ _ h => h
  exact { hslot with }

/-- The search for the next thread disturbs nobody. -/
theorem spares_search {system : PollSystem Descriptor} (hs : s.search system = some s') :
    Spares b s s' := by
  have hpolled : ∀ longest, Spares b s (s.serveWaiters system longest).2 :=
    fun longest => spares_serveWaiters system longest s
  cases search_cases hs with
  | poll => exact { hpolled .zero with }
  | choose => exact spares_choose _ s
  | rest => exact (hpolled s.idlePoll).trans (spares_settleIdle ..)
  | revive => exact { Spares.refl b s with }
  | takeUp _ htake => exact spares_takeUp htake

/-! ## The end of a thread -/

theorem isLive_retire (me t : ThreadId) (turn : Turn) (s : Sched) :
    (s.retire me turn).isLive t = (s.isLive t && decide (t ≠ me)) := by
  rw [(restands_retire me turn s).isLive]
  by_cases h : t = me <;> simp [h]

theorem isStopped_retire (me t : ThreadId) (turn : Turn) (s : Sched) :
    (s.retire me turn).isStopped t = (s.isStopped t && decide (t ≠ me)) := by
  rw [(restands_retire me turn s).isStopped]
  by_cases h : t = me <;> simp [h]

theorem get?_retire (turn : Turn) (h : t ≠ me) :
    (s.retire me turn).slots.get? t = s.slots.get? t :=
  (Store.get?_erase ..).trans (if_neg h)

theorem joinersOf_retire (turn : Turn) (h : id ≠ me) :
    (s.retire me turn).joinersOf id = s.joinersOf id := by
  unfold joinersOf
  rw [get?_retire turn h]

theorem delivery?_retire (turn : Turn) (h : t ≠ me) :
    (s.retire me turn).delivery? t = s.delivery? t := by
  unfold delivery?
  rw [get?_retire turn h]

/-- Only the thread that ends disappears. -/
theorem isLive_finish (me t : ThreadId) (s : Sched) :
    (s.finish me).isLive t = (s.isLive t && decide (t ≠ me)) :=
  (isLive_wakeAll _ t _).trans (isLive_retire me t _ s)

/-- Whoever is still stopped after the end of a thread did not wait for it. -/
theorem isStopped_finish (h : (s.finish me).isStopped t = true) :
    s.isStopped t = true ∧ t ≠ me ∧ t ∉ s.joinersOf me ∧ ¬ (s.live = 2 ∧ t = s.main) := by
  have hwoken : ((s.retire me (.seeking me)).isStopped t &&
      decide (t ∉ s.joinersOf me ++ if s.live = 2 then [s.main] else [])) = true :=
    (isStopped_wakeAll _ t _).symm.trans h
  rw [isStopped_retire] at hwoken
  simp only [Bool.and_eq_true, decide_eq_true_eq, List.mem_append, not_or] at hwoken
  obtain ⟨⟨hstop, hne⟩, hjoiner, hmain⟩ := hwoken
  refine ⟨hstop, hne, hjoiner, fun ⟨hlive, ht⟩ => hmain ?_⟩
  simp [hlive, ht]

/-- The main thread sleeps on through the end of another thread only if a third one is left: as the
second of two it would have been woken. -/
theorem Coherent.exists_live_finish (h : s.Coherent) (ht : s.turn = .held me)
    (hstop : (s.finish me).isStopped s.main = true) :
    ∃ u, u ≠ s.main ∧ (s.finish me).isLive u = true := by
  obtain ⟨hwas, hne, -, hnotlast⟩ := isStopped_finish hstop
  have htwo : 1 < s.live :=
    h.one_lt_live (isLive_of_isStopped hwas) (isLive_of_isRunning (h.isRunning_of_held ht)) hne
  have hthree : s.live ≠ 2 := fun he => hnotlast ⟨he, rfl⟩
  obtain ⟨u, hu, hlive⟩ := h.exists_live_not_mem
    (Nat.lt_of_le_of_ne htwo (Ne.symm hthree) : [s.main, me].length < s.live)
  simp only [List.mem_cons, List.not_mem_nil, or_false, not_or] at hu
  refine ⟨u, hu.1, ?_⟩
  rw [isLive_finish, hlive]
  simpa using hu.2

end Sched

end Baton
