import Baton.Proofs.Program.Outcomes
import Baton.Proofs.Sched.Enrolled

/-!
# Machine: the end of a run

When a run is over nobody is live, queued or registered. A thread is registered for descriptors only
as long as it looks for the outcome of its wait next.
-/

namespace Baton

/-- Whether the thread with this stack looks next for the outcome of its wait for descriptors, or
suspends to wait for it. -/
def collects : List Task → Bool
  | .collect :: _ => true
  | .suspend :: .collect :: _ => true
  | _ => false

namespace Machine

variable {p : Program} {τ : List Happening} {m m' : Machine} {me t : ThreadId} {x : Task}
  {ts : List Task}

/-- The registered waits for descriptors belong to live threads that look for the outcome next. -/
structure Enrolled (m : Machine) : Prop where
  sched : m.sched.Enrolled
  collects : ∀ w ∈ m.sched.waiters, collects (m.stackOf w.id) = true

/-! ## Tasks -/

theorem waits_finish (o : Outcome) : (m.finish me o).sched.waiters = m.sched.waiters ∧
    ∀ t, t ≠ me → (m.finish me o).sched.delivery? t = m.sched.delivery? t := by
  unfold finish
  split
  · exact ⟨rfl, fun _ _ => rfl⟩
  · have hwoken := Sched.routine_wakeAll
      (m.sched.joinersOf me ++ if m.sched.live = 2 then [m.sched.main] else [])
      (m.sched.retire me (.seeking me))
    exact ⟨hwoken.waiters, fun t hne => (hwoken.delivery t).trans (Sched.delivery?_retire _ hne)⟩

theorem waits_end (me : ThreadId) (m : Machine) (hx : x.isEnd = true) :
    (m.perform me x).sched.waiters = m.sched.waiters ∧ ∀ t, t ≠ me → m.sched.isLive t = true →
      (m.perform me x).sched.delivery? t = m.sched.delivery? t := by
  obtain ⟨n, o, -, hn, hperform⟩ := perform_end me m hx
  have hfinish : (n.finish me o).sched.waiters = m.sched.waiters ∧ ∀ t, t ≠ me →
      (n.finish me o).sched.delivery? t = m.sched.delivery? t := by
    rcases hn with rfl | rfl
    · exact waits_finish o
    · exact waits_finish (m := m.note _) o
  rw [hperform]
  exact ⟨hfinish.1, fun t hne _ => hfinish.2 t hne⟩

/-- Only waits for descriptors change the registered waits, and a task hands out no outcomes. -/
theorem waits_perform (hc : m.sched.Coherent) (hselect : x.isSelect = false) (hx : x ≠ .collect)
    (hids : (m.perform me x).sched.ids.handed ≤ UInt64.size) :
    (m.perform me x).sched.waiters = m.sched.waiters ∧ ∀ t, t ≠ me → m.sched.isLive t = true →
      (m.perform me x).sched.delivery? t = m.sched.delivery? t := by
  cases hroutine : x.isRoutine with
  | true =>
      have h := (perform_routine me m hroutine).sched
      exact ⟨h.waiters, fun t _ _ => h.delivery t⟩
  | false =>
      have hend : x.isEnd = true → _ := waits_end me m
      cases x with
      | suspend =>
          have h := Sched.sameWaits_stop me m.sched
          exact ⟨h.waiters, fun t _ _ => h.delivery t⟩
      | pause =>
          have h := Sched.sameWaits_onStatus me (Status.enter .runnable) m.sched
          exact ⟨rfl, fun t _ _ => h.delivery t⟩
      | spawn code =>
          refine ⟨rfl, fun t _ hlive => ?_⟩
          have hne : t ≠ m.sched.ids.next := by
            rintro rfl
            rw [hc.isLive_next hids] at hlive
            cases hlive
          have hget : m.sched.spawn.2.slots.get? t = m.sched.slots.get? t :=
            (Store.get?_set ..).trans (if_neg hne)
          show m.sched.spawn.2.delivery? t = m.sched.delivery? t
          rw [Sched.delivery?, hget, Sched.delivery?]
      | exit | abort => exact hend rfl
      | drain =>
          show (m.drain me).sched.waiters = _ ∧ ∀ t, _ → _ → (m.drain me).sched.delivery? t = _
          unfold drain
          split
          · exact ⟨rfl, fun _ _ _ => rfl⟩
          · exact ⟨rfl, fun t hne _ => Sched.delivery?_retire .over hne⟩
      | select | selectHere => cases hselect
      | collect => exact absurd rfl hx
      | _ => cases hroutine

/-- A thread with another task before it is not registered. -/
theorem Enrolled.ne_of_collects (h : m.Enrolled) (hme : Baton.collects (m.stackOf me) = false) :
    ∀ w ∈ m.sched.waiters, w.id ≠ me := by
  rintro w hw rfl
  exact absurd ((h.collects w hw).symm.trans hme) (by simp)

/-- The registered threads other than `me` are left alone by it. -/
theorem Enrolled.of_spares (h : m.Enrolled) (hspares : Spares (· ≠ me) m m')
    (hne : ∀ w ∈ m.sched.waiters, w.id ≠ me) (hwaiters : m'.sched.waiters = m.sched.waiters)
    (hdelivery : ∀ t, t ≠ me → m.sched.isLive t = true →
      m'.sched.delivery? t = m.sched.delivery? t) : m'.Enrolled where
  sched := h.sched.congr hwaiters
    (fun w hw => (hspares.live w.id (hne w hw) (h.sched.live w hw)).trans (h.sched.live w hw).symm)
    fun w hw => hdelivery w.id (hne w hw) (h.sched.live w hw)
  collects w hw := by
    rw [hwaiters] at hw
    rcases hspares.stack w.id (hne w hw) with hsame | ⟨hdead, -⟩
    · rw [hsame]
      exact h.collects w hw
    · exact absurd ((h.sched.live w hw).symm.trans hdead) (by simp)

theorem Enrolled.suspend (h : m.Enrolled) (hstack : m.stackOf me = .suspend :: ts) :
    Enrolled ((m.setStack me ts).onSched (Sched.stop me)) where
  sched := h.sched.sameWaits (Sched.sameWaits_stop me m.sched)
  collects w hw := by
    have hwas := h.collects w ((Sched.sameWaits_stop me m.sched).waiters ▸ hw)
    by_cases hne : w.id = me
    · rw [hne, hstack] at hwas
      rw [hne]
      show Baton.collects ((m.setStack me ts).stackOf me) = true
      rw [show (m.setStack me ts).stackOf me = ts from stackOf_onThread ..]
      cases ts with
      | nil => cases hwas
      | cons y ts => cases y <;> first | rfl | cases hwas
    · have hother : (m.setStack me ts).stackOf w.id = m.stackOf w.id :=
        congrArg Thread.stack ((Store.get_update ..).trans (if_neg hne))
      exact (congrArg Baton.collects hother).trans hwas

/-- A thread that begins to wait is registered and looks for the outcome next. -/
theorem Enrolled.awaiting (h : m.Enrolled) {w : Waiter Descriptor}
    (hlive : m.sched.isLive w.id = true) (hnew : ∀ v ∈ m.sched.waiters, v.id ≠ w.id) :
    Enrolled ((m.setStack w.id ts).awaiting w) where
  sched :=
    have helapsed : (m.sched.elapse Sched.pollCost).Enrolled :=
      h.sched.congr rfl (fun _ _ => rfl) fun _ _ => rfl
    helapsed.await hlive hnew
  collects v hv := by
    rcases List.mem_append.mp (hv : v ∈ m.sched.waiters ++ [w]) with hv | hv
    · have hother : ((m.setStack w.id ts).awaiting w).stackOf v.id = m.stackOf v.id :=
        congrArg Thread.stack (((Store.get_update ..).trans (if_neg (hnew v hv))).trans
          ((Store.get_update ..).trans (if_neg (hnew v hv))))
      rw [hother]
      exact h.collects v hv
    · rw [List.mem_singleton.mp hv, Machine.awaiting, stackOf_push]
      rfl

/-- A thread without an outcome stays registered; one that takes its outcome was not any more. -/
theorem Enrolled.collect (h : m.Enrolled) (hspares : Spares (· ≠ me) m
      ((m.setStack me ts).perform me .collect)) :
    ((m.setStack me ts).perform me .collect).Enrolled := by
  rcases perform_collect me (m.setStack me ts) with
    ⟨hnone, hperform⟩ | ⟨hsome, r, hperform⟩
  · rw [hperform]
    exact {
      sched := h.sched
      collects := fun w hw => by
        by_cases hne : w.id = me
        · rw [hne, stackOf_push]
          rfl
        · have hother : ((m.setStack me ts).push me [.suspend, .collect]).stackOf w.id =
              m.stackOf w.id :=
            congrArg Thread.stack (((Store.get_update ..).trans (if_neg hne)).trans
              ((Store.get_update ..).trans (if_neg hne)))
          rw [hother]
          exact h.collects w hw }
  · have hne : ∀ w ∈ m.sched.waiters, w.id ≠ me := by
      rintro w hw rfl
      exact hsome (h.sched.undelivered w hw)
    rw [hperform] at hspares ⊢
    refine h.of_spares hspares hne rfl fun t ht _ => ?_
    exact (Sched.delivery?_onSlot ..).trans (if_neg ht)

theorem Enrolled.perform (h : m.Enrolled) (hs : m.Sound) (ht : m.sched.turn = .held me)
    (hstack : m.stackOf me = x :: ts)
    (hids : ((m.setStack me ts).perform me x).sched.ids.handed ≤ UInt64.size) :
    ((m.setStack me ts).perform me x).Enrolled := by
  have hspares := hs.spares ht hstack hids
  have hlive : m.sched.isLive me = true :=
    Sched.isLive_of_isRunning (hs.coherent.isRunning_of_held ht)
  by_cases hsuspend : x = .suspend
  · subst hsuspend
    exact h.suspend hstack
  by_cases hcollect : x = .collect
  · subst hcollect
    exact h.collect hspares
  have hne : ∀ w ∈ m.sched.waiters, w.id ≠ me := by
    refine h.ne_of_collects ?_
    rw [hstack]
    cases x <;> first | rfl | exact absurd rfl hsuspend | exact absurd rfl hcollect
  cases hselect : x.isSelect with
  | false =>
      obtain ⟨hwaiters, hdelivery⟩ :=
        waits_perform (m := m.setStack me ts) hs.coherent hselect hcollect hids
      exact h.of_spares hspares hne hwaiters hdelivery
  | true =>
      rcases perform_select me (m.setStack me ts) hselect with hr | ⟨w, rfl, hperform⟩
      · exact h.of_spares hspares hne hr.sched.waiters fun t _ _ => hr.sched.delivery t
      · rw [hperform]
        exact h.awaiting hlive hne

/-! ## Runs -/

theorem Enrolled.step (h : m.Enrolled) (hs : m.Sound) (hstep : m.step = some m')
    (hids : m'.sched.ids.handed ≤ UInt64.size) : m'.Enrolled := by
  rcases step_cases hstep with ⟨me, x, ts, hturn, hstack, rfl⟩ | ⟨-, s, hsearch, rfl⟩
  · exact h.perform hs hturn hstack hids
  · obtain ⟨henrolled, hsub⟩ := h.sched.search hsearch
    exact ⟨henrolled, fun w hw => h.collects w (hsub hw)⟩

theorem Reaches.enrolled (h : Reaches p.machine m) (hids : m.sched.ids.handed ≤ UInt64.size) :
    m.Enrolled := by
  induction h with
  | refl => exact ⟨⟨List.nodup_nil, nofun, nofun⟩, nofun⟩
  | @step n k hn hstep ih =>
      have hhanded := Nat.le_trans (handed_le_of_step hstep) hids
      exact (ih hhanded).step (hn.sound hhanded) hstep hids
  | @wake n id _ ih =>
      have hwas := ih (by simpa [wakeFromOutside, Machine.onSched] using hids)
      have hsame := Sched.sameWaits_wakeup id n.sched
      exact ⟨hwas.sched.sameWaits hsame, fun w hw => hwas.collects w (hsame.waiters ▸ hw)⟩
  | elapse d _ ih => exact ⟨(ih hids).sched.congr rfl (fun _ _ => rfl) fun _ _ => rfl,
      (ih hids).collects⟩
  | outage e _ ih => exact { ih hids with }

/-! ## The end of a run -/

/-- When nobody is live, nobody is kept. -/
theorem slots_eq_nil {s : Sched} (h : ∀ t, s.isLive t = false) : s.slots.keys = [] := by
  rw [List.eq_nil_iff_forall_not_mem]
  intro t ht
  exact absurd ((h t).symm.trans (Store.mem_keys_iff.mp ht)) (by simp)

/-- When nobody is live, nobody is queued. -/
theorem ready_eq_nil {s : Sched} (hc : s.Coherent) (h : ∀ t, s.isLive t = false) :
    s.ready = [] := by
  rw [List.eq_nil_iff_forall_not_mem]
  intro t ht
  have hcount := hc.count_ready t
  have hpos := List.count_pos_iff.mpr ht
  split at hcount
  · rename_i hr
    exact absurd ((h t).symm.trans (Sched.isLive_of_isRunnable hr)) (by simp)
  · omega

/-- The main thread has been started. -/
theorem Chronicle.started_main (h : Chronicle p τ m) :
    .started .first ∈ τ := by
  induction h with
  | start => exact List.mem_singleton_self _
  | step _ _ ih => exact List.mem_append_left _ ih
  | wake _ _ ih => exact List.mem_append_left _ ih
  | elapse _ _ ih => exact ih
  | outage _ _ ih => exact ih

end Machine

end Baton
