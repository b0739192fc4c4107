import Baton.Proofs.Sched.Bystander

/-!
# Scheduler: rounds without waits for descriptors

While nobody waits for descriptors a search neither polls nor rests: it hands the turn to the oldest
entry of the ready queue. `Mild` collects what most operations leave as it is, and the alertness of
a thread tells how often it may still suspend before it sleeps until it is woken again. Only wakeups
raise it.
-/

namespace Baton

/-- How often a thread may suspend before it sleeps. -/
def Status.alertness (x : Status) : Nat :=
  (if x.isStopped then 0 else 1) + if x.notified then 1 else 0

namespace Sched

variable {b : ThreadId → Prop} {s s' s'' : Sched} {me t id : ThreadId}

/-- The change spares the threads in `b`, nobody comes or goes, and nobody begins or ends a wait for
descriptors. -/
structure Mild (b : ThreadId → Prop) (s s' : Sched) : Prop extends Spares b s s' where
  ids : s'.ids = s.ids
  waiters : s'.waiters = s.waiters
  isLive : ∀ t, s'.isLive t = s.isLive t

theorem Mild.refl (b : ThreadId → Prop) (s : Sched) : Mild b s s :=
  { Spares.refl b s with ids := rfl, waiters := rfl, isLive := fun _ => rfl }

theorem Mild.trans (h : Mild b s s') (h' : Mild b s' s'') : Mild b s s'' :=
  { h.toSpares.trans h'.toSpares with
    ids := h'.ids.trans h.ids
    waiters := h'.waiters.trans h.waiters
    isLive := fun t => (h'.isLive t).trans (h.isLive t) }

theorem Mild.mono {c : ThreadId → Prop} (h : Mild b s s') (hc : ∀ t, c t → b t) : Mild c s s' :=
  { h with toSpares := h.toSpares.mono hc }

theorem mild_note (n : Notice) (s : Sched) : Mild b s (s.note n) :=
  { spares_note n s with ids := rfl, waiters := rfl, isLive := fun _ => rfl }

theorem mild_wakeup (id : ThreadId) (s : Sched) : Mild b s (s.wakeup id) :=
  { spares_wakeup id s with
    ids := ids_wakeup id s
    waiters := (sameWaits_wakeup id s).waiters
    isLive := fun t => isLive_wakeup id t s }

theorem mild_wakeAll (ids : List ThreadId) (s : Sched) : Mild b s (s.wakeAll ids) := by
  induction ids generalizing s with
  | nil => exact .refl b s
  | cons id ids ih => exact (mild_wakeup id s).trans (ih _)

theorem mild_addJoiner (target waiter : ThreadId) (s : Sched) :
    Mild b s (s.addJoiner target waiter) :=
  { spares_addJoiner target waiter s with
    ids := rfl
    waiters := rfl
    isLive := fun _ => isLive_onSlot .. }

theorem mild_yieldNow (me : ThreadId) (s : Sched) : Mild b s (s.yieldNow me) :=
  { spares_yieldNow me s with
    ids := rfl
    waiters := rfl
    isLive := (sameWaits_onStatus me (Status.enter .runnable) s).live }

theorem ids_stop (me : ThreadId) (s : Sched) : (s.stop me).ids = s.ids := by
  rw [stop]
  split <;> rfl

theorem mild_stop (me : ThreadId) (s : Sched) : Mild (· ≠ me) s (s.stop me) :=
  { spares_stop (fun hne => hne rfl) with
    ids := ids_stop me s
    waiters := (sameWaits_stop me s).waiters
    isLive := (sameWaits_stop me s).live }

@[simp] theorem turn_wakeAll (ids : List ThreadId) (s : Sched) : (s.wakeAll ids).turn = s.turn := by
  induction ids generalizing s with
  | nil => rfl
  | cons id ids ih => rw [wakeAll_cons, ih, turn_wakeup]

/-- The running thread stops and looks for the next one, or goes on because it was woken before. -/
theorem turn_stop (h : s.turn = .held me) :
    (s.stop me).turn = .seeking me ∨ (s.stop me).turn = .held me := by
  rw [stop]
  split
  · exact .inl rfl
  · exact .inr h

/-! ## Alertness -/

/-- How often a live thread may suspend before it sleeps. -/
def alertness (t : ThreadId) (s : Sched) : Nat :=
  ((s.slots.get? t).map fun x => x.status.alertness).getD 0

theorem alertness_eq_of_get? (h : s'.slots.get? t = s.slots.get? t) :
    s'.alertness t = s.alertness t := by
  rw [alertness, alertness, h]

theorem alertness_onSlot {f : Slot → Slot}
    (hf : ∀ x, s.slots.get? id = some x → (f x).status.alertness = x.status.alertness) :
    (s.onSlot id f).alertness t = s.alertness t := by
  rw [alertness, alertness, get?_onSlot]
  split
  · rename_i h
    subst h
    cases hx : s.slots.get? t with
    | none => rfl
    | some x => exact hf x hx
  · rfl

theorem alertness_addJoiner (target waiter t : ThreadId) (s : Sched) :
    (s.addJoiner target waiter).alertness t = s.alertness t :=
  alertness_onSlot fun _ _ => rfl

/-- A wakeup makes the thread that it is for more alert by one at most. -/
theorem alertness_wakeup_le (id t : ThreadId) (s : Sched) :
    (s.wakeup id).alertness t ≤ s.alertness t + if t = id then 1 else 0 := by
  have hslots : (s.wakeup id).slots = (s.onStatus id Status.wake).slots := by
    rw [wakeup]
    split <;> rfl
  rw [alertness, alertness, hslots, onStatus, get?_onSlot]
  split
  · rename_i ht
    subst ht
    cases hx : s.slots.get? t with
    | none => exact Nat.zero_le _
    | some x =>
        show x.status.wake.alertness ≤ x.status.alertness + 1
        rw [Status.alertness, Status.alertness, Status.isStopped_wake, Status.notified_wake]
        cases x.status.isStopped <;> simp
  · exact Nat.le_refl _

theorem slots_stop (me : ThreadId) (s : Sched) :
    (s.stop me).slots = (s.onStatus me Status.stop).slots := by
  rw [stop]
  split <;> rfl

theorem alertness_stop_other (h : t ≠ me) : (s.stop me).alertness t = s.alertness t := by
  apply alertness_eq_of_get?
  rw [slots_stop, onStatus, get?_onSlot, if_neg h]

/-- A suspension uses up some of the alertness of a running thread. -/
theorem alertness_stop_self (h : s.isRunning me = true) :
    (s.stop me).alertness me < s.alertness me := by
  obtain ⟨x, hx, hrun⟩ : ∃ x, s.slots.get? me = some x ∧ x.status.state = .running := by
    rw [isRunning] at h
    cases hx : s.slots.get? me with
    | none => simp [hx] at h
    | some x => exact ⟨x, rfl, by simpa [hx] using h⟩
  have hstopped : x.status.isStopped = false := by simp [Status.isStopped, hrun]
  have hget : (s.stop me).slots.get? me = some { x with status := x.status.stop } := by
    rw [slots_stop, onStatus, get?_onSlot, if_pos rfl, hx]
    rfl
  rw [alertness, alertness, hget, hx]
  show x.status.stop.alertness < x.status.alertness
  rw [Status.alertness, Status.alertness, Status.isStopped_stop hstopped, hstopped]
  cases x.status.notified <;> simp

/-! ## The search -/

theorem mild_dispatch (giver next : ThreadId) (s : Sched) : Mild b s (s.dispatch giver next) :=
  { spares_dispatch giver next s with
    ids := (dispatch_frame giver next s).2.2.2
    waiters := by
      rw [dispatch]
      split <;> rfl
    isLive := by
      intro t
      have hrun := (sameWaits_onStatus next (Status.enter .running) s).live t
      rw [dispatch]
      split
      · exact hrun
      · exact (isLive_onSlot ..).trans hrun }

theorem mild_takeUp (htake : s.takeUp = some s') : Mild b s s' := by
  have hspares : Spares b s s' := spares_takeUp htake
  obtain ⟨id, -, rfl⟩ := Option.map_eq_some_iff.mp htake
  exact { hspares with
    ids := rfl
    waiters := rfl
    isLive := fun t => isLive_onSlot .. }

theorem alertness_dispatch (giver : ThreadId) (h : s.isRunnable id = true) (t : ThreadId) :
    (s.dispatch giver id).alertness t = s.alertness t := by
  have hrun : (s.onStatus id (Status.enter .running)).alertness t = s.alertness t := by
    apply alertness_onSlot
    intro x hx
    have hstate : x.status.state = .runnable := by simpa [isRunnable, hx] using h
    show Status.alertness ⟨.running, x.status.notified⟩ = _
    simp [Status.alertness, Status.isStopped, hstate]
  rw [dispatch]
  split
  · exact hrun
  · refine Eq.trans ?_ hrun
    exact alertness_onSlot fun _ _ => rfl

theorem alertness_takeUp (htake : s.takeUp = some s') (t : ThreadId) :
    s'.alertness t = s.alertness t := by
  obtain ⟨id, -, rfl⟩ := Option.map_eq_some_iff.mp htake
  exact alertness_onSlot fun _ _ => rfl

/-- Without waits for descriptors there is nothing to poll for. -/
theorem search_seeking {system : PollSystem Descriptor} {giver : ThreadId}
    (hturn : s.turn = .seeking giver) (hwaiters : s.waiters = []) :
    s.search system = some { s with turn := .choosing giver } := by
  rw [search_of_seeking hturn (canPoll_of_nil hwaiters), serveWaiters_of_nil hwaiters]

/-- The oldest entry of the queue is dispatched. -/
theorem Coherent.search_choosing {giver : ThreadId} (system : PollSystem Descriptor)
    (h : s.Coherent) (hturn : s.turn = .choosing giver) (hready : s.ready ≠ []) :
    ∃ s', s.search system = some s' ∧ s'.Coherent ∧ Mild b s s' ∧
      (∀ t, s'.alertness t = s.alertness t) ∧ (s'.turn = .passing ∨ ∃ t, s'.turn = .held t) := by
  obtain ⟨id, rest, hrest⟩ := List.exists_cons_of_ne_nil hready
  have hrunnable : isRunnable id { s with ready := rest } = true := h.isRunnable_head hrest
  have hsearch : s.search system = some (Sched.dispatch giver id { s with ready := rest }) := by
    have hchoose : s.choose giver = Sched.dispatch giver id { s with ready := rest } := by
      rw [Sched.choose, hrest]
      exact if_pos hrunnable
    rw [Sched.search, hturn]
    exact congrArg some hchoose
  have htaken : Mild b s { s with ready := rest } := { Mild.refl b s with }
  refine ⟨_, hsearch, h.dispatch (by simp [hturn, Turn.IsFree]) hrest,
    htaken.trans (mild_dispatch giver id _), alertness_dispatch giver hrunnable, ?_⟩
  rw [turn_dispatch]
  split
  · exact .inr ⟨id, rfl⟩
  · exact .inl rfl

/-- A baton that lies ready is taken up. -/
theorem Coherent.exists_takeUp (h : s.Coherent) (hturn : s.turn = .passing) :
    ∃ s', s.takeUp = some s' ∧ ∃ t, s'.turn = .held t := by
  obtain ⟨t, hbaton, -⟩ := h.baton_of_passing hturn
  have hkey : t ∈ s.slots.keys := by
    rw [Store.mem_keys_iff]
    exact Option.isSome_of_any hbaton
  have hfound : (s.slots.keys.find? fun id => s.hasBaton id).isSome = true :=
    List.find?_isSome.mpr ⟨t, hkey, hbaton⟩
  obtain ⟨id, hid⟩ := Option.isSome_iff_exists.mp hfound
  exact ⟨_, by rw [Sched.takeUp, hid, Option.map_some], id, rfl⟩

/-- When nobody runs and nobody waits for the turn, all live threads are suspended. -/
theorem Coherent.isStopped_of_ready_nil (h : s.Coherent) (hfree : s.turn.IsFree)
    (hready : s.ready = []) (hlive : s.isLive t = true) : s.isStopped t = true := by
  rcases isRunning_or_of_isLive hlive with hrun | hrun | hstop
  · rw [h.isRunning_eq_false hfree] at hrun
    cases hrun
  · have hcount := h.count_ready t
    rw [hready, hrun] at hcount
    simp at hcount
  · exact hstop

end Sched

end Baton
