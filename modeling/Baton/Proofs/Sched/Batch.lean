import Baton.Proofs.Sched.Answers

/-!
# Scheduler: one poll for all waiters

The scheduler puts the entries of all waiters into one poll and cuts the outcome into shares again.
That comes to the same as if each waiter were polled for alone, at the moment at which the poll
returns: the waiters that are served are those that would be, they are told what they would be told,
and they are woken in the order in which they registered.
-/

namespace Baton

namespace Waiter

variable {δ : Type}

/-- The poll for all waiters shared out is the polls for each waiter alone, one after the other. -/
theorem settle_pollAll_eq_flatMap (now : Instant) (system : PollSystem δ) (ws : List (Waiter δ)) :
    settle now (pollAll system ws) ws =
      (ws.flatMap fun w => (settle now (pollAll system [w]) [w]).1,
        ws.flatMap fun w => (settle now (pollAll system [w]) [w]).2) := by
  simp only [settle_pollAll]
  induction ws with
  | nil => rfl
  | cons w ws ih =>
      rw [Prod.mk.injEq] at ih
      cases hserved : w.isServed system now <;> simp [hserved, ih]

/-- A poll that fails ends every wait. -/
theorem isServed_error (e : Errno) (now : Instant) (w : Waiter δ) :
    w.isServed (.error e) now = true := rfl

end Waiter

namespace Sched

variable {s s' : Sched} {t : ThreadId}

/-- The waiters that a poll at this moment serves, in the order in which they registered. -/
def served (system : PollSystem Descriptor) (now : Instant) (s : Sched) :
    List (Waiter Descriptor) :=
  s.waiters.filter (Waiter.isServed system now)

/-- What a poll at this moment tells a thread: the answer to its own wait. If a thread had several
of them it would be the last one. -/
def answerTo (system : PollSystem Descriptor) (now : Instant) (t : ThreadId) (s : Sched) :
    Option (Delivery Descriptor) :=
  ((s.served system now).filter fun w => w.id = t).getLast?.map (Waiter.answer system)

/-- Telling reaches the slots only. -/
theorem tell_eq (done : List (ThreadId × Delivery Descriptor)) (s : Sched) :
    s.tell done = { s with slots := (s.tell done).slots } := by
  induction done generalizing s with
  | nil => rfl
  | cons d done ih => exact ih (s.onSlot d.1 _)

/-- A live thread has what it was told last. -/
theorem get?_tell (done : List (ThreadId × Delivery Descriptor)) (t : ThreadId) (s : Sched) :
    (s.tell done).slots.get? t = (s.slots.get? t).map fun slot => { slot with
      delivery := ((done.filter fun d => d.1 = t).getLast?.map (·.2)).or slot.delivery } := by
  induction done generalizing s with
  | nil => simp [tell]
  | cons d done ih =>
      have hcons : s.tell (d :: done) =
          (s.onSlot d.1 fun slot => { slot with delivery := some d.2 }).tell done := rfl
      have hslot : (s.onSlot d.1 fun slot => { slot with delivery := some d.2 }).slots.get? t =
          if t = d.1 then (s.slots.get? d.1).map fun slot => { slot with delivery := some d.2 }
          else s.slots.get? t := Store.get?_modify ..
      rw [hcons, ih, hslot]
      by_cases ht : t = d.1
      · subst ht
        rw [if_pos rfl, Option.map_map, List.filter_cons_of_pos (by simp), List.getLast?_cons]
        congr 1
        funext slot
        cases (done.filter fun e => e.1 = d.1).getLast? <;> rfl
      · rw [if_neg ht, List.filter_cons_of_neg (by simpa using Ne.symm ht)]

/-- A round of wakeups puts those into the ready queue that are stopped, in the order of the
round. -/
theorem ready_wakeAll (ids : List ThreadId) (s : Sched) :
    ∃ woken, (s.wakeAll ids).ready = s.ready ++ woken ∧ woken.Sublist ids ∧ woken.Nodup ∧
      ∀ t, t ∈ woken ↔ t ∈ ids ∧ s.isStopped t = true := by
  induction ids generalizing s with
  | nil => exact ⟨[], by simp [wakeAll], .slnil, .nil, by simp⟩
  | cons id ids ih =>
      obtain ⟨woken, hready, hsub, hnodup, hmem⟩ := ih (s.wakeup id)
      rw [ready_wakeup] at hready
      simp only [isStopped_wakeup, Bool.and_eq_true, decide_eq_true_eq] at hmem
      cases hstopped : s.isStopped id with
      | false =>
          refine ⟨woken, by simpa [wakeAll_cons, hstopped] using hready, hsub.cons id, hnodup,
            fun t => ?_⟩
          rw [hmem, List.mem_cons]
          constructor
          · rintro ⟨hin, hs, -⟩
            exact ⟨.inr hin, hs⟩
          · rintro ⟨rfl | hin, hs⟩
            · exact absurd (hs.symm.trans hstopped) (by simp)
            · refine ⟨hin, hs, ?_⟩
              rintro rfl
              exact absurd (hs.symm.trans hstopped) (by simp)
      | true =>
          refine ⟨id :: woken, by simpa [wakeAll_cons, hstopped] using hready, hsub.cons_cons id,
            List.nodup_cons.mpr ⟨fun hin => ((hmem id).mp hin).2.2 rfl, hnodup⟩, fun t => ?_⟩
          rw [List.mem_cons, hmem, List.mem_cons]
          constructor
          · rintro (rfl | ⟨hin, hs, -⟩)
            · exact ⟨.inl rfl, hstopped⟩
            · exact ⟨.inr hin, hs⟩
          · rintro ⟨rfl | hin, hs⟩
            · exact .inl rfl
            · by_cases he : t = id
              · exact .inl he
              · exact .inr ⟨hin, hs, he⟩

theorem clock_wakeAll (ids : List ThreadId) (s : Sched) : (s.wakeAll ids).clock = s.clock := by
  induction ids generalizing s with
  | nil => rfl
  | cons id ids ih => rw [wakeAll_cons, ih, wakeup_eq]

/-- One poll for all waiters has done what polls for each of them alone would do at the moment at
which it returned. -/
structure PolledAlone (system : PollSystem Descriptor) (s : Sched) (flag : Bool) (s' : Sched) :
    Prop where
  /-- The flag tells whether anybody was served. -/
  flag_iff : flag = true ↔ s.served system s'.clock ≠ []
  /-- The others keep waiting in the same order, with the same entries. -/
  pending : s'.waiters = s.waiters.filter fun w => !w.isServed system s'.clock
  /-- Those that are served are told their answers and woken one after the other; nothing else
  happens. -/
  woken : ∃ told : Sched, s' = told.wakeAll ((s.served system s'.clock).map Waiter.id) ∧
    told = { s with slots := told.slots, waiters := s'.waiters, clock := s'.clock } ∧
    ∀ t, told.slots.get? t = (s.slots.get? t).map fun slot =>
      { slot with delivery := (s.answerTo system s'.clock t).or slot.delivery }

/-- A round of wakeups leaves alone what threads have been told. -/
theorem PolledAlone.delivery? {system : PollSystem Descriptor} {flag : Bool}
    (h : PolledAlone system s flag s') (hlive : s.isLive t = true) :
    s'.delivery? t = (s.answerTo system s'.clock t).or (s.delivery? t) := by
  obtain ⟨told, he, -, hslots⟩ := h.woken
  have hsame : s'.delivery? t = told.delivery? t := by
    rw [he]
    exact (routine_wakeAll _ told).delivery t
  obtain ⟨slot, hslot⟩ := Option.isSome_iff_exists.mp hlive
  rw [hsame, Sched.delivery?, hslots, Sched.delivery?, hslot]
  rfl

/-- A thread with one wait registered gets its own answer if it is served, and nothing else. -/
theorem PolledAlone.delivery?_of_unique {system : PollSystem Descriptor} {flag : Bool}
    {w : Waiter Descriptor} (h : PolledAlone system s flag s') (hw : w ∈ s.waiters)
    (hunique : ∀ v ∈ s.waiters, v.id = w.id → v = w) (hlive : s.isLive w.id = true) :
    s'.delivery? w.id =
      if w.isServed system s'.clock then some (w.answer system) else s.delivery? w.id := by
  rw [h.delivery? hlive]
  have hall : ∀ v ∈ (s.served system s'.clock).filter (fun v => v.id = w.id), v = w := by
    intro v hv
    obtain ⟨hserved, hid⟩ := List.mem_filter.mp hv
    exact hunique v (List.mem_filter.mp hserved).1 (by simpa using hid)
  have hmem : w ∈ (s.served system s'.clock).filter (fun v => v.id = w.id) ↔
      w.isServed system s'.clock = true := by
    simp [served, hw]
  rw [answerTo]
  generalize (s.served system s'.clock).filter (fun v => v.id = w.id) = own at hall hmem
  cases hlast : own.getLast? with
  | none =>
      obtain rfl := List.getLast?_eq_none_iff.mp hlast
      rw [if_neg fun hserved => List.not_mem_nil (hmem.mpr hserved)]
      rfl
  | some v =>
      have hv := List.mem_of_getLast? hlast
      obtain rfl := hall v hv
      rw [if_pos (hmem.mp hv)]
      rfl

/-- The ready queue grows by those that were asleep, in the order in which they registered. -/
theorem PolledAlone.ready {system : PollSystem Descriptor} {flag : Bool}
    (h : PolledAlone system s flag s') :
    ∃ woken, s'.ready = s.ready ++ woken ∧
      woken.Sublist ((s.served system s'.clock).map Waiter.id) ∧ woken.Nodup ∧
      ∀ t, t ∈ woken ↔
        t ∈ (s.served system s'.clock).map Waiter.id ∧ s.isStopped t = true := by
  obtain ⟨told, he, htold, hslots⟩ := h.woken
  obtain ⟨woken, hready, hsub, hnodup, hmem⟩ :=
    ready_wakeAll ((s.served system s'.clock).map Waiter.id) told
  have hstopped : ∀ t, told.isStopped t = s.isStopped t := by
    intro t
    rw [isStopped, hslots, isStopped]
    cases s.slots.get? t <;> rfl
  refine ⟨woken, ?_, hsub, hnodup, fun t => by rw [hmem, hstopped]⟩
  rw [← he] at hready
  rw [hready, show told.ready = s.ready by rw [htold]]

theorem polledAlone_deliver (system : PollSystem Descriptor) (s : Sched) :
    PolledAlone system s (s.hasNews (Waiter.pollAll system s.waiters))
      (s.deliver (Waiter.pollAll system s.waiters)) := by
  have hsettle := Waiter.settle_pollAll s.clock system s.waiters
  have hdeliver : s.deliver (Waiter.pollAll system s.waiters) =
      (tell ((s.served system s.clock).map fun w => (w.id, w.answer system))
        { s with waiters := s.waiters.filter fun w => !w.isServed system s.clock }).wakeAll
          ((s.served system s.clock).map Waiter.id) := by
    rw [deliver, hsettle]
    simp [served, Function.comp_def]
  have hclock : (s.deliver (Waiter.pollAll system s.waiters)).clock = s.clock := by
    rw [hdeliver, clock_wakeAll, tell_eq]
  have hwaiters : (s.deliver (Waiter.pollAll system s.waiters)).waiters =
      s.waiters.filter fun w => !w.isServed system s.clock := by
    rw [waiters_deliver, hsettle]
  refine ⟨?_, hclock ▸ hwaiters, ⟨_, hclock ▸ hdeliver, ?_, fun t => ?_⟩⟩
  · rw [hclock, hasNews, hsettle]
    simp [served]
  · rw [tell_eq, hclock, hwaiters]
  · rw [get?_tell, hclock, answerTo, List.filter_map, List.getLast?_map, Option.map_map]
    rfl

theorem polledAlone_serveWaiters (system : PollSystem Descriptor) (longest : Span) (s : Sched) :
    PolledAlone system s (s.serveWaiters system longest).1 (s.serveWaiters system longest).2 := by
  unfold serveWaiters
  split
  · rename_i hempty
    have hnone : s.waiters = [] := List.isEmpty_iff.mp hempty
    have hserved : s.served system s.clock = [] := by rw [served, hnone]; rfl
    refine ⟨by simp [hserved], by simp [hnone], ⟨s, by rw [hserved]; rfl, rfl, fun t => ?_⟩⟩
    rw [answerTo, hserved]
    cases s.slots.get? t <;> rfl
  · -- Only the clock has moved on when the outcome is handed out.
    have h := polledAlone_deliver system (s.elapse (pollLength (Waiter.pollAll system s.waiters)
      (Waiter.patience s.clock longest s.waiters)))
    exact ⟨h.flag_iff, h.pending, h.woken⟩

/-- If the poll fails everybody is told the error, and nobody keeps waiting. -/
theorem PolledAlone.failed {e : Errno} {flag : Bool} (h : PolledAlone (.error e) s flag s') :
    s'.waiters = [] ∧
      ∀ w ∈ s.waiters, s.isLive w.id = true → s'.delivery? w.id = some (.error e) := by
  refine ⟨by simp [h.pending, Waiter.isServed_error], fun w hw hlive => ?_⟩
  rw [h.delivery? hlive, answerTo]
  have hmem : w ∈ (s.served (.error e) s'.clock).filter (fun v => v.id = w.id) := by
    simp [served, Waiter.isServed_error, hw]
  cases hlast : ((s.served (.error e) s'.clock).filter fun v => v.id = w.id).getLast? with
  | none => exact absurd (List.getLast?_eq_none_iff.mp hlast) (List.ne_nil_of_mem hmem)
  | some v => rfl

/-- A poll panics if there is somebody to poll for and its deadline cannot be formed. -/
theorem pollWaiters_eq_none_iff (system : PollSystem Descriptor) (longest : Span) (s : Sched) :
    s.pollWaiters system longest = none ↔
      s.waiters ≠ [] ∧ s.clock.after? (Waiter.patience s.clock longest s.waiters) = none := by
  simp [pollWaiters, canPoll]

theorem pollWaiters_eq_some {system : PollSystem Descriptor} {longest : Span} {flag : Bool}
    (h : s.pollWaiters system longest = some (flag, s')) :
    s.serveWaiters system longest = (flag, s') := by
  unfold pollWaiters at h
  split at h
  · exact Option.some.inj h
  · cases h

/-- One poll for all waiters is as good as one for each: the outcome is shared out as if each waiter
had been polled for alone, whatever the clock shows; those that are served get their own answers and
enter the ready queue in the order in which they registered, and the others keep waiting as they
were. Only a poll for somebody whose deadline cannot be formed does not come to that but panics; the
deadline is no later than the longest wait asks for, nor than any waiter does. -/
theorem poll_serves_each_alone :
    (∀ (δ : Type) (system : PollSystem δ) (now : Instant) (ws : List (Waiter δ)),
      Waiter.settle now (Waiter.pollAll system ws) ws =
        (ws.flatMap fun w => (Waiter.settle now (Waiter.pollAll system [w]) [w]).1,
          ws.flatMap fun w => (Waiter.settle now (Waiter.pollAll system [w]) [w]).2)) ∧
    ∀ (system : PollSystem Descriptor) (longest : Span) (s : Sched),
      (s.pollWaiters system longest = none ↔
        s.waiters ≠ [] ∧ s.clock.after? (Waiter.patience s.clock longest s.waiters) = none) ∧
      (Waiter.patience s.clock longest s.waiters).nanos ≤ longest.nanos ∧
      (∀ w ∈ s.waiters, ∀ d, w.deadline = some d →
        (Waiter.patience s.clock longest s.waiters).nanos ≤ (d.remaining s.clock).nanos) ∧
      ∀ flag s', s.pollWaiters system longest = some (flag, s') →
        PolledAlone system s flag s' ∧
        (∀ w ∈ s.waiters, (∀ v ∈ s.waiters, v.id = w.id → v = w) → s.isLive w.id = true →
          s'.delivery? w.id =
            if w.isServed system s'.clock then some (w.answer system) else s.delivery? w.id) ∧
        (∀ e, system = .error e → s'.waiters = [] ∧
          ∀ w ∈ s.waiters, s.isLive w.id = true → s'.delivery? w.id = some (.error e)) ∧
        ∃ woken, s'.ready = s.ready ++ woken ∧
          woken.Sublist ((s.served system s'.clock).map Waiter.id) ∧ woken.Nodup ∧
          ∀ t, t ∈ woken ↔
            t ∈ (s.served system s'.clock).map Waiter.id ∧ s.isStopped t = true := by
  refine ⟨fun _ system now ws => Waiter.settle_pollAll_eq_flatMap now system ws,
    fun system longest s => ⟨pollWaiters_eq_none_iff system longest s, Waiter.patience_le ..,
      fun w hw d hd => Waiter.patience_le_remaining hw hd, fun flag s' hpoll => ?_⟩⟩
  have h := polledAlone_serveWaiters system longest s
  rw [pollWaiters_eq_some hpoll] at h
  refine ⟨h, fun w hw hunique hlive => h.delivery?_of_unique hw hunique hlive, ?_, h.ready⟩
  rintro e rfl
  exact h.failed

/-- Threads that sleep and wait: `3` for two pipes, `4` until a deadline that has passed, `2` for
the second of the pipes only, and `1` for the first one again. -/
def gathered : Sched :=
  { start (.ofMillis 10) with
    slots := [1, 2, 3, 4].foldl (fun slots t => slots.set t ⟨⟨.stopped, false⟩, false, [], none⟩)
      .empty
    waiters := [
      ⟨3, [.ask (.pipe 0 .reader) .readable, .ask (.pipe 1 .reader) .readable], none⟩,
      ⟨4, [], some ⟨0⟩⟩,
      ⟨2, [.ask (.pipe 1 .reader) .readable], none⟩,
      ⟨1, [.ask (.pipe 0 .reader) .readable], none⟩] }

/-- There is something to read in the first pipe: `2` keeps waiting, `3` is told of both pipes. -/
theorem poll_serves_each_alone_gathered :
    let system : PollSystem Descriptor :=
      .ok (Pipes.poller (Store.empty.set 0 (Pipe.fresh.put [7])))
    ∃ s', gathered.pollWaiters system .zero = some (true, s') ∧
      s'.waiters = [⟨2, [.ask (.pipe 1 .reader) .readable], none⟩] ∧ s'.ready = [3, 4, 1] ∧
      s'.delivery? 3 = some (.ok [⟨.pipe 0 .reader, .readable, .readable⟩,
        ⟨.pipe 1 .reader, .readable, .empty⟩]) := by
  intro system
  have hpoll : gathered.pollWaiters system .zero =
      some (true, (gathered.serveWaiters system .zero).2) := rfl
  obtain ⟨-, -, -, hserves⟩ := poll_serves_each_alone.2 system .zero gathered
  obtain ⟨h, hown, -, -⟩ := hserves true _ hpoll
  refine ⟨_, hpoll, h.pending.trans rfl, by decide, ?_⟩
  refine (hown ⟨3, [.ask (.pipe 0 .reader) .readable, .ask (.pipe 1 .reader) .readable], none⟩
    List.mem_cons_self ?_ (by decide)).trans rfl
  simp +decide [gathered]

end Sched

end Baton
