import Baton.Proofs.Sched.Enrolled

/-!
# Scheduler: the answer to each wait for descriptors

One poll serves all registered waits, and yet each gets what a poll of its own entries would have
answered: a poll looks at every entry by itself. So the outcome of a poll is shared out by a filter,
and a thread that has registered one wait finds it either still registered and without an outcome,
or gone and answered.
-/

namespace Baton

namespace Waiter

variable {δ : Type}

/-- What the system answers to a poll of the waiter's own entries. -/
def answer (system : PollSystem δ) (w : Waiter δ) : Delivery δ :=
  (system.poll w.entries).map (·.2)

/-- Whether a poll ends the wait. -/
def isServed (system : PollSystem δ) (now : Instant) (w : Waiter δ) : Bool :=
  match w.answer system with
  | .error _ => true
  | .ok ps => w.isExpired now || ps.any PollEntry.isReady

/-- The first waiter's share of a poll, and what is left of the poll for the others. -/
theorem pollAll_cons (system : PollSystem δ) (w : Waiter δ) (ws : List (Waiter δ)) :
    (pollAll system (w :: ws)).map (List.take w.entries.length) = w.answer system ∧
      (pollAll system (w :: ws)).map (List.drop w.entries.length) = pollAll system ws := by
  cases system with
  | error e => exact ⟨rfl, rfl⟩
  | ok k =>
      have htake : List.take w.entries.length ((entriesOfAll (w :: ws)).map k.fill) =
          w.entries.map k.fill := by
        simp [entriesOfAll]
      have hdrop : List.drop w.entries.length ((entriesOfAll (w :: ws)).map k.fill) =
          (entriesOfAll ws).map k.fill := by
        simp [entriesOfAll]
      exact ⟨congrArg Except.ok htake, congrArg Except.ok hdrop⟩

/-- Sharing out a poll of all waiters gives each that is served its own answer. -/
theorem settle_pollAll (now : Instant) (system : PollSystem δ) (ws : List (Waiter δ)) :
    settle now (pollAll system ws) ws =
      ((ws.filter (isServed system now)).map fun w => (w.id, w.answer system),
        ws.filter fun w => !w.isServed system now) := by
  induction ws with
  | nil => rfl
  | cons w ws ih =>
      obtain ⟨hmine, hrest⟩ := pollAll_cons system w ws
      rw [settle, hmine, hrest, ih]
      show (if w.isServed system now = true then _ else _) = _
      cases hserved : w.isServed system now <;> simp [hserved]

end Waiter

namespace Sched

variable {s s' : Sched} {t : ThreadId}

/-- The registered waits of a thread. -/
def waitsOf (t : ThreadId) (s : Sched) : List (Waiter Descriptor) :=
  s.waiters.filter fun w => w.id = t

/-- The outcomes that a poll for all waiters hands out. -/
def outcomes (system : PollSystem Descriptor) (longest : Span) (s : Sched) :
    List (ThreadId × Delivery Descriptor) :=
  if s.waiters.isEmpty then []
  else
    let patience := Waiter.patience s.clock longest s.waiters
    let outcome := Waiter.pollAll system s.waiters
    let later := s.elapse (pollLength outcome patience)
    (Waiter.settle later.clock outcome later.waiters).1

/-- A thread has one wait registered at most. -/
theorem Enrolled.waitsOf_cases (h : s.Enrolled) (t : ThreadId) :
    s.waitsOf t = [] ∨ ∃ w ∈ s.waiters, w.id = t ∧ s.waitsOf t = [w] := by
  have hids : ((s.waitsOf t).map Waiter.id).Nodup :=
    h.nodup.sublist ((List.filter_sublist).map _)
  have hmem : ∀ w ∈ s.waitsOf t, w ∈ s.waiters ∧ w.id = t := by
    intro w hw
    simpa using List.mem_filter.mp hw
  cases hw : s.waitsOf t with
  | nil => exact .inl rfl
  | cons w ws =>
      rw [hw] at hids hmem
      obtain ⟨hin, hid⟩ := hmem w List.mem_cons_self
      obtain rfl : ws = [] := by
        rw [List.eq_nil_iff_forall_not_mem]
        intro v hv
        have hsame : v.id = w.id := (hmem v (List.mem_cons_of_mem w hv)).2.trans hid.symm
        exact (List.nodup_cons.mp hids).1 (List.mem_map.mpr ⟨v, hv, hsame⟩)
      exact .inr ⟨w, hin, hid, rfl⟩

/-- A thread that is told once has that outcome. -/
theorem delivery?_tell_of_mem {done : List (ThreadId × Delivery Descriptor)}
    {d : Delivery Descriptor} (hlive : s.isLive t = true) (hnodup : (done.map (·.1)).Nodup)
    (hd : (t, d) ∈ done) : (s.tell done).delivery? t = some d := by
  induction done generalizing s with
  | nil => cases hd
  | cons e done ih =>
      obtain ⟨hnot, hlater⟩ := List.nodup_cons.mp hnodup
      rcases List.mem_cons.mp hd with rfl | hd
      · refine (delivery?_tell_of_not_mem hnot).trans ?_
        rw [isLive, Option.isSome_iff_exists] at hlive
        obtain ⟨x, hx⟩ := hlive
        simp [delivery?_onSlot, hx]
      · exact ih ((isLive_onSlot ..).trans hlive) hlater hd

/-- Nothing is handed out to a thread, and its wait stays as it is; or its one wait is answered and
not registered any more. -/
def Answered (system : PollSystem Descriptor) (t : ThreadId)
    (done : List (ThreadId × Delivery Descriptor)) (s s' : Sched) : Prop :=
  (done.filter (fun d => d.1 = t) = [] ∧ s'.waitsOf t = s.waitsOf t ∧
    s'.delivery? t = s.delivery? t) ∨
  ∃ w, s.waitsOf t = [w] ∧ done.filter (fun d => d.1 = t) = [(t, w.answer system)] ∧
    s'.waitsOf t = [] ∧ s'.delivery? t = some (w.answer system)

/-- The outcome of a poll answers some waits and leaves the others as they are. -/
theorem Enrolled.answered_deliver (h : s.Enrolled) (system : PollSystem Descriptor)
    (t : ThreadId) :
    Answered system t (Waiter.settle s.clock (Waiter.pollAll system s.waiters) s.waiters).1 s
      (s.deliver (Waiter.pollAll system s.waiters)) := by
  have hkept : (s.deliver (Waiter.pollAll system s.waiters)).waitsOf t =
      (s.waitsOf t).filter fun w => !w.isServed system s.clock := by
    rw [waitsOf, waiters_deliver, Waiter.settle_pollAll, waitsOf, List.filter_filter,
      List.filter_filter]
    exact List.filter_congr fun w _ => Bool.and_comm ..
  have hdelivery : (s.deliver (Waiter.pollAll system s.waiters)).delivery? t =
      (tell (Waiter.settle s.clock (Waiter.pollAll system s.waiters) s.waiters).1
        { s with waiters :=
          (Waiter.settle s.clock (Waiter.pollAll system s.waiters) s.waiters).2 }).delivery? t :=
    (routine_wakeAll _ _).delivery t
  have hnodup := (List.nodup_append.mp
    ((Waiter.settle_perm s.clock (Waiter.pollAll system s.waiters) s.waiters).nodup_iff.mpr
      h.nodup)).1
  have hdone : (Waiter.settle s.clock (Waiter.pollAll system s.waiters) s.waiters).1.filter
        (fun d => d.1 = t) =
      ((s.waitsOf t).filter (Waiter.isServed system s.clock)).map
        fun w => (w.id, w.answer system) := by
    rw [Waiter.settle_pollAll, List.filter_map, waitsOf, List.filter_filter, List.filter_filter]
    exact congrArg _ (List.filter_congr fun w _ => Bool.and_comm ..)
  rw [Answered, hkept, hdelivery]
  generalize Waiter.settle s.clock (Waiter.pollAll system s.waiters) s.waiters = settled at *
  obtain ⟨done, pending⟩ := settled
  dsimp only at *
  have huntold : done.filter (fun d => d.1 = t) = [] →
      (tell done { s with waiters := pending }).delivery? t = s.delivery? t := by
    intro hnone
    refine delivery?_tell_of_not_mem fun hmem => ?_
    obtain ⟨d, hd, hid⟩ := List.mem_map.mp hmem
    exact List.filter_eq_nil_iff.mp hnone d hd (decide_eq_true hid)
  rcases h.waitsOf_cases t with hnone | ⟨w, hw, hid, hone⟩
  · have hnobody : done.filter (fun d => d.1 = t) = [] := by rw [hdone, hnone]; rfl
    rw [hnone]
    exact .inl ⟨hnobody, rfl, huntold hnobody⟩
  · rw [hone] at hdone ⊢
    cases hserved : w.isServed system s.clock with
    | false =>
        have hnobody : done.filter (fun d => d.1 = t) = [] := by simp [hdone, hserved]
        exact .inl ⟨hnobody, by simp [hserved], huntold hnobody⟩
    | true =>
        have hone : done.filter (fun d => d.1 = t) = [(t, w.answer system)] := by
          simp [hdone, hserved, hid]
        refine .inr ⟨w, rfl, hone, by simp [hserved], ?_⟩
        have hmem : (t, w.answer system) ∈ done.filter (fun d => d.1 = t) := by simp [hone]
        exact delivery?_tell_of_mem (s := { s with waiters := pending }) (hid ▸ h.live w hw) hnodup
          (List.mem_filter.mp hmem).1

/-- A poll for all waiters answers some of the waits and leaves the others as they are. -/
theorem Enrolled.answered (h : s.Enrolled) (system : PollSystem Descriptor) (longest : Span)
    (t : ThreadId) :
    Answered system t (s.outcomes system longest) s (s.serveWaiters system longest).2 := by
  unfold Sched.serveWaiters outcomes
  split
  · exact .inl ⟨rfl, rfl, rfl⟩
  · have helapsed : ∀ d, (s.elapse d).Enrolled :=
      fun d => h.congr rfl (fun _ _ => rfl) fun _ _ => rfl
    exact (helapsed _).answered_deliver system t

/-- The outcomes that a step of the search for the next thread hands out. -/
def handedOut (system : PollSystem Descriptor) (s : Sched) :
    List (ThreadId × Delivery Descriptor) :=
  match s.turn with
  | .seeking _ => s.outcomes system .zero
  | .idle _ => s.outcomes system s.idlePoll
  | _ => []

theorem SameWaits.waitsOf (h : SameWaits s s') (t : ThreadId) : s'.waitsOf t = s.waitsOf t := by
  rw [Sched.waitsOf, h.waiters, Sched.waitsOf]

theorem Answered.sameWaits {system : PollSystem Descriptor}
    {done : List (ThreadId × Delivery Descriptor)} {s'' : Sched}
    (h : Answered system t done s s') (hw : SameWaits s' s'') : Answered system t done s s'' := by
  rw [Answered, hw.waitsOf, hw.delivery]
  exact h

/-- The search does nothing to the waits but to answer some of them by its polls. -/
theorem Enrolled.answered_search (h : s.Enrolled) {system : PollSystem Descriptor}
    (hs : s.search system = some s') (t : ThreadId) :
    Answered system t (s.handedOut system) s s' := by
  have hpoll := fun longest => h.answered system longest t
  have hsame : ∀ {s'}, SameWaits s s' → Answered system t [] s s' :=
    fun hw => .inl ⟨rfl, hw.waitsOf t, hw.delivery t⟩
  unfold handedOut
  cases search_cases hs with
  | poll hturn =>
      rw [hturn]
      exact hpoll .zero
  | choose hturn =>
      rw [hturn]
      exact hsame (sameWaits_choose _ s)
  | rest hturn =>
      rw [hturn]
      exact (hpoll s.idlePoll).sameWaits (sameWaits_settleIdle ..)
  | revive hturn =>
      rw [hturn]
      exact hsame { SameWaits.refl s with }
  | takeUp hturn htake =>
      rw [hturn]
      exact hsame (sameWaits_takeUp htake)

end Sched

end Baton
