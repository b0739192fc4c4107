import Baton.Proofs.RwLock.Account

/-!
# Reader/writer lock: the order of resumptions

A session at rest has every worker idle or asleep in a queue. When a worker calls, the lock changes
in the section of that worker alone; whoever is granted the lock then only has to resume. The calls
that have completed and those that are due, because a sleeper has been granted its request, are
together the same after every resumption. So once all workers rest again, the order in which they
resumed no longer shows, and neither do the wakeups without a reason in between.
-/

namespace Baton

namespace RwSession

open RwState RwEvent

variable {s s' x : RwSession} {t u : ThreadId} {c : RwCall} {order : List ThreadId}

/-- A worker that is idle or asleep in the queue of its request. -/
def AtRest (u : ThreadId) (s : RwSession) : Prop :=
  s.phase u = .idle ∨ ∃ d : RwSide, s.phase u = d.asleep ∧ u ∈ s.lock.queue d

/-- All workers are at rest. -/
def Settled (s : RwSession) : Prop := ∀ u, s.AtRest u

/-- No worker is between the two sections of a release. -/
def Calm (s : RwSession) : Prop := ∀ u asWriter, s.phase u ≠ .unlocking asWriter

theorem Settled.calm (h : s.Settled) : s.Calm := by
  intro u asWriter hp
  rcases h u with hidle | ⟨d, hd, -⟩
  · cases hp.symm.trans hidle
  · exact RwSide.asleep_ne_unlocking d asWriter (hd.symm.trans hp)

/-- A worker at rest only sleeps on. -/
theorem Sound.resume_of_atRest (h : s.Sound) (hu : s.AtRest u) : s.resume u = s := by
  rcases hu with hidle | ⟨d, hd, hq⟩
  · rw [RwSession.resume, hidle]
  · cases d with
    | read =>
        rw [h.resume_reading hd]
        exact if_pos hq
    | write =>
        have hw : s.lock.writer ≠ some u := fun hw => h.regular.writer_unqueued u hw (.inr hq)
        rw [h.resume_writing hd, if_neg hw]

/-- A sleeper that was granted its request completes its call. -/
theorem Sound.resume_of_granted (h : s.Sound) {d : RwSide} (hd : s.phase u = d.asleep)
    (hq : u ∉ s.lock.queue d) : s.resume u = s.complete u d.lockCall .done := by
  cases d with
  | read =>
      rw [h.resume_reading hd]
      exact if_neg hq
  | write =>
      have hw : s.lock.writer = some u := ((h.placed u).writing hd).resolve_left hq
      rw [h.resume_writing hd, if_pos hw]
      rfl

/-- The worker of a calm session that resumes. -/
theorem Calm.cases (h : s.Calm) (u : ThreadId) :
    s.AtRest u ∨ ∃ d : RwSide, s.phase u = d.asleep ∧ u ∉ s.lock.queue d := by
  have hasleep : ∀ d : RwSide, s.phase u = d.asleep →
      s.AtRest u ∨ ∃ d : RwSide, s.phase u = d.asleep ∧ u ∉ s.lock.queue d := by
    intro d hd
    by_cases hq : u ∈ s.lock.queue d
    · exact .inl (.inr ⟨d, hd, hq⟩)
    · exact .inr ⟨d, hd, hq⟩
  rcases hp : s.phase u with - | - | - | asWriter
  · exact .inl (.inl hp)
  · exact hp ▸ hasleep .read hp
  · exact hp ▸ hasleep .write hp
  · exact absurd hp (h u asWriter)

/-! ## What is due -/

/-- Whether a call is about to complete, since its worker was granted the request it sleeps for. -/
def due (d : RwCompletion) (s : RwSession) : Nat :=
  if d.result ≠ .done then 0
  else if d.call = .readLock then s.owed d.worker .read
  else if d.call = .writeLock then s.owed d.worker .write
  else 0

/-- How often a call has completed or is about to complete. -/
def tally (d : RwCompletion) (s : RwSession) : Nat := s.completed.count d + s.due d

theorem due_eq_zero {d : RwCompletion} (h : ∀ side, s.owed d.worker side = 0) : s.due d = 0 := by
  simp [due, h]

theorem due_congr {d : RwCompletion}
    (h : ∀ side, s'.owed d.worker side = s.owed d.worker side) : s'.due d = s.due d := by
  simp [due, h]

theorem due_of_owed {side : RwSide} {r : RwResult} (h : ∀ e ≠ side, s.owed u e = 0) :
    s.due ⟨u, c, r⟩ = if c = side.lockCall ∧ r = .done then s.owed u side else 0 := by
  cases side with
  | read =>
      have hwrite := h .write (by simp)
      by_cases hr : r = .done <;> simp [due, hr, hwrite, RwSide.lockCall]
  | write =>
      have hread := h .read (by simp)
      by_cases hr : r = .done <;> by_cases hc : c = .readLock <;>
        simp [due, hr, hc, hread, RwSide.lockCall]

theorem Settled.tally (h : s.Settled) (d : RwCompletion) : s.tally d = s.completed.count d := by
  rw [RwSession.tally, due_eq_zero, Nat.add_zero]
  intro side
  apply if_neg
  rintro ⟨hp, hq⟩
  rcases h d.worker with hidle | ⟨e, he, hm⟩
  · exact RwSide.asleep_ne_idle side (hp.symm.trans hidle)
  · obtain rfl : side = e := RwSide.asleep_inj.mp (hp.symm.trans he)
    exact hq hm

/-- A resumption moves a call from those that are due to those that have completed. -/
theorem tally_complete {side : RwSide} (hp : s.phase u = side.asleep)
    (hq : u ∉ s.lock.queue side) (d : RwCompletion) :
    (s.complete u side.lockCall .done).tally d = s.tally d := by
  have hcompleted : (s.complete u side.lockCall .done).completed =
      ⟨u, side.lockCall, .done⟩ :: s.completed := rfl
  have hphase : ∀ v, (s.complete u side.lockCall .done).phase v =
      if v = u then .idle else s.phase v := fun v => phase_complete ..
  obtain ⟨v, c, r⟩ := d
  rw [tally, tally, hcompleted, List.count_cons]
  by_cases hv : v = u
  · subst hv
    have hothers : ∀ e ≠ side, s.owed v e = 0 := by
      intro e he
      apply owed_eq_zero
      rw [hp]
      exact fun h => he (RwSide.asleep_inj.mp h).symm
    have howed : s.owed v side = 1 := if_pos ⟨hp, hq⟩
    have hnone : ∀ e, (s.complete v side.lockCall .done).owed v e = 0 := by
      intro e
      apply owed_eq_zero
      rw [hphase, if_pos rfl]
      exact (RwSide.asleep_ne_idle e).symm
    rw [due_eq_zero hnone, due_of_owed hothers, howed]
    simp only [beq_iff_eq, RwCompletion.mk.injEq, true_and, Nat.add_zero]
    by_cases h : c = side.lockCall ∧ r = .done
    · rw [if_pos ⟨h.1.symm, h.2.symm⟩, if_pos h]
    · rw [if_neg fun he => h ⟨he.1.symm, he.2.symm⟩, if_neg h]
  · have hsame : ∀ e, (s.complete u side.lockCall .done).owed v e = s.owed v e := by
      intro e
      rw [owed, owed, hphase, if_neg hv]
      rfl
    rw [due_congr hsame]
    simp [Ne.symm hv]

theorem Calm.resume (h : s.Calm) (hs : s.Sound) (u : ThreadId) :
    (s.resume u).Calm ∧ (s.resume u).lock = s.lock ∧ ∀ d, (s.resume u).tally d = s.tally d := by
  rcases h.cases u with hrest | ⟨side, hp, hq⟩
  · rw [hs.resume_of_atRest hrest]
    exact ⟨h, rfl, fun _ => rfl⟩
  · rw [hs.resume_of_granted hp hq]
    refine ⟨fun v asWriter => ?_, rfl, tally_complete hp hq⟩
    rw [phase_complete]
    split
    · simp
    · exact h v asWriter

theorem Calm.resumeAll (h : s.Calm) (hs : s.Sound) (order : List ThreadId) :
    (s.resumeAll order).Calm ∧ (s.resumeAll order).lock = s.lock ∧
      ∀ d, (s.resumeAll order).tally d = s.tally d := by
  induction order generalizing s with
  | nil => exact ⟨h, rfl, fun _ => rfl⟩
  | cons u order ih =>
      obtain ⟨hcalm, hlock, htally⟩ := h.resume hs u
      obtain ⟨hcalm', hlock', htally'⟩ := ih hcalm hs.resume
      exact ⟨hcalm', hlock'.trans hlock, fun d => (htally' d).trans (htally d)⟩

theorem AtRest.of_rests (h : s.AtRest u) (hu : Rests u s s') (hlock : s'.lock = s.lock) :
    s'.AtRest u := by
  unfold AtRest
  rw [hu.1, hlock]
  exact h

/-- Whoever resumes in a calm session is at rest afterwards. -/
theorem Calm.atRest_resumeAll (h : s.Calm) (hs : s.Sound)
    (hu : u ∈ order ∨ s.AtRest u) : (s.resumeAll order).AtRest u := by
  induction order generalizing s with
  | nil => exact hu.resolve_left List.not_mem_nil
  | cons v order ih =>
      obtain ⟨hcalm, hlock, -⟩ := h.resume hs v
      apply ih hcalm hs.resume
      by_cases hv : u = v
      · subst hv
        right
        rcases h.cases u with hrest | ⟨d, hp, hq⟩
        · rwa [hs.resume_of_atRest hrest]
        · rw [hs.resume_of_granted hp hq]
          exact .inl ((phase_complete ..).trans (if_pos rfl))
      · refine hu.imp (fun hm => (List.mem_cons.mp hm).resolve_left hv) fun hrest => ?_
        exact hrest.of_rests (rests_move (m := .resume v) hv) hlock

/-! ## From one call to rest -/

theorem phase_release (t : ThreadId) (c : RwCall) (out : Option (Handoff × RwState))
    (s : RwSession) : (s.release t c out).phase t = .idle := by
  cases out <;> exact (phase_complete ..).trans (if_pos rfl)

theorem atRest_request {d : RwSide} {out : Verdict × RwState}
    (hq : out.1 = .queued → t ∈ out.2.queue d) : (s.request t c d.asleep out).AtRest t := by
  obtain ⟨verdict, lock⟩ := out
  cases verdict with
  | granted => exact .inl ((phase_complete ..).trans (if_pos rfl))
  | queued => exact .inr ⟨d, (phase_setPhase ..).trans (if_pos rfl), hq rfl⟩
  | refused => exact .inl ((phase_complete ..).trans (if_pos rfl))

/-- A call leaves its worker at rest, unless it is a release in two sections. -/
theorem Sound.atRest_call (h : s.Sound) (hrest : s.AtRest t) (c : RwCall) :
    (s.call t c).AtRest t ∨ ∃ asWriter, s.call t c = s.setPhase t (.unlocking asWriter) := by
  have hx : s.lock.isExclusive = true := isExclusive_iff.mpr h.regular.exclusive
  rw [RwSession.call.eq_def]
  split
  · exact .inl hrest
  · cases c with
    | readLock =>
        exact .inl (atRest_request (d := .read) fun hq => (requestRead_queued hx hq).1)
    | writeLock =>
        exact .inl (atRest_request (d := .write) fun hq => (requestWrite_queued hq).1)
    | tryReadLock => exact .inl (.inl ((phase_complete ..).trans (if_pos rfl)))
    | tryWriteLock => exact .inl (.inl ((phase_complete ..).trans (if_pos rfl)))
    | readUnlock => exact .inl (.inl (phase_release ..))
    | writeUnlock => exact .inl (.inl (phase_release ..))
    | unlock => exact .inr ⟨_, rfl⟩

/-- After its sections the caller is at rest, and nobody else has moved. -/
theorem Sound.calm_after_call (h : s.Sound) (hs : s.Settled) (t : ThreadId) (c : RwCall) :
    ((s.call t c).resume t).AtRest t ∧ ((s.call t c).resume t).Calm := by
  have hcaller : ((s.call t c).resume t).AtRest t := by
    rcases h.atRest_call (hs t) c with hrest | ⟨asWriter, hcall⟩
    · rwa [h.call.resume_of_atRest hrest]
    · have hp : (s.call t c).phase t = .unlocking asWriter := by
        rw [hcall, phase_setPhase, if_pos rfl]
      rw [RwSession.resume, hp]
      cases asWriter <;> exact .inl (phase_release ..)
  refine ⟨hcaller, fun u asWriter => ?_⟩
  by_cases hu : u = t
  · subst hu
    rcases hcaller with hidle | ⟨d, hd, -⟩
    · simp [hidle]
    · rw [hd]
      exact RwSide.asleep_ne_unlocking d asWriter
  · have hcall : Rests u s (s.call t c) := rests_move (m := .call t c) hu
    have hresume : Rests u (s.call t c) ((s.call t c).resume t) := rests_move (m := .resume t) hu
    rw [hresume.1, hcall.1]
    exact hs.calm u asWriter

/-- Between a call and the next one the caller is between the two sections of a release and nothing
has happened, or the lock and the tally are those after its last section. -/
theorem Sound.between (h : s.Sound) (hs : s.Settled) (t : ThreadId) (c : RwCall)
    (order : List ThreadId) :
    (∃ asWriter, ((s.call t c).resumeAll order).phase t = .unlocking asWriter) ∨
      ((s.call t c).resumeAll order).lock = ((s.call t c).resume t).lock ∧
        ∀ d, ((s.call t c).resumeAll order).tally d = ((s.call t c).resume t).tally d := by
  obtain ⟨-, hcalm⟩ := h.calm_after_call hs t c
  rcases h.atRest_call (hs t) c with hrest | ⟨asWriter, hcall⟩
  · rw [h.call.resume_of_atRest hrest] at hcalm ⊢
    exact .inr (hcalm.resumeAll h.call order).2
  · induction order with
    | nil =>
        refine .inl ⟨asWriter, ?_⟩
        show (s.call t c).phase t = _
        rw [hcall, phase_setPhase, if_pos rfl]
    | cons u order ih =>
        by_cases hu : u = t
        · subst hu
          exact .inr (hcalm.resumeAll h.call.resume order).2
        · -- The others are still at rest, so that nothing happens before the caller goes on.
          have hothers : (s.call t c).AtRest u := by
            refine (hs u).of_rests (rests_move (m := .call t c) hu) ?_
            rw [hcall, lock_setPhase]
          have hsame : (s.call t c).resume u = s.call t c := h.call.resume_of_atRest hothers
          show (∃ asWriter, (((s.call t c).resume u).resumeAll order).phase t = _) ∨
            (((s.call t c).resume u).resumeAll order).lock = _ ∧
              ∀ d, (((s.call t c).resume u).resumeAll order).tally d = _
          rw [hsame]
          exact ih

/-! ## Two sessions -/

/-- Two sessions with the same lock whose workers are at the same points and have completed the same
calls. -/
structure Alike (s s' : RwSession) : Prop where
  lock : s'.lock = s.lock
  phase : ∀ u, s'.phase u = s.phase u
  completed : s'.completed.Perm s.completed

theorem Alike.setPhase (h : Alike s s') (lock : RwState) (t : ThreadId) (p : RwPhase) :
    Alike (setPhase t p { s with lock }) (setPhase t p { s' with lock }) where
  lock := rfl
  phase u := by
    rw [phase_setPhase, phase_setPhase]
    split
    · rfl
    · exact h.phase u
  completed := h.completed

theorem Alike.complete (h : Alike s s') (lock : RwState) (t : ThreadId) (c : RwCall)
    (r : RwResult) : Alike (complete t c r { s with lock }) (complete t c r { s' with lock }) where
  lock := rfl
  phase u := by
    rw [phase_complete, phase_complete]
    split
    · rfl
    · exact h.phase u
  completed := by
    show (⟨t, c, r⟩ :: s'.completed).Perm (⟨t, c, r⟩ :: s.completed)
    exact h.completed.cons _

theorem Alike.release (h : Alike s s') (t : ThreadId) (c : RwCall)
    (out : Option (Handoff × RwState)) : Alike (s.release t c out) (s'.release t c out) := by
  cases out with
  | none =>
      have := h.complete s.lock t c (.failed .notHeld)
      rw [show ({ s' with lock := s.lock } : RwSession) = s' by rw [← h.lock]] at this
      exact this
  | some out => exact h.complete out.2 t c .done

theorem Alike.request (h : Alike s s') (t : ThreadId) (c : RwCall) (asleep : RwPhase)
    (out : Verdict × RwState) : Alike (s.request t c asleep out) (s'.request t c asleep out) := by
  obtain ⟨verdict, lock⟩ := out
  cases verdict with
  | granted => exact h.complete lock t c .done
  | queued => exact h.setPhase lock t asleep
  | refused => exact h.complete lock t c (.failed .wouldDeadlock)

theorem Alike.call (h : Alike s s') (t : ThreadId) (c : RwCall) :
    Alike (s.call t c) (s'.call t c) := by
  rw [RwSession.call.eq_def, RwSession.call.eq_def, h.phase, h.lock]
  split
  · exact h
  · cases c with
    | readLock => exact h.request _ _ _ _
    | writeLock => exact h.request _ _ _ _
    | tryReadLock => exact h.complete _ _ _ _
    | tryWriteLock => exact h.complete _ _ _ _
    | readUnlock => exact h.release _ _ _
    | writeUnlock => exact h.release _ _ _
    | unlock =>
        have := h.setPhase s.lock t (.unlocking (s.lock.writer = some t))
        rw [show ({ s' with lock := s.lock } : RwSession) = s' by rw [← h.lock]] at this
        exact this

theorem Alike.resume (h : Alike s s') (t : ThreadId) : Alike (s.resume t) (s'.resume t) := by
  rw [RwSession.resume, RwSession.resume, h.phase, h.lock]
  rcases s.phase t with - | - | - | - | -
  · exact h
  · dsimp only
    split
    · exact h.complete _ _ _ _
    · exact ⟨rfl, h.phase, h.completed⟩
  · dsimp only
    split
    · exact h.complete _ _ _ _
    · exact ⟨rfl, h.phase, h.completed⟩
  · exact h.release _ _ _
  · exact h.release _ _ _

theorem Alike.tally (h : Alike s s') (d : RwCompletion) : s'.tally d = s.tally d := by
  rw [RwSession.tally, RwSession.tally, h.completed.count_eq, due_congr]
  intro side
  rw [owed, owed, h.phase, h.lock]

/-- At rest the lock tells where the workers are. -/
theorem Settled.phase_eq (h : s.Settled) (hs : s.Sound) (u : ThreadId) :
    s.phase u =
      if u ∈ s.lock.readQueue then .reading
      else if u ∈ s.lock.writeQueue then .writing
      else .idle := by
  rcases h u with hidle | ⟨d, hd, hq⟩
  · have hnot : ¬ s.lock.IsQueued u := hs.not_queued (by simp [hidle]) (by simp [hidle])
    rw [if_neg (not_or.mp hnot).1, if_neg (not_or.mp hnot).2, hidle]
  · cases d with
    | read => exact hd.trans (if_pos hq).symm
    | write =>
        have hnot : u ∉ s.lock.readQueue := fun hr => hs.regular.queues_disjoint u hr hq
        rw [if_neg hnot]
        exact hd.trans (if_pos hq).symm

/-- Settled sessions with the same lock and the same tally are alike. -/
theorem alike_of_tally (hs : s.Sound) (hs' : s'.Sound) (h : s.Settled) (h' : s'.Settled)
    (hlock : s'.lock = s.lock) (htally : ∀ d, s'.tally d = s.tally d) : Alike s s' where
  lock := hlock
  phase u := by rw [h.phase_eq hs, h'.phase_eq hs', hlock]
  completed := by
    apply List.perm_iff_count.mpr
    intro d
    rw [← h.tally, ← h'.tally, htally]

/-! ## Sequences of calls -/

/-- The sessions at rest after some calls, newest first. After each call the workers resume in any
order and any number of times, with or without a reason, until all are at rest again. -/
inductive Driven : List (ThreadId × RwCall) → RwSession → Prop where
  | start : Driven [] .start
  | drive {calls : List (ThreadId × RwCall)} {s : RwSession} (t : ThreadId) (c : RwCall)
      (order : List ThreadId) (hs : Driven calls s)
      (hrest : ((s.call t c).resumeAll order).Settled) :
      Driven ((t, c) :: calls) ((s.call t c).resumeAll order)

theorem settled_start : start.Settled := fun u => .inl (by simp [phase, start, Store.get]; rfl)

theorem Driven.settled {calls : List (ThreadId × RwCall)} (h : Driven calls s) : s.Settled := by
  cases h with
  | start => exact settled_start
  | drive _ _ _ _ hrest => exact hrest

theorem Driven.reachable {calls : List (ThreadId × RwCall)} (h : Driven calls s) :
    s.Reachable := by
  induction h with
  | start => exact .start
  | drive t c order _ _ ih => exact (ih.call t c).resumeAll order

/-- The lock and the tally after a call do not depend on who resumes when. -/
theorem Driven.after_call {calls : List (ThreadId × RwCall)} (h : Driven calls s)
    (hrest : ((s.call t c).resumeAll order).Settled) :
    ((s.call t c).resumeAll order).lock = ((s.call t c).resume t).lock ∧
      ∀ d, ((s.call t c).resumeAll order).tally d = ((s.call t c).resume t).tally d := by
  apply (h.reachable.sound.between h.settled t c order).resolve_left
  rintro ⟨asWriter, hp⟩
  exact hrest.calm t asWriter hp

theorem Driven.alike {calls : List (ThreadId × RwCall)} (h : Driven calls s)
    (h' : Driven calls s') : Alike s s' := by
  induction h generalizing s' with
  | start =>
      cases h'
      exact ⟨rfl, fun _ => rfl, .rfl⟩
  | @drive calls s t c order hs hrest ih =>
      cases h' with
      | @drive _ s'' _ _ order' hs'' hrest' =>
          obtain ⟨hlock, htally⟩ := hs.after_call hrest
          obtain ⟨hlock', htally'⟩ := hs''.after_call hrest'
          have hcall : Alike ((s.call t c).resume t) ((s''.call t c).resume t) :=
            ((ih hs'').call t c).resume t
          apply alike_of_tally ((Driven.drive t c order hs hrest).reachable.sound)
            ((Driven.drive t c order' hs'' hrest').reachable.sound) hrest hrest'
          · rw [hlock, hlock', hcall.lock]
          · intro d
            rw [htally, htally', hcall.tally]

/-- All workers come to rest once everybody who is asleep has resumed after the caller. -/
theorem Driven.drive_of_covers {calls : List (ThreadId × RwCall)} (h : Driven calls s)
    (t : ThreadId) (c : RwCall) (horder : ∀ u, s.phase u ≠ .idle → u ∈ order) :
    Driven ((t, c) :: calls) (s.drive order t c) := by
  have hs := h.reachable.sound
  obtain ⟨hcaller, hcalm⟩ := hs.calm_after_call h.settled t c
  refine Driven.drive t c (t :: order) h fun u => ?_
  apply hcalm.atRest_resumeAll hs.call.resume
  by_cases hu : u = t
  · exact .inr (hu ▸ hcaller)
  · by_cases hidle : s.phase u = .idle
    · have hcall : Rests u s (s.call t c) := rests_move (m := .call t c) hu
      have hresume : Rests u (s.call t c) ((s.call t c).resume t) := rests_move (m := .resume t) hu
      exact .inr (.inl (hresume.1.trans (hcall.1.trans hidle)))
    · exact .inl (horder u hidle)

/-- The outcome of a sequence of calls. The workers come to rest after each call if everybody who is
asleep resumes, and however they do so, with any wakeups without a reason in between, the lock and
the calls that have completed are the same. -/
theorem outcome_of_calls (calls : List (ThreadId × RwCall)) :
    (∀ s, Driven calls s → ∀ t c order, (∀ u, s.phase u ≠ .idle → u ∈ order) →
      Driven ((t, c) :: calls) (s.drive order t c)) ∧
      ∀ s s', Driven calls s → Driven calls s' →
        s.lock = s'.lock ∧ s.completed.Perm s'.completed := by
  refine ⟨fun s h t c order => h.drive_of_covers t c, fun s s' h h' => ?_⟩
  have halike := h.alike h'
  exact ⟨halike.lock.symm, halike.completed.symm⟩

/-- A worker that has never been put anywhere is idle. -/
theorem mem_keys_of_phase_ne_idle (h : s.phase u ≠ .idle) : u ∈ s.phases.keys :=
  Store.mem_keys_of_get_ne_default h

/-- The second and the third worker wait to read while the first one writes. -/
def crowd : RwSession :=
  ((start.drive [] 1 .writeLock).drive [] 2 .readLock).drive [2] 3 .readLock

/-- Both readers are granted the lock by one release. They resume in either order, one of them
twice, and complete their calls in either order. -/
theorem outcome_of_calls_crowd :
    let calls := [(1, .writeUnlock), (3, .readLock), (2, .readLock), (1, .writeLock)]
    let s := crowd.drive [2, 3] 1 .writeUnlock
    let s' := crowd.drive [3, 3, 2] 1 .writeUnlock
    Driven calls s ∧ Driven calls s' ∧ s.completed ≠ s'.completed ∧
      s.lock = ⟨none, [2, 3], [], []⟩ ∧ s.lock = s'.lock ∧ s.completed.Perm s'.completed := by
  intro calls s s'
  have hcovers : ∀ (x : RwSession) (order : List ThreadId),
      (∀ u ∈ x.phases.keys, x.phase u ≠ .idle → u ∈ order) → ∀ u, x.phase u ≠ .idle → u ∈ order :=
    fun x order h u hu => h u (mem_keys_of_phase_ne_idle hu) hu
  have hwriter := (outcome_of_calls []).1 _ .start 1 .writeLock [] (hcovers _ _ (by decide))
  have hreader := (outcome_of_calls _).1 _ hwriter 2 .readLock [] (hcovers _ _ (by decide))
  have hcrowd := (outcome_of_calls _).1 _ hreader 3 .readLock [2] (hcovers _ _ (by decide))
  have hs : Driven calls s :=
    (outcome_of_calls _).1 _ hcrowd 1 .writeUnlock [2, 3] (hcovers _ _ (by decide))
  have hs' : Driven calls s' :=
    (outcome_of_calls _).1 _ hcrowd 1 .writeUnlock [3, 3, 2] (hcovers _ _ (by decide))
  exact ⟨hs, hs', by decide, by decide, (outcome_of_calls calls).2 s s' hs hs'⟩

end RwSession

end Baton
