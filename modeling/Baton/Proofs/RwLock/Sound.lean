import Baton.Proofs.RwLock.Bystander
import Baton.RwLock.Session

/-!
# Reader/writer lock: the invariant of a session

Beside the regularity of the lock itself, a session keeps a link between each worker's program point
and the queues: a worker stands in a queue only while it is asleep for it, and a worker asleep for a
hold still stands in the queue or has got the hold.

## Implementation notes

The link is stated for one worker and one state of the lock. A section of another worker keeps it by
what `RwState.Spares` says, so only the worker that moves needs a case of its own.
-/

namespace Baton

namespace RwState

variable {s s' : RwState} {t : ThreadId} {p : RwPhase}

/-- The program point of a worker fits its places in the queues. -/
structure Placed (s : RwState) (t : ThreadId) (p : RwPhase) : Prop where
  reading_of_mem : t ∈ s.readQueue → p = .reading
  writing_of_mem : t ∈ s.writeQueue → p = .writing
  reading : p = .reading → t ∈ s.readQueue ∨ t ∈ s.readers
  writing : p = .writing → t ∈ s.writeQueue ∨ s.writer = some t

theorem Placed.not_queued (h : s.Placed t p) (hr : p ≠ .reading) (hw : p ≠ .writing) :
    ¬ s.IsQueued t := by
  rintro (hm | hm)
  · exact hr (h.reading_of_mem hm)
  · exact hw (h.writing_of_mem hm)

theorem placed_of_not_queued (h : ¬ s.IsQueued t) (hr : p ≠ .reading) (hw : p ≠ .writing) :
    s.Placed t p where
  reading_of_mem hm := absurd (.inl hm) h
  writing_of_mem hm := absurd (.inr hm) h
  reading hp := absurd hp hr
  writing hp := absurd hp hw

theorem Placed.spares {g : Handoff} (h : s.Placed t p) (hs : Spares t g s s') :
    s'.Placed t p where
  reading_of_mem hm := h.reading_of_mem (hs.mem_readQueue hm)
  writing_of_mem hm := h.writing_of_mem (hs.mem_writeQueue hm)
  reading hp := hs.reading (h.reading hp)
  writing hp := hs.writing (h.writing hp)

/-- A release puts nobody into a queue. -/
theorem not_queued_handoff (h : ¬ s.IsQueued t) : ¬ s.handoff.2.IsQueued t := by
  have hs := spares_handoff t s
  rintro (hm | hm)
  · exact h (.inl (hs.mem_readQueue hm))
  · exact h (.inr (hs.mem_writeQueue hm))

theorem not_queued_releaseRead {out : Handoff × RwState} (h : ¬ s.IsQueued t)
    (hout : s.releaseRead t = some out) : ¬ out.2.IsQueued t := by
  obtain ⟨s', hs', rfl⟩ := Option.map_eq_some_iff.mp hout
  obtain ⟨rs, rfl, -⟩ := withoutReader?_eq_some hs'
  exact not_queued_handoff h

theorem not_queued_releaseWrite {out : Handoff × RwState} (h : ¬ s.IsQueued t)
    (hout : s.releaseWrite t = some out) : ¬ out.2.IsQueued t := by
  unfold releaseWrite at hout
  split at hout
  · cases hout
    exact not_queued_handoff h
  · cases hout

/-- A read request leaves its thread asleep in the queue exactly if it is queued. -/
theorem placed_requestRead (h : ¬ s.IsQueued t) :
    (s.requestRead t).2.Placed t (if (s.requestRead t).1 = .queued then .reading else .idle) := by
  obtain ⟨hr, hw⟩ := not_or.mp h
  unfold requestRead
  split
  · exact placed_of_not_queued h (by simp) (by simp)
  · split
    · exact placed_of_not_queued h (by simp) (by simp)
    · constructor <;> simp [hw]

/-- A write request leaves its thread asleep in the queue exactly if it is queued. -/
theorem placed_requestWrite (h : ¬ s.IsQueued t) :
    (s.requestWrite t).2.Placed t (if (s.requestWrite t).1 = .queued then .writing else .idle) := by
  obtain ⟨hr, hw⟩ := not_or.mp h
  unfold requestWrite
  split
  · exact placed_of_not_queued h (by simp) (by simp)
  · split
    · exact placed_of_not_queued h (by simp) (by simp)
    · constructor <;> simp [hr]

theorem not_queued_tryRead (h : ¬ s.IsQueued t) : ¬ (s.tryRead t).2.IsQueued t := by
  unfold tryRead
  split <;> exact h

theorem not_queued_tryWrite (h : ¬ s.IsQueued t) : ¬ (s.tryWrite t).2.IsQueued t := by
  unfold tryWrite
  split <;> exact h

end RwState

namespace RwSession

variable {s s' : RwSession} {t u : ThreadId} {c : RwCall}

@[simp] theorem phase_setPhase (s : RwSession) (t u : ThreadId) (p : RwPhase) :
    (s.setPhase t p).phase u = if u = t then p else s.phase u := by
  simp [phase, setPhase]

@[simp] theorem lock_setPhase (s : RwSession) (t : ThreadId) (p : RwPhase) :
    (s.setPhase t p).lock = s.lock := rfl

@[simp] theorem phase_complete (s : RwSession) (t u : ThreadId) (c : RwCall) (r : RwResult) :
    (s.complete t c r).phase u = if u = t then .idle else s.phase u :=
  phase_setPhase s t u .idle

@[simp] theorem lock_complete (s : RwSession) (t : ThreadId) (c : RwCall) (r : RwResult) :
    (s.complete t c r).lock = s.lock := rfl

/-- What every session that is reached has in common. -/
structure Sound (s : RwSession) : Prop where
  regular : s.lock.Regular
  placed : ∀ t, s.lock.Placed t (s.phase t)
  copies_consistent : ∀ c ∈ s.copies, c.isConsistent = true

theorem sound_start : start.Sound where
  regular := RwState.regular_free
  placed t := RwState.placed_of_not_queued
    (by rintro (h | h) <;> exact absurd h List.not_mem_nil) (by simp [phase, start, Store.get])
    (by simp [phase, start, Store.get])
  copies_consistent c h := absurd h List.not_mem_nil

/-- One section of `t`, which spares the other workers. -/
theorem Sound.advance (h : s.Sound) (hreg : s'.lock.Regular)
    (hspares : ∀ u, u ≠ t → ∃ g, RwState.Spares u g s.lock s'.lock)
    (hphase : ∀ u, u ≠ t → s'.phase u = s.phase u) (hme : s'.lock.Placed t (s'.phase t))
    (hcopies : s'.copies = s.copies) : s'.Sound where
  regular := hreg
  placed u := by
    by_cases hu : u = t
    · exact hu ▸ hme
    · obtain ⟨g, hg⟩ := hspares u hu
      exact hphase u hu ▸ (h.placed u).spares hg
  copies_consistent := hcopies ▸ h.copies_consistent

theorem Sound.not_queued (h : s.Sound) (hr : s.phase t ≠ .reading) (hw : s.phase t ≠ .writing) :
    ¬ s.lock.IsQueued t :=
  (h.placed t).not_queued hr hw

/-- A section after which its worker is in no queue. -/
theorem Sound.complete {lock : RwState} {r : RwResult} (h : s.Sound) (hreg : lock.Regular)
    (hspares : ∀ u, u ≠ t → ∃ g, RwState.Spares u g s.lock lock) (hq : ¬ lock.IsQueued t) :
    ({ s with lock }.complete t c r).Sound := by
  refine h.advance (t := t) hreg hspares (fun u hu => ?_) ?_ rfl
  · rw [phase_complete, if_neg hu]
    rfl
  · rw [phase_complete, if_pos rfl]
    exact RwState.placed_of_not_queued hq (by simp) (by simp)

theorem Sound.release {outcome : Option (Handoff × RwState)} (h : s.Sound)
    (hq : ¬ s.lock.IsQueued t)
    (hout : ∀ out, outcome = some out → out.2.Regular ∧ ¬ out.2.IsQueued t ∧
      ∀ u, u ≠ t → RwState.Spares u out.1 s.lock out.2) :
    (s.release t c outcome).Sound := by
  cases houtcome : outcome with
  | none => exact h.complete h.regular (fun u _ => ⟨_, .refl u s.lock⟩) hq
  | some out =>
      obtain ⟨hreg, hq', hspares⟩ := hout out houtcome
      exact h.complete hreg (fun u hu => ⟨_, hspares u hu⟩) hq'

theorem Sound.releaseRead (h : s.Sound) (hq : ¬ s.lock.IsQueued t) :
    (s.release t c (s.lock.releaseRead t)).Sound :=
  h.release hq fun _ hout => ⟨h.regular.releaseRead hout, RwState.not_queued_releaseRead hq hout,
    fun _ hu => RwState.spares_releaseRead hu hout⟩

theorem Sound.releaseWrite (h : s.Sound) (hq : ¬ s.lock.IsQueued t) :
    (s.release t c (s.lock.releaseWrite t)).Sound :=
  h.release hq fun _ hout => ⟨h.regular.releaseWrite hout, RwState.not_queued_releaseWrite hq hout,
    fun _ hu => RwState.spares_releaseWrite hu hout⟩

theorem Sound.request {asleep : RwPhase} {outcome : Verdict × RwState} (h : s.Sound)
    (hreg : outcome.2.Regular) (hspares : ∀ u, u ≠ t → RwState.Spares u .nobody s.lock outcome.2)
    (hme : outcome.2.Placed t (if outcome.1 = .queued then asleep else .idle)) :
    (s.request t c asleep outcome).Sound := by
  obtain ⟨verdict, lock⟩ := outcome
  refine h.advance (t := t) ?_ (fun u hu => ⟨.nobody, ?_⟩) (fun u hu => ?_) ?_ ?_
  · cases verdict <;> exact hreg
  · cases verdict <;> exact hspares u hu
  · cases verdict with
    | granted => exact (phase_complete ..).trans (if_neg hu)
    | queued => exact (phase_setPhase ..).trans (if_neg hu)
    | refused => exact (phase_complete ..).trans (if_neg hu)
  · cases verdict <;> simpa [RwSession.request] using hme
  · cases verdict <;> rfl

theorem Sound.call (h : s.Sound) : (s.call t c).Sound := by
  unfold RwSession.call
  split
  · exact h
  · rename_i hidle
    have hidle : s.phase t = .idle := not_not.mp hidle
    have hq : ¬ s.lock.IsQueued t := h.not_queued (by simp [hidle]) (by simp [hidle])
    cases c with
    | readLock =>
        exact h.request (h.regular.requestRead hq) (fun u hu => RwState.spares_requestRead hu)
          (RwState.placed_requestRead hq)
    | writeLock =>
        exact h.request (h.regular.requestWrite hq) (fun u hu => RwState.spares_requestWrite hu)
          (RwState.placed_requestWrite hq)
    | tryReadLock =>
        exact h.complete (h.regular.tryRead hq) (fun u hu => ⟨_, RwState.spares_tryRead hu⟩)
          (RwState.not_queued_tryRead hq)
    | tryWriteLock =>
        exact h.complete (h.regular.tryWrite hq) (fun u hu => ⟨_, RwState.spares_tryWrite hu⟩)
          (RwState.not_queued_tryWrite hq)
    | readUnlock => exact h.releaseRead hq
    | writeUnlock => exact h.releaseWrite hq
    | unlock =>
        refine h.advance (t := t) h.regular (fun u _ => ⟨_, .refl u s.lock⟩) (fun u hu => ?_) ?_ rfl
        · simp [hu]
        · exact RwState.placed_of_not_queued hq (by simp) (by simp)

/-- The second look of a queued reader changes nothing but the reader's own program point. -/
theorem Sound.resume_reading (h : s.Sound) (hp : s.phase t = .reading) :
    s.resume t = if t ∈ s.lock.readQueue then s else s.complete t .readLock .done := by
  simp only [resume, hp, h.regular.recheckRead]
  split <;> simp_all

/-- The second look of a queued writer changes nothing but the writer's own program point. -/
theorem Sound.resume_writing (h : s.Sound) (hp : s.phase t = .writing) :
    s.resume t = if s.lock.writer = some t then s.complete t .writeLock .done else s := by
  simp only [resume, hp, h.regular.recheckWrite ((h.placed t).writing hp)]
  split <;> simp_all

theorem Sound.resume (h : s.Sound) : (s.resume t).Sound := by
  have hrefl : ∀ u, u ≠ t → ∃ g, RwState.Spares u g s.lock s.lock :=
    fun u _ => ⟨_, .refl u s.lock⟩
  cases hp : s.phase t with
  | idle => simpa [RwSession.resume, hp] using h
  | reading =>
      rw [h.resume_reading hp]
      split
      · exact h
      · rename_i hm
        apply h.complete h.regular hrefl
        rintro (hr | hw)
        · exact hm hr
        · have := (h.placed t).writing_of_mem hw
          simp [hp] at this
  | writing =>
      rw [h.resume_writing hp]
      split
      · rename_i hw
        exact h.complete h.regular hrefl (h.regular.writer_unqueued t hw)
      · exact h
  | unlocking asWriter =>
      have hq : ¬ s.lock.IsQueued t := h.not_queued (by simp [hp]) (by simp [hp])
      cases asWriter with
      | true => simpa only [RwSession.resume, hp] using h.releaseWrite hq
      | false => simpa only [RwSession.resume, hp] using h.releaseRead hq

theorem Sound.snapshot (h : s.Sound) : (s.snapshot t).Sound := by
  unfold RwSession.snapshot
  split
  · exact h
  · refine ⟨h.regular, h.placed, ?_⟩
    intro c hc
    rcases List.mem_cons.mp hc with rfl | hc
    · exact h.regular.isConsistent
    · exact h.copies_consistent c hc

theorem Reachable.sound (h : Reachable s) : s.Sound := by
  induction h with
  | start => exact sound_start
  | call t c _ ih => exact ih.call
  | snapshot t _ ih => exact ih.snapshot
  | resume t _ ih => exact ih.resume

end RwSession

end Baton
