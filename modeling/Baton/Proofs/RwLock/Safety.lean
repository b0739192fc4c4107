import Baton.Proofs.RwLock.Sound

/-!
# Reader/writer lock: exclusion, order in the queues, and no stranded request

Main statements, over all sessions: the holders exclude each other and are not queued, so the check
at the end of a critical section never fails; and a request is queued only while a holder blocks it,
so that a sleeper is granted by releases alone and its resumption changes nothing.
-/

namespace Baton

namespace RwCall

/-- Whether the call gives up a hold in its only section. -/
def isRelease : RwCall → Bool
  | readUnlock | writeUnlock => true
  | _ => false

end RwCall

namespace RwSession

variable {s : RwSession}

/-- Four workers: `1` holds the write side, `2` and `3` queue up as a reader and a writer, `1`
releases, and `2` wakes up without a reason. -/
def contended : RwSession :=
  (((((start.call 1 .writeLock).call 2 .readLock).call 3 .writeLock).call 1 .writeUnlock).snapshot
    4).resume 2

theorem reachable_contended : contended.Reachable :=
  .resume 2 (.snapshot 4 (.call 1 .writeUnlock (.call 3 .writeLock (.call 2 .readLock
    (.call 1 .writeLock .start)))))

/-- Holders exclude each other and are not queued, nobody is queued twice, and therefore no check at
the end of a section fails and every copy of the state is consistent. -/
theorem Reachable.exclusive_and_unqueued (h : s.Reachable) :
    (s.lock.writer ≠ none → s.lock.readers = []) ∧
      (∀ t, t ∈ s.lock.readers ∨ s.lock.writer = some t →
        t ∉ s.lock.readQueue ∧ t ∉ s.lock.writeQueue) ∧
      (s.lock.readQueue ++ s.lock.writeQueue).Nodup ∧
      s.lock.violation? = none ∧
      ∀ c ∈ s.copies, c.isConsistent = true := by
  have hs := h.sound
  refine ⟨fun hw => hs.regular.exclusive.resolve_left hw, ?_, ?_, ?_, hs.copies_consistent⟩
  · rintro t (hr | hw)
    · exact not_or.mp (hs.regular.readers_unqueued t hr)
    · exact not_or.mp (hs.regular.writer_unqueued t hw)
  · exact hs.regular.readQueue_nodup.append hs.regular.writeQueue_nodup
      fun t hr hw => hs.regular.queues_disjoint t hr hw
  · exact RwState.violation?_eq_none_iff.mpr hs.regular.isConsistent

theorem exclusive_and_unqueued_contended :
    contended.Reachable ∧ contended.lock = ⟨some 3, [], [2], []⟩ ∧
      contended.copies = [⟨some 3, [], [2], []⟩] ∧ contended.lock.violation? = none ∧
      ∀ c ∈ contended.copies, c.isConsistent = true := by
  refine ⟨reachable_contended, by decide, by decide, ?_⟩
  exact reachable_contended.exclusive_and_unqueued.2.2.2

/-- Whoever leaves a queue in a section that is no release of another worker was not in it. -/
theorem Sound.isQueued_of_spares {lock : RwState} {t : ThreadId}
    (hs : RwState.Spares t .nobody s.lock lock) (ht : s.lock.IsQueued t) : lock.IsQueued t := by
  rcases ht with hr | hw
  · exact .inl (hs.readQueue_iff.mpr ⟨hr, by simp⟩)
  · exact .inr ((hs.writeQueue_or hw).resolve_right (by simp))

/-- A queued worker is asleep. -/
theorem Sound.asleep_of_queued {t : ThreadId} (h : s.Sound) (ht : s.lock.IsQueued t) :
    s.phase t = .reading ∨ s.phase t = .writing :=
  ht.imp (h.placed t).reading_of_mem (h.placed t).writing_of_mem

/-- A sleeper that resumes does not change the lock. -/
theorem Sound.lock_resume_of_asleep {t : ThreadId} (h : s.Sound)
    (ht : s.phase t = .reading ∨ s.phase t = .writing) : (s.resume t).lock = s.lock := by
  rcases ht with hp | hp
  · rw [h.resume_reading hp]
    split <;> simp
  · rw [h.resume_writing hp]
    split <;> simp

/-- A call takes another worker out of a queue only if it is a release. -/
theorem Sound.isRelease_of_call {t u : ThreadId} {c : RwCall} (h : s.Sound)
    (ht : s.lock.IsQueued t) (hleft : ¬ (s.call u c).lock.IsQueued t) :
    u ≠ t ∧ c.isRelease = true := by
  by_cases hidle : s.phase u = .idle
  · have hne : t ≠ u := by
      rintro rfl
      have := h.asleep_of_queued ht
      simp [hidle] at this
    refine ⟨hne.symm, ?_⟩
    have hstay : ∀ {lock : RwState}, RwState.Spares t .nobody s.lock lock →
        (s.call u c).lock = lock → c.isRelease = true := by
      intro lock hs heq
      exact absurd (heq ▸ isQueued_of_spares hs ht) hleft
    cases c with
    | readLock =>
        refine hstay (RwState.spares_requestRead hne) ?_
        simp only [RwSession.call, hidle, ne_eq, not_true_eq_false, if_false, RwSession.request]
        split <;> rfl
    | writeLock =>
        refine hstay (RwState.spares_requestWrite hne) ?_
        simp only [RwSession.call, hidle, ne_eq, not_true_eq_false, if_false, RwSession.request]
        split <;> rfl
    | tryReadLock =>
        exact hstay (RwState.spares_tryRead hne) (by simp [RwSession.call, hidle])
    | tryWriteLock =>
        exact hstay (RwState.spares_tryWrite hne) (by simp [RwSession.call, hidle])
    | readUnlock => rfl
    | writeUnlock => rfl
    | unlock => exact hstay (.refl t s.lock) (by simp [RwSession.call, hidle])
  · have hstay : s.call u c = s := if_pos hidle
    rw [hstay] at hleft
    exact absurd ht hleft

/-- A resumption takes a worker out of a queue only if it is the release of another one. -/
theorem Sound.unlocking_of_resume {t u : ThreadId} (h : s.Sound) (ht : s.lock.IsQueued t)
    (hleft : ¬ (s.resume u).lock.IsQueued t) :
    u ≠ t ∧ ∃ asWriter, s.phase u = .unlocking asWriter := by
  have hasleep : ¬ (s.phase u = .reading ∨ s.phase u = .writing) := by
    intro hp
    rw [h.lock_resume_of_asleep hp] at hleft
    exact hleft ht
  have hne : u ≠ t := by
    rintro rfl
    exact hasleep (h.asleep_of_queued ht)
  refine ⟨hne, ?_⟩
  cases hp : s.phase u with
  | idle => exact absurd ht (by simpa [RwSession.resume, hp] using hleft)
  | reading => exact absurd (.inl hp) hasleep
  | writing => exact absurd (.inr hp) hasleep
  | unlocking asWriter => exact ⟨asWriter, rfl⟩

/-- Requests are queued only while a holder blocks them. A sleeper that resumes finds itself granted
or goes back to sleep, without a change of the lock; only releases of other workers take it out of
its queue, and it then has the hold. -/
theorem Reachable.no_stranded_request (h : s.Reachable) :
    (s.lock.readQueue ≠ [] → s.lock.writer ≠ none) ∧
      (s.lock.writeQueue ≠ [] → s.lock.writer ≠ none ∨ s.lock.readers ≠ []) ∧
      (s.lock.isFree = true → s.lock.readQueue = [] ∧ s.lock.writeQueue = []) ∧
      (∀ t, s.phase t = .reading →
        (t ∈ s.lock.readQueue ∧ s.lock.writer ≠ none ∧
          s.lock.recheckRead t = (false, s.lock) ∧ s.resume t = s) ∨
        (t ∉ s.lock.readQueue ∧ t ∈ s.lock.readers ∧
          s.lock.recheckRead t = (true, s.lock) ∧ s.resume t = s.complete t .readLock .done)) ∧
      (∀ t, s.phase t = .writing →
        (t ∈ s.lock.writeQueue ∧ ¬ (s.lock.writer = none ∧ s.lock.readers = []) ∧
          s.lock.recheckWrite t = (false, s.lock) ∧ s.resume t = s) ∨
        (t ∉ s.lock.writeQueue ∧ s.lock.writer = some t ∧
          s.lock.recheckWrite t = (true, s.lock) ∧ s.resume t = s.complete t .writeLock .done)) ∧
      (∀ t u c, s.lock.IsQueued t → ¬ (s.call u c).lock.IsQueued t →
        u ≠ t ∧ c.isRelease = true) ∧
      (∀ t u, s.lock.IsQueued t → ¬ (s.resume u).lock.IsQueued t →
        u ≠ t ∧ ∃ asWriter, s.phase u = .unlocking asWriter) := by
  have hs := h.sound
  refine ⟨hs.regular.readQueue_blocked, hs.regular.writeQueue_blocked, ?_, ?_, ?_,
    fun t u c => hs.isRelease_of_call, fun t u => hs.unlocking_of_resume⟩
  · intro hfree
    simp only [RwState.isFree, Bool.and_eq_true, Option.isNone_iff_eq_none,
      List.isEmpty_iff] at hfree
    obtain ⟨hw, hr⟩ := hfree
    exact ⟨hs.regular.readQueue_eq_nil hw, hs.regular.writeQueue_eq_nil hw hr⟩
  · intro t hp
    rw [hs.regular.recheckRead, hs.resume_reading hp]
    by_cases hm : t ∈ s.lock.readQueue
    · have hblocked := hs.regular.readQueue_blocked (List.ne_nil_of_mem hm)
      exact .inl ⟨hm, hblocked, by simp [hm], by simp [hm]⟩
    · have hgranted := ((hs.placed t).reading hp).resolve_left hm
      exact .inr ⟨hm, hgranted, by simp [hm], by simp [hm]⟩
  · intro t hp
    have hplace := (hs.placed t).writing hp
    rw [hs.regular.recheckWrite hplace, hs.resume_writing hp]
    by_cases hw : s.lock.writer = some t
    · have hm : t ∉ s.lock.writeQueue := fun hm => hs.regular.writer_unqueued t hw (.inr hm)
      exact .inr ⟨hm, hw, by simp [hw], by simp [hw]⟩
    · have hm := hplace.resolve_right hw
      have hblocked := hs.regular.writeQueue_blocked (List.ne_nil_of_mem hm)
      exact .inl ⟨hm, fun hfree => hblocked.elim (· hfree.1) (· hfree.2), by simp [hw],
        by simp [hw]⟩

theorem no_stranded_request_contended :
    contended.Reachable ∧ contended.phase 2 = .reading ∧ 2 ∈ contended.lock.readQueue ∧
      contended.lock.recheckRead 2 = (false, contended.lock) ∧
      contended.phase 3 = .writing ∧ contended.lock.writer = some 3 ∧
      contended.lock.recheckWrite 3 = (true, contended.lock) := by
  have hread : contended.phase 2 = .reading := by decide
  have hwrite : contended.phase 3 = .writing := by decide
  obtain ⟨-, -, -, hreading, hwriting, -⟩ := reachable_contended.no_stranded_request
  have hsleeps := (hreading 2 hread).resolve_right fun h => h.1 (by decide)
  have hgoes := (hwriting 3 hwrite).resolve_left fun h => absurd h.1 (by decide)
  exact ⟨reachable_contended, hread, hsleeps.1, hsleeps.2.2.1, hwrite, hgoes.2.1, hgoes.2.2.1⟩

end RwSession

end Baton
