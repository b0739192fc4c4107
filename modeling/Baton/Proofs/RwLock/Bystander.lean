import Baton.Proofs.RwLock.Regular

/-!
# Reader/writer lock: what a critical section does to the other threads

A critical section of one thread reaches another thread in one way only: a release may hand the lock
over to it. `Spares` says so place by place. The sections that are no release hand over to nobody.
-/

namespace Baton

namespace RwState

variable {s : RwState} {me t : ThreadId}

/-- A section that handed the lock over as `h` tells did nothing else to `t`. -/
structure Spares (t : ThreadId) (h : Handoff) (s s' : RwState) : Prop where
  readers_iff : t ∈ s'.readers ↔ t ∈ s.readers ∨ (∃ n, h = .readers n) ∧ t ∈ s.readQueue
  readQueue_iff : t ∈ s'.readQueue ↔ t ∈ s.readQueue ∧ ∀ n, h ≠ .readers n
  writer_iff : s'.writer = some t ↔ s.writer = some t ∨ h = .writer t
  mem_writeQueue : t ∈ s'.writeQueue → t ∈ s.writeQueue
  writeQueue_or : t ∈ s.writeQueue → t ∈ s'.writeQueue ∨ h = .writer t

namespace Spares

variable {h : Handoff} {s' : RwState}

theorem refl (t : ThreadId) (s : RwState) : Spares t .nobody s s := by
  constructor <;> simp +contextual

/-- A thread that asked for a read hold still waits for it or has it. -/
theorem reading (hs : Spares t h s s') (ht : t ∈ s.readQueue ∨ t ∈ s.readers) :
    t ∈ s'.readQueue ∨ t ∈ s'.readers := by
  rcases ht with ht | ht
  · by_cases hr : ∃ n, h = .readers n
    · exact .inr (hs.readers_iff.mpr (.inr ⟨hr, ht⟩))
    · exact .inl (hs.readQueue_iff.mpr ⟨ht, fun n hn => hr ⟨n, hn⟩⟩)
  · exact .inr (hs.readers_iff.mpr (.inl ht))

/-- A thread that asked for the write hold still waits for it or has it. -/
theorem writing (hs : Spares t h s s') (ht : t ∈ s.writeQueue ∨ s.writer = some t) :
    t ∈ s'.writeQueue ∨ s'.writer = some t := by
  rcases ht with ht | ht
  · exact (hs.writeQueue_or ht).imp_right fun hw => hs.writer_iff.mpr (.inr hw)
  · exact .inr (hs.writer_iff.mpr (.inl ht))

theorem mem_readQueue (hs : Spares t h s s') (ht : t ∈ s'.readQueue) : t ∈ s.readQueue :=
  (hs.readQueue_iff.mp ht).1

/-- A waiting reader keeps waiting unless the readers are granted the lock. -/
theorem waits_reader (hs : Spares t h s s') (hh : ∀ n, h ≠ .readers n)
    (ht : t ∈ s.readQueue ∧ t ∉ s.readers) : t ∈ s'.readQueue ∧ t ∉ s'.readers := by
  refine ⟨hs.readQueue_iff.mpr ⟨ht.1, hh⟩, fun hr => ?_⟩
  rcases hs.readers_iff.mp hr with hr | ⟨⟨n, hn⟩, -⟩
  · exact ht.2 hr
  · exact hh n hn

/-- A waiting writer keeps waiting unless it is granted the lock. -/
theorem waits_writer (hs : Spares t h s s') (hh : h ≠ .writer t)
    (ht : t ∈ s.writeQueue ∧ s.writer ≠ some t) : t ∈ s'.writeQueue ∧ s'.writer ≠ some t :=
  ⟨(hs.writeQueue_or ht.1).resolve_right hh,
    fun hw => (hs.writer_iff.mp hw).elim ht.2 hh⟩

end Spares

/-! ## Requests and second looks -/

theorem spares_requestRead (ht : t ≠ me) : Spares t .nobody s (s.requestRead me).2 := by
  unfold requestRead
  split
  · exact .refl t s
  · split <;> constructor <;> simp +contextual [ht]

theorem spares_requestWrite (ht : t ≠ me) : Spares t .nobody s (s.requestWrite me).2 := by
  unfold requestWrite
  split
  · exact .refl t s
  · split
    · rename_i hfree
      constructor <;> simp +contextual [hfree.1, ht.symm]
    · constructor <;> simp +contextual [ht]

theorem spares_tryRead (ht : t ≠ me) : Spares t .nobody s (s.tryRead me).2 := by
  unfold tryRead
  split
  · constructor <;> simp +contextual [ht]
  · exact .refl t s

theorem spares_tryWrite (ht : t ≠ me) : Spares t .nobody s (s.tryWrite me).2 := by
  unfold tryWrite
  split
  · rename_i hfree
    constructor <;> simp +contextual [hfree.1, ht.symm]
  · exact .refl t s

theorem spares_recheckRead (ht : t ≠ me) : Spares t .nobody s (s.recheckRead me).2 := by
  unfold recheckRead
  split
  · exact .refl t s
  · split
    · constructor <;> simp +contextual [ht, List.mem_erase_of_ne]
    · exact .refl t s

theorem spares_recheckWrite (ht : t ≠ me) : Spares t .nobody s (s.recheckWrite me).2 := by
  unfold recheckWrite
  split
  · exact .refl t s
  · split
    · rename_i hfree
      constructor <;> simp +contextual [ht, ht.symm, hfree.1, List.mem_erase_of_ne]
    · exact .refl t s

/-! ## Releases -/

theorem spares_handoff (t : ThreadId) (s : RwState) : Spares t s.handoff.1 s s.handoff.2 := by
  unfold handoff
  split
  · exact .refl t s
  · rename_i hw
    have hw : s.writer = none := not_not.mp hw
    split
    · rename_i next rest hr hwq
      exact {
        readers_iff := by simp
        readQueue_iff := by simp
        writer_iff := by simp [hw]
        mem_writeQueue := fun hm => hwq ▸ List.mem_cons_of_mem next hm
        writeQueue_or := by
          intro hm
          rw [hwq] at hm
          rcases List.mem_cons.mp hm with rfl | hm
          · exact .inr rfl
          · exact .inl hm }
    · split
      · exact .refl t s
      · constructor <;> simp +contextual [or_comm]

theorem spares_releaseRead {out : Handoff × RwState} (ht : t ≠ me)
    (hout : s.releaseRead me = some out) : Spares t out.1 s out.2 := by
  obtain ⟨s', hs', rfl⟩ := Option.map_eq_some_iff.mp hout
  obtain ⟨rs, rfl, hperm⟩ := withoutReader?_eq_some hs'
  have hmem : t ∈ rs ↔ t ∈ s.readers := by
    rw [← hperm.mem_iff, List.mem_cons, or_iff_right ht]
  have h := spares_handoff t { s with readers := rs }
  exact { h with readers_iff := by rw [h.readers_iff, hmem] }

theorem spares_releaseWrite {out : Handoff × RwState} (ht : t ≠ me)
    (hout : s.releaseWrite me = some out) : Spares t out.1 s out.2 := by
  unfold releaseWrite at hout
  split at hout
  · rename_i hw
    cases hout
    have h := spares_handoff t { s with writer := none }
    have hne : s.writer ≠ some t := by
      rw [hw]
      exact fun he => ht (Option.some.inj he).symm
    exact { h with writer_iff := by simp [h.writer_iff, hne] }
  · cases hout

/-! ## Exclusion -/

theorem isExclusive_iff : s.isExclusive = true ↔ s.writer = none ∨ s.readers = [] := by
  simp [isExclusive]

/-- Exclusion by itself needs no knowledge of the queues: a section grants a hold only where the
holders allow it. -/
theorem isExclusive_requestRead (h : s.isExclusive = true) :
    (s.requestRead me).2.isExclusive = true := by
  unfold requestRead
  split
  · exact h
  · split
    · exact isExclusive_iff.mpr (.inl ‹_›)
    · exact h

theorem isExclusive_requestWrite (h : s.isExclusive = true) :
    (s.requestWrite me).2.isExclusive = true := by
  unfold requestWrite
  split
  · exact h
  · split
    · rename_i hfree
      exact isExclusive_iff.mpr (.inr hfree.2)
    · exact h

theorem isExclusive_tryRead (h : s.isExclusive = true) : (s.tryRead me).2.isExclusive = true := by
  unfold tryRead
  split
  · exact isExclusive_iff.mpr (.inl ‹_›)
  · exact h

theorem isExclusive_tryWrite (h : s.isExclusive = true) : (s.tryWrite me).2.isExclusive = true := by
  unfold tryWrite
  split
  · rename_i hfree
    exact isExclusive_iff.mpr (.inr hfree.2)
  · exact h

theorem isExclusive_recheckRead (h : s.isExclusive = true) :
    (s.recheckRead me).2.isExclusive = true := by
  unfold recheckRead
  split
  · exact h
  · split
    · exact isExclusive_iff.mpr (.inl ‹_›)
    · exact h

theorem isExclusive_recheckWrite (h : s.isExclusive = true) :
    (s.recheckWrite me).2.isExclusive = true := by
  unfold recheckWrite
  split
  · exact h
  · split
    · rename_i hfree
      exact isExclusive_iff.mpr (.inr hfree.2)
    · exact h

theorem isExclusive_handoff (h : s.isExclusive = true) : s.handoff.2.isExclusive = true := by
  unfold handoff
  split
  · exact h
  · rename_i hw
    have hw : s.writer = none := not_not.mp hw
    split
    · rename_i hr _
      exact isExclusive_iff.mpr (.inr hr)
    · split
      · exact h
      · exact isExclusive_iff.mpr (.inl hw)

theorem isExclusive_releaseRead {out : Handoff × RwState} (h : s.isExclusive = true)
    (hout : s.releaseRead me = some out) : out.2.isExclusive = true := by
  obtain ⟨s', hs', rfl⟩ := Option.map_eq_some_iff.mp hout
  obtain ⟨rs, rfl, hperm⟩ := withoutReader?_eq_some hs'
  refine isExclusive_handoff (isExclusive_iff.mpr ((isExclusive_iff.mp h).imp_right fun hr => ?_))
  rw [hr] at hperm
  exact absurd hperm.length_eq (by simp)

theorem isExclusive_releaseWrite {out : Handoff × RwState}
    (hout : s.releaseWrite me = some out) : out.2.isExclusive = true := by
  unfold releaseWrite at hout
  split at hout
  · cases hout
    exact isExclusive_handoff rfl
  · cases hout

/-! ## The caller's own place -/

/-- A reader is queued behind a writer, so it has no read hold. -/
theorem requestRead_queued (hx : s.isExclusive = true) (h : (s.requestRead me).1 = .queued) :
    me ∈ (s.requestRead me).2.readQueue ∧ me ∉ (s.requestRead me).2.readers := by
  unfold requestRead at h ⊢
  split at h
  · cases h
  · split at h
    · cases h
    · rename_i hme hw
      have hr : s.readers = [] := (isExclusive_iff.mp hx).resolve_left hw
      simp [hme, hw, hr]

theorem requestWrite_queued (h : (s.requestWrite me).1 = .queued) :
    me ∈ (s.requestWrite me).2.writeQueue ∧ (s.requestWrite me).2.writer ≠ some me := by
  unfold requestWrite at h ⊢
  split at h
  · cases h
  · split at h
    · cases h
    · rename_i hheld hfree
      rw [if_neg hheld, if_neg hfree]
      exact ⟨by simp, (not_or.mp hheld).1⟩

/-- A reader goes back to sleep only behind a writer. -/
theorem recheckRead_false (hx : s.isExclusive = true) (h : (s.recheckRead me).1 = false) :
    me ∈ (s.recheckRead me).2.readQueue ∧ me ∉ (s.recheckRead me).2.readers := by
  unfold recheckRead at h ⊢
  split at h
  · cases h
  · split at h
    · cases h
    · rename_i hq hw
      have hr : s.readers = [] := (isExclusive_iff.mp hx).resolve_left hw
      rw [if_neg hq, if_neg hw]
      exact ⟨not_not.mp hq, by simp [hr]⟩

theorem recheckWrite_false (hq : me ∈ s.writeQueue ∨ s.writer = some me)
    (h : (s.recheckWrite me).1 = false) :
    me ∈ (s.recheckWrite me).2.writeQueue ∧ (s.recheckWrite me).2.writer ≠ some me := by
  unfold recheckWrite at h ⊢
  split at h
  · cases h
  · split at h
    · cases h
    · rename_i hw hfree
      rw [if_neg hw, if_neg hfree]
      exact ⟨hq.resolve_right hw, hw⟩

end RwState

end Baton
