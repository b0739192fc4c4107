import Baton.RwLock.Basic
import Mathlib.Data.List.Basic
import Mathlib.Data.List.Nodup
import Mathlib.Data.List.Perm.Basic

/-!
# Reader/writer lock: what every critical section keeps

In a regular state the holders exclude each other and are not queued, nobody is queued twice, and
nobody is queued for a lock that could be granted at once. Every critical section of a thread that
is not queued keeps a state regular, and in a regular state the second look of a queued thread
changes nothing.

The last property carries the others through a release: a release picks only one of the two queues,
which is enough because the other one is then either empty or still blocked by the new holder.
-/

namespace Baton

open scoped List

namespace RwState

variable {s : RwState} {me t : ThreadId}

/-- Whether a thread waits in one of the queues. -/
def IsQueued (t : ThreadId) (s : RwState) : Prop := t ∈ s.readQueue ∨ t ∈ s.writeQueue

/-- Holders exclude each other and are not queued, and nobody is queued twice. -/
structure Tidy (s : RwState) : Prop where
  exclusive : s.writer = none ∨ s.readers = []
  readers_unqueued : ∀ t ∈ s.readers, ¬ s.IsQueued t
  writer_unqueued : ∀ t, s.writer = some t → ¬ s.IsQueued t
  readQueue_nodup : s.readQueue.Nodup
  writeQueue_nodup : s.writeQueue.Nodup
  queues_disjoint : ∀ t ∈ s.readQueue, t ∉ s.writeQueue

/-- A tidy state in which whoever is queued is blocked by a holder. -/
structure Regular (s : RwState) : Prop extends Tidy s where
  readQueue_blocked : s.readQueue ≠ [] → s.writer ≠ none
  writeQueue_blocked : s.writeQueue ≠ [] → s.writer ≠ none ∨ s.readers ≠ []

theorem regular_free : free.Regular := by
  have htidy : free.Tidy := {
    exclusive := .inl rfl
    readers_unqueued := fun _ h => absurd h List.not_mem_nil
    writer_unqueued := fun _ h => nomatch h
    readQueue_nodup := List.nodup_nil
    writeQueue_nodup := List.nodup_nil
    queues_disjoint := fun _ h => absurd h List.not_mem_nil }
  exact ⟨htidy, fun h => absurd rfl h, fun h => absurd rfl h⟩

/-- A tidy state passes the check at the end of a critical section. -/
theorem Tidy.isConsistent (h : s.Tidy) : s.isConsistent = true := by
  have hx : s.isExclusive = true := by
    rcases h.exclusive with hw | hr
    · simp [isExclusive, hw]
    · simp [isExclusive, hr]
  have hq : s.holdersUnqueued = true := by
    simp only [holdersUnqueued, List.all_eq_true]
    intro r hr
    have := h.readers_unqueued r hr
    simpa [IsQueued] using this
  simp [RwState.isConsistent, hx, hq]

theorem Regular.readQueue_eq_nil (h : s.Regular) (hw : s.writer = none) : s.readQueue = [] := by
  by_contra hq
  exact h.readQueue_blocked hq hw

theorem Regular.writeQueue_eq_nil (h : s.Regular) (hw : s.writer = none) (hr : s.readers = []) :
    s.writeQueue = [] := by
  by_contra hq
  rcases h.writeQueue_blocked hq with hw' | hr'
  · exact hw' hw
  · exact hr' hr

/-! ## Requests -/

/-- Without a writer no reader is queued, so a new read hold blocks only writers. -/
theorem Regular.grantRead (h : s.Regular) (hw : s.writer = none) (hq : ¬ s.IsQueued me) :
    Regular { s with readers := s.readers ++ [me] } :=
  { h with
    exclusive := .inl hw
    readers_unqueued := by
      intro t ht
      rcases List.mem_append.mp ht with ht | ht
      · exact h.readers_unqueued t ht
      · rw [List.mem_singleton.mp ht]
        exact hq
    readQueue_blocked := fun hne => absurd (h.readQueue_eq_nil hw) hne
    writeQueue_blocked := fun _ => .inr (by simp) }

theorem Regular.grantWrite (h : s.Regular) (hr : s.readers = []) (hq : ¬ s.IsQueued me) :
    Regular { s with writer := some me } :=
  { h with
    exclusive := .inr hr
    writer_unqueued := by
      intro t ht
      rw [← Option.some.inj ht]
      exact hq
    readQueue_blocked := fun _ => by simp
    writeQueue_blocked := fun _ => .inl (by simp) }

/-- A reader queues up behind a writer, and there is then no read hold. -/
theorem Regular.queueRead (h : s.Regular) (hw : s.writer ≠ none) (hme : s.writer ≠ some me)
    (hq : ¬ s.IsQueued me) : Regular { s with readQueue := s.readQueue ++ [me] } := by
  have hr : s.readers = [] := h.exclusive.resolve_left hw
  exact { h with
    readers_unqueued := by
      intro t ht
      rw [show s.readers = [] from hr] at ht
      exact absurd ht List.not_mem_nil
    writer_unqueued := by
      intro t ht hqt
      have hne : t ≠ me := by
        rintro rfl
        exact hme ht
      have : s.IsQueued t := by simpa [IsQueued, hne] using hqt
      exact h.writer_unqueued t ht this
    readQueue_nodup := by
      have hnot : me ∉ s.readQueue := fun hm => hq (.inl hm)
      exact h.readQueue_nodup.append (List.nodup_singleton me) (List.disjoint_singleton.mpr hnot)
    queues_disjoint := by
      intro t ht
      rcases List.mem_append.mp ht with ht | ht
      · exact h.queues_disjoint t ht
      · rw [List.mem_singleton.mp ht]
        exact fun hm => hq (.inr hm)
    readQueue_blocked := fun _ => hw
    writeQueue_blocked := fun _ => .inl hw }

/-- A writer queues up behind any holder but itself. -/
theorem Regular.queueWrite (h : s.Regular) (hheld : s.writer ≠ none ∨ s.readers ≠ [])
    (hme : s.writer ≠ some me) (hmr : me ∉ s.readers) (hq : ¬ s.IsQueued me) :
    Regular { s with writeQueue := s.writeQueue ++ [me] } := by
  have hstay : ∀ t, t ≠ me → IsQueued t { s with writeQueue := s.writeQueue ++ [me] } →
      s.IsQueued t := by
    intro t hne hqt
    simpa [IsQueued, hne] using hqt
  exact { h with
    readers_unqueued := by
      intro t ht hqt
      have hne : t ≠ me := by
        rintro rfl
        exact hmr ht
      exact h.readers_unqueued t ht (hstay t hne hqt)
    writer_unqueued := by
      intro t ht hqt
      have hne : t ≠ me := by
        rintro rfl
        exact hme ht
      exact h.writer_unqueued t ht (hstay t hne hqt)
    writeQueue_nodup := by
      have hnot : me ∉ s.writeQueue := fun hm => hq (.inr hm)
      exact h.writeQueue_nodup.append (List.nodup_singleton me) (List.disjoint_singleton.mpr hnot)
    queues_disjoint := by
      intro t ht hm
      rcases List.mem_append.mp hm with hm | hm
      · exact h.queues_disjoint t ht hm
      · rw [List.mem_singleton.mp hm] at ht
        exact hq (.inl ht)
    writeQueue_blocked := fun _ => hheld }

theorem Regular.requestRead (h : s.Regular) (hq : ¬ s.IsQueued me) :
    (s.requestRead me).2.Regular := by
  rw [RwState.requestRead]
  split
  · exact h
  · split
    · exact h.grantRead ‹_› hq
    · exact h.queueRead ‹_› ‹_› hq

theorem Regular.requestWrite (h : s.Regular) (hq : ¬ s.IsQueued me) :
    (s.requestWrite me).2.Regular := by
  rw [RwState.requestWrite]
  split
  · exact h
  · rename_i hheld
    obtain ⟨hme, hmr⟩ := not_or.mp hheld
    split
    · rename_i hfree
      exact h.grantWrite hfree.2 hq
    · rename_i hfree
      apply h.queueWrite _ hme hmr hq
      by_contra hno
      simp only [not_or, not_not] at hno
      exact hfree hno

theorem Regular.tryRead (h : s.Regular) (hq : ¬ s.IsQueued me) : (s.tryRead me).2.Regular := by
  rw [RwState.tryRead]
  split
  · exact h.grantRead ‹_› hq
  · exact h

theorem Regular.tryWrite (h : s.Regular) (hq : ¬ s.IsQueued me) : (s.tryWrite me).2.Regular := by
  rw [RwState.tryWrite]
  split
  · rename_i hfree
    exact h.grantWrite hfree.2 hq
  · exact h

/-! ## Releases -/

/-- Taking an entry out in exchange for the last one loses nothing else. -/
theorem cons_swapRemove_perm {l : List ThreadId} {i : Nat} (hi : i < l.length) :
    (l[i] :: swapRemove l i).Perm l := by
  obtain ⟨init, last, rfl⟩ : ∃ init last, l = init ++ [last] := by
    refine ⟨l.dropLast, l.getLast ?_, (List.dropLast_append_getLast _).symm⟩
    rintro rfl
    simp at hi
  have hswap : swapRemove (init ++ [last]) i = ((init ++ [last]).set i last).dropLast := by
    simp [swapRemove]
  rw [hswap]
  by_cases hlt : i < init.length
  · rw [List.set_append_left _ _ hlt, List.dropLast_concat, List.getElem_append_left hlt]
    -- The last entry stands where the entry at `i` stood.
    rw [List.set_eq_take_append_cons_drop, if_pos hlt]
    have hsplit : init = init.take i ++ init[i] :: init.drop (i + 1) := by
      rw [List.getElem_cons_drop, List.take_append_drop]
    calc
      init[i] :: (init.take i ++ last :: init.drop (i + 1))
      _ ~ init.take i ++ init[i] :: last :: init.drop (i + 1) := List.perm_middle.symm
      _ ~ init.take i ++ last :: init[i] :: init.drop (i + 1) :=
          (List.Perm.swap _ _ _).append_left _
      _ ~ last :: (init.take i ++ init[i] :: init.drop (i + 1)) := List.perm_middle
      _ = last :: init := by rw [← hsplit]
      _ ~ init ++ [last] := (List.perm_append_singleton last init).symm
  · have hlast : i = init.length := by
      simp only [List.length_append, List.length_singleton] at hi
      omega
    subst hlast
    simpa using (List.perm_append_singleton last init).symm

/-- Giving up a read hold takes one entry of `me` out of the read holds. -/
theorem withoutReader?_eq_some {s' : RwState} (h : s.withoutReader? me = some s') :
    ∃ rs, s' = { s with readers := rs } ∧ (me :: rs).Perm s.readers := by
  obtain ⟨i, hfind, rfl⟩ := Option.map_eq_some_iff.mp h
  obtain ⟨hi, hme, -⟩ := List.findIdx?_eq_some_iff_getElem.mp hfind
  have hget : s.readers[i] = me := by simpa using hme
  exact ⟨_, rfl, hget ▸ cons_swapRemove_perm hi⟩

/-- A release out of a tidy state hands the lock over in a way that leaves nobody stranded, if
readers are queued only where no read hold is left. -/
theorem Tidy.handoff (h : s.Tidy) (hw : s.writer = none)
    (hq : s.readers ≠ [] → s.readQueue = []) : s.handoff.2.Regular := by
  unfold RwState.handoff
  rw [if_neg (not_not.mpr hw)]
  split
  · rename_i next rest hr hwq
    have hnodup : (next :: rest).Nodup := hwq ▸ h.writeQueue_nodup
    exact {
      exclusive := .inr hr
      readers_unqueued := by simp [hr]
      writer_unqueued := by
        intro t ht
        obtain rfl : next = t := Option.some.inj ht
        rintro (hm | hm)
        · exact h.queues_disjoint _ hm (by simp [hwq])
        · exact (List.nodup_cons.mp hnodup).1 hm
      readQueue_nodup := h.readQueue_nodup
      writeQueue_nodup := (List.nodup_cons.mp hnodup).2
      queues_disjoint := fun t ht hm => h.queues_disjoint t ht (by simp [hwq, hm])
      readQueue_blocked := fun _ => by simp
      writeQueue_blocked := fun _ => .inl (by simp) }
  · rename_i hno
    have hstay : s.readers = [] → s.writeQueue = [] := by
      intro hr
      by_contra hne
      obtain ⟨next, rest, hwq⟩ := List.exists_cons_of_ne_nil hne
      exact hno next rest hr hwq
    split
    · rename_i hrq
      exact { h with
        readQueue_blocked := fun hne => absurd hrq hne
        writeQueue_blocked := fun hne => .inr fun hr => hne (hstay hr) }
    · rename_i hrq
      have hr : s.readers = [] := by
        by_contra hne
        exact hrq (hq hne)
      have hwq := hstay hr
      exact {
        exclusive := .inl hw
        readers_unqueued := by simp [IsQueued, hwq]
        writer_unqueued := by simp [hw]
        readQueue_nodup := List.nodup_nil
        writeQueue_nodup := h.writeQueue_nodup
        queues_disjoint := by simp
        readQueue_blocked := by simp
        writeQueue_blocked := fun hne => absurd hwq hne }

theorem Regular.releaseRead (h : s.Regular) {out : Handoff × RwState}
    (hout : s.releaseRead me = some out) : out.2.Regular := by
  obtain ⟨s', hs', rfl⟩ := Option.map_eq_some_iff.mp hout
  obtain ⟨rs, rfl, hperm⟩ := withoutReader?_eq_some hs'
  have hsub : ∀ t ∈ rs, t ∈ s.readers := fun t ht => hperm.subset (List.mem_cons_of_mem _ ht)
  have hw : s.writer = none := by
    apply h.exclusive.resolve_right
    intro hnil
    simp [hnil] at hperm
  have htidy : Tidy { s with readers := rs } := { h.toTidy with
    exclusive := .inl hw
    readers_unqueued := fun t ht => h.readers_unqueued t (hsub t ht) }
  exact htidy.handoff hw fun _ => h.readQueue_eq_nil hw

theorem Regular.releaseWrite (h : s.Regular) {out : Handoff × RwState}
    (hout : s.releaseWrite me = some out) : out.2.Regular := by
  unfold RwState.releaseWrite at hout
  split at hout
  · rename_i hw
    cases hout
    have hr : s.readers = [] := h.exclusive.resolve_left (by simp [hw])
    have htidy : Tidy { s with writer := none } := { h.toTidy with
      exclusive := .inl rfl
      readers_unqueued := h.readers_unqueued
      writer_unqueued := by simp }
    exact htidy.handoff rfl fun hne => absurd hr hne
  · cases hout

/-! ## The second look -/

/-- A queued reader finds itself granted or goes back to sleep; it never grants itself. -/
theorem Regular.recheckRead (h : s.Regular) :
    s.recheckRead me = (decide (me ∉ s.readQueue), s) := by
  unfold RwState.recheckRead
  by_cases hm : me ∈ s.readQueue
  · have hw := h.readQueue_blocked (List.ne_nil_of_mem hm)
    simp [hm, hw]
  · simp [hm]

/-- A queued writer finds itself granted or goes back to sleep; it never grants itself. -/
theorem Regular.recheckWrite (h : s.Regular) (hm : me ∈ s.writeQueue ∨ s.writer = some me) :
    s.recheckWrite me = (decide (s.writer = some me), s) := by
  unfold RwState.recheckWrite
  by_cases hw : s.writer = some me
  · simp [hw]
  · have hmem := hm.resolve_right hw
    have hblocked := h.writeQueue_blocked (List.ne_nil_of_mem hmem)
    have hfree : ¬ (s.writer = none ∧ s.readers = []) := by
      rintro ⟨hn, hr⟩
      exact hblocked.elim (· hn) (· hr)
    simp [hw, hfree]

end RwState

end Baton
