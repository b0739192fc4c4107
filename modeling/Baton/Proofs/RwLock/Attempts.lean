import Baton.Proofs.RwLock.Refusals

/-!
# Reader/writer lock: an attempt that is given up at once

A hold that was taken by an attempt and is given up in the next section leaves no trace. The new
read hold stands last; the release takes out the oldest hold of the same thread and moves the last
one into its place, and both entries name that thread. The release then hands the lock over in the
state from before the attempt, and a regular state has nobody to hand the lock over to.
-/

namespace Baton

namespace RwState

variable {s : RwState} {t : ThreadId} {side : RwSide}

/-- The state with one more read hold. -/
def readBy (t : ThreadId) (s : RwState) : RwState := { s with readers := s.readers ++ [t] }

/-- Taking out an entry that equals the last one takes out the last one. -/
theorem swapRemove_concat {l : List ThreadId} {last : ThreadId} {i : Nat}
    (hi : i < (l ++ [last]).length) (hget : (l ++ [last])[i] = last) :
    swapRemove (l ++ [last]) i = l := by
  have hsame : (l ++ [last]).set i last = l ++ [last] :=
    (congrArg ((l ++ [last]).set i) hget.symm).trans (List.set_getElem_self hi)
  simp [swapRemove, hsame]

/-- Giving up a read hold undoes taking one, also for a thread that has others. -/
theorem withoutReader?_readBy (t : ThreadId) (s : RwState) :
    withoutReader? t (s.readBy t) = some s := by
  obtain ⟨i, hfind⟩ : ∃ i, (s.readers ++ [t]).findIdx? (fun r => r == t) = some i := by
    exact Option.isSome_iff_exists.mp (by simp)
  obtain ⟨hi, hget, -⟩ := List.findIdx?_eq_some_iff_getElem.mp hfind
  have hremoved : swapRemove (s.readers ++ [t]) i = s.readers :=
    swapRemove_concat hi (by simpa using hget)
  rw [withoutReader?, readBy, hfind, Option.map_some, hremoved]

/-- Nobody is queued for a lock that could be handed over. -/
theorem Regular.handoff_eq (h : s.Regular) : s.handoff = (.nobody, s) := by
  by_cases hw : s.writer = none
  · have hrq := h.readQueue_eq_nil hw
    by_cases hr : s.readers = []
    · have hwq := h.writeQueue_eq_nil hw hr
      simp [handoff, hw, hr, hrq, hwq]
    · exact handoff_to_nobody hw hr hrq
  · exact handoff_of_writer hw

/-- An attempt to read a lock that has no writer. -/
theorem tryRead_of_none (t : ThreadId) (hw : s.writer = none) :
    s.tryRead t = (true, s.readBy t) := by
  rw [tryRead, if_pos hw, readBy]

theorem tryRead_of_some (t : ThreadId) (hw : s.writer ≠ none) : s.tryRead t = (false, s) := by
  rw [tryRead, if_neg hw]

/-- An attempt takes a read hold only if there is no writer. -/
theorem tryRead_of_true (hv : (s.tryRead t).1 = true) :
    s.writer = none ∧ (s.tryRead t).2 = s.readBy t := by
  by_cases hw : s.writer = none
  · exact ⟨hw, by rw [tryRead_of_none t hw]⟩
  · rw [tryRead_of_some t hw] at hv
    cases hv

/-- An attempt takes the write hold only of a free lock. -/
theorem tryWrite_of_true (hv : (s.tryWrite t).1 = true) :
    s.writer = none ∧ (s.tryWrite t).2 = { s with writer := some t } := by
  rw [tryWrite] at hv ⊢
  split at hv
  · rename_i hfree
    exact ⟨hfree.1, by rw [if_pos hfree]⟩
  · cases hv

/-- Giving up what an attempt took restores the state, and nobody is granted anything. -/
theorem Regular.release_attempt (h : s.Regular) (hv : (s.attempt t side).1 = true) :
    (s.attempt t side).2.release t side = some (.nobody, s) := by
  cases side with
  | read =>
      obtain ⟨-, htaken⟩ := tryRead_of_true hv
      show (s.tryRead t).2.releaseRead t = _
      rw [htaken, RwState.releaseRead, withoutReader?_readBy, Option.map_some, h.handoff_eq]
  | write =>
      obtain ⟨hw, htaken⟩ := tryWrite_of_true hv
      show (s.tryWrite t).2.releaseWrite t = _
      rw [htaken, RwState.releaseWrite, if_pos rfl, ← hw, h.handoff_eq]

end RwState

namespace RwSession

variable {s : RwSession} {t : ThreadId} {side : RwSide}

/-- An attempt of `t` took a hold, the next section gave it up, and all else is as it was. -/
structure Restored (t : ThreadId) (side : RwSide) (s s' : RwSession) : Prop where
  lock : s'.lock = s.lock
  phase : ∀ u, s'.phase u = s.phase u
  completed : s'.completed =
    ⟨t, side.unlockCall, .done⟩ :: ⟨t, side.tryCall, .tried true⟩ :: s.completed
  copies : s'.copies = s.copies

theorem call_tryCall (side : RwSide) (hidle : s.phase t = .idle) :
    s.call t side.tryCall = { s with lock := (s.lock.attempt t side).2 }.complete t side.tryCall
      (.tried (s.lock.attempt t side).1) := by
  rw [RwSession.call.eq_def, if_neg (not_not.mpr hidle)]
  cases side <;> rfl

theorem call_unlockCall (side : RwSide) (hidle : s.phase t = .idle) :
    s.call t side.unlockCall = s.release t side.unlockCall (s.lock.release t side) := by
  rw [RwSession.call.eq_def, if_neg (not_not.mpr hidle)]
  cases side <;> rfl

theorem Sound.restored (h : s.Sound) (hidle : s.phase t = .idle)
    (hv : (s.lock.attempt t side).1 = true) :
    Restored t side s ((s.call t side.tryCall).call t side.unlockCall) := by
  have htried := call_tryCall side hidle
  rw [hv] at htried
  have hidle' : (s.call t side.tryCall).phase t = .idle := by
    rw [htried, phase_complete, if_pos rfl]
  have hout : (s.call t side.tryCall).lock.release t side = some (.nobody, s.lock) := by
    rw [htried, lock_complete]
    exact h.regular.release_attempt hv
  have hphase : ∀ u, (if u = t then .idle else if u = t then .idle else s.phase u) = s.phase u := by
    intro u
    by_cases hu : u = t
    · rw [if_pos hu, hu, hidle]
    · rw [if_neg hu, if_neg hu]
  rw [call_unlockCall side hidle', hout, htried]
  refine ⟨rfl, fun u => ?_, rfl, rfl⟩
  rw [← hphase u]
  exact (phase_complete _ t u _ _).trans (congrArg _ (phase_complete _ t u _ _))

end RwSession

end Baton
