import Baton.Proofs.RwLock.Refusals

/-!
# Reader/writer lock: `unlock` as one release

`unlock` takes two critical sections. The first one finds out whether the caller is the writer, and
the second one releases the hold that the first one saw. In between the other workers do as they
like. But only its owner gives a hold up, and only a queued thread is granted one, so the second
section finds the caller with the same holds as the first.

Main statement: the call ends as if its second section had released whichever hold the caller has
at that moment.
-/

namespace Baton

namespace RwState

open RwEvent

variable {s : RwState} {t : ThreadId} {side : RwSide}

/-- Gives up whichever hold a thread has: the write hold, or else one of its read holds. -/
def releaseAny (t : ThreadId) (s : RwState) : Option (Handoff × RwState) :=
  if s.writer = some t then s.releaseWrite t else s.releaseRead t

theorem releaseAny_eq (t : ThreadId) (s : RwState) :
    s.releaseAny t = s.release t (.ofFlag (s.writer = some t)) := by
  by_cases hw : s.writer = some t
  · rw [releaseAny, if_pos hw, decide_eq_true hw]
    rfl
  · rw [releaseAny, if_neg hw, decide_eq_false hw]
    rfl

/-- One hold of `t` is given up. The other threads keep theirs, and get at most the one that they
are queued for. -/
structure GivesUp (t : ThreadId) (side : RwSide) (s s' : RwState) : Prop where
  own : s'.holds t side + 1 = s.holds t side
  kept : ∀ d, d ≠ side → s'.holds t d = s.holds t d
  others : ∀ u d, u ≠ t → s'.holds u d = s.holds u d ∨
    u ∈ s.queue d ∧ s.holds u d = 0 ∧ s'.holds u d = 1

/-- A release that succeeds takes one hold from its caller, and none from the other threads. -/
theorem Regular.givesUp {out : Handoff × RwState} (hs : s.Regular) (hq : ¬ s.IsQueued t)
    (hout : s.release t side = some out) : GivesUp t side s out.2 := by
  refine ⟨?_, fun d hd => ?_, fun u d hne => ?_⟩
  · simpa using hs.holds_release hq hout side
  · simpa [Ne.symm hd] using hs.holds_release hq hout d
  · have hchange := hs.change_release hq hout
    exact (hchange.holds_other hs hne d).imp_right fun h => ⟨h.1, h.2.2⟩

end RwState

namespace RwSession

open RwState

variable {s : RwSession} {t : ThreadId} {m : RwMove} {ms : List RwMove} {asWriter : Bool}
  {side : RwSide}

/-- The caller of `unlock` keeps its holds while another worker moves. -/
theorem Sound.holds_of_unlocking (hs : s.Sound) (hp : s.phase t = .unlocking asWriter)
    (hne : m.worker ≠ t) (d : RwSide) : (s.move m).lock.holds t d = s.lock.holds t d := by
  have hq : ¬ s.lock.IsQueued t := hs.not_queued (by simp [hp]) (by simp [hp])
  rcases (hs.change m).holds_other hs.regular hne.symm d with he | ⟨hmem, -⟩
  · exact he
  · exact absurd (isQueued_of_mem_queue hmem) hq

/-- What others do between the two sections changes neither where the caller is nor its holds. -/
theorem Reachable.unlocking_after (h : s.Reachable) (hp : s.phase t = .unlocking asWriter)
    (hms : ∀ m ∈ ms, m.worker ≠ t) : (s.after ms).phase t = .unlocking asWriter ∧
      ∀ d, (s.after ms).lock.holds t d = s.lock.holds t d := by
  induction ms generalizing s with
  | nil => exact ⟨hp, fun _ => rfl⟩
  | cons m ms ih =>
      have hne : m.worker ≠ t := hms m List.mem_cons_self
      have hphase : (s.move m).phase t = .unlocking asWriter :=
        (rests_move hne.symm).1.trans hp
      obtain ⟨hlater, hholds⟩ :=
        ih (h.move m) hphase fun n hn => hms n (List.mem_cons_of_mem m hn)
      exact ⟨hlater, fun d => (hholds d).trans (h.sound.holds_of_unlocking hp hne d)⟩

/-- The call of `t` has given up one hold and is over, and all else but the lock is as it was. -/
structure Released (t : ThreadId) (side : RwSide) (s s' : RwSession) : Prop where
  lock : s.lock.GivesUp t side s'.lock
  phase : ∀ u, s'.phase u = if u = t then .idle else s.phase u
  completed : s'.completed = ⟨t, .unlock, .done⟩ :: s.completed
  copies : s'.copies = s.copies

theorem Sound.released (hs : s.Sound) (hp : s.phase t = .unlocking asWriter) (side : RwSide)
    (hpos : 0 < s.lock.holds t side) :
    Released t side s (s.release t .unlock (s.lock.release t side)) := by
  have hq : ¬ s.lock.IsQueued t := hs.not_queued (by simp [hp]) (by simp [hp])
  obtain ⟨out, hout⟩ := exists_release hpos
  rw [hout]
  exact ⟨hs.regular.givesUp hq hout, fun u => phase_complete _ t u .unlock .done, rfl, rfl⟩

/-- Whatever the other workers do between the two sections of `unlock`, the call ends as if its
second section had released whichever hold its caller has: the write hold if it is the writer, else
one of its read holds, and without any it fails and changes nothing. The others lose no hold. -/
theorem Reachable.unlock_as_one_release (h : s.Reachable) (hidle : s.phase t = .idle)
    (hms : ∀ m ∈ ms, m.worker ≠ t) :
    let s' := (s.call t .unlock).after ms
    s'.resume t = s'.release t .unlock (s'.lock.releaseAny t) ∧
      (∀ d, s'.lock.holds t d = s.lock.holds t d) ∧
      (s'.lock.writer = some t → Released t .write s' (s'.resume t)) ∧
      (s'.lock.writer ≠ some t → t ∈ s'.lock.readers → Released t .read s' (s'.resume t)) ∧
      (s'.lock.writer ≠ some t → t ∉ s'.lock.readers →
        Untouched t .unlock (.failed .notHeld) s' (s'.resume t)) := by
  intro s'
  have hcall : s.call t .unlock = s.setPhase t (.unlocking (s.lock.writer = some t)) := by
    rw [RwSession.call.eq_def, if_neg (not_not.mpr hidle)]
  have hasked : (s.call t .unlock).phase t = .unlocking (s.lock.writer = some t) := by
    rw [hcall, phase_setPhase, if_pos rfl]
  obtain ⟨hphase, hholds⟩ := (h.call t .unlock).unlocking_after hasked hms
  replace hholds : ∀ d, s'.lock.holds t d = s.lock.holds t d := by
    intro d
    rw [hholds d, hcall, lock_setPhase]
  have hs : s'.Sound := ((h.call t .unlock).after ms).sound
  -- The first section's finding still holds.
  have hwriter : (s.lock.writer = some t) = (s'.lock.writer = some t) := by
    have hwrite := hholds .write
    simp only [holds_write] at hwrite
    by_cases hw : s.lock.writer = some t <;> by_cases hw' : s'.lock.writer = some t <;>
      simp [hw, hw'] at hwrite ⊢
  have hresume : s'.resume t = s'.release t .unlock (s'.lock.releaseAny t) := by
    rw [resume_unlocking hphase, releaseAny_eq]
    simp only [hwriter]
    rfl
  refine ⟨hresume, hholds, fun hw => ?_, fun hw hr => ?_, fun hw hr => ?_⟩
  · rw [hresume, releaseAny, if_pos hw]
    exact hs.released hphase .write (by rw [holds_write, if_pos hw]; exact Nat.one_pos)
  · rw [hresume, releaseAny, if_neg hw]
    exact hs.released hphase .read (List.count_pos_iff.mpr hr)
  · rw [hresume, releaseAny, if_neg hw]
    exact untouched_release .read .unlock (by simp [RwSide.unlockCall, RwCall.refusal?, hr])

/-- While the writer is between the two sections, the second worker queues to write and the third
one to read, the fourth one tries to write, and the second one wakes up for no reason. -/
def meanwhile : List RwMove :=
  [.call 2 .writeLock, .call 3 .readLock, .call 4 .tryWriteLock, .resume 2]

/-- The second section hands the lock to the queued writer. -/
theorem unlock_as_one_release_interrupted :
    let s := start.call 1 .writeLock
    let s' := (s.call 1 .unlock).after meanwhile
    s.Reachable ∧ s.phase 1 = .idle ∧ s'.lock = ⟨some 1, [], [3], [2]⟩ ∧
      Released 1 .write s' (s'.resume 1) ∧ (s'.resume 1).lock = ⟨some 2, [], [3], []⟩ := by
  intro s s'
  have hs : s.Reachable := .call 1 _ .start
  have hidle : s.phase 1 = .idle := by decide
  have hothers : ∀ m ∈ meanwhile, m.worker ≠ 1 := by decide
  obtain ⟨-, -, hreleased, -⟩ := hs.unlock_as_one_release hidle hothers
  exact ⟨hs, hidle, by decide, hreleased (by decide), by decide⟩

end RwSession

end Baton
