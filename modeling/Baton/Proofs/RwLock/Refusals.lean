import Baton.Proofs.RwLock.Claims
import Baton.Proofs.RwLock.Resumptions

/-!
# Reader/writer lock: refused calls

A call fails if its caller would wait for itself, or gives up a hold that it does not have. What the
caller holds decides, and only the caller's own moves take holds away from it, so the two sections
of `unlock` agree with each other. A section that fails leaves the lock as it finds it.
-/

namespace Baton

/-- The error with which a call of `t` is refused: it asks for a hold beside one of its own that
excludes it, or gives up what it does not have. -/
def RwCall.refusal? (t : ThreadId) (s : RwState) : RwCall → Option Fault
  | readLock => if s.writer = some t then some .wouldDeadlock else none
  | writeLock => if s.writer = some t ∨ t ∈ s.readers then some .wouldDeadlock else none
  | tryReadLock | tryWriteLock => none
  | readUnlock => if t ∈ s.readers then none else some .notHeld
  | writeUnlock => if s.writer = some t then none else some .notHeld
  | unlock => if s.writer = some t ∨ t ∈ s.readers then none else some .notHeld

/-- The error that a result reports. -/
def RwResult.fault? : RwResult → Option Fault
  | failed e => some e
  | done | tried _ => none

/-- The error that a verdict leads to. -/
def Verdict.fault? : Verdict → Option Fault
  | refused => some .wouldDeadlock
  | granted | queued => none

/-- The call that gives up a hold. -/
def RwSide.unlockCall : RwSide → RwCall
  | .read => .readUnlock
  | .write => .writeUnlock

/-- The side that `unlock` releases. -/
def RwSide.ofFlag : Bool → RwSide
  | true => .write
  | false => .read

namespace RwState

variable {s s' : RwState} {t u : ThreadId} {side : RwSide}

theorem fault?_request (t : ThreadId) (side : RwSide) (s : RwState) :
    (s.request t side).1.fault? = side.lockCall.refusal? t s := by
  cases side with
  | read =>
      rw [request, requestRead, RwSide.lockCall, RwCall.refusal?]
      split
      · rfl
      · split <;> rfl
  | write =>
      rw [request, requestWrite, RwSide.lockCall, RwCall.refusal?]
      split
      · rfl
      · split <;> rfl

/-- A request that is refused would wait for its own thread. -/
theorem request_of_refusal? {e : Fault} (he : side.lockCall.refusal? t s = some e) :
    s.request t side = (.refused, s) ∧ e = .wouldDeadlock := by
  have hv := (fault?_request t side s).trans he
  cases hverdict : (s.request t side).1 with
  | granted | queued =>
      rw [hverdict] at hv
      cases hv
  | refused =>
      rw [hverdict] at hv
      exact ⟨Prod.ext hverdict (request_of_refused hverdict), (Option.some.inj hv).symm⟩

/-- What a thread cannot give up it does not hold. -/
theorem refusal?_unlockCall (t : ThreadId) (side : RwSide) (s : RwState) :
    side.unlockCall.refusal? t s = if s.holds t side = 0 then some .notHeld else none := by
  cases side with
  | read =>
      rw [RwSide.unlockCall, RwCall.refusal?, holds_read]
      simp only [List.count_eq_zero, ite_not]
  | write =>
      rw [RwSide.unlockCall, RwCall.refusal?, holds_write]
      split <;> simp

theorem release_eq_none_iff :
    s.release t side = none ↔ side.unlockCall.refusal? t s = some .notHeld := by
  rw [refusal?_unlockCall]
  constructor
  · intro h
    refine if_pos (Nat.eq_zero_of_not_pos fun hpos => ?_)
    obtain ⟨out, hout⟩ := exists_release hpos
    cases h.symm.trans hout
  · intro h
    by_cases hzero : s.holds t side = 0
    · cases side with
      | read =>
          rw [release, releaseRead, withoutReader?, List.findIdx?_eq_none_iff.mpr]
          · rfl
          · rintro r hr
            rw [beq_eq_false_iff_ne]
            rintro rfl
            exact List.count_eq_zero.mp hzero hr
      | write =>
          rw [release, releaseWrite, if_neg]
          intro hw
          rw [holds_write, if_pos hw] at hzero
          cases hzero
    · rw [if_neg hzero] at h
      cases h

/-- A release fails exactly with the refusal of its call. -/
theorem refusal?_of_release {out : Handoff × RwState} (h : s.release t side = some out) :
    side.unlockCall.refusal? t s = none := by
  rw [refusal?_unlockCall]
  refine if_neg fun hzero => ?_
  have hnone : s.release t side = none :=
    release_eq_none_iff.mpr (by rw [refusal?_unlockCall, if_pos hzero])
  cases hnone.symm.trans h

theorem release_of_refusal? {e : Fault} (he : side.unlockCall.refusal? t s = some e) :
    s.release t side = none ∧ e = .notHeld := by
  obtain rfl : e = .notHeld := by
    rw [refusal?_unlockCall] at he
    split at he <;> cases he
    rfl
  exact ⟨release_eq_none_iff.mpr he, rfl⟩

/-- `unlock` is the release of the side that it finds its caller on. -/
theorem refusal?_unlock (t : ThreadId) (s : RwState) :
    RwCall.unlock.refusal? t s =
      (RwSide.ofFlag (s.writer = some t)).unlockCall.refusal? t s := by
  by_cases hw : s.writer = some t
  · simp [hw, RwSide.ofFlag, RwSide.unlockCall, RwCall.refusal?]
  · simp [hw, RwSide.ofFlag, RwSide.unlockCall, RwCall.refusal?]

/-- A move of another thread makes no difference to what a thread gives up, unless it sleeps for
that. -/
theorem Change.refusal?_other {es : List RwEvent} (hs : s.Regular) (h : Change t s es s')
    (hne : u ≠ t) (hq : ¬ s.IsQueued u) (side : RwSide) :
    side.unlockCall.refusal? u s' = side.unlockCall.refusal? u s := by
  rw [refusal?_unlockCall, refusal?_unlockCall]
  rcases h.holds_other hs hne side with he | ⟨hmem, -⟩
  · rw [he]
  · exact absurd (isQueued_of_mem_queue hmem) hq

end RwState

namespace RwSession

open RwState RwEvent

variable {s s' : RwSession} {t u : ThreadId} {c : RwCall} {v : Option Fault} {m : RwMove}

/-- The completed calls of a worker are those of before. -/
def SameCompleted (t : ThreadId) (s s' : RwSession) : Prop :=
  ∀ x : RwCompletion, x.worker = t → s'.completed.count x = s.completed.count x

/-- The worker has completed one more call. -/
def Completes (t : ThreadId) (c : RwCall) (r : RwResult) (s s' : RwSession) : Prop :=
  ∀ x : RwCompletion, x.worker = t →
    s'.completed.count x = s.completed.count x + if x = ⟨t, c, r⟩ then 1 else 0

theorem SameCompleted.complete (h : SameCompleted t s s') (c : RwCall) (r : RwResult)
    (lock : RwState) : Completes t c r s ({ s' with lock }.complete t c r) := by
  intro x hx
  show (⟨t, c, r⟩ :: s'.completed).count x = _
  rw [List.count_cons, h x hx]
  by_cases he : x = ⟨t, c, r⟩
  · simp [he]
  · simp [he, Ne.symm he]

/-- Where a call of `t` is that was issued in `s` and is refused as `v` tells. -/
inductive Calling (t : ThreadId) (c : RwCall) (v : Option Fault) (s s' : RwSession) : Prop where
  | asleep (d : RwSide) : c = d.lockCall → v = none → s'.phase t = d.asleep →
      SameCompleted t s s' → Calling t c v s s'
  | unlocking (asWriter : Bool) : c = .unlock → s'.phase t = .unlocking asWriter →
      (RwSide.ofFlag asWriter).unlockCall.refusal? t s'.lock = v → SameCompleted t s s' →
      Calling t c v s s'
  | ended (r : RwResult) : s'.phase t = .idle → r.fault? = v → Completes t c r s s' →
      Calling t c v s s'

/-- A call that completes in a section in which its worker was in it. -/
theorem SameCompleted.ended (h : SameCompleted t s s') (c : RwCall) (r : RwResult)
    (hr : r.fault? = v) (lock : RwState) : Calling t c v s ({ s' with lock }.complete t c r) :=
  .ended r (by rw [phase_complete, if_pos rfl]) hr (h.complete c r lock)

theorem SameCompleted.refl (t : ThreadId) (s : RwSession) : SameCompleted t s s := fun _ _ => rfl

theorem calling_request (side : RwSide) (t : ThreadId) (s : RwSession) :
    Calling t side.lockCall (side.lockCall.refusal? t s.lock) s
      (s.request t side.lockCall side.asleep (s.lock.request t side)) := by
  have hv := fault?_request t side s.lock
  generalize s.lock.request t side = out at hv
  obtain ⟨verdict, lock⟩ := out
  cases verdict with
  | granted => exact (SameCompleted.refl t s).ended _ .done hv lock
  | queued => exact .asleep side rfl hv.symm (by simp [request]) (.refl t s)
  | refused => exact (SameCompleted.refl t s).ended _ (.failed .wouldDeadlock) hv lock

theorem SameCompleted.release (h : SameCompleted t s s') (side : RwSide) (c : RwCall) :
    Calling t c (side.unlockCall.refusal? t s'.lock) s
      (s'.release t c (s'.lock.release t side)) := by
  cases hout : s'.lock.release t side with
  | none => exact h.ended c (.failed .notHeld) (release_eq_none_iff.mp hout).symm s'.lock
  | some out => exact h.ended c .done (refusal?_of_release hout).symm out.2

/-- The section that a call begins with. -/
theorem calling_call (hidle : s.phase t = .idle) (c : RwCall) :
    Calling t c (c.refusal? t s.lock) s (s.call t c) := by
  rw [RwSession.call.eq_def, if_neg (not_not.mpr hidle)]
  cases c with
  | readLock => exact calling_request .read t s
  | writeLock => exact calling_request .write t s
  | tryReadLock => exact (SameCompleted.refl t s).ended _ (.tried _) rfl _
  | tryWriteLock => exact (SameCompleted.refl t s).ended _ (.tried _) rfl _
  | readUnlock => exact (SameCompleted.refl t s).release .read _
  | writeUnlock => exact (SameCompleted.refl t s).release .write _
  | unlock =>
      exact .unlocking _ rfl ((phase_setPhase ..).trans (if_pos rfl))
        (refusal?_unlock t s.lock).symm (.refl t s)

/-- The section of `unlock` that gives the hold up. -/
theorem resume_unlocking {asWriter : Bool} (hp : s.phase t = .unlocking asWriter) :
    s.resume t = s.release t .unlock (s.lock.release t (.ofFlag asWriter)) := by
  cases asWriter <;> rw [RwSession.resume, hp] <;> rfl

/-- A resumption of the caller. -/
theorem Calling.resume (h : Calling t c v s s') (hs : s'.Sound) :
    Calling t c v s (s'.resume t) := by
  cases h with
  | asleep d hc hv hp hsame =>
      by_cases hq : t ∈ s'.lock.queue d
      · rw [hs.resume_of_atRest (.inr ⟨d, hp, hq⟩)]
        exact .asleep d hc hv hp hsame
      · rw [hs.resume_of_granted hp hq, hc]
        exact hsame.ended _ .done hv.symm s'.lock
  | unlocking asWriter hc hp hv hsame =>
      rw [resume_unlocking hp, hc, ← hv]
      exact hsame.release _ _
  | ended r hp hr hone =>
      rw [RwSession.resume, hp]
      exact .ended r hp hr hone

/-- A move of another worker, which rests. -/
theorem Calling.move_other (h : Calling t c v s s') (hs : s'.Sound) (hne : t ≠ m.worker) :
    Calling t c v s (s'.move m) := by
  obtain ⟨hphase, hcount⟩ := rests_move (s := s') hne
  have hkept : SameCompleted t s s' → SameCompleted t s (s'.move m) :=
    fun hsame x hx => (hcount x hx).trans (hsame x hx)
  cases h with
  | asleep d hc hv hp hsame => exact .asleep d hc hv (hphase.trans hp) (hkept hsame)
  | unlocking asWriter hc hp hv hsame =>
      have hq := hs.not_queued (t := t) (by simp [hp]) (by simp [hp])
      refine .unlocking asWriter hc (hphase.trans hp) ?_ (hkept hsame)
      rw [(hs.change m).refusal?_other hs.regular hne hq, hv]
  | ended r hp hr hone =>
      exact .ended r (hphase.trans hp) hr fun x hx => (hcount x hx).trans (hone x hx)

/-- Any move but a further call of the worker. -/
theorem Calling.move (h : Calling t c v s s') (hs : s'.Sound) (hm : ∀ c', m ≠ .call t c') :
    Calling t c v s (s'.move m) := by
  by_cases hne : t = m.worker
  · cases m with
    | call u c' => exact absurd (congrArg (RwMove.call · c') hne.symm) (hm c')
    | snapshot u =>
        obtain rfl : t = u := hne
        have hsame : (s'.snapshot t).phase t = s'.phase t ∧ (s'.snapshot t).lock = s'.lock ∧
            (s'.snapshot t).completed = s'.completed := by
          rw [RwSession.snapshot]
          split <;> exact ⟨rfl, rfl, rfl⟩
        obtain ⟨hphase, hlock, hcompleted⟩ := hsame
        cases h with
        | asleep d hc hv hp hsame =>
            exact .asleep d hc hv (hphase.trans hp) fun x hx => hcompleted ▸ hsame x hx
        | unlocking asWriter hc hp hv hsame =>
            exact .unlocking asWriter hc (hphase.trans hp) (hlock ▸ hv)
              fun x hx => hcompleted ▸ hsame x hx
        | ended r hp hr hone =>
            exact .ended r (hphase.trans hp) hr fun x hx => hcompleted ▸ hone x hx
    | resume u =>
        obtain rfl : t = u := hne
        exact h.resume hs
  · exact h.move_other hs hne

/-- However the workers go on, a call is refused as was decided when it was issued. -/
theorem Calling.after {ms : List RwMove} (h : Calling t c v s s') (hs : s'.Reachable)
    (hms : ∀ c', .call t c' ∉ ms) : Calling t c v s (s'.after ms) := by
  induction ms generalizing s' with
  | nil => exact h
  | cons m ms ih =>
      have hm : ∀ c', m ≠ .call t c' := fun c' he => hms c' (he ▸ List.mem_cons_self)
      exact ih (h.move hs.sound hm) (hs.move m) fun c' hc' => hms c' (List.mem_cons_of_mem m hc')

/-! ## Sections that fail -/

/-- The section failed or took nothing: the call is over, and all else is as it was. -/
structure Untouched (t : ThreadId) (c : RwCall) (r : RwResult) (s s' : RwSession) : Prop where
  lock : s'.lock = s.lock
  phase : ∀ u, s'.phase u = if u = t then .idle else s.phase u
  completed : s'.completed = ⟨t, c, r⟩ :: s.completed
  copies : s'.copies = s.copies

theorem untouched_complete (t : ThreadId) (c : RwCall) (r : RwResult) (s : RwSession) :
    Untouched t c r s (s.complete t c r) :=
  ⟨rfl, fun u => phase_complete s t u c r, rfl, rfl⟩

theorem untouched_request {e : Fault} (side : RwSide)
    (he : side.lockCall.refusal? t s.lock = some e) :
    Untouched t side.lockCall (.failed e) s
      (s.request t side.lockCall side.asleep (s.lock.request t side)) := by
  obtain ⟨hout, rfl⟩ := request_of_refusal? he
  rw [hout]
  exact untouched_complete t _ _ s

theorem untouched_release {e : Fault} (side : RwSide) (c : RwCall)
    (he : side.unlockCall.refusal? t s.lock = some e) :
    Untouched t c (.failed e) s (s.release t c (s.lock.release t side)) := by
  obtain ⟨hout, rfl⟩ := release_of_refusal? he
  rw [hout]
  exact untouched_complete t c _ s

theorem untouched_attempt (side : RwSide) (hfalse : (s.lock.attempt t side).1 = false) :
    Untouched t side.tryCall (.tried false) s
      ({ s with lock := (s.lock.attempt t side).2 }.complete t side.tryCall
        (.tried (s.lock.attempt t side).1)) := by
  rw [attempt_of_false hfalse, hfalse]
  exact untouched_complete t _ _ s

theorem untouched_call {e : Fault} (hidle : s.phase t = .idle) (hc : c ≠ .unlock)
    (he : c.refusal? t s.lock = some e) : Untouched t c (.failed e) s (s.call t c) := by
  rw [RwSession.call.eq_def, if_neg (not_not.mpr hidle)]
  cases c with
  | readLock => exact untouched_request .read he
  | writeLock => exact untouched_request .write he
  | tryReadLock | tryWriteLock => cases he
  | readUnlock => exact untouched_release .read _ he
  | writeUnlock => exact untouched_release .write _ he
  | unlock => exact absurd rfl hc

/-- An attempt that takes nothing. -/
theorem untouched_tryCall {side : RwSide} (hidle : s.phase t = .idle)
    (hfalse : (s.lock.attempt t side).1 = false) :
    Untouched t side.tryCall (.tried false) s (s.call t side.tryCall) := by
  rw [RwSession.call.eq_def, if_neg (not_not.mpr hidle)]
  cases side with
  | read => exact untouched_attempt .read hfalse
  | write => exact untouched_attempt .write hfalse

/-- What holds of a call of `t` that is issued in `s`. -/
structure KeepsContract (t : ThreadId) (c : RwCall) (s : RwSession) : Prop where
  /-- However the workers go on, the call completes with the error of its refusal, if it has one. -/
  exact_refusal : ∀ ms : List RwMove, (∀ c', .call t c' ∉ ms) →
    ((s.call t c).after ms).phase t = .idle →
    ∃ r : RwResult, r.fault? = c.refusal? t s.lock ∧ Completes t c r s ((s.call t c).after ms)
  /-- Until then nothing completes, and a call that is refused can only be `unlock`, whose next
  section leaves everything as it is. -/
  pending : ∀ ms : List RwMove, (∀ c', .call t c' ∉ ms) →
    ((s.call t c).after ms).phase t ≠ .idle →
    SameCompleted t s ((s.call t c).after ms) ∧
      ∀ e, c.refusal? t s.lock = some e → c = .unlock ∧
        Untouched t c (.failed e) ((s.call t c).after ms) (((s.call t c).after ms).resume t)
  /-- Every other call that is refused leaves everything as it is. -/
  refused : ∀ e, c ≠ .unlock → c.refusal? t s.lock = some e →
    Untouched t c (.failed e) s (s.call t c)
  /-- So does an attempt that takes nothing. -/
  untaken : ∀ side : RwSide, c = side.tryCall → (s.lock.attempt t side).1 = false →
    Untouched t c (.tried false) s (s.call t c)

/-- The call of an idle thread fails exactly if it is refused, and then it does nothing else. -/
theorem Reachable.keepsContract (h : s.Reachable) (hidle : s.phase t = .idle) (c : RwCall) :
    s.KeepsContract t c := by
  have hcalling : ∀ ms : List RwMove, (∀ c', .call t c' ∉ ms) →
      Calling t c (c.refusal? t s.lock) s ((s.call t c).after ms) :=
    fun ms hms => (calling_call hidle c).after (h.call t c) hms
  refine ⟨fun ms hms hover => ?_, fun ms hms hbusy => ?_,
    fun e hc he => untouched_call hidle hc he, ?_⟩
  · cases hcalling ms hms with
    | asleep d _ _ hp => exact absurd (hp.symm.trans hover) (RwSide.asleep_ne_idle d)
    | unlocking asWriter _ hp => cases hp.symm.trans hover
    | ended r _ hr hone => exact ⟨r, hr, hone⟩
  · cases hcalling ms hms with
    | asleep d _ hv _ hsame => exact ⟨hsame, fun e he => by cases hv.symm.trans he⟩
    | unlocking asWriter hc hp hv hsame =>
        subst hc
        refine ⟨hsame, fun e he => ⟨rfl, ?_⟩⟩
        rw [resume_unlocking hp]
        exact untouched_release _ _ (hv.trans he)
    | ended r hp => exact absurd hp hbusy
  · rintro side rfl hfalse
    exact untouched_tryCall hidle hfalse

end RwSession

end Baton
