import Baton.Proofs.RwLock.Holds

/-!
# Reader/writer lock: the account of holds

What a worker acquired is what its calls returned to it, and what it was granted while it still
sleeps; what it released is what its calls gave up. So the events of a history agree with the
results of the calls.

Main statement: the holds of a worker are what it acquired less what it released, and no move of
another worker takes a hold away, doubles it or passes it on.
-/

namespace Baton

/-- Whether the call gives up a hold. -/
def RwCall.isUnlock : RwCall → Bool
  | .readUnlock | .writeUnlock | .unlock => true
  | _ => false

/-- The call that waits for a hold. -/
def RwSide.lockCall : RwSide → RwCall
  | .read => .readLock
  | .write => .writeLock

/-- The call that takes a hold only if that needs no waiting. -/
def RwSide.tryCall : RwSide → RwCall
  | .read => .tryReadLock
  | .write => .tryWriteLock

/-- Where a worker sleeps that waits for a hold. -/
def RwSide.asleep : RwSide → RwPhase
  | .read => .reading
  | .write => .writing

@[simp] theorem RwSide.lockCall_inj {d e : RwSide} : d.lockCall = e.lockCall ↔ d = e := by
  cases d <;> cases e <;> simp [lockCall]

@[simp] theorem RwSide.tryCall_inj {d e : RwSide} : d.tryCall = e.tryCall ↔ d = e := by
  cases d <;> cases e <;> simp [tryCall]

@[simp] theorem RwSide.lockCall_ne_tryCall (d e : RwSide) : d.lockCall ≠ e.tryCall := by
  cases d <;> cases e <;> simp [lockCall, tryCall]

@[simp] theorem RwSide.asleep_inj {d e : RwSide} : d.asleep = e.asleep ↔ d = e := by
  cases d <;> cases e <;> simp [asleep]

@[simp] theorem RwSide.asleep_ne_idle (d : RwSide) : d.asleep ≠ .idle := by
  cases d <;> simp [asleep]

@[simp] theorem RwSide.asleep_ne_unlocking (d : RwSide) (asWriter : Bool) :
    d.asleep ≠ .unlocking asWriter := by
  cases d <;> simp [asleep]

namespace RwSession

open RwState RwEvent

variable {s s' : RwSession} {t u : ThreadId} {m : RwMove} {c : RwCall} {r : RwResult}

/-- How often a call returned a hold to a thread. -/
def returned (t : ThreadId) (d : RwSide) (s : RwSession) : Nat :=
  s.completed.count ⟨t, d.lockCall, .done⟩ + s.completed.count ⟨t, d.tryCall, .tried true⟩

/-- Whether a thread has been granted a hold and has not resumed yet. -/
def owed (t : ThreadId) (d : RwSide) (s : RwSession) : Nat :=
  if s.phase t = d.asleep ∧ t ∉ s.lock.queue d then 1 else 0

/-- How often a call of a thread gave up a hold. -/
def givenUp (t : ThreadId) (s : RwSession) : Nat :=
  s.completed.count ⟨t, .readUnlock, .done⟩ + s.completed.count ⟨t, .writeUnlock, .done⟩ +
    s.completed.count ⟨t, .unlock, .done⟩

theorem Sound.phase_of_mem_queue (h : s.Sound) {d : RwSide} (hq : u ∈ s.lock.queue d) :
    s.phase u = d.asleep := by
  cases d with
  | read => exact (h.placed u).reading_of_mem hq
  | write => exact (h.placed u).writing_of_mem hq

/-- What a worker was given: by calls that returned, and by a release while it sleeps. -/
def received (t : ThreadId) (d : RwSide) (s : RwSession) : Nat := s.returned t d + s.owed t d

theorem owed_eq_zero {d : RwSide} (h : s.phase t ≠ d.asleep) : s.owed t d = 0 :=
  if_neg fun hp => h hp.1

theorem returned_complete (t u : ThreadId) (d : RwSide) (c : RwCall) (r : RwResult)
    (s : RwSession) : (s.complete t c r).returned u d = s.returned u d +
      if t = u ∧ (c = d.lockCall ∧ r = .done ∨ c = d.tryCall ∧ r = .tried true) then 1 else 0 := by
  have hcompleted : (s.complete t c r).completed = ⟨t, c, r⟩ :: s.completed := rfl
  simp only [returned, hcompleted, List.count_cons, beq_iff_eq, RwCompletion.mk.injEq]
  by_cases ht : t = u
  · cases d <;> cases c <;> cases r <;> simp [ht, RwSide.lockCall, RwSide.tryCall] <;> omega
  · simp [ht]

theorem received_complete_self (d : RwSide) (c : RwCall) (r : RwResult) (s : RwSession) :
    (s.complete t c r).received t d = s.returned t d +
      if c = d.lockCall ∧ r = .done ∨ c = d.tryCall ∧ r = .tried true then 1 else 0 := by
  have howed : (s.complete t c r).owed t d = 0 := by
    apply owed_eq_zero
    rw [phase_complete, if_pos rfl]
    exact (RwSide.asleep_ne_idle d).symm
  rw [received, howed, Nat.add_zero, returned_complete]
  simp

/-! ## The worker that moves -/

theorem received_request (side : RwSide) {out : Verdict × RwState}
    (hq : out.1 = .queued → t ∈ out.2.queue side) (d : RwSide) :
    (s.request t side.lockCall side.asleep out).received t d =
      s.returned t d + acquisitions t d (ofVerdict t side out.1) := by
  obtain ⟨verdict, lock⟩ := out
  cases verdict with
  | granted =>
      simp [request, received_complete_self, acquisitions, ofVerdict, List.count_singleton]
      rfl
  | queued =>
      have howed : (setPhase t side.asleep { s with lock }).owed t d = 0 := by
        apply if_neg
        rintro ⟨hphase, hnot⟩
        rw [phase_setPhase, if_pos rfl, RwSide.asleep_inj] at hphase
        subst hphase
        exact hnot (hq rfl)
      simp only [request, received, howed]
      simp [acquisitions, ofVerdict]
      rfl
  | refused =>
      simp [request, received_complete_self, acquisitions, ofVerdict]
      rfl

theorem received_attempt (side : RwSide) {lock : RwState} {success : Bool} (d : RwSide) :
    ({ s with lock }.complete t side.tryCall (.tried success)).received t d =
      s.returned t d + acquisitions t d (ofAttempt t side success) := by
  cases success <;>
    simp [received_complete_self, acquisitions, ofAttempt, List.count_singleton]
  · rfl
  · rfl

/-- A release gives its own thread nothing. -/
theorem received_release {out : Option (Handoff × RwState)} (d : RwSide)
    (hc : c.isUnlock = true) : (s.release t c out).received t d = s.returned t d := by
  have hne : c ≠ d.lockCall ∧ c ≠ d.tryCall := by
    cases c <;> cases d <;> simp_all [RwCall.isUnlock, RwSide.lockCall, RwSide.tryCall]
  cases out with
  | none =>
      rw [release, received_complete_self]
      simp [hne]
  | some out =>
      rw [release, received_complete_self]
      simp [hne]
      rfl

theorem received_of_idle (hidle : s.phase t = .idle) (d : RwSide) :
    s.received t d = s.returned t d := by
  rw [received, owed_eq_zero (hidle ▸ (RwSide.asleep_ne_idle d).symm), Nat.add_zero]

theorem received_of_unlocking {asWriter : Bool} (hp : s.phase t = .unlocking asWriter)
    (d : RwSide) : s.received t d = s.returned t d := by
  rw [received, owed_eq_zero (hp ▸ (RwSide.asleep_ne_unlocking d asWriter).symm), Nat.add_zero]

theorem Sound.received_call (h : s.Sound) (hidle : s.phase t = .idle) (d : RwSide) :
    (s.call t c).received t d = s.received t d + acquisitions t d (eventsOfCall t s.lock c) := by
  have hq : ¬ s.lock.IsQueued t := h.not_queued (by simp [hidle]) (by simp [hidle])
  have hx : s.lock.isExclusive = true := isExclusive_iff.mpr h.regular.exclusive
  rw [received_of_idle hidle, RwSession.call.eq_def, if_neg (not_not.mpr hidle)]
  cases c with
  | readLock =>
      exact received_request .read (fun hqueued => (requestRead_queued hx hqueued).1) d
  | writeLock =>
      exact received_request .write (fun hqueued => (requestWrite_queued hqueued).1) d
  | tryReadLock => exact received_attempt .read d
  | tryWriteLock => exact received_attempt .write d
  | readUnlock =>
      rw [eventsOfCall, acquisitions_ofRelease (h.regular.change_releaseRead hq)]
      exact received_release d rfl
  | writeUnlock =>
      rw [eventsOfCall, acquisitions_ofRelease (h.regular.change_releaseWrite hq)]
      exact received_release d rfl
  | unlock => exact received_of_unlocking (by rw [phase_setPhase, if_pos rfl]) d

/-- A worker that resumes as granted gets what it was owed. -/
theorem received_resume_asleep (side : RwSide) (hp : s.phase t = side.asleep)
    (hgranted : t ∉ s.lock.queue side) (d : RwSide) :
    (s.complete t side.lockCall .done).received t d = s.received t d := by
  rw [received_complete_self, received, owed, hp]
  by_cases hd : side = d
  · subst hd
    simp [hgranted]
  · simp [hd]

theorem Sound.received_resume (h : s.Sound) (d : RwSide) : (s.resume t).received t d =
    s.received t d + acquisitions t d (eventsOfResume t s.lock (s.phase t)) := by
  cases hp : s.phase t with
  | idle => rw [RwSession.resume, hp]; rfl
  | reading =>
      rw [← hp, h.eventsOfResume_asleep (.inl hp), h.resume_reading hp]
      split
      · rfl
      · exact received_resume_asleep .read hp ‹_› d
  | writing =>
      rw [← hp, h.eventsOfResume_asleep (.inr hp), h.resume_writing hp]
      split
      · rename_i hw
        exact received_resume_asleep .write hp
          (fun hm => h.regular.writer_unqueued t hw (.inr hm)) d
      · rfl
  | unlocking asWriter =>
      have hq : ¬ s.lock.IsQueued t := h.not_queued (by simp [hp]) (by simp [hp])
      rw [RwSession.resume, hp, received_of_unlocking hp]
      cases asWriter with
      | true =>
          rw [eventsOfResume, acquisitions_ofRelease (h.regular.change_releaseWrite hq)]
          exact received_release d rfl
      | false =>
          rw [eventsOfResume, acquisitions_ofRelease (h.regular.change_releaseRead hq)]
          exact received_release d rfl

/-! ## The releases that succeeded -/

theorem givenUp_complete (t : ThreadId) (c : RwCall) (r : RwResult) (s : RwSession) :
    (s.complete t c r).givenUp t =
      s.givenUp t + if c.isUnlock = true ∧ r = .done then 1 else 0 := by
  have hcompleted : (s.complete t c r).completed = ⟨t, c, r⟩ :: s.completed := rfl
  simp only [givenUp, hcompleted, List.count_cons, beq_iff_eq, RwCompletion.mk.injEq]
  cases c <;> simp [RwCall.isUnlock] <;> omega

/-- A release gives up one hold exactly if it succeeds. -/
theorem givenUp_release (hc : c.isUnlock = true) (side : RwSide)
    (out : Option (Handoff × RwState)) : (s.release t c out).givenUp t = s.givenUp t +
      (releases t .read (ofRelease t side s.lock out) +
        releases t .write (ofRelease t side s.lock out)) := by
  cases out with
  | none => simp [release, givenUp_complete, ofRelease, releases]
  | some out =>
      have hsame : givenUp t { s with lock := out.2 } = s.givenUp t := rfl
      rw [release, givenUp_complete, hsame, ofRelease, releases_released_cons,
        releases_released_cons, releases_ofHandoff, releases_ofHandoff]
      cases side <;> simp [hc]

theorem givenUp_request (side : RwSide) {out : Verdict × RwState} :
    (s.request t side.lockCall side.asleep out).givenUp t = s.givenUp t := by
  obtain ⟨verdict, lock⟩ := out
  cases verdict with
  | granted =>
      cases side <;> simp [request, givenUp_complete, RwSide.lockCall, RwCall.isUnlock] <;> rfl
  | queued => rfl
  | refused =>
      cases side <;> simp [request, givenUp_complete, RwSide.lockCall, RwCall.isUnlock] <;> rfl

/-! ## The other workers -/

/-- The worker is where it was, and no call of it has completed. -/
def Rests (u : ThreadId) (s s' : RwSession) : Prop :=
  s'.phase u = s.phase u ∧
    ∀ x : RwCompletion, x.worker = u → s'.completed.count x = s.completed.count x

theorem Rests.refl (u : ThreadId) (s : RwSession) : Rests u s s := ⟨rfl, fun _ _ => rfl⟩

theorem rests_complete (hne : u ≠ t) (lock : RwState) (c : RwCall) (r : RwResult) :
    Rests u s ({ s with lock }.complete t c r) := by
  refine ⟨(phase_complete ..).trans (if_neg hne), fun x hx => ?_⟩
  show (⟨t, c, r⟩ :: s.completed).count x = s.completed.count x
  apply List.count_cons_of_ne
  rintro rfl
  exact hne hx.symm

theorem rests_setPhase (hne : u ≠ t) (lock : RwState) (p : RwPhase) :
    Rests u s (setPhase t p { s with lock }) :=
  ⟨(phase_setPhase ..).trans (if_neg hne), fun _ _ => rfl⟩

theorem rests_release (hne : u ≠ t) (out : Option (Handoff × RwState)) :
    Rests u s (s.release t c out) := by
  cases out with
  | none => exact rests_complete hne s.lock c _
  | some out => exact rests_complete hne out.2 c _

theorem rests_request (hne : u ≠ t) (asleep : RwPhase) (out : Verdict × RwState) :
    Rests u s (s.request t c asleep out) := by
  obtain ⟨verdict, lock⟩ := out
  cases verdict with
  | granted => exact rests_complete hne lock c _
  | queued => exact rests_setPhase hne lock asleep
  | refused => exact rests_complete hne lock c _

/-- A worker that does not move rests. -/
theorem rests_move (hne : u ≠ m.worker) : Rests u s (s.move m) := by
  cases m with
  | call t c =>
      rw [move, RwSession.call.eq_def]
      split
      · exact .refl u s
      · cases c with
        | readLock => exact rests_request hne _ _
        | writeLock => exact rests_request hne _ _
        | tryReadLock => exact rests_complete hne _ _ _
        | tryWriteLock => exact rests_complete hne _ _ _
        | readUnlock => exact rests_release hne _
        | writeUnlock => exact rests_release hne _
        | unlock => exact rests_setPhase hne s.lock _
  | snapshot t =>
      rw [move, RwSession.snapshot]
      split <;> exact ⟨rfl, fun _ _ => rfl⟩
  | resume t =>
      rw [move, RwSession.resume]
      cases s.phase t with
      | idle => exact .refl u s
      | reading =>
          dsimp only
          split
          · exact rests_complete hne _ _ _
          · exact ⟨rfl, fun _ _ => rfl⟩
      | writing =>
          dsimp only
          split
          · exact rests_complete hne _ _ _
          · exact ⟨rfl, fun _ _ => rfl⟩
      | unlocking asWriter => cases asWriter <;> exact rests_release hne _

theorem Rests.returned (h : Rests u s s') (d : RwSide) : s'.returned u d = s.returned u d := by
  rw [RwSession.returned, RwSession.returned, h.2 _ rfl, h.2 _ rfl]

theorem Rests.givenUp (h : Rests u s s') : s'.givenUp u = s.givenUp u := by
  rw [RwSession.givenUp, RwSession.givenUp, h.2 _ rfl, h.2 _ rfl, h.2 _ rfl]

/-- A worker that does not move is owed what it is granted. -/
theorem Sound.owed_other (h : s.Sound) {es : List RwEvent}
    (hchange : Change t s.lock es s'.lock) (hphase : s'.phase u = s.phase u) (hne : u ≠ t)
    (d : RwSide) : s'.owed u d = s.owed u d + acquisitions u d es := by
  have hcount := hchange.count_queue hne d
  have hone := h.regular.count_queue_le_one u d
  by_cases hp : s.phase u = d.asleep
  · have howed : ∀ {x : RwSession}, x.phase u = d.asleep →
        x.owed u d = if (x.lock.queue d).count u = 0 then 1 else 0 := by
      intro x hx
      simp [owed, hx, List.count_eq_zero]
    rw [howed hp, howed (hphase.trans hp)]
    split <;> split <;> omega
  · have hnot : u ∉ s.lock.queue d := fun hq => hp (h.phase_of_mem_queue hq)
    rw [List.count_eq_zero.mpr hnot] at hcount
    rw [owed_eq_zero hp, owed_eq_zero (hphase ▸ hp)]
    omega

/-- A worker receives by a move what the move's events say. -/
theorem Sound.received_move (h : s.Sound) (m : RwMove) (u : ThreadId) (d : RwSide) :
    (s.move m).received u d = s.received u d + acquisitions u d (s.eventsOf m) := by
  by_cases hne : u = m.worker
  · subst hne
    cases m with
    | call t c =>
        by_cases hidle : s.phase t = .idle
        · rw [eventsOf, if_neg (not_not.mpr hidle)]
          exact h.received_call hidle d
        · rw [eventsOf, if_pos hidle, move, RwSession.call.eq_def, if_pos hidle]
          rfl
    | snapshot t =>
        rw [eventsOf, move, RwSession.snapshot]
        split <;> rfl
    | resume t => exact h.received_resume d
  · have hrests : Rests u s (s.move m) := rests_move hne
    have howed := h.owed_other (h.change m) hrests.1 hne d
    rw [received, received, hrests.returned, howed, Nat.add_assoc]

theorem givenUp_call (hidle : s.phase t = .idle) : (s.call t c).givenUp t = s.givenUp t +
    (releases t .read (eventsOfCall t s.lock c) + releases t .write (eventsOfCall t s.lock c)) := by
  have hnone : ∀ side verdict, releases t .read (ofVerdict t side verdict) +
      releases t .write (ofVerdict t side verdict) = 0 := by
    intro side verdict
    cases verdict <;> simp [ofVerdict, releases]
  have hattempt : ∀ side success, releases t .read (ofAttempt t side success) +
      releases t .write (ofAttempt t side success) = 0 := by
    intro side success
    cases success <;> simp [ofAttempt, releases]
  rw [RwSession.call.eq_def, if_neg (not_not.mpr hidle)]
  cases c with
  | readLock =>
      rw [eventsOfCall, hnone]
      exact givenUp_request .read
  | writeLock =>
      rw [eventsOfCall, hnone]
      exact givenUp_request .write
  | tryReadLock =>
      rw [eventsOfCall, hattempt, givenUp_complete]
      rfl
  | tryWriteLock =>
      rw [eventsOfCall, hattempt, givenUp_complete]
      rfl
  | readUnlock => exact givenUp_release rfl .read _
  | writeUnlock => exact givenUp_release rfl .write _
  | unlock => rfl

theorem Sound.givenUp_resume (h : s.Sound) : (s.resume t).givenUp t = s.givenUp t +
    (releases t .read (eventsOfResume t s.lock (s.phase t)) +
      releases t .write (eventsOfResume t s.lock (s.phase t))) := by
  cases hp : s.phase t with
  | idle => rw [RwSession.resume, hp]; rfl
  | reading =>
      rw [← hp, h.eventsOfResume_asleep (.inl hp), h.resume_reading hp]
      split
      · rfl
      · exact givenUp_complete t .readLock .done s
  | writing =>
      rw [← hp, h.eventsOfResume_asleep (.inr hp), h.resume_writing hp]
      split
      · exact givenUp_complete t .writeLock .done s
      · rfl
  | unlocking asWriter =>
      rw [RwSession.resume, hp]
      cases asWriter with
      | true => exact givenUp_release rfl .write _
      | false => exact givenUp_release rfl .read _

/-- The releases that succeeded are those that the events tell of. -/
theorem Sound.givenUp_move (h : s.Sound) (m : RwMove) (u : ThreadId) :
    (s.move m).givenUp u = s.givenUp u +
      (releases u .read (s.eventsOf m) + releases u .write (s.eventsOf m)) := by
  by_cases hne : u = m.worker
  · subst hne
    cases m with
    | call t c =>
        by_cases hidle : s.phase t = .idle
        · rw [eventsOf, if_neg (not_not.mpr hidle)]
          exact givenUp_call hidle
        · rw [eventsOf, if_pos hidle, move, RwSession.call.eq_def, if_pos hidle]
          rfl
    | snapshot t =>
        rw [eventsOf, move, RwSession.snapshot]
        split <;> rfl
    | resume t => exact h.givenUp_resume
  · have hrests : Rests u s (s.move m) := rests_move hne
    rw [hrests.givenUp, (h.change m).releases_other hne, (h.change m).releases_other hne]
    rfl

/-! ## Whole histories -/

/-- What holds of a session and a history that led to it. -/
structure Accounted (es : List RwEvent) (s : RwSession) : Prop where
  holds : ∀ t d, s.lock.holds t d + releases t d es = acquisitions t d es
  received : ∀ t d, s.received t d = acquisitions t d es
  givenUp : ∀ t, s.givenUp t = releases t .read es + releases t .write es

theorem accounted_start : Accounted [] start where
  holds t d := by cases d <;> rfl
  received t d := by cases d <;> rfl
  givenUp t := rfl

theorem Accounted.move {es : List RwEvent} (h : Accounted es s) (hs : s.Sound) (m : RwMove) :
    Accounted (es ++ s.eventsOf m) (s.move m) where
  holds t d := by
    have hbefore := h.holds t d
    have hstep := (hs.change m).holds t d
    rw [releases_append, acquisitions_append]
    omega
  received t d := by rw [hs.received_move, h.received, acquisitions_append]
  givenUp t := by
    rw [hs.givenUp_move, h.givenUp, releases_append, releases_append]
    omega

theorem Accounted.after {es : List RwEvent} (h : Accounted es s) (hs : s.Reachable)
    (ms : List RwMove) : Accounted (es ++ s.history ms) (s.after ms) := by
  induction ms generalizing s es with
  | nil => simpa using h
  | cons m ms ih =>
      rw [history_cons, ← List.append_assoc]
      exact ih (h.move hs.sound m) (hs.move m)

/-- The holds of a worker are what it acquired less what it released. What it acquired is what its
calls returned and what it was granted without having resumed; what it released is what its calls
gave up. A move of another worker leaves its holds alone, or grants it the one hold that it is
queued for. -/
theorem account_of_holds (ms : List RwMove) (t : ThreadId) :
    let s := start.after ms
    let es := start.history ms
    s.lock.readers.count t + releases t .read es = acquisitions t .read es ∧
      (s.lock.writer = some t ↔ acquisitions t .write es = releases t .write es + 1) ∧
      (s.lock.writer ≠ some t ↔ acquisitions t .write es = releases t .write es) ∧
      (∀ d, acquisitions t d es = s.returned t d + s.owed t d) ∧
      releases t .read es + releases t .write es = s.givenUp t ∧
      ∀ m d, m.worker ≠ t →
        (s.move m).lock.holds t d = s.lock.holds t d ∨
          t ∈ s.lock.queue d ∧ .granted t d ∈ s.eventsOf m ∧
            s.lock.holds t d = 0 ∧ (s.move m).lock.holds t d = 1 := by
  intro s es
  have hs : s.Reachable := Reachable.start.after ms
  have h : Accounted es s := accounted_start.after .start ms
  have hwrite := h.holds t .write
  rw [RwState.holds_write] at hwrite
  refine ⟨h.holds t .read, ?_, ?_, fun d => (h.received t d).symm, (h.givenUp t).symm,
    fun m d hne => (hs.sound.change m).holds_other hs.sound.regular hne.symm d⟩
  · split at hwrite
    · simp only [*, true_iff]
      omega
    · simp only [*, false_iff]
      omega
  · split at hwrite
    · simp only [*, ne_eq, not_true_eq_false, false_iff]
      omega
    · simp only [*, ne_eq, not_false_eq_true, true_iff]
      omega

/-- The second and the third worker wait to read while the first one writes, and are granted the
lock by its release. The second one resumes, takes another read hold and gives one up. -/
def reading : List RwMove :=
  [.call 1 .writeLock, .call 2 .readLock, .call 3 .readLock, .call 1 .writeUnlock, .resume 2,
    .call 2 .tryReadLock, .call 2 .readUnlock]

/-- The third worker has its hold without having resumed, and keeps it when the second one releases
its last hold. -/
theorem account_of_holds_reading :
    let s := start.after reading
    let es := start.history reading
    s.lock.readers = [2, 3] ∧ releases 2 .read es = 1 ∧ acquisitions 2 .read es = 2 ∧
      s.lock.readers.count 2 + releases 2 .read es = acquisitions 2 .read es ∧
      s.returned 3 .read = 0 ∧ s.owed 3 .read = 1 ∧ acquisitions 3 .read es = 1 ∧
      (s.move (.call 2 .readUnlock)).lock.holds 3 .read = s.lock.holds 3 .read := by
  intro s es
  obtain ⟨hbalance, -⟩ := account_of_holds reading 2
  obtain ⟨-, -, -, hreceived, -, hothers⟩ := account_of_holds reading 3
  have hreturned : s.returned 3 .read = 0 := by decide
  have howed : s.owed 3 .read = 1 := by decide
  have hkept := (hothers (.call 2 .readUnlock) .read (by decide)).resolve_right
    fun h => absurd h.1 (by decide)
  refine ⟨by decide, by decide, by decide, hbalance, hreturned, howed, ?_, hkept⟩
  exact (hreceived .read).trans (by rw [hreturned, howed])

end RwSession

end Baton
