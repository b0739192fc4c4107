import Baton.Proofs.RwLock.Holds

/-!
# Reader/writer lock: the order of grants

What has joined a queue is what has been granted out of it, in the same order, followed by the
queue. A release that leaves no holder grants the oldest queued writer, or else all queued readers;
any other release grants nobody, and nothing but a release grants a queued request. From the moment
a thread is given a hold until it releases that hold nobody else is given a hold that conflicts with
it.
-/

namespace Baton

namespace RwState

open RwEvent

variable {s s' : RwState} {t u : ThreadId} {es : List RwEvent} {d : RwSide}

/-- A queue after a move is the one before it, with what joined it and without what was granted. -/
theorem Change.queue_append (h : Change t s es s') (d : RwSide) :
    s.queue d ++ es.filterMap (queued? d) = es.filterMap (granted? d) ++ s'.queue d := by
  have hnone : ∀ d rs, (List.map (fun r => granted r .read) rs).filterMap (queued? d) = [] := by
    intro d rs
    simp [List.filterMap_map, queued?, Function.comp_def]
  have hgrants : ∀ rs,
      (List.map (fun r => granted r .read) rs).filterMap (granted? .read) = rs := by
    intro rs
    simp [List.filterMap_map, granted?, Function.comp_def]
  cases h with
  | same => simp
  | queueRead => cases d <;> simp [queue, queued?, granted?, List.filterMap_cons]
  | queueWrite => cases d <;> simp [queue, queued?, granted?, List.filterMap_cons]
  | takeRead => cases d <;> simp [queue, queued?, granted?, List.filterMap_cons]
  | takeWrite => cases d <;> simp [queue, queued?, granted?, List.filterMap_cons]
  | leave => cases d <;> simp [queue, queued?, granted?, List.filterMap_cons]
  | handToWriter hme hlast hq =>
      cases d <;> simp [queue, queued?, granted?, List.filterMap_cons, hq]
  | handToReaders hme hlast hq =>
      cases d with
      | read => simp [queue, queued?, granted?, List.filterMap_cons, hnone, hgrants]
      | write =>
          simp [queue, queued?, granted?, List.filterMap_cons, hnone, hq, List.filterMap_map,
            Function.comp_def]

/-- What a release does: other read holds that are left keep the lock, and else the oldest queued
writer is next, or all queued readers are. -/
theorem Change.release (h : Change t s es s') (hreleased : released u d ∈ es) :
    u = t ∧
      (¬ s.SoleHold u d → es = [released u d] ∧ ∀ e, s'.queue e = s.queue e) ∧
      (s.SoleHold u d → ∀ next rest, s.writeQueue = next :: rest →
        es = [released u d, granted next .write] ∧ s' = ⟨some next, [], s.readQueue, rest⟩) ∧
      (s.SoleHold u d → s.writeQueue = [] →
        es = released u d :: (s.readQueue.map fun r => granted r .read) ∧
          s' = ⟨none, s.readQueue, [], []⟩) := by
  cases h with
  | same => cases hreleased
  | queueRead => simp at hreleased
  | queueWrite => simp at hreleased
  | takeRead => simp at hreleased
  | takeWrite => simp at hreleased
  | @leave rs hw hperm hrest =>
      obtain ⟨rfl, rfl⟩ : u = t ∧ d = .read := by simpa using hreleased
      have hnot : ¬ s.SoleHold u .read := by
        rintro ⟨-, hr⟩
        rw [hr] at hperm
        exact hrest (List.perm_nil.mp (List.Perm.cons_inv hperm))
      refine ⟨rfl, fun _ => ⟨rfl, fun e => ?_⟩, fun hs => absurd hs hnot, fun hs => absurd hs hnot⟩
      cases e <;> rfl
  | @handToWriter side next rest hme hlast hq =>
      obtain ⟨rfl, rfl⟩ : u = t ∧ d = side := by simpa using hreleased
      refine ⟨rfl, fun hs => absurd hlast hs, ?_, ?_⟩
      · intro _ next' rest' hq'
        obtain ⟨rfl, rfl⟩ := List.cons.inj (hq.symm.trans hq')
        exact ⟨rfl, rfl⟩
      · intro _ hnil
        cases hq.symm.trans hnil
  | @handToReaders side hme hlast hq =>
      obtain ⟨rfl, rfl⟩ : u = t ∧ d = side := by simpa using hreleased
      refine ⟨rfl, fun hs => absurd hlast hs, ?_, fun _ _ => ⟨rfl, rfl⟩⟩
      intro _ next rest hq'
      cases hq.symm.trans hq'

/-- Whoever leaves a queue was granted its request by a release of another thread. -/
theorem Change.released_of_dequeued (h : Change t s es s') (hq : u ∈ s.queue d)
    (hleft : u ∉ s'.queue d) : u ≠ t ∧ granted u d ∈ es ∧ ∃ e, released t e ∈ es := by
  cases h with
  | same => exact absurd hq hleft
  | queueRead => exact absurd (by cases d <;> simp_all [queue]) hleft
  | queueWrite => exact absurd (by cases d <;> simp_all [queue]) hleft
  | takeRead => exact absurd (by cases d <;> exact hq) hleft
  | takeWrite => exact absurd (by cases d <;> exact hq) hleft
  | leave => exact absurd (by cases d <;> exact hq) hleft
  | @handToWriter side next rest hme hlast hwq =>
      have hne : u ≠ t := fun he => hme (he ▸ isQueued_of_mem_queue hq)
      refine ⟨hne, ?_, side, by simp⟩
      cases d with
      | read => exact absurd hq hleft
      | write =>
          have hq : u ∈ s.writeQueue := hq
          rw [hwq] at hq
          rcases List.mem_cons.mp hq with rfl | hrest
          · simp
          · exact absurd hrest hleft
  | @handToReaders side hme hlast hwq =>
      have hne : u ≠ t := fun he => hme (he ▸ isQueued_of_mem_queue hq)
      refine ⟨hne, ?_, side, by simp⟩
      cases d with
      | read => exact List.mem_cons_of_mem _ (List.mem_map.mpr ⟨u, hq, rfl⟩)
      | write =>
          have hq : u ∈ s.writeQueue := hq
          simp [hwq] at hq

/-- Whoever is given a hold has it after the move. -/
theorem Change.holds_pos_of_acquired (h : Change t s es s')
    (hgot : taken u d ∈ es ∨ granted u d ∈ es) : 0 < s'.holds u d := by
  cases h with
  | handToReaders hme hlast hq =>
      obtain ⟨rfl, hmem⟩ : RwSide.read = d ∧ u ∈ s.readQueue := by simpa [and_comm] using hgot
      exact List.count_pos_iff.mpr hmem
  | _ => cases d <;> simp_all

/-- While a thread keeps the write hold nobody is given a hold. -/
theorem Change.keeps_writer (h : Change t s es s') (hw : s.writer = some u)
    (hkeeps : released u .write ∉ es) :
    s'.writer = some u ∧ ∀ e ∈ es, e.isAcquisition = false := by
  cases h with
  | same => exact ⟨hw, by simp⟩
  | queueRead => exact ⟨hw, by simp [isAcquisition]⟩
  | queueWrite => exact ⟨hw, by simp [isAcquisition]⟩
  | takeRead hnone => simp [hw] at hnone
  | takeWrite hnone => simp [hw] at hnone
  | leave hnone => simp [hw] at hnone
  | @handToWriter side next rest hme hlast hq =>
      cases side with
      | read => simp [SoleHold, hw] at hlast
      | write => simp_all [SoleHold]
  | @handToReaders side hme hlast hq =>
      cases side with
      | read => simp [SoleHold, hw] at hlast
      | write => simp_all [SoleHold]

/-- While a thread keeps a read hold nobody is given the write hold. -/
theorem Change.keeps_reader (h : Change t s es s') (hr : u ∈ s.readers)
    (hkeeps : released u .read ∉ es) :
    u ∈ s'.readers ∧ ∀ e ∈ es, e.isWriteAcquisition = false := by
  cases h with
  | same => exact ⟨hr, by simp⟩
  | queueRead => exact ⟨hr, by simp [isWriteAcquisition]⟩
  | queueWrite => exact ⟨hr, by simp [isWriteAcquisition]⟩
  | takeRead => exact ⟨by simp [hr], by simp [isWriteAcquisition]⟩
  | takeWrite hw hnil => simp [hnil] at hr
  | leave hw hperm =>
      have hne : u ≠ t := by simpa using hkeeps
      refine ⟨?_, by simp [isWriteAcquisition]⟩
      exact (List.mem_cons.mp (hperm.symm.subset hr)).resolve_left hne
  | @handToWriter side next rest hme hlast hq =>
      cases side with
      | read => simp_all [SoleHold]
      | write => simp [SoleHold, List.ne_nil_of_mem hr] at hlast
  | @handToReaders side hme hlast hq =>
      cases side with
      | read => simp_all [SoleHold]
      | write => simp [SoleHold, List.ne_nil_of_mem hr] at hlast

end RwState

namespace RwSession

open RwState RwEvent

variable {s : RwSession} {t u : ThreadId} {m : RwMove} {ms : List RwMove}

/-- A queue after some moves. -/
theorem Reachable.queue_append (h : s.Reachable) (ms : List RwMove) (d : RwSide) :
    s.lock.queue d ++ (s.history ms).filterMap (queued? d) =
      (s.history ms).filterMap (granted? d) ++ (s.after ms).lock.queue d := by
  induction ms generalizing s with
  | nil => simp
  | cons m ms ih =>
      have hstep := (h.sound.change m).queue_append d
      rw [history_cons, List.filterMap_append, List.filterMap_append, after_cons,
        ← List.append_assoc, hstep, List.append_assoc, ih (h.move m), List.append_assoc]

/-- A thread that has the write hold shuts out everybody until it releases it. -/
theorem Reachable.writer_shuts_out (h : s.Reachable) (hw : s.lock.writer = some t)
    (hkeeps : released t .write ∉ s.history ms) :
    ∀ e ∈ s.history ms, e.isAcquisition = false := by
  induction ms generalizing s with
  | nil => simp
  | cons m ms ih =>
      rw [history_cons, List.mem_append, not_or] at hkeeps
      obtain ⟨hstill, hnow⟩ := (h.sound.change m).keeps_writer hw hkeeps.1
      intro e he
      rcases List.mem_append.mp he with he | he
      · exact hnow e he
      · exact ih (h.move m) hstill hkeeps.2 e he

/-- A thread that has a read hold shuts out writers until it releases it. -/
theorem Reachable.reader_shuts_out (h : s.Reachable) (hr : t ∈ s.lock.readers)
    (hkeeps : released t .read ∉ s.history ms) :
    ∀ e ∈ s.history ms, e.isWriteAcquisition = false := by
  induction ms generalizing s with
  | nil => simp
  | cons m ms ih =>
      rw [history_cons, List.mem_append, not_or] at hkeeps
      obtain ⟨hstill, hnow⟩ := (h.sound.change m).keeps_reader hr hkeeps.1
      intro e he
      rcases List.mem_append.mp he with he | he
      · exact hnow e he
      · exact ih (h.move m) hstill hkeeps.2 e he

/-- A read request while nobody writes. -/
theorem call_readLock_granted (hidle : s.phase t = .idle) (hw : s.lock.writer = none) :
    s.eventsOf (.call t .readLock) = [taken t .read] ∧
      s.call t .readLock =
        { s with lock := { s.lock with readers := s.lock.readers ++ [t] } }.complete
          t .readLock .done := by
  simp [eventsOf, eventsOfCall, RwSession.call, RwSession.request, RwState.requestRead, hidle, hw,
    ofVerdict]

/-- A read request while another thread writes. -/
theorem call_readLock_queued (hidle : s.phase t = .idle) (hw : s.lock.writer = some u)
    (hne : u ≠ t) :
    s.eventsOf (.call t .readLock) = [queued t .read] ∧
      s.call t .readLock =
        { s with lock := { s.lock with readQueue := s.lock.readQueue ++ [t] } }.setPhase
          t .reading := by
  simp [eventsOf, eventsOfCall, RwSession.call, RwSession.request, RwState.requestRead, hidle, hw,
    hne, ofVerdict]

/-- The order of grants. Requests are granted in the order in which they queued. A read request is
granted at once while nobody writes, and is queued while another thread does. A release that leaves
another read hold grants nobody, and any other one grants the oldest queued writer, or else all
queued readers in order; nothing but a release of another thread takes a request out of a queue.
From the moment a thread is given a hold until it releases it, nobody is given a hold beside a write
hold, and nobody the write hold beside a read hold. -/
theorem grants_in_order (ms : List RwMove) :
    let s := start.after ms
    let es := start.history ms
    (∀ d, es.filterMap (queued? d) = es.filterMap (granted? d) ++ s.lock.queue d) ∧
      (∀ t, s.phase t = .idle → s.lock.writer = none →
        s.eventsOf (.call t .readLock) = [taken t .read] ∧
          s.call t .readLock =
            { s with lock := { s.lock with readers := s.lock.readers ++ [t] } }.complete
              t .readLock .done) ∧
      (∀ t u, s.phase t = .idle → s.lock.writer = some u → u ≠ t →
        s.eventsOf (.call t .readLock) = [queued t .read] ∧
          s.call t .readLock =
            { s with lock := { s.lock with readQueue := s.lock.readQueue ++ [t] } }.setPhase
              t .reading) ∧
      (∀ m t d, released t d ∈ s.eventsOf m →
        t = m.worker ∧
          (¬ s.lock.SoleHold t d →
            s.eventsOf m = [released t d] ∧ ∀ e, (s.move m).lock.queue e = s.lock.queue e) ∧
          (s.lock.SoleHold t d → ∀ next rest, s.lock.writeQueue = next :: rest →
            s.eventsOf m = [released t d, granted next .write] ∧
              (s.move m).lock = ⟨some next, [], s.lock.readQueue, rest⟩) ∧
          (s.lock.SoleHold t d → s.lock.writeQueue = [] →
            s.eventsOf m = released t d :: (s.lock.readQueue.map fun r => granted r .read) ∧
              (s.move m).lock = ⟨none, s.lock.readQueue, [], []⟩)) ∧
      (∀ m t d, t ∈ s.lock.queue d → t ∉ (s.move m).lock.queue d →
        t ≠ m.worker ∧ granted t d ∈ s.eventsOf m ∧ ∃ e, released m.worker e ∈ s.eventsOf m) ∧
      (∀ m t ms', taken t .write ∈ s.eventsOf m ∨ granted t .write ∈ s.eventsOf m →
        released t .write ∉ (s.move m).history ms' →
          ∀ e ∈ (s.move m).history ms', e.isAcquisition = false) ∧
      (∀ m t ms', taken t .read ∈ s.eventsOf m ∨ granted t .read ∈ s.eventsOf m →
        released t .read ∉ (s.move m).history ms' →
          ∀ e ∈ (s.move m).history ms', e.isWriteAcquisition = false) := by
  intro s es
  have hs : s.Reachable := Reachable.start.after ms
  refine ⟨fun d => ?_, fun t => call_readLock_granted, fun t u => call_readLock_queued,
    fun m t d => (hs.sound.change m).release, fun m t d => (hs.sound.change m).released_of_dequeued,
    fun m t ms' hgot => ?_, fun m t ms' hgot => ?_⟩
  · have hqueue := Reachable.start.queue_append ms d
    have hempty : start.lock.queue d = [] := by cases d <;> rfl
    rwa [hempty, List.nil_append] at hqueue
  · have hpos := (hs.sound.change m).holds_pos_of_acquired hgot
    apply (hs.move m).writer_shuts_out
    rw [holds_write] at hpos
    by_contra hw
    rw [if_neg hw] at hpos
    exact absurd hpos (Nat.lt_irrefl 0)
  · have hpos := (hs.sound.change m).holds_pos_of_acquired hgot
    exact (hs.move m).reader_shuts_out (List.count_pos_iff.mp hpos)

/-- The first worker writes, the second one waits to read, and two more wait to write. -/
def queueing : List RwMove :=
  [.call 1 .writeLock, .call 2 .readLock, .call 3 .writeLock, .call 4 .writeLock]

/-- The release of the first worker grants the third one, which shuts out the others before it has
resumed. -/
theorem grants_in_order_queueing :
    let s := start.after queueing
    let later := [.call 5 .tryReadLock, .resume 4, .call 1 .readLock, .resume 3]
    (start.history queueing).filterMap (queued? .write) = [3, 4] ∧
      (start.history queueing).filterMap (granted? .write) ++ s.lock.queue .write = [3, 4] ∧
      s.eventsOf (.call 1 .writeUnlock) = [released 1 .write, granted 3 .write] ∧
      (s.move (.call 1 .writeUnlock)).lock = ⟨some 3, [], [2], [4]⟩ ∧
      released 3 .write ∉ (s.move (.call 1 .writeUnlock)).history later ∧
      ∀ e ∈ (s.move (.call 1 .writeUnlock)).history later, e.isAcquisition = false := by
  intro s later
  obtain ⟨hfifo, -, -, hrelease, -, hwriter, -⟩ := grants_in_order queueing
  have hqueued : (start.history queueing).filterMap (queued? .write) = [3, 4] := by decide
  obtain ⟨-, -, htoWriter, -⟩ := hrelease (.call 1 .writeUnlock) 1 .write (by decide)
  obtain ⟨hevents, hlock⟩ := htoWriter ⟨by decide, by decide⟩ 3 [4] (by decide)
  have hkeeps : released 3 .write ∉ (s.move (.call 1 .writeUnlock)).history later := by decide
  refine ⟨hqueued, (hfifo .write).symm.trans hqueued, hevents, hlock, hkeeps, ?_⟩
  exact hwriter (.call 1 .writeUnlock) 3 later (.inr (by decide)) hkeeps

end RwSession

end Baton
