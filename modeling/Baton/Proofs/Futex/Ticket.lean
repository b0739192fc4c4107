import Baton.Futex.Ticket
import Mathlib.Algebra.Group.Nat.Defs
import Mathlib.Data.List.Dedup
import Mathlib.Data.List.Induction
import Mathlib.Data.List.Perm.Subperm

/-!
# Ticket locks: exclusion, and service in the order of the requests

The threads that hold the lock or wait for it stand in a line. Their tickets count up from the one
that is served, modulo the size of the counters, and only the first in line may have the guard. As
long as the line is shorter than the counters are wide, different places mean different tickets, so
the thread whose ticket is served is the first, however often the counters have wrapped around. Each
action joins the line at its end, gives the guard to the first in line, or lets the first one leave.
-/

namespace Baton

/-- Whose action it is. -/
def TicketAction.thread : TicketAction → ThreadId
  | take t | look t | panic t | release t => t

namespace TicketPhase

@[simp] theorem hasGuard_away : away.hasGuard = false := rfl

@[simp] theorem hasGuard_waiting (ticket : UInt32) : (waiting ticket).hasGuard = false := rfl

@[simp] theorem hasGuard_holding : holding.hasGuard = true := rfl

@[simp] theorem hasGuard_unwinding : unwinding.hasGuard = true := rfl

theorem exists_waiting_iff {p : TicketPhase} :
    (∃ ticket, p = waiting ticket) ↔ p ≠ away ∧ p.hasGuard = false := by
  cases p <;> simp

end TicketPhase

namespace TicketLock

variable {l : TicketLock} {t u : ThreadId} {n s : UInt32} {p : TicketPhase} {queue : List ThreadId}

/-- The threads that hold the lock or wait for it. -/
def engaged (l : TicketLock) : List ThreadId :=
  (l.phases.keys.filter fun t => l.phase t ≠ .away).dedup

theorem mem_engaged_iff : t ∈ l.engaged ↔ l.phase t ≠ .away := by
  simp only [engaged, List.mem_dedup, List.mem_filter, decide_eq_true_eq, and_iff_right_iff_imp]
  exact Store.mem_keys_of_get_ne_default

theorem nodup_engaged (l : TicketLock) : l.engaged.Nodup := List.nodup_dedup _

/-- The thread of an action, if it comes to be in a phase of this kind. -/
def entrant (kind : TicketPhase → Bool) (l : TicketLock) (a : TicketAction) : List ThreadId :=
  if kind (l.phase a.thread) = false ∧ kind ((l.step a).phase a.thread) = true then [a.thread]
  else []

/-- The threads that come to be in a phase of this kind during a run, in order. -/
def entrants (kind : TicketPhase → Bool) (l : TicketLock) : List TicketAction → List ThreadId
  | [] => []
  | a :: actions => l.entrant kind a ++ entrants kind (l.step a) actions

/-- The threads that took a ticket, in the order of the tickets. -/
def takers (actions : List TicketAction) : List ThreadId :=
  entrants (fun p => p ≠ .away) fresh actions

/-- The threads that got the guard, in order. -/
def served (actions : List TicketAction) : List ThreadId :=
  entrants TicketPhase.hasGuard fresh actions

theorem run_append (l : TicketLock) (before after : List TicketAction) :
    l.run (before ++ after) = (l.run before).run after :=
  List.foldl_append

theorem entrants_concat (kind : TicketPhase → Bool) (l : TicketLock) (actions : List TicketAction)
    (a : TicketAction) :
    entrants kind l (actions ++ [a]) =
      entrants kind l actions ++ (l.run actions).entrant kind a := by
  induction actions generalizing l with
  | nil => simp [entrants, run]
  | cons b actions ih => simp [entrants, ih, run]

/-! ## Moves -/

/-- The state after a move. -/
def moved (l : TicketLock) (t : ThreadId) (n s : UInt32) (p : TicketPhase) : TicketLock :=
  ⟨n, s, l.phases.set t p⟩

@[simp] theorem phase_moved (l : TicketLock) (t u : ThreadId) (n s : UInt32) (p : TicketPhase) :
    (l.moved t n s p).phase u = if u = t then p else l.phase u :=
  Store.get_set ..

@[simp] theorem next_moved (l : TicketLock) (t : ThreadId) (n s : UInt32) (p : TicketPhase) :
    (l.moved t n s p).next = n := rfl

@[simp] theorem serving_moved (l : TicketLock) (t : ThreadId) (n s : UInt32) (p : TicketPhase) :
    (l.moved t n s p).serving = s := rfl

/-- What an action of a thread does to the counters and to the thread, if it does anything. -/
inductive Move (l : TicketLock) (t : ThreadId) : UInt32 → UInt32 → TicketPhase → Prop where
  | take : l.phase t = .away → Move l t (l.next + 1) l.serving (.waiting l.next)
  | grant : l.phase t = .waiting l.serving → Move l t l.next l.serving .holding
  | panic : l.phase t = .holding → Move l t l.next l.serving .unwinding
  | release : (l.phase t).hasGuard = true → Move l t l.next (l.serving + 1) .away

theorem step_take (ht : l.phase t = .away) :
    l.step (.take t) = l.moved t (l.next + 1) l.serving (.waiting l.next) :=
  if_pos ht

theorem step_look (ht : l.phase t = .waiting l.serving) :
    l.step (.look t) = l.moved t l.next l.serving .holding := by
  rw [step, ht]
  exact if_pos rfl

theorem step_release (ht : (l.phase t).hasGuard = true) :
    l.step (.release t) = l.moved t l.next (l.serving + 1) .away :=
  if_pos ht

theorem step_cases (l : TicketLock) (a : TicketAction) :
    l.step a = l ∨ ∃ n s p, l.step a = l.moved a.thread n s p ∧ Move l a.thread n s p := by
  cases a with
  | take t =>
      rw [step]
      split
      · exact .inr ⟨_, _, _, rfl, .take ‹_›⟩
      · exact .inl rfl
  | look t =>
      rw [step]
      split
      · rename_i ticket hphase
        split
        · rename_i hserved
          subst hserved
          exact .inr ⟨_, _, _, rfl, .grant hphase⟩
        · exact .inl rfl
      · exact .inl rfl
  | panic t =>
      rw [step]
      split
      · exact .inr ⟨_, _, _, rfl, .panic ‹_›⟩
      · exact .inl rfl
  | release t =>
      rw [step]
      split
      · exact .inr ⟨_, _, _, rfl, .release ‹_›⟩
      · exact .inl rfl

/-! ## The line -/

/-- The threads that hold the lock or wait for it, the first in line first. -/
structure Line (l : TicketLock) (queue : List ThreadId) : Prop where
  nodup : queue.Nodup
  mem_iff : ∀ t, t ∈ queue ↔ l.phase t ≠ .away
  next : l.next = l.serving + UInt32.ofNat queue.length
  /-- The place in line tells the ticket, and only the first in line may have the guard. -/
  ticket : ∀ i t, queue[i]? = some t →
    l.phase t = .waiting (l.serving + UInt32.ofNat i) ∨ i = 0 ∧ (l.phase t).hasGuard = true

theorem line_fresh : fresh.Line [] where
  nodup := List.nodup_nil
  mem_iff t := ⟨nofun, fun h => absurd rfl h⟩
  next := rfl
  ticket i t h := by simp at h

namespace Line

theorem length_eq (h : l.Line queue) : l.engaged.length = queue.length := by
  have hperm : l.engaged.Perm queue := by
    rw [List.perm_ext_iff_of_nodup l.nodup_engaged h.nodup]
    intro t
    rw [mem_engaged_iff, h.mem_iff]
  exact hperm.length_eq

/-- A thread with the guard is the first in line. -/
theorem first_of_hasGuard (h : l.Line queue) (ht : (l.phase t).hasGuard = true) :
    ∃ rest, queue = t :: rest := by
  have hmem : t ∈ queue := by
    rw [h.mem_iff]
    intro haway
    rw [haway] at ht
    cases ht
  obtain ⟨i, hi⟩ := List.mem_iff_getElem?.mp hmem
  obtain hwaits | ⟨rfl, -⟩ := h.ticket i t hi
  · rw [hwaits] at ht
    cases ht
  · exact List.head?_eq_some_iff.mp (List.head?_eq_getElem?.trans hi)

/-- A thread whose ticket is served is the first in line, as long as different places in line mean
different tickets. -/
theorem first_of_served (h : l.Line queue) (hfew : queue.length < 2 ^ 32)
    (ht : l.phase t = .waiting l.serving) : ∃ rest, queue = t :: rest := by
  have hmem : t ∈ queue := by
    rw [h.mem_iff, ht]
    nofun
  obtain ⟨i, hi⟩ := List.mem_iff_getElem?.mp hmem
  have hzero : i = 0 := by
    obtain hwaits | ⟨rfl, -⟩ := h.ticket i t hi
    · rw [ht, TicketPhase.waiting.injEq] at hwaits
      have hticket : UInt32.ofNat i = UInt32.ofNat 0 :=
        (UInt32.add_right_inj l.serving).mp (hwaits.symm.trans (UInt32.add_zero _).symm)
      have hlt : i < queue.length := (List.getElem?_eq_some_iff.mp hi).1
      have hnat := congrArg UInt32.toNat hticket
      rwa [UInt32.toNat_ofNat_of_lt' (Nat.lt_trans hlt hfew),
        UInt32.toNat_ofNat_of_lt' (by decide)] at hnat
    · rfl
  subst hzero
  exact List.head?_eq_some_iff.mp (List.head?_eq_getElem?.trans hi)

/-- The new thread joins the line at its end. -/
theorem take (h : l.Line queue) (ht : l.phase t = .away) :
    (l.moved t (l.next + 1) l.serving (.waiting l.next)).Line (queue ++ [t]) := by
  have hnew : t ∉ queue := by simp [h.mem_iff, ht]
  have hne : ∀ u ∈ queue, u ≠ t := fun u hu he => hnew (he ▸ hu)
  constructor
  · exact List.nodup_append.mpr ⟨h.nodup, List.nodup_singleton t, by simpa using hne⟩
  · intro u
    by_cases he : u = t
    · simp [he]
    · simpa [he] using h.mem_iff u
  · simp [h.next, UInt32.ofNat_add, UInt32.add_assoc]
  · intro i u hi
    by_cases hlt : i < queue.length
    · rw [List.getElem?_append_left hlt] at hi
      have hother : u ≠ t := hne u (List.mem_of_getElem? hi)
      simpa [hother] using h.ticket i u hi
    · obtain ⟨rfl, rfl⟩ : i = queue.length ∧ u = t := by
        rw [List.getElem?_append_right (by omega)] at hi
        have hlast := (List.getElem?_eq_some_iff.mp hi).1
        simp only [List.length_singleton] at hlast
        obtain rfl : i = queue.length := by omega
        simpa [eq_comm] using hi
      exact .inl (by simp [h.next])

/-- The first in line gets the guard, or starts to unwind with it, and stays in line. -/
theorem keep (h : l.Line (t :: queue)) (hp : p.hasGuard = true) :
    (l.moved t l.next l.serving p).Line (t :: queue) := by
  have hnew : t ∉ queue := (List.nodup_cons.mp h.nodup).1
  constructor
  · exact h.nodup
  · intro u
    by_cases he : u = t
    · subst he
      simp only [List.mem_cons_self, phase_moved, if_true, true_iff]
      rintro rfl
      cases hp
    · simpa [he] using h.mem_iff u
  · exact h.next
  · intro i u hi
    by_cases he : u = t
    · subst he
      refine .inr ⟨?_, by simpa using hp⟩
      cases i with
      | zero => rfl
      | succ i => exact absurd (List.mem_of_getElem? (List.getElem?_cons_succ.symm.trans hi)) hnew
    · simpa [he] using h.ticket i u hi

/-- The first in line leaves, and the next ticket is served. -/
theorem release (h : l.Line (t :: queue)) :
    (l.moved t l.next (l.serving + 1) .away).Line queue := by
  obtain ⟨hnew, hnodup⟩ := List.nodup_cons.mp h.nodup
  have hticket : ∀ n, l.serving + UInt32.ofNat (n + 1) = l.serving + 1 + UInt32.ofNat n := by
    intro n
    rw [UInt32.ofNat_add, UInt32.add_comm (UInt32.ofNat n), UInt32.add_assoc]
    rfl
  constructor
  · exact hnodup
  · intro u
    by_cases he : u = t
    · simp [he, hnew]
    · simpa [he] using h.mem_iff u
  · exact h.next.trans (hticket _)
  · intro i u hi
    have hother : u ≠ t := fun he => hnew (he ▸ List.mem_of_getElem? hi)
    obtain hwaits | ⟨hi, -⟩ := h.ticket (i + 1) u hi
    · rw [hticket] at hwaits
      exact .inl (by simpa [hother] using hwaits)
    · cases hi

end Line

/-! ## Runs -/

/-- Those in line that wait. -/
def waiters (l : TicketLock) (queue : List ThreadId) : List ThreadId :=
  queue.filter fun t => !(l.phase t).hasGuard

/-- A thread that is not in line makes no difference to those in line. -/
theorem waiters_moved (h : t ∉ queue) : (l.moved t n s p).waiters queue = l.waiters queue := by
  apply List.filter_congr
  intro u hu
  have hother : u ≠ t := fun he => h (he ▸ hu)
  simp [hother]

theorem waiters_concat (queue : List ThreadId) (t : ThreadId) (l : TicketLock) :
    l.waiters (queue ++ [t]) = l.waiters queue ++ if (l.phase t).hasGuard then [] else [t] := by
  cases h : (l.phase t).hasGuard <;> simp [waiters, h]

theorem waiters_cons (t : ThreadId) (queue : List ThreadId) (l : TicketLock) :
    l.waiters (t :: queue) =
      if (l.phase t).hasGuard then l.waiters queue else t :: l.waiters queue := by
  cases h : (l.phase t).hasGuard <;> simp [waiters, h]

/-- Every step leaves a line. Whoever takes a ticket comes to wait last, and whoever gets the guard
has waited first. -/
theorem Line.step (h : l.Line queue) (hfew : queue.length < 2 ^ 32) (a : TicketAction) :
    ∃ queue', (l.step a).Line queue' ∧
      l.waiters queue ++ l.entrant (fun p => p ≠ .away) a =
        l.entrant TicketPhase.hasGuard a ++ (l.step a).waiters queue' := by
  obtain he | ⟨n, s, p, he, hmove⟩ := l.step_cases a
  · exact ⟨queue, he.symm ▸ h, by simp [entrant, he]⟩
  · simp only [entrant, he, phase_moved, if_true]
    cases hmove with
    | take ht =>
        have hnew : a.thread ∉ queue := by simp [h.mem_iff, ht]
        exact ⟨_, h.take ht, by simp [waiters_concat, waiters_moved hnew, ht]⟩
    | grant ht =>
        obtain ⟨rest, rfl⟩ := h.first_of_served hfew ht
        have hnew := (List.nodup_cons.mp h.nodup).1
        exact ⟨_, h.keep rfl, by simp [waiters_cons, waiters_moved hnew, ht]⟩
    | panic ht =>
        obtain ⟨rest, rfl⟩ := h.first_of_hasGuard (by rw [ht]; rfl)
        have hnew := (List.nodup_cons.mp h.nodup).1
        exact ⟨_, h.keep rfl, by simp [waiters_cons, waiters_moved hnew, ht]⟩
    | release ht =>
        obtain ⟨rest, rfl⟩ := h.first_of_hasGuard ht
        have hnew := (List.nodup_cons.mp h.nodup).1
        exact ⟨_, h.release, by simp [waiters_cons, waiters_moved hnew, ht]⟩

/-- At every moment of a run the threads stand in line, and those that wait are those that took a
ticket and have not been served, in the order of their tickets. -/
theorem exists_line (actions : List TicketAction)
    (hfew : ∀ before, before <+: actions → (fresh.run before).engaged.length < 2 ^ 32) :
    ∃ queue, (fresh.run actions).Line queue ∧
      takers actions = served actions ++ (fresh.run actions).waiters queue := by
  induction actions using List.reverseRecOn with
  | nil => exact ⟨[], line_fresh, rfl⟩
  | append_singleton actions a ih =>
      obtain ⟨queue, hline, horder⟩ :=
        ih fun before hbefore => hfew before (hbefore.trans (List.prefix_append _ _))
      have hshort : queue.length < 2 ^ 32 :=
        hline.length_eq ▸ hfew actions (List.prefix_append _ _)
      obtain ⟨queue', hline', hstep⟩ := hline.step hshort a
      rw [run_append]
      refine ⟨queue', hline', ?_⟩
      calc
        takers (actions ++ [a]) =
            takers actions ++ (fresh.run actions).entrant (fun p => p ≠ .away) a :=
          entrants_concat ..
        _ = served actions ++ ((fresh.run actions).entrant TicketPhase.hasGuard a ++
              ((fresh.run actions).step a).waiters queue') := by
          rw [horder, List.append_assoc, hstep]
        _ = served (actions ++ [a]) ++ ((fresh.run actions).step a).waiters queue' := by
          rw [← List.append_assoc, served, served, entrants_concat]

/-- The lock is exclusive and fair, for every run of any threads, however often the counters wrap
around, as long as at every moment fewer threads hold it or wait for it than there are tickets.
There is one guard at most. The counters differ by the number of threads that hold the lock or wait
for it, modulo their size. The threads get the guard in the order in which they took their tickets:
those that wait are the rest of those that took one. And if nobody has the guard, be it that a
holder has unwound out of its section, the ticket of whoever has waited longest is served. -/
theorem exclusive_and_fair (actions : List TicketAction)
    (hfew : ∀ before, before <+: actions → (fresh.run before).engaged.length < 2 ^ 32) :
    let l := fresh.run actions
    (∀ t u, (l.phase t).hasGuard = true → (l.phase u).hasGuard = true → t = u) ∧
    (l.next - l.serving).toNat = l.engaged.length ∧
    ∃ queue, takers actions = served actions ++ queue ∧ queue.Nodup ∧
      (∀ t, t ∈ queue ↔ ∃ ticket, l.phase t = .waiting ticket) ∧
      ((∀ t, (l.phase t).hasGuard = false) →
        ∀ t, queue.head? = some t → l.phase t = .waiting l.serving) := by
  intro l
  obtain ⟨queue, hline, horder⟩ := exists_line actions hfew
  have hshort : queue.length < 2 ^ 32 := hline.length_eq ▸ hfew actions (List.prefix_refl _)
  refine ⟨fun t u ht hu => ?_, ?_, l.waiters queue, horder, hline.nodup.filter _,
    fun t => ?_, fun hnone t ht => ?_⟩
  · obtain ⟨rest, rfl⟩ := hline.first_of_hasGuard ht
    obtain ⟨rest', he⟩ := hline.first_of_hasGuard hu
    exact (List.cons.inj he).1
  · calc
      (l.next - l.serving).toNat = (UInt32.ofNat queue.length).toNat := by
        rw [hline.next, UInt32.add_comm, UInt32.add_sub_cancel]
      _ = queue.length := UInt32.toNat_ofNat_of_lt' hshort
      _ = l.engaged.length := hline.length_eq.symm
  · rw [waiters, List.mem_filter, hline.mem_iff, TicketPhase.exists_waiting_iff, Bool.not_eq_true']
  · have hall : l.waiters queue = queue := List.filter_eq_self.mpr fun u _ => by simp [hnone u]
    rw [hall, List.head?_eq_getElem?] at ht
    obtain hwaits | ⟨-, hguard⟩ := hline.ticket 0 t ht
    · simpa using hwaits
    · exact absurd (hguard.symm.trans (hnone t)) nofun

/-! ## Few threads -/

theorem phase_run_of_forall_ne {actions : List TicketAction} (h : ∀ a ∈ actions, a.thread ≠ t) :
    (l.run actions).phase t = l.phase t := by
  induction actions generalizing l with
  | nil => rfl
  | cons a actions ih =>
      have hother : t ≠ a.thread := (h a List.mem_cons_self).symm
      calc
        (l.run (a :: actions)).phase t = (l.step a).phase t :=
          ih fun b hb => h b (List.mem_cons_of_mem a hb)
        _ = l.phase t := by
          obtain he | ⟨n, s, p, he, -⟩ := l.step_cases a <;> simp [he, hother]

/-- Only threads that use the lock hold it or wait for it. -/
theorem length_engaged_le {actions : List TicketAction} {ts : List ThreadId}
    (h : ∀ a ∈ actions, a.thread ∈ ts) : (fresh.run actions).engaged.length ≤ ts.length := by
  apply List.Subperm.length_le
  apply List.subperm_of_subset (nodup_engaged _)
  intro t ht
  by_contra hstranger
  have hother : ∀ a ∈ actions, a.thread ≠ t := by
    intro a ha he
    exact hstranger (he ▸ h a ha)
  exact mem_engaged_iff.mp ht (phase_run_of_forall_ne hother)

/-- A lock that the first thread alone has used, this many times. -/
def used (n : Nat) : TicketLock := ⟨UInt32.ofNat n, UInt32.ofNat n, ⟨[(1, .away)]⟩⟩

/-- The first thread takes the lock and releases it. -/
def round : List TicketAction := [.take 1, .look 1, .release 1]

theorem run_rounds (n : Nat) : fresh.run (List.replicate (n + 1) round).flatten = used (n + 1) := by
  induction n with
  | zero => rfl
  | succ n ih =>
      rw [List.replicate_succ', List.flatten_concat, run_append, ih]
      change (((used (n + 1)).step (.take 1)).step (.look 1)).step (.release 1) = _
      rw [step_take rfl, step_look rfl, step_release rfl, used, used, UInt32.ofNat_add (n + 1) 1]
      rfl

/-- The second and the third thread ask for the lock. The second one gets it, unwinds out of its
section and releases it. -/
def unwound : List TicketAction := [.take 2, .take 3, .look 3, .look 2, .panic 2, .release 2]

/-- The counters wrap around while the third thread, with ticket 0, waits behind the second one,
with the last ticket. The second thread unwinds, and then ticket 0 is served. -/
theorem exclusive_and_fair_wrapping :
    let actions := (List.replicate 4294967295 round).flatten ++ unwound
    let l := fresh.run actions
    (∀ before, before <+: actions → (fresh.run before).engaged.length < 2 ^ 32) ∧
      (∀ t, (l.phase t).hasGuard = false) ∧ l.serving = 0 ∧ l.phase 3 = .waiting l.serving ∧
      (l.next - l.serving).toNat = l.engaged.length ∧ takers actions = served actions ++ [3] := by
  intro actions l
  have hthreads : ∀ a ∈ actions, a.thread ∈ ([1, 2, 3] : List ThreadId) := by
    have hused : ∀ a ∈ round ++ unwound, a.thread ∈ ([1, 2, 3] : List ThreadId) := by decide
    intro a ha
    apply hused
    simp only [actions, List.mem_append, List.mem_flatten, List.mem_replicate] at ha ⊢
    rcases ha with ⟨as, ⟨-, rfl⟩, ha⟩ | ha
    · exact .inl ha
    · exact .inr ha
  have hfew : ∀ before, before <+: actions → (fresh.run before).engaged.length < 2 ^ 32 := by
    intro before hbefore
    have hle := length_engaged_le fun a ha => hthreads a (hbefore.subset ha)
    exact Nat.lt_of_le_of_lt hle (by decide)
  have hrun : l = (used 4294967295).run unwound := by
    show fresh.run ((List.replicate (4294967294 + 1) round).flatten ++ unwound) = _
    rw [run_append, run_rounds]
  have hengaged : l.engaged = [3] := by rw [hrun]; decide
  have hguard : ∀ t, (l.phase t).hasGuard = false := by
    intro t
    by_cases ht : t ∈ l.engaged
    · rw [hengaged, List.mem_singleton] at ht
      rw [ht, hrun]
      decide
    · rw [mem_engaged_iff, not_not] at ht
      rw [ht]
      rfl
  obtain ⟨-, hcount, queue, horder, hnodup, hwaits, hfirst⟩ := exclusive_and_fair actions hfew
  have hline : queue = [3] := by
    apply List.perm_singleton.mp
    rw [List.perm_ext_iff_of_nodup hnodup (List.nodup_singleton 3)]
    intro t
    rw [hwaits, TicketPhase.exists_waiting_iff, ← hengaged, mem_engaged_iff]
    exact and_iff_left (hguard t)
  subst hline
  exact ⟨hfew, hguard, by rw [hrun]; decide, hfirst hguard 3 rfl, hcount, horder⟩

end TicketLock

end Baton
