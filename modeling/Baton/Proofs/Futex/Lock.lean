import Baton.Futex.Lock
import Mathlib.Tactic.ByContra

/-!
# Futex lock: exclusion, and no sleeper is stranded

Every atomic operation of a thread is one of a few moves, which say what becomes of the word and of
the thread; besides, a release may make the kernel wake a sleeper. Each of them keeps that the word
tells whether the mutex is held, that one thread holds it at most, and that sleepers are provided
for: while somebody sleeps the word is marked, or a thread is about to wake a sleeper, or a thread
is about to mark the word. A run is a sequence of such steps.
-/

namespace Baton

/-- Whether the other threads count on what a thread does next. -/
def LockPhase.isBound : LockPhase → Bool
  | holding | contending | waking => true
  | _ => false

namespace FutexLock

variable {m : FutexLock} {t u : ThreadId} {p : LockPhase} {w : UInt32}

@[simp] theorem phase_setPhase (m : FutexLock) (t u : ThreadId) (p : LockPhase) :
    (m.setPhase t p).phase u = if u = t then p else m.phase u :=
  Store.get_set ..

@[simp] theorem word_setPhase (m : FutexLock) (t : ThreadId) (p : LockPhase) :
    (m.setPhase t p).word = m.word := rfl

theorem held_ne_free : held ≠ free := by decide

theorem contended_ne_free : contended ≠ free := by decide

/-- A thread without an entry is away. -/
theorem mem_keys_of_phase (h : m.phase t ≠ .away) : t ∈ m.phases.keys :=
  Store.mem_keys_of_get_ne_default h

theorem mem_sleepers_iff : t ∈ m.sleepers ↔ m.phase t = .asleep := by
  simp only [sleepers, List.mem_filter, decide_eq_true_eq, and_iff_right_iff_imp]
  intro h
  exact mem_keys_of_phase (by simp [h])

/-! ## Moves -/

/-- What an atomic operation of a thread does to the word and to the thread. -/
inductive Move (m : FutexLock) (t : ThreadId) : UInt32 → LockPhase → Prop where
  /-- Takes the free mutex on the fast path. -/
  | seize : m.phase t = .away ∨ (∃ left, m.phase t = .seizing left) → m.word = free →
      Move m t held .holding
  /-- Marks the word, and thereby takes the mutex if it was free. -/
  | mark : m.phase t = .contending →
      Move m t contended (if m.word = free then .holding else .entering)
  | release : m.phase t = .holding →
      Move m t free (if m.word = contended then .waking else .away)
  | doze : m.phase t = .entering → m.word = contended → Move m t m.word .asleep
  /-- Goes on in a way that neither takes nor gives anything. -/
  | wander {p : LockPhase} : (m.phase t).isBound = false → p ≠ .holding → p ≠ .asleep →
      Move m t m.word p

/-- The state after a move. -/
def moved (m : FutexLock) (t : ThreadId) (w : UInt32) (p : LockPhase) : FutexLock :=
  { m with word := w }.setPhase t p

@[simp] theorem phase_moved (m : FutexLock) (t u : ThreadId) (w : UInt32) (p : LockPhase) :
    (m.moved t w p).phase u = if u = t then p else m.phase u :=
  phase_setPhase ..

@[simp] theorem word_moved (m : FutexLock) (t : ThreadId) (w : UInt32) (p : LockPhase) :
    (m.moved t w p).word = w := rfl

/-- An exchange takes the mutex or finds it taken. -/
theorem exchange_move {otherwise : LockPhase}
    (h : m.phase t = .away ∨ ∃ left, m.phase t = .seizing left) (hp : otherwise ≠ .holding)
    (hp' : otherwise ≠ .asleep) :
    ∃ w p, m.exchange t otherwise = m.moved t w p ∧ Move m t w p := by
  unfold exchange
  split
  · exact ⟨held, .holding, rfl, .seize h ‹_›⟩
  · refine ⟨m.word, otherwise, rfl, .wander ?_ hp hp'⟩
    rcases h with h | ⟨left, h⟩ <;> exact congrArg LockPhase.isBound h

/-- The kernel wakes a sleeper if there is one. -/
theorem wakeOne_cases (choice : Nat) (m : FutexLock) :
    (m.wakeOne choice = m ∧ ∀ u, m.phase u ≠ .asleep) ∨
      ∃ u, m.phase u = .asleep ∧ m.wakeOne choice = m.setPhase u .contending := by
  unfold wakeOne
  split
  · rename_i u hu
    exact .inr ⟨u, mem_sleepers_iff.mp (List.mem_of_getElem? hu), rfl⟩
  · rename_i hnone
    refine .inl ⟨rfl, fun u hu => ?_⟩
    have hpos : 0 < m.sleepers.length := List.length_pos_of_mem (mem_sleepers_iff.mpr hu)
    have hlt := Nat.mod_lt choice hpos
    rw [List.getElem?_eq_none_iff] at hnone
    omega

/-- To go on is a move, unless the thread is about to wake a sleeper, or has nothing to go on
with. -/
theorem advance_cases (t : ThreadId) (lucky : Bool) (choice : Nat) (m : FutexLock) :
    m.advance t lucky choice = m ∨
      (∃ w p, m.advance t lucky choice = m.moved t w p ∧ Move m t w p) ∨
      (m.phase t = .waking ∧ m.advance t lucky choice = (m.setPhase t .away).wakeOne choice) := by
  unfold advance
  split
  · rename_i h
    exact .inr (.inl ⟨m.word, _, rfl, .wander (congrArg LockPhase.isBound h) nofun nofun⟩)
  · rename_i left h
    refine .inr (.inl ⟨m.word, _, rfl, .wander (congrArg LockPhase.isBound h) ?_ ?_⟩) <;>
      split <;> simp
  · rename_i left h
    split
    · exact .inr (.inl (exchange_move (.inr ⟨left, h⟩) nofun nofun))
    · exact .inr (.inl ⟨m.word, _, rfl, .wander (congrArg LockPhase.isBound h) nofun nofun⟩)
  · exact .inr (.inl ⟨contended, _, rfl, .mark ‹_›⟩)
  · rename_i h
    refine .inr (.inl ⟨m.word, _, rfl, ?_⟩)
    split
    · exact .doze h ‹_›
    · exact .wander (congrArg LockPhase.isBound h) nofun nofun
  · exact .inr (.inr ⟨‹_›, rfl⟩)
  · exact .inl rfl

/-- What a step can do. -/
theorem step_cases (m : FutexLock) (a : LockAction) :
    m.step a = m ∨ (∃ t w p, m.step a = m.moved t w p ∧ Move m t w p) ∨
      ∃ t choice, m.phase t = .waking ∧ m.step a = (m.setPhase t .away).wakeOne choice := by
  cases a with
  | lock t =>
      rw [step]
      split
      · exact .inr (.inl ⟨t, exchange_move (.inl ‹_›) nofun nofun⟩)
      · exact .inl rfl
  | tryLock t =>
      rw [step]
      split
      · exact .inr (.inl ⟨t, exchange_move (.inl ‹_›) nofun nofun⟩)
      · exact .inl rfl
  | unlock t =>
      rw [step]
      split
      · exact .inr (.inl ⟨t, free, _, rfl, .release ‹_›⟩)
      · exact .inl rfl
  | advance t lucky choice =>
      rcases advance_cases t lucky choice m with h | h | h
      · exact .inl h
      · exact .inr (.inl ⟨t, h⟩)
      · exact .inr (.inr ⟨t, choice, h⟩)
  | disturb t =>
      rw [step]
      split
      · rename_i h
        exact .inr (.inl ⟨t, m.word, _, rfl, .wander (congrArg LockPhase.isBound h) nofun nofun⟩)
      · exact .inl rfl

/-! ## The invariant -/

/-- What holds of the mutex at every moment. -/
structure Sound (m : FutexLock) : Prop where
  one : ∀ t u, m.phase t = .holding → m.phase u = .holding → t = u
  /-- The word tells whether the mutex is held. -/
  taken : m.word = free ↔ ∀ t, m.phase t ≠ .holding
  /-- Sleepers are provided for. -/
  served : ∀ t, m.phase t = .asleep →
    m.word = contended ∨ ∃ u, m.phase u = .waking ∨ m.phase u = .contending

theorem sound_fresh (spins : Nat) : (fresh spins).Sound where
  one _ _ ht := by cases ht
  taken := ⟨fun _ _ => nofun, fun _ => rfl⟩
  served _ ht := by cases ht

namespace Sound

/-- A thread on which nobody counts is none of those on whom somebody may. -/
theorem ne_of_not_isBound (h : (m.phase t).isBound = false) :
    m.phase t ≠ .holding ∧ m.phase t ≠ .waking ∧ m.phase t ≠ .contending := by
  refine ⟨?_, ?_, ?_⟩ <;> intro ht <;> rw [ht] at h <;> cases h

/-- A thread that takes the free mutex is the only holder. -/
theorem one_of_take (h : m.Sound) (hw : m.word = free) (t : ThreadId) (w : UInt32) :
    ∀ u v, (m.moved t w .holding).phase u = .holding →
      (m.moved t w .holding).phase v = .holding → u = v := by
  have honly : ∀ u, (m.moved t w .holding).phase u = .holding → u = t := by
    intro u hu
    by_contra hne
    rw [phase_moved, if_neg hne] at hu
    exact h.taken.mp hw u hu
  exact fun u v hu hv => (honly u hu).trans (honly v hv).symm

/-- A thread that does not become a holder, and was none, makes no difference to the others. -/
theorem holders_of_ne (ht : m.phase t ≠ .holding) (hp : p ≠ .holding) (w : UInt32)
    (u : ThreadId) : (m.moved t w p).phase u = .holding ↔ m.phase u = .holding := by
  rw [phase_moved]
  split
  · rename_i he
    subst he
    exact ⟨fun h => absurd h hp, fun h => absurd h ht⟩
  · exact Iff.rfl

/-- Sleepers stay provided for by whoever is about to act, if that is not the thread that moves. -/
theorem served_of_other (h : m.Sound) (hw : m.word ≠ contended) (ht : m.phase t ≠ .waking)
    (ht' : m.phase t ≠ .contending) {s : ThreadId} (hs : m.phase s = .asleep) :
    ∃ u, (m.moved t w p).phase u = .waking ∨ (m.moved t w p).phase u = .contending := by
  obtain ⟨u, hu⟩ := (h.served s hs).resolve_left hw
  have hne : u ≠ t := by
    rintro rfl
    exact hu.elim ht ht'
  exact ⟨u, by rwa [phase_moved, if_neg hne]⟩

/-- Whoever sleeps after a move slept before it, unless the move was to fall asleep. -/
theorem asleep_of_moved {s : ThreadId} (hp : p ≠ .asleep) (hs : (m.moved t w p).phase s = .asleep) :
    m.phase s = .asleep := by
  rw [phase_moved] at hs
  split at hs
  · exact absurd hs hp
  · exact hs

theorem move (h : m.Sound) (hmove : Move m t w p) : (m.moved t w p).Sound := by
  cases hmove with
  | seize ht hw =>
      have hne : m.phase t ≠ .waking ∧ m.phase t ≠ .contending := by
        rcases ht with ht | ⟨left, ht⟩ <;> simp [ht]
      refine ⟨h.one_of_take hw t held, ⟨fun hheld => absurd hheld held_ne_free, fun hnone => ?_⟩,
        fun s hs => .inr ?_⟩
      · exact absurd (by simp) (hnone t)
      · exact h.served_of_other (by rw [hw]; decide) hne.1 hne.2 (asleep_of_moved (by simp) hs)
  | mark ht =>
      refine ⟨?_, ⟨fun hmarked => absurd hmarked contended_ne_free, fun hnone => ?_⟩,
        fun _ _ => .inl rfl⟩
      · split
        · exact h.one_of_take ‹_› t contended
        · intro u v hu hv
          rw [holders_of_ne (by simp [ht]) (by simp)] at hu hv
          exact h.one u v hu hv
      · -- The word was free, and the thread holds the mutex, or somebody else holds it still.
        by_cases hw : m.word = free
        · exact absurd (by simp [hw]) (hnone t)
        · refine absurd (h.taken.mpr fun u hu => hnone u ?_) hw
          rw [if_neg hw, holders_of_ne (by simp [ht]) (by simp)]
          exact hu
  | release ht =>
      have hnone : ∀ u, (m.moved t free (if m.word = contended then .waking else .away)).phase u ≠
          .holding := by
        intro u hu
        rw [phase_moved] at hu
        split at hu
        · split at hu <;> cases hu
        · exact absurd (h.one u t hu ht) ‹_›
      refine ⟨fun u _ hu => absurd hu (hnone u), ⟨fun _ => hnone, fun _ => rfl⟩,
        fun s hs => .inr ?_⟩
      by_cases hw : m.word = contended
      · exact ⟨t, .inl (by simp [hw])⟩
      · refine h.served_of_other hw (by simp [ht]) (by simp [ht]) (s := s) (asleep_of_moved ?_ hs)
        split <;> simp
  | doze ht hw =>
      have hholders :=
        holders_of_ne (m := m) (t := t) (p := .asleep) (by simp [ht]) (by simp) m.word
      refine ⟨fun u v hu hv => h.one u v ((hholders u).mp hu) ((hholders v).mp hv), ?_,
        fun _ _ => .inl hw⟩
      simpa only [hholders, ne_eq, word_moved] using h.taken
  | wander ht hp hp' =>
      obtain ⟨hholding, hwaking, hcontending⟩ := ne_of_not_isBound ht
      have hholders := holders_of_ne hholding hp m.word
      refine ⟨fun u v hu hv => h.one u v ((hholders u).mp hu) ((hholders v).mp hv), ?_,
        fun s hs => ?_⟩
      · simpa only [hholders, ne_eq, word_moved] using h.taken
      · by_cases hw : m.word = contended
        · exact .inl hw
        · exact .inr (h.served_of_other hw hwaking hcontending (asleep_of_moved hp' hs))

/-- A sleeper that is woken is about to mark the word. If there is none, nobody needs the mark. -/
theorem wake (h : m.Sound) (ht : m.phase t = .waking) (choice : Nat) :
    ((m.setPhase t .away).wakeOne choice).Sound := by
  have hholders : ∀ u, (m.setPhase t .away).phase u = .holding ↔ m.phase u = .holding :=
    holders_of_ne (m := m) (w := m.word) (by simp [ht]) (by simp)
  rcases wakeOne_cases choice (m.setPhase t .away) with ⟨he, hnobody⟩ | ⟨u, hu, he⟩ <;> rw [he]
  · refine ⟨fun u v hu hv => h.one u v ((hholders u).mp hu) ((hholders v).mp hv), ?_,
      fun s hs => absurd hs (hnobody s)⟩
    simpa only [hholders, ne_eq, word_setPhase] using h.taken
  · have hwoken : ∀ v, ((m.setPhase t .away).setPhase u .contending).phase v = .holding ↔
        m.phase v = .holding := fun v =>
      (holders_of_ne (m := m.setPhase t .away) (w := m.word) (by simp [hu]) (by simp) v).trans
        (hholders v)
    refine ⟨fun v v' hv hv' => h.one v v' ((hwoken v).mp hv) ((hwoken v').mp hv'), ?_,
      fun s _ => .inr ⟨u, .inr (by simp)⟩⟩
    simpa only [hwoken, ne_eq, word_setPhase] using h.taken

theorem step (h : m.Sound) (a : LockAction) : (m.step a).Sound := by
  rcases m.step_cases a with he | ⟨t, w, p, he, hmove⟩ | ⟨t, choice, ht, he⟩ <;> rw [he]
  · exact h
  · exact h.move hmove
  · exact h.wake ht choice

theorem run (h : m.Sound) (actions : List LockAction) : (m.run actions).Sound := by
  induction actions generalizing m with
  | nil => exact h
  | cons a actions ih => exact ih (h.step a)

end Sound

/-! ## What whoever is about to act does -/

/-- A thread that is about to wake a sleeper wakes one, if anybody sleeps. -/
theorem exists_woken (ht : m.phase t = .waking) (hu : m.phase u = .asleep) (lucky : Bool)
    (choice : Nat) :
    ∃ s, m.phase s = .asleep ∧ (m.step (.advance t lucky choice)).phase s = .contending := by
  have hstep : m.step (.advance t lucky choice) = (m.setPhase t .away).wakeOne choice := by
    show m.advance t lucky choice = _
    rw [advance, ht]
  have hne : ∀ s, (m.setPhase t .away).phase s = .asleep → m.phase s = .asleep := by
    intro s hs
    rw [phase_setPhase] at hs
    split at hs
    · cases hs
    · exact hs
  rw [hstep]
  rcases wakeOne_cases choice (m.setPhase t .away) with ⟨-, hnobody⟩ | ⟨s, hs, he⟩
  · refine absurd ?_ (hnobody u)
    rw [phase_setPhase, if_neg, hu]
    rintro rfl
    rw [hu] at ht
    cases ht
  · exact ⟨s, hne s hs, by rw [he]; simp⟩

/-- A thread that is about to mark the word marks it, and takes the mutex if that is free. -/
theorem step_contending (ht : m.phase t = .contending) (lucky : Bool) (choice : Nat) :
    (m.step (.advance t lucky choice)).word = contended ∧
      (m.word = free → (m.step (.advance t lucky choice)).phase t = .holding) := by
  have hstep : m.step (.advance t lucky choice) =
      m.moved t contended (if m.word = free then .holding else .entering) := by
    show m.advance t lucky choice = _
    rw [advance, ht]
    rfl
  rw [hstep]
  exact ⟨rfl, fun hw => by simp [hw]⟩

/-- The mutex is exclusive and strands no sleeper, for every number of spins and every interleaving
of the atomic operations of any threads. One thread holds it at most, and the word is that of a free
mutex exactly if none does. While a thread sleeps the word is marked, or a thread has released the
mutex and is about to wake a sleeper, or another thread is in its loop and about to mark the word.
So a free mutex with a sleeper has somebody about to act; and such a thread does act: it wakes a
sleeper, or marks the word and takes the mutex if that is free. -/
theorem exclusive_and_served (spins : Nat) (actions : List LockAction) :
    let m := (fresh spins).run actions
    (∀ t u, m.phase t = .holding → m.phase u = .holding → t = u) ∧
    (m.word = free ↔ ∀ t, m.phase t ≠ .holding) ∧
    (∀ s, m.phase s = .asleep → m.word = contended ∨ (∃ t, m.phase t = .waking) ∨
      ∃ t, t ≠ s ∧ m.phase t = .contending) ∧
    (∀ s, m.phase s = .asleep → m.word = free →
      ∃ t, m.phase t = .waking ∨ m.phase t = .contending) ∧
    ∀ t lucky choice,
      (m.phase t = .waking → ∀ s, m.phase s = .asleep →
        ∃ u, m.phase u = .asleep ∧ (m.step (.advance t lucky choice)).phase u = .contending) ∧
      (m.phase t = .contending → (m.step (.advance t lucky choice)).word = contended ∧
        (m.word = free → (m.step (.advance t lucky choice)).phase t = .holding)) := by
  intro m
  have h : m.Sound := (sound_fresh spins).run actions
  refine ⟨h.one, h.taken, fun s hs => ?_, fun s hs hw => ?_, fun t lucky choice =>
    ⟨fun ht s hs => exists_woken ht hs lucky choice, fun ht => step_contending ht lucky choice⟩⟩
  · rcases h.served s hs with hw | ⟨t, ht | ht⟩
    · exact .inl hw
    · exact .inr (.inl ⟨t, ht⟩)
    · refine .inr (.inr ⟨t, ?_, ht⟩)
      rintro rfl
      rw [hs] at ht
      cases ht
  · exact (h.served s hs).resolve_left fun hmarked => contended_ne_free (hmarked.symm.trans hw)

/-- The second and the third thread fall asleep. The first one releases the mutex, and before it
wakes a sleeper a fourth thread takes the mutex on the fast path. -/
def barging : List LockAction :=
  [.lock 1, .lock 2, .advance 2 true 0, .advance 2 true 0, .advance 2 true 0, .lock 3,
    .advance 3 true 0, .advance 3 true 0, .advance 3 true 0, .unlock 1, .lock 4, .advance 1 true 0]

/-- After the release the mutex is free and two threads sleep, so somebody is about to act. At the
end the fourth thread holds the mutex with an unmarked word, and another thread is about to mark it
for the one that still sleeps. -/
theorem exclusive_and_served_barging :
    let m := (fresh 0).run (barging.take 10)
    let n := (fresh 0).run barging
    m.word = free ∧ m.phase 2 = .asleep ∧ m.phase 3 = .asleep ∧
      (∃ t, m.phase t = .waking ∨ m.phase t = .contending) ∧
      n.word = held ∧ n.phase 4 = .holding ∧ n.phase 2 = .asleep ∧
      ∃ t, t ≠ 2 ∧ n.phase t = .contending := by
  intro m n
  obtain ⟨-, -, -, hfree, -⟩ := exclusive_and_served 0 (barging.take 10)
  obtain ⟨-, -, hserved, -, -⟩ := exclusive_and_served 0 barging
  have hword : n.word = held := by decide
  have hkeys : ∀ t ∈ n.phases.keys, n.phase t ≠ .waking := by decide
  refine ⟨by decide, by decide, by decide, hfree 2 (by decide) (by decide), hword, by decide,
    by decide, ?_⟩
  rcases hserved 2 (by decide) with hw | ⟨t, ht⟩ | ht
  · exact absurd (hword.symm.trans hw) (by decide)
  · have hwaking : n.phase t = .waking := ht
    exact absurd hwaking (hkeys t (mem_keys_of_phase (by simp [hwaking])))
  · exact ht

end FutexLock

end Baton
