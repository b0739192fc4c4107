import Baton.Futex.Parker
import Mathlib.Data.List.Induction

/-!
# Parkers: one token, neither lost nor doubled

A token is pending if somebody has unparked and no parking has taken a token since. The word says
exactly that. A step other than an unpark leaves the sum of the word and of the tokens taken as it
is: it takes the token, or it finds none, or it does not look. So parkings that have a token to take
take it, wherever it was put there, and one token is taken once.

While the parking thread sleeps, a token can only have been put there by a thread that found none
and is about to wake the sleeper.
-/

namespace Baton

namespace Parker

variable {p p' : Parker} {a : ParkAction}

/-- How many parkings have taken a token. -/
def taken (p : Parker) : Nat := p.answers.count true

/-- Somebody has unparked, and no parking has taken a token since. -/
def Pending (actions : List ParkAction) : Prop :=
  ∃ earlier later, actions = earlier ++ .unpark :: later ∧
    (fresh.run earlier).taken = (fresh.run actions).taken

theorem run_append (p : Parker) (before after : List ParkAction) :
    p.run (before ++ after) = (p.run before).run after :=
  List.foldl_append

/-! ## Steps -/

/-- What a step other than an unpark does to the word and to the answers. -/
inductive Change (p p' : Parker) : Prop where
  | stay : p'.word = p.word → p'.answers = p.answers → Change p p'
  /-- A parking takes the token and returns. -/
  | take : p.word = 1 → p'.word = 0 → p'.answers = true :: p.answers → Change p p'
  /-- A parking finds no token, and returns if its time was over. -/
  | miss : p.word ≠ 1 → p'.word = 0 →
      p'.answers = p.answers ∨ p'.answers = false :: p.answers → Change p p'
  /-- A parking returns without another look. -/
  | giveUp : p'.word = p.word → p'.answers = false :: p.answers → Change p p'

theorem change_start (timeout : Option Span) (now : Instant) (p : Parker) :
    Change p (p.start timeout now) := by
  unfold start
  split
  · exact .stay rfl rfl
  · split <;> exact .stay rfl rfl

theorem change_advance (p : Parker) (now : Instant) : Change p (p.advance now) := by
  unfold advance
  split
  · split
    · exact .take ‹_› rfl rfl
    · exact .miss ‹_› rfl (.inl rfl)
  · split
    · exact .giveUp rfl rfl
    · exact .stay rfl rfl
  · exact .stay rfl rfl
  · by_cases hword : p.word = 1
    · exact .take hword rfl (by simp [finish, hword])
    · exact .miss hword rfl (.inr (by simp [finish, hword]))
  · exact .stay rfl rfl

@[simp] theorem word_rouse (p : Parker) : p.rouse.word = p.word := by
  unfold rouse
  split <;> rfl

@[simp] theorem answers_rouse (p : Parker) : p.rouse.answers = p.answers := by
  unfold rouse
  split <;> rfl

theorem rouse_ne_asleep (p : Parker) (deadline : Option Instant) :
    p.rouse.phase ≠ .asleep deadline := by
  unfold rouse
  split
  · nofun
  · rename_i hawake
    exact hawake deadline

/-- A sleeper whose time is over is awake, and anybody else stays where it is. -/
theorem expire_eq_or_lastTake (p : Parker) :
    p.expire = p ∨ p.expire = { p with phase := .lastTake } := by
  unfold expire
  split
  · exact .inr rfl
  · exact .inl rfl

theorem change_step (p : Parker) (ha : a ≠ .unpark) : Change p (p.step a) := by
  cases a with
  | park timeout now =>
      rw [step]
      split
      · exact change_start timeout now p
      · exact .stay rfl rfl
  | advance now => exact change_advance p now
  | disturb => exact .stay (word_rouse p) (answers_rouse p)
  | expire =>
      rw [step]
      obtain h | h := expire_eq_or_lastTake p <;> rw [h] <;> exact .stay rfl rfl
  | unpark => exact absurd rfl ha
  | wake =>
      rw [step]
      split
      · exact .stay rfl rfl
      · exact .stay (word_rouse p) (answers_rouse p)

theorem Change.taken_le (h : Change p p') : p.taken ≤ p'.taken := by
  cases h with
  | stay _ hanswers => simp [taken, hanswers]
  | take _ _ hanswers => simp [taken, hanswers]
  | miss _ _ hanswers => rcases hanswers with h | h <;> simp [taken, h]
  | giveUp _ hanswers => simp [taken, hanswers]

/-- Nothing but an unpark makes a token, and nothing but a parking that returns it takes one. -/
theorem Change.balance (h : Change p p') (hword : p.word = 0 ∨ p.word = 1) :
    p'.word.toNat + p'.taken = p.word.toNat + p.taken := by
  cases h with
  | stay hword' hanswers => simp [taken, hword', hanswers]
  | take htoken hword' hanswers => simp [taken, htoken, hword', hanswers, Nat.add_comm]
  | miss hnone hword' hanswers =>
      have hzero : p.word = 0 := hword.resolve_right hnone
      rcases hanswers with h | h <;> simp [taken, hzero, hword', h]
  | giveUp hword' hanswers => simp [taken, hword', hanswers]

theorem Change.suffix (h : Change p p') : p.answers <:+ p'.answers := by
  cases h with
  | stay _ hanswers => simp [hanswers]
  | take _ _ hanswers => simp [hanswers]
  | miss _ _ hanswers => rcases hanswers with h | h <;> simp [h]
  | giveUp _ hanswers => simp [hanswers]

theorem answers_suffix_step (p : Parker) (a : ParkAction) : p.answers <:+ (p.step a).answers := by
  by_cases ha : a = .unpark
  · subst ha
    exact List.suffix_refl _
  · exact (change_step p ha).suffix

/-- A parking that has returned keeps its answer. -/
theorem answers_suffix_run (p : Parker) (actions : List ParkAction) :
    p.answers <:+ (p.run actions).answers := by
  induction actions generalizing p with
  | nil => exact List.suffix_refl _
  | cons a actions ih => exact (answers_suffix_step p a).trans (ih (p.step a))

theorem taken_le_run (p : Parker) (actions : List ParkAction) : p.taken ≤ (p.run actions).taken :=
  (answers_suffix_run p actions).sublist.count_le true

/-! ## The invariant -/

/-- What holds of a parker at every moment. -/
structure Sound (p : Parker) : Prop where
  binary : p.word = 0 ∨ p.word = 1
  /-- Whoever puts a token there for a sleeper is about to wake it. -/
  woken : ∀ deadline, p.phase = .asleep deadline → p.word = 0 ∨ 0 < p.wakers

theorem sound_fresh : fresh.Sound where
  binary := .inl rfl
  woken _ h := by cases h

theorem Change.binary (h : Change p p') (hword : p.word = 0 ∨ p.word = 1) :
    p'.word = 0 ∨ p'.word = 1 := by
  cases h with
  | stay hword' _ => rwa [hword']
  | take _ hword' _ => exact .inl hword'
  | miss _ hword' _ => exact .inl hword'
  | giveUp hword' _ => rwa [hword']

/-- Whoever starts to park is not asleep yet. -/
theorem start_ne_asleep {timeout : Option Span} {now : Instant} {deadline : Option Instant}
    (h : p.phase = .away) : (p.start timeout now).phase ≠ .asleep deadline := by
  unfold start
  split
  · nofun
  · split
    · nofun
    · rw [h]
      nofun

/-- The parking thread falls asleep only if it finds no token. -/
theorem word_of_advance_asleep {now : Instant} {deadline : Option Instant}
    (h : (p.advance now).phase = .asleep deadline) :
    (p.advance now).word = 0 ∨ p.advance now = p := by
  unfold advance at h ⊢
  split at h
  · split at h <;> cases h
  · split at h <;> cases h
  · by_cases hword : p.word = 0
    · exact .inl hword
    · simp [hword] at h
  · cases h
  · exact .inr rfl

namespace Sound

theorem step (h : p.Sound) (a : ParkAction) : (p.step a).Sound := by
  constructor
  · by_cases ha : a = .unpark
    · subst ha
      exact .inr rfl
    · exact (change_step p ha).binary h.binary
  · intro deadline hasleep
    cases a with
    | park timeout now =>
        rw [Parker.step] at hasleep ⊢
        split at hasleep
        · exact absurd hasleep (start_ne_asleep ‹_›)
        · rw [if_neg ‹_›]
          exact h.woken deadline hasleep
    | advance now =>
        obtain hword | hsame := word_of_advance_asleep hasleep
        · exact .inl hword
        · change (p.advance now).phase = _ at hasleep
          change (p.advance now).word = 0 ∨ 0 < (p.advance now).wakers
          rw [hsame] at hasleep ⊢
          exact h.woken deadline hasleep
    | disturb => exact absurd hasleep (rouse_ne_asleep p deadline)
    | expire =>
        rw [Parker.step] at hasleep ⊢
        obtain hsame | hlast := expire_eq_or_lastTake p
        · rw [hsame] at hasleep ⊢
          exact h.woken deadline hasleep
        · rw [hlast] at hasleep
          cases hasleep
    | unpark =>
        refine .inr ?_
        rw [Parker.step]
        by_cases hword : p.word = 0
        · simp [hword]
        · simpa [hword] using (h.woken deadline hasleep).resolve_left hword
    | wake =>
        rw [Parker.step] at hasleep ⊢
        split at hasleep
        · rw [if_pos ‹_›]
          exact h.woken deadline hasleep
        · exact absurd hasleep (rouse_ne_asleep p deadline)

theorem run (h : p.Sound) (actions : List ParkAction) : (p.run actions).Sound := by
  induction actions generalizing p with
  | nil => exact h
  | cons a actions ih => exact ih (h.step a)

/-- Without an unpark no token comes and none gets lost. -/
theorem balance_run (h : p.Sound) {actions : List ParkAction} (hnone : .unpark ∉ actions) :
    (p.run actions).word.toNat + (p.run actions).taken = p.word.toNat + p.taken := by
  induction actions generalizing p with
  | nil => rfl
  | cons a actions ih =>
      rw [List.mem_cons, not_or] at hnone
      calc
        (p.run (a :: actions)).word.toNat + (p.run (a :: actions)).taken =
            (p.step a).word.toNat + (p.step a).taken := ih (h.step a) hnone.2
        _ = p.word.toNat + p.taken := (change_step p (Ne.symm hnone.1)).balance h.binary

theorem word_toNat_le (h : p.Sound) : p.word.toNat ≤ 1 := by
  obtain hword | hword := h.binary <;> simp [hword]

end Sound

/-! ## Pending tokens -/

theorem taken_step_unpark (p : Parker) : (p.step .unpark).taken = p.taken := rfl

theorem pending_unpark (actions : List ParkAction) : Pending (actions ++ [.unpark]) :=
  ⟨actions, [], rfl, by rw [run_append]; rfl⟩

/-- A step other than an unpark leaves a pending token, unless it takes it. -/
theorem pending_concat (actions : List ParkAction) (ha : a ≠ .unpark) :
    Pending (actions ++ [a]) ↔
      Pending actions ∧ (fresh.run (actions ++ [a])).taken = (fresh.run actions).taken := by
  constructor
  · rintro ⟨earlier, later, hsplit, htaken⟩
    obtain rfl | ⟨later, b, rfl⟩ := later.eq_nil_or_concat
    · obtain ⟨-, he⟩ := List.append_inj' hsplit rfl
      exact absurd (List.singleton_inj.mp he) ha
    · rw [List.concat_eq_append, ← List.cons_append, ← List.append_assoc] at hsplit
      obtain ⟨rfl, he⟩ := List.append_inj' hsplit rfl
      obtain rfl := List.singleton_inj.mp he
      have hbefore := taken_le_run (fresh.run earlier) (.unpark :: later)
      have hafter := taken_le_run (fresh.run (earlier ++ .unpark :: later)) [a]
      rw [← run_append] at hbefore hafter
      exact ⟨⟨earlier, later, rfl, by omega⟩, by omega⟩
  · rintro ⟨⟨earlier, later, rfl, htaken⟩, hsame⟩
    exact ⟨earlier, later ++ [a], by simp, htaken.trans hsame.symm⟩

/-- The word says whether a token is pending. -/
theorem word_eq_one_iff (actions : List ParkAction) :
    (fresh.run actions).word = 1 ↔ Pending actions := by
  induction actions using List.reverseRecOn with
  | nil =>
      constructor
      · intro h
        cases h
      · rintro ⟨earlier, later, hsplit, -⟩
        simp at hsplit
  | append_singleton actions a ih =>
      have hsound := sound_fresh.run actions
      by_cases ha : a = .unpark
      · subst ha
        rw [run_append]
        exact iff_of_true rfl (pending_unpark actions)
      · rw [pending_concat actions ha, ← ih]
        have hbalance := (change_step (fresh.run actions) ha).balance hsound.binary
        have hle := (change_step (fresh.run actions) ha).taken_le
        have hbinary := (hsound.step a).binary
        have hold := hsound.word_toNat_le
        have hnew := (hsound.step a).word_toNat_le
        rw [run_append]
        change ((fresh.run actions).step a).word = 1 ↔ _ ∧ ((fresh.run actions).step a).taken = _
        rw [← UInt32.toNat_inj, ← UInt32.toNat_inj, UInt32.toNat_one]
        omega

/-! ## Parkings -/

/-- The deadline of a parking can be formed, if it has one. -/
def CanPark (timeout : Option Span) (now : Instant) : Prop :=
  timeout.any (fun d => (now.after? d).isNone) = false

instance (timeout : Option Span) (now : Instant) : Decidable (CanPark timeout now) :=
  inferInstanceAs (Decidable (_ = _))

/-- Then the parking begins, and takes a token before it looks at the clock. -/
theorem start_of_canPark {timeout : Option Span} {now : Instant} (h : CanPark timeout now) :
    ∃ deadline, p.start timeout now = { p with phase := .taking deadline } := by
  unfold start CanPark at *
  cases timeout with
  | none => exact ⟨none, rfl⟩
  | some d =>
      cases hafter : now.after? d with
      | some deadline => exact ⟨some deadline, by simp only [hafter]⟩
      | none => simp [hafter] at h

/-- Otherwise it panics before it looks at the token. -/
theorem start_of_not_canPark {timeout : Option Span} {now : Instant} (h : ¬ CanPark timeout now) :
    p.start timeout now = { p with panics := p.panics + 1 } := by
  unfold start CanPark at *
  cases timeout with
  | none => exact absurd rfl h
  | some d =>
      cases hafter : now.after? d with
      | some deadline => simp [hafter] at h
      | none => simp only [hafter]

/-- A parking that is about to take a token takes it when the thread goes on, and no other step
takes it away. -/
theorem step_of_taking {deadline : Option Instant} (hphase : p.phase = .taking deadline)
    (hword : p.word = 1) (a : ParkAction) :
    (p.step a).answers = true :: p.answers ∨
      (∀ now, a ≠ .advance now) ∧ (p.step a).phase = .taking deadline ∧ (p.step a).word = 1 ∧
        (p.step a).answers = p.answers := by
  have hrouse : p.rouse = p := by rw [rouse, hphase]
  have hexpire : p.expire = p := by rw [expire, hphase]
  have hsame : ∀ q, q = p →
      q.phase = .taking deadline ∧ q.word = 1 ∧ q.answers = p.answers := by
    rintro q rfl
    exact ⟨hphase, hword, rfl⟩
  cases a with
  | advance now =>
      change (p.advance now).answers = _ ∨ _
      exact .inl (by simp [advance, hphase, hword, finish])
  | park timeout now => exact .inr ⟨nofun, hsame _ (if_neg (by simp [hphase]))⟩
  | disturb => exact .inr ⟨nofun, hsame _ hrouse⟩
  | expire => exact .inr ⟨nofun, hsame _ hexpire⟩
  | unpark => exact .inr ⟨nofun, hphase, rfl, rfl⟩
  | wake =>
      refine .inr ⟨nofun, ?_⟩
      rw [step]
      split
      · exact hsame p rfl
      · rw [hrouse]
        exact ⟨hphase, hword, rfl⟩

/-- So its answer is `true`, whatever the other threads do. -/
theorem answers_of_taking {deadline : Option Instant} {now : Instant} {actions : List ParkAction}
    (hphase : p.phase = .taking deadline) (hword : p.word = 1) (hmem : .advance now ∈ actions) :
    true :: p.answers <:+ (p.run actions).answers := by
  induction actions generalizing p with
  | nil => cases hmem
  | cons a actions ih =>
      obtain htaken | ⟨hother, hphase', hword', hanswers⟩ := step_of_taking hphase hword a
      · rw [← htaken]
        exact answers_suffix_run (p.step a) actions
      · rw [← hanswers]
        exact ih hphase' hword' ((List.mem_cons.mp hmem).resolve_left (hother now).symm)

/-- The last look of a parking whose time is over takes the token if there is one. -/
theorem step_of_lastTake (hphase : p.phase = .lastTake) (hword : p.word = 1) (now : Instant) :
    (p.step (.advance now)).answers = true :: p.answers := by
  change (p.advance now).answers = _
  simp [advance, hphase, hword, finish]

/-- A thread that is about to wake the sleeper wakes it. -/
theorem step_wake_of_asleep {deadline : Option Instant} (hphase : p.phase = .asleep deadline)
    (hwakers : 0 < p.wakers) : (p.step .wake).phase = .taking deadline := by
  rw [step, if_neg (by omega)]
  simp [rouse, hphase]

/-- Whoever takes a token takes one that was pending, and then none is. -/
theorem pending_of_taken {actions : List ParkAction}
    (h : ((fresh.run actions).step a).answers = true :: (fresh.run actions).answers) :
    Pending actions ∧ ¬ Pending (actions ++ [a]) := by
  have hsound := sound_fresh.run actions
  have hone : ((fresh.run actions).step a).taken = (fresh.run actions).taken + 1 := by
    simp [taken, h]
  have ha : a ≠ .unpark := by
    rintro rfl
    rw [taken_step_unpark] at hone
    omega
  have hbalance := (change_step (fresh.run actions) ha).balance hsound.binary
  have hle := hsound.word_toNat_le
  constructor
  · rw [← word_eq_one_iff, ← UInt32.toNat_inj, UInt32.toNat_one]
    omega
  · rw [← word_eq_one_iff, run_append, ← UInt32.toNat_inj, UInt32.toNat_one]
    change ((fresh.run actions).step a).word.toNat ≠ 1
    omega

/-- Two threads unpark, and a parking takes their token. A second parking sleeps until its time is
over, and before it looks for the last time, another thread unparks. -/
def latecomer : List ParkAction :=
  [.unpark, .unpark, .park (some (.ofMillis 5)) .start, .advance .start,
    .park (some (.ofMillis 5)) .start, .advance .start, .advance .start, .advance .start, .expire,
    .unpark]

end Parker

end Baton
