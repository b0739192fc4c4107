import Baton.Sched.Basic

/-!
# Scheduler: the steps of the search

The search for the next thread polls, takes an entry off the ready queue, waits, is revived by a
wakeup, or lets a thread take up the baton (`Search`). What these steps do is read off `search` here
once. A wait whose deadline cannot be formed is none of them: there the giver panics
(`overflow?_cases`). As long as the clock leaves room for the longest single idle poll no wait comes
to that (`overflow?_of_canIdle`).
-/

namespace Baton

theorem Instant.after?_isSome_iff {t : Instant} {d : Span} :
    (t.after? d).isSome = true ↔ (t.nanos + d.nanos) / 1000000000 ≤ maxSeconds := by
  unfold after?
  split <;> simp [*]

/-- An earlier deadline can be formed as well. -/
theorem Instant.isSome_after?_of_le {t t' : Instant} {d d' : Span}
    (h : (t'.after? d').isSome = true) (hle : t.nanos + d.nanos ≤ t'.nanos + d'.nanos) :
    (t.after? d).isSome = true := by
  rw [after?_isSome_iff] at h ⊢
  omega

namespace Waiter

variable {δ : Type} {now : Instant} {longest : Span} {ws : List (Waiter δ)} {w : Waiter δ}

/-- How long a poll may wait if one more waiter is polled for first. -/
theorem patience_cons (now : Instant) (longest : Span) (w : Waiter δ) (ws : List (Waiter δ)) :
    ∃ d : Span, patience now longest (w :: ws) = patience now d ws ∧ d.nanos ≤ longest.nanos ∧
      ∀ deadline, w.deadline = some deadline → d.nanos ≤ (deadline.remaining now).nanos := by
  cases hd : w.deadline with
  | none => exact ⟨longest, by simp [patience, hd], Nat.le_refl _, by simp⟩
  | some deadline =>
      by_cases hlt : (deadline.remaining now).nanos < longest.nanos
      · exact ⟨deadline.remaining now, by simp [patience, hd, hlt], Nat.le_of_lt hlt, by simp⟩
      · exact ⟨longest, by simp [patience, hd, hlt], Nat.le_refl _, by simpa using hlt⟩

/-- The deadlines of the waiters only shorten a poll. -/
theorem patience_le (now : Instant) (longest : Span) (ws : List (Waiter δ)) :
    (patience now longest ws).nanos ≤ longest.nanos := by
  induction ws generalizing longest with
  | nil => exact Nat.le_refl _
  | cons w ws ih =>
      obtain ⟨d, heq, hle, -⟩ := patience_cons now longest w ws
      rw [heq]
      exact Nat.le_trans (ih d) hle

/-- A poll waits for no longer than any of the waiters does. -/
theorem patience_le_remaining {deadline : Instant} (hw : w ∈ ws)
    (hdeadline : w.deadline = some deadline) :
    (patience now longest ws).nanos ≤ (deadline.remaining now).nanos := by
  induction ws generalizing longest with
  | nil => cases hw
  | cons v ws ih =>
      obtain ⟨d, heq, -, hown⟩ := patience_cons now longest v ws
      rw [heq]
      rcases List.mem_cons.mp hw with rfl | hw
      · exact Nat.le_trans (patience_le now d ws) (hown deadline hdeadline)
      · exact ih hw

end Waiter

namespace Sched

variable {system : PollSystem Descriptor} {s s' : Sched} {giver : ThreadId} {longest : Span}

theorem serveWaiters_of_nil (h : s.waiters = []) : s.serveWaiters system longest = (false, s) := by
  simp [serveWaiters, h]

theorem canPoll_of_nil (h : s.waiters = []) : s.canPoll longest = true := by
  simp [canPoll, h]

/-- The polls of the search can be timed while the longest single idle poll can. -/
theorem canPoll_of_canIdle (h : s.canIdle = true) (hle : longest.nanos ≤ s.idlePoll.nanos) :
    s.canPoll longest = true := by
  have hpatience := Waiter.patience_le s.clock longest s.waiters
  rw [canPoll, Instant.isSome_after?_of_le h (by omega), Bool.or_true]

/-- What an idle poll leaves that can be timed. -/
def rested (system : PollSystem Descriptor) (giver : ThreadId) (s : Sched) : Sched :=
  (s.serveWaiters system s.idlePoll).2.settleIdle giver (s.serveWaiters system s.idlePoll).1

/-- What a step of the search does. -/
inductive Search (system : PollSystem Descriptor) (s : Sched) : Sched → Prop where
  | poll {giver : ThreadId} : s.turn = .seeking giver → s.canPoll .zero = true →
      Search system s { (s.serveWaiters system .zero).2 with turn := .choosing giver }
  | choose {giver : ThreadId} : s.turn = .choosing giver → Search system s (s.choose giver)
  | rest {giver : ThreadId} : s.turn = .idle giver → s.canPoll s.idlePoll = true →
      Search system s (s.rested system giver)
  | revive {giver : ThreadId} : s.turn = .stuck giver → s.ready ≠ [] → s.canIdle = true →
      Search system s { s with turn := .seeking giver }
  | takeUp {s' : Sched} : s.turn = .passing → s.takeUp = some s' → Search system s s'

theorem search_cases (h : s.search system = some s') : Search system s s' := by
  unfold search at h
  split at h
  · cases h
  · rename_i giver hturn
    unfold pollWaiters at h
    split at h
    · rename_i hcan
      cases h
      exact .poll hturn hcan
    · cases h
  · rename_i giver hturn
    cases h
    exact .choose hturn
  · rename_i giver hturn
    unfold Sched.rest pollWaiters at h
    split at h
    · rename_i hcan
      cases h
      exact .rest hturn hcan
    · cases h
  · rename_i giver hturn
    split at h
    · cases h
    · rename_i hgoes
      cases h
      simp only [Bool.or_eq_true, Bool.not_eq_true', not_or, List.isEmpty_iff,
        Bool.not_eq_false] at hgoes
      exact .revive hturn hgoes.1 hgoes.2
  · rename_i hturn
    exact .takeUp hturn h
  · cases h

theorem search_of_seeking (ht : s.turn = .seeking giver) (hcan : s.canPoll .zero = true) :
    s.search system = some { (s.serveWaiters system .zero).2 with turn := .choosing giver } := by
  simp [search, ht, pollWaiters, hcan]

theorem search_of_idle (ht : s.turn = .idle giver) (hcan : s.canPoll s.idlePoll = true) :
    s.search system = some (s.rested system giver) := by
  simp [search, ht, Sched.rest, pollWaiters, hcan, rested]

theorem search_of_stuck (ht : s.turn = .stuck giver) (hready : s.ready ≠ [])
    (hcan : s.canIdle = true) : s.search system = some { s with turn := .seeking giver } := by
  simp [search, ht, hready, hcan]

/-- The giver that panics was about to poll or to wait, and it has the turn afterwards. -/
theorem overflow?_cases (h : s.overflow? = some (giver, s')) :
    (s.turn = .seeking giver ∨ s.turn = .idle giver ∨ s.turn = .stuck giver) ∧
      ∃ waiters, (waiters = [] ∨ waiters = s.waiters) ∧
        s' = { s with waiters, turn := .held giver } := by
  unfold overflow? at h
  split at h
  · rename_i giver' ht
    split at h <;> cases h
    exact ⟨.inl ht, [], .inl rfl, rfl⟩
  · rename_i giver' ht
    split at h <;> cases h
    exact ⟨.inr (.inl ht), [], .inl rfl, rfl⟩
  · rename_i giver' ht
    split at h <;> cases h
    exact ⟨.inr (.inr ht), s.waiters, .inr rfl, rfl⟩
  · cases h

/-- A giver that can go on does not panic. -/
theorem overflow?_of_search (h : s.search system = some s') : s.overflow? = none := by
  cases search_cases h with
  | poll ht hcan => simp [overflow?, ht, hcan]
  | choose ht => simp [overflow?, ht]
  | rest ht hcan => simp [overflow?, ht, hcan]
  | revive ht _ hcan => simp [overflow?, ht, hcan]
  | takeUp ht => simp [overflow?, ht]

/-- No wait panics while the longest single idle poll can be timed. -/
theorem overflow?_of_canIdle (h : s.canIdle = true) : s.overflow? = none := by
  unfold overflow?
  split
  · exact if_pos (canPoll_of_canIdle h (Nat.zero_le _))
  · exact if_pos (canPoll_of_canIdle h (Nat.le_refl _))
  · exact if_pos h
  · rfl

end Sched

end Baton
