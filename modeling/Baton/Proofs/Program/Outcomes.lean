import Baton.Proofs.Program.Cues
import Baton.Proofs.Program.Wakeups

/-!
# Machine: outcomes

The outcome of a thread is stored in the step in which its code ends, and not before or after. So
what a join finds is the outcome of its target, and the target had ended before. The main thread
starts to wait for the others after its own code has ended, and leaves after that.
-/

namespace Baton

/-- Whether the task is the end of a thread's code. -/
def Task.isEnd : Task → Bool
  | exit | abort _ => true
  | _ => false

namespace Machine

variable {p : Program} {τ σ : List Happening} {m m' : Machine} {me t : ThreadId} {x : Task}
  {ts : List Task} {o : Outcome}

/-- No step of the running thread disturbs the others. -/
theorem Sound.spares (h : m.Sound) (ht : m.sched.turn = .held me) (hstack : m.stackOf me = x :: ts)
    (hids : ((m.setStack me ts).perform me x).sched.ids.handed ≤ UInt64.size) :
    Spares (· ≠ me) m ((m.setStack me ts).perform me x) := by
  have hcourse : Course me (m.setStack me ts) (x :: ts) :=
    (hstack ▸ h.course me ht).mono (fun _ hk => hk) (fun _ hp => hp) rfl
  exact (spares_onThread me _ m).trans
    (spares_perform (m := m.setStack me ts) h.coherent ht h.main_issued hcourse.kept_head hids)

/-! ## Ends of threads -/

/-- The end of a thread that is not the main one. -/
theorem finish_of_ne (hme : me ≠ m.sched.main) : m.finish me o =
    { m with outcomes := m.outcomes.set me o }.onSched (Sched.finish me) :=
  if_neg hme

/-- A thread that panics reports it and then ends as any other. -/
theorem perform_end (me : ThreadId) (m : Machine) (hx : x.isEnd = true) :
    ∃ n o, m.happeningsOf me x = m.endings me o ∧
    (n = m ∨ n = m.note (.panicked me)) ∧ m.perform me x = n.finish me o := by
  cases x with
  | exit => exact ⟨m, _, rfl, .inl rfl, rfl⟩
  | abort text =>
      refine ⟨if me = m.sched.main then m else m.note (.panicked me), _, rfl, ?_, rfl⟩
      split
      · exact .inl rfl
      · exact .inr rfl
  | _ => cases hx

/-! ## Tasks that end no thread -/

theorem outcomes_select (hx : x.isSelect = true) :
    (m.perform me x).outcomes = m.outcomes ∧ (m.perform me x).mainOutcome = m.mainOutcome := by
  rcases perform_select me m hx with h | ⟨w, -, h⟩
  · exact ⟨h.outcomes, h.mainOutcome⟩
  · rw [h]
    exact ⟨rfl, rfl⟩

/-- Only the end of a thread makes an outcome known. -/
theorem outcomes_perform (me : ThreadId) (m : Machine) (hx : x.isEnd = false) :
    (m.perform me x).outcomes = m.outcomes ∧ (m.perform me x).mainOutcome = m.mainOutcome := by
  cases hroutine : x.isRoutine with
  | true =>
      have h := perform_routine me m hroutine
      exact ⟨h.outcomes, h.mainOutcome⟩
  | false =>
      cases x with
      | suspend | pause | spawn => exact ⟨rfl, rfl⟩
      | exit | abort => cases hx
      | drain =>
          show (m.drain me).outcomes = _ ∧ (m.drain me).mainOutcome = _
          unfold drain
          split <;> exact ⟨rfl, rfl⟩
      | select | selectHere => exact outcomes_select rfl
      | collect =>
          rcases perform_collect me m with ⟨-, h⟩ | ⟨-, r, h⟩ <;> rw [h] <;>
            exact ⟨rfl, rfl⟩
      | _ => cases hroutine

theorem mem_joining {h : Happening} {id : ThreadId} (hmem : h ∈ m.joining me id) :
    ∃ o, m.outcomes.get? id = some o ∧ h = .joined me id o := by
  unfold joining at hmem
  cases hget : m.outcomes.get? id with
  | none => simp [hget] at hmem
  | some o =>
      rw [hget] at hmem
      exact ⟨o, rfl, List.mem_singleton.mp hmem⟩

/-- What happens in a task, by kind. -/
theorem mem_happeningsOf {h : Happening} (hx : x.isEnd = false)
    (hmem : h ∈ m.happeningsOf me x) : (∃ id, h = .woken id) ∨ h = .stopped me ∨ h = .yielded me ∨
      h = .started m.sched.ids.next ∨ (x = .drain ∧ h = .left me) ∨
      ∃ id o, h = .joined me id o ∧ m.outcomes.get? id = some o ∧
        (x = .awaitThread id ∨ x = .joinOutside id ∧ id ∈ m.handles) := by
  have hwoken : h ∈ (m.wokenBy me x).map .woken → ∃ id, h = .woken id := by
    intro hmem
    obtain ⟨id, -, rfl⟩ := List.mem_map.mp hmem
    exact ⟨id, rfl⟩
  cases x with
  | suspend => exact .inr (.inl (List.mem_singleton.mp hmem))
  | pause => exact .inr (.inr (.inl (List.mem_singleton.mp hmem)))
  | spawn => exact .inr (.inr (.inr (.inl (List.mem_singleton.mp hmem))))
  | exit | abort => cases hx
  | drain =>
      have hmem : h ∈ if 1 < m.sched.live then [] else [Happening.left me] := hmem
      split at hmem
      · cases hmem
      · exact .inr (.inr (.inr (.inr (.inl ⟨rfl, List.mem_singleton.mp hmem⟩))))
  | awaitThread id =>
      have hmem : h ∈ m.joining me id := hmem
      obtain ⟨o, ho, rfl⟩ := mem_joining hmem
      exact .inr (.inr (.inr (.inr (.inr ⟨id, o, rfl, ho, .inl rfl⟩))))
  | joinOutside id =>
      have hmem : h ∈ if id ∈ m.handles then m.joining me id else [] := hmem
      split at hmem
      · rename_i hid
        obtain ⟨o, ho, rfl⟩ := mem_joining hmem
        exact .inr (.inr (.inr (.inr (.inr ⟨id, o, rfl, ho, .inr ⟨rfl, hid⟩⟩))))
      · cases hmem
  | _ => exact .inl (hwoken hmem)

/-- A join returns in a task that looks for the outcome of its target and finds it. -/
theorem joined_mem_happeningsOf {w : ThreadId} (hmem : .joined w t o ∈ m.happeningsOf me x) :
    w = me ∧ m.outcomes.get? t = some o ∧
      (x = .awaitThread t ∨ x = .joinOutside t ∧ t ∈ m.handles) := by
  cases hx : x.isEnd with
  | false =>
      rcases mem_happeningsOf hx hmem with
        ⟨_, he⟩ | he | he | he | ⟨-, he⟩ | ⟨_, _, he, hget, htask⟩ <;> cases he
      exact ⟨rfl, hget, htask⟩
  | true =>
      obtain ⟨n, o', hhappenings, -, -⟩ := perform_end me m hx
      rw [hhappenings] at hmem
      unfold endings at hmem
      split at hmem <;> simp at hmem

theorem drain_mem_select (hx : x.isSelect = true) (hmem : .drain ∈ (m.perform me x).stackOf me) :
    .drain ∈ m.stackOf me := by
  rcases perform_select me m hx with h | ⟨w, rfl, h⟩
  · exact h.drain hmem
  · rw [h, awaiting, stackOf_push] at hmem
    exact (List.mem_cons.mp hmem).resolve_left (by simp)

/-- Only the end of a thread and the wait for the others let a thread wait for the others. -/
theorem drain_mem_perform (hend : x.isEnd = false) (hx : x ≠ .drain)
    (hmem : .drain ∈ (m.perform me x).stackOf me) : .drain ∈ m.stackOf me := by
  cases hroutine : x.isRoutine with
  | true => exact (perform_routine me m hroutine).drain hmem
  | false =>
      cases x with
      | suspend | pause => exact hmem
      | spawn code =>
          have hmem : .drain ∈ (m.spawn me code).stackOf me := hmem
          unfold spawn at hmem
          rw [stackOf_answer] at hmem
          have hget : .drain ∈ ((m.threads.set m.sched.ids.next _).get me).stack := hmem
          rw [Store.get_set] at hget
          split at hget
          · exact absurd (isPlain_code _ hget) (by simp [Task.isPlain])
          · exact hget
      | exit | abort => cases hend
      | drain => exact absurd rfl hx
      | select | selectHere => exact drain_mem_select rfl hmem
      | collect =>
          rcases perform_collect me m with ⟨-, h⟩ | ⟨-, r, h⟩
          · rw [h, stackOf_push] at hmem
            simpa using hmem
          · rw [h, stackOf_answer] at hmem
            exact hmem
      | _ => cases hroutine

/-! ## The record of outcomes -/

/-- What the chronicle of a run tells about outcomes, and what is stored of them. -/
structure Recorded (τ : List Happening) (m : Machine) : Prop where
  main : m.sched.main = .first
  outcomes : ∀ t o, m.outcomes.get? t = some o ↔ t ≠ m.sched.main ∧ .ended t o ∈ τ
  mainOutcome : ∀ o, m.mainOutcome = some o → .ended m.sched.main o ∈ τ
  ended : ∀ t o, t ≠ m.sched.main → .ended t o ∈ τ → .left t ∈ τ
  left : ∀ t, t ≠ m.sched.main → .left t ∈ τ → ∃ o, .ended t o ∈ τ
  left_main : .left m.sched.main ∈ τ → m.mainOutcome ≠ none
  drain : ∀ t, .drain ∈ m.stackOf t → m.mainOutcome ≠ none
  joined : ∀ τ₁ me t o τ₂, τ = τ₁ ++ .joined me t o :: τ₂ → t ≠ m.sched.main ∧ .ended t o ∈ τ₁

/-- An element of a concatenation stands in the first part, or after it. -/
theorem of_append_eq_append_cons {α : Type} {τ σ τ₁ τ₂ : List α} {h : α}
    (heq : τ ++ σ = τ₁ ++ h :: τ₂) : (∃ rest, τ = τ₁ ++ h :: rest) ∨ (h ∈ σ ∧ τ ⊆ τ₁) := by
  rcases List.append_eq_append_iff.mp heq with ⟨mid, rfl, rfl⟩ | ⟨mid, rfl, hrest⟩
  · exact .inr ⟨by simp, List.subset_append_left τ mid⟩
  · cases mid with
    | nil => exact .inr ⟨by rw [← List.nil_append σ, ← hrest]; simp, by simp⟩
    | cons first mid =>
        obtain ⟨rfl, -⟩ := List.cons.inj hrest
        exact .inl ⟨mid, rfl⟩

/-- Joins that find an outcome find the one of their target. -/
theorem Recorded.joined_append (h : Recorded τ m)
    (hσ : ∀ me t o, .joined me t o ∈ σ → m.outcomes.get? t = some o) {τ₁ τ₂ : List Happening}
    (heq : τ ++ σ = τ₁ ++ .joined me t o :: τ₂) : t ≠ m.sched.main ∧ .ended t o ∈ τ₁ := by
  rcases of_append_eq_append_cons heq with ⟨rest, hrest⟩ | ⟨hmem, hsub⟩
  · exact h.joined τ₁ me t o rest hrest
  · obtain ⟨hne, hended⟩ := (h.outcomes t o).mp (hσ me t o hmem)
    exact ⟨hne, hsub hended⟩

/-- Nobody's code ends. -/
theorem Recorded.extend (h : Recorded τ m) (houtcomes : m'.outcomes = m.outcomes)
    (hmainOutcome : m'.mainOutcome = m.mainOutcome) (hmain : m'.sched.main = m.sched.main)
    (hdrain : ∀ t, .drain ∈ m'.stackOf t → m.mainOutcome ≠ none)
    (hended : ∀ t o, .ended t o ∉ σ)
    (hleft : ∀ t, .left t ∈ σ → t = m.sched.main ∧ m.mainOutcome ≠ none)
    (hjoined : ∀ me t o, .joined me t o ∈ σ → m.outcomes.get? t = some o) :
    Recorded (τ ++ σ) m' := by
  have hmem : ∀ t o, .ended t o ∈ τ ++ σ ↔ .ended t o ∈ τ := fun t o => by
    rw [List.mem_append, or_iff_left (hended t o)]
  refine {
    main := hmain.trans h.main
    outcomes := fun t o => by rw [houtcomes, hmain, hmem]; exact h.outcomes t o
    mainOutcome := fun o ho => by
      rw [hmainOutcome] at ho
      rw [hmain, hmem]
      exact h.mainOutcome o ho
    ended := fun t o hne he => List.mem_append_left _
      (h.ended t o (hmain ▸ hne) ((hmem t o).mp he))
    left := fun t hne hl => ?_
    left_main := fun hl => ?_
    drain := fun t hd => hmainOutcome ▸ hdrain t hd
    joined := fun τ₁ me t o τ₂ heq => hmain ▸ h.joined_append hjoined heq }
  · rw [hmain] at hne
    rcases List.mem_append.mp hl with hl | hl
    · obtain ⟨o, ho⟩ := h.left t hne hl
      exact ⟨o, (hmem t o).mpr ho⟩
    · exact absurd (hleft t hl).1 hne
  · rw [hmainOutcome]
    rw [hmain] at hl
    rcases List.mem_append.mp hl with hl | hl
    · exact h.left_main hl
    · exact (hleft _ hl).2

/-- The code of the main thread ends. -/
theorem Recorded.extend_main (h : Recorded τ m) (houtcomes : m'.outcomes = m.outcomes)
    (hmainOutcome : m'.mainOutcome = some o) (hmain : m'.sched.main = m.sched.main) :
    Recorded (τ ++ [.ended m.sched.main o]) m' := by
  have hmem : ∀ t o', t ≠ m.sched.main →
      (.ended t o' ∈ τ ++ [.ended m.sched.main o] ↔ .ended t o' ∈ τ) := by
    intro t o' hne
    simp [hne]
  have hleft : ∀ t, .left t ∈ τ ++ [.ended m.sched.main o] ↔ .left t ∈ τ := by simp
  exact {
    main := hmain.trans h.main
    outcomes := fun t o' => by
      rw [houtcomes, hmain, h.outcomes]
      exact and_congr_right fun hne => (hmem t o' hne).symm
    mainOutcome := fun o' ho' => by
      obtain rfl := Option.some.inj (hmainOutcome.symm.trans ho')
      rw [hmain]
      simp
    ended := fun t o' hne he => by
      rw [hmain] at hne
      rw [hleft]
      exact h.ended t o' hne ((hmem t o' hne).mp he)
    left := fun t hne hl => by
      rw [hmain] at hne
      obtain ⟨o', ho'⟩ := h.left t hne ((hleft t).mp hl)
      exact ⟨o', List.mem_append_left _ ho'⟩
    left_main := fun _ => by simp [hmainOutcome]
    drain := fun _ _ => by simp [hmainOutcome]
    joined := fun τ₁ me t o' τ₂ heq => hmain ▸ h.joined_append (by simp) heq }

/-- The code of another thread ends, which has not left before. -/
theorem Recorded.extend_other (h : Recorded τ m) (hme : me ≠ m.sched.main) (hnot : .left me ∉ τ)
    {ids : List ThreadId} (houtcomes : m'.outcomes = m.outcomes.set me o)
    (hmainOutcome : m'.mainOutcome = m.mainOutcome) (hmain : m'.sched.main = m.sched.main)
    (hdrain : ∀ t, .drain ∈ m'.stackOf t → m.mainOutcome ≠ none) :
    Recorded (τ ++ .ended me o :: .left me :: ids.map .woken) m' := by
  have hmem : ∀ t o', .ended t o' ∈ τ ++ .ended me o :: .left me :: ids.map .woken ↔
      .ended t o' ∈ τ ∨ (t = me ∧ o' = o) := by
    intro t o'
    simp
  have hleft : ∀ t, .left t ∈ τ ++ .ended me o :: .left me :: ids.map .woken ↔
      .left t ∈ τ ∨ t = me := by
    intro t
    simp
  -- The thread has not ended before, or it would have left.
  have hfirst : ∀ o', .ended me o' ∉ τ := fun o' he => hnot (h.ended me o' hme he)
  refine {
    main := hmain.trans h.main
    outcomes := fun t o' => ?_
    mainOutcome := fun o' ho' => ?_
    ended := fun t o' hne he => ?_
    left := fun t hne hl => ?_
    left_main := fun hl => ?_
    drain := fun t hd => hmainOutcome ▸ hdrain t hd
    joined := fun τ₁ w t o' τ₂ heq => hmain ▸ h.joined_append (by simp) heq }
  · rw [houtcomes, hmain, hmem, Store.get?_set]
    by_cases he : t = me
    · subst he
      simp [hme, hfirst, eq_comm]
    · simp [he, h.outcomes]
  · rw [hmainOutcome] at ho'
    rw [hmain, hmem]
    exact .inl (h.mainOutcome o' ho')
  · rw [hmain] at hne
    rw [hleft]
    exact ((hmem t o').mp he).imp (h.ended t o' hne) And.left
  · rw [hmain] at hne
    rcases (hleft t).mp hl with hl | rfl
    · obtain ⟨o', ho'⟩ := h.left t hne hl
      exact ⟨o', (hmem t o').mpr (.inl ho')⟩
    · exact ⟨o, (hmem t o).mpr (.inr ⟨rfl, rfl⟩)⟩
  · rw [hmain] at hl
    rw [hmainOutcome]
    exact h.left_main (((hleft _).mp hl).resolve_right (Ne.symm hme))

/-! ## Steps and runs -/

/-- A bystander that has to wait for the others had to before. -/
theorem drain_mem_of_spares {b : ThreadId → Prop} (h : Spares b m m') (ht : b t)
    (hd : .drain ∈ m'.stackOf t) : .drain ∈ m.stackOf t := by
  rcases h.stack t ht with hsame | ⟨-, hcoded⟩
  · exact hsame ▸ hd
  · cases hcoded.plain _ hd

theorem Recorded.perform (h : Recorded τ m) (hs : m.Sound) (ht : m.sched.turn = .held me)
    (hstack : m.stackOf me = x :: ts) (hnot : .left me ∉ τ)
    (hids : ((m.setStack me ts).perform me x).sched.ids.handed ≤ UInt64.size) :
    Recorded (τ ++ (m.setStack me ts).happeningsOf me x) ((m.setStack me ts).perform me x) := by
  have hspares := hs.spares ht hstack hids
  have hts : (m.setStack me ts).stackOf me = ts := stackOf_onThread me _ m
  have hmain : ((m.setStack me ts).perform me x).sched.main = m.sched.main := hspares.main
  have hbefore : .drain ∈ ts → m.mainOutcome ≠ none := fun hd =>
    h.drain me (hstack ▸ List.mem_cons_of_mem x hd)
  cases hx : x.isEnd with
  | false =>
      obtain ⟨houtcomes, hmainOutcome⟩ := outcomes_perform me (m.setStack me ts) hx
      -- Whoever carries out the wait for the others has it on the stack before.
      have hdrain : x = .drain → me = m.sched.main ∧ m.mainOutcome ≠ none := by
        rintro rfl
        have hcourse : Course me m (.drain :: ts) := hstack ▸ hs.course me ht
        exact ⟨hcourse.kept_head, h.drain me (by rw [hstack]; exact List.mem_cons_self)⟩
      refine h.extend houtcomes hmainOutcome hmain (fun t hd => ?_) (fun t o hmem => ?_)
        (fun t hmem => ?_) fun w t o hmem => ?_
      · by_cases hne : t = me
        · subst hne
          by_cases hxd : x = .drain
          · exact (hdrain hxd).2
          · exact hbefore (hts ▸ drain_mem_perform hx hxd hd)
        · exact h.drain t (drain_mem_of_spares hspares hne hd)
      · rcases mem_happeningsOf hx hmem with ⟨_, he⟩ | he | he | he | ⟨-, he⟩ | ⟨_, _, he, -⟩ <;>
          cases he
      · rcases mem_happeningsOf hx hmem with ⟨_, he⟩ | he | he | he | ⟨hxd, he⟩ | ⟨_, _, he, -⟩ <;>
          cases he
        exact hdrain hxd
      · exact (joined_mem_happeningsOf hmem).2.1
  | true =>
      obtain ⟨n, o, hhappenings, hn, hperform⟩ := perform_end me (m.setStack me ts) hx
      have hsame : n.outcomes = m.outcomes ∧ n.mainOutcome = m.mainOutcome ∧
          n.sched.main = m.sched.main ∧ n.stackOf me = ts := by
        rcases hn with rfl | rfl <;> exact ⟨rfl, rfl, rfl, hts⟩
      rw [hperform] at hmain hspares ⊢
      rw [hhappenings]
      by_cases hme : me = m.sched.main
      · have hfinish : n.finish me o = { n with mainOutcome := some o }.push me [.drain] :=
          if_pos (hme.trans hsame.2.2.1.symm)
        have hendings : (m.setStack me ts).endings me o = [.ended m.sched.main o] := by
          unfold endings
          rw [if_pos (show me = (m.setStack me ts).sched.main from hme), hme]
        rw [hendings]
        exact h.extend_main (by rw [hfinish]; exact hsame.1) (by rw [hfinish]; rfl) hmain
      · have hfinish := finish_of_ne (m := n) (o := o) fun he => hme (he.trans hsame.2.2.1)
        have hendings : (m.setStack me ts).endings me o = .ended me o :: .left me ::
            (m.sched.joinersOf me ++ if m.sched.live = 2 then [m.sched.main] else []).map
              .woken := by
          unfold endings
          rw [if_neg (show me ≠ (m.setStack me ts).sched.main from hme)]
          rfl
        rw [hendings]
        refine h.extend_other hme hnot (by rw [hfinish]; exact congrArg (Store.set · me o) hsame.1)
          (by rw [hfinish]; exact hsame.2.1) hmain fun t hd => ?_
        by_cases hne : t = me
        · subst hne
          rw [hfinish] at hd
          exact hbefore (hsame.2.2.2 ▸ hd)
        · exact h.drain t (drain_mem_of_spares hspares hne hd)

/-- No code ends and no join returns while the next thread is looked for. -/
theorem mem_search_happenings {system : PollSystem Descriptor} {s : Sched} {h : Happening}
    (hmem : h ∈ s.happenings system) : (∃ id, h = .woken id) ∨ ∃ id, h = .resumed id := by
  have hwoken : ∀ ids : List ThreadId, h ∈ ids.map .woken → ∃ id, h = .woken id := by
    intro ids hmem
    obtain ⟨id, -, rfl⟩ := List.mem_map.mp hmem
    exact ⟨id, rfl⟩
  have hresumed : h ∈ ((s.search system).map Sched.resumption).getD [] → ∃ id, h = .resumed id := by
    intro hmem
    cases hs : s.search system with
    | none => simp [hs] at hmem
    | some s' =>
        rw [hs] at hmem
        have hmem : h ∈ s'.resumption := hmem
        unfold Sched.resumption at hmem
        split at hmem
        · exact ⟨_, List.mem_singleton.mp hmem⟩
        · cases hmem
  unfold Sched.happenings at hmem
  split at hmem
  · exact .inl (hwoken _ hmem)
  · exact .inl (hwoken _ hmem)
  · exact .inr (hresumed hmem)

/-- A change of the scheduler in which nobody's code ends. -/
theorem Recorded.onSched {s : Sched} (h : Recorded τ m) (hmain : s.main = m.sched.main)
    (hσ : ∀ h ∈ σ, (∃ id, h = .woken id) ∨ ∃ id, h = .resumed id) :
    Recorded (τ ++ σ) { m with sched := s } := by
  refine h.extend rfl rfl hmain h.drain (fun t o hmem => ?_) (fun t hmem => ?_)
    fun w t o hmem => ?_
  all_goals rcases hσ _ hmem with ⟨id, he⟩ | ⟨id, he⟩ <;> cases he

theorem Recorded.step (h : Recorded τ m) (hs : m.Sound)
    (hnot : ∀ me, m.sched.turn = .held me → .left me ∉ τ) (hstep : m.step = some m')
    (hids : m'.sched.ids.handed ≤ UInt64.size) : Recorded (τ ++ m.happenings) m' := by
  rcases step_cases hstep with ⟨me, x, ts, hturn, hstack, rfl⟩ | ⟨hturn, s, hsearch, rfl⟩
  · rw [happenings_of_held hturn hstack]
    exact h.perform hs hturn hstack (hnot me hturn) hids
  · rw [happenings_of_free hturn]
    have hmain : s.main = m.sched.main :=
      (Sched.spares_search hsearch : Sched.Spares (fun _ => True) _ _).main
    exact h.onSched hmain fun _ hmem => mem_search_happenings hmem

theorem recorded_machine (p : Program) : Recorded [.started .first] p.machine where
  main := rfl
  outcomes t o := by
    show (none = some o) ↔ _
    simp
  mainOutcome o ho := by cases ho
  ended t o _ he := by simp at he
  left t _ hl := by simp at hl
  left_main hl := by simp at hl
  drain t hd := by cases plain_machine p t _ hd
  joined τ₁ me t o τ₂ heq := by
    have hmem : Happening.joined me t o ∈ [Happening.started .first] := by
      rw [heq]
      simp
    simp at hmem

/-- A thread is live from its start to its leaving. -/
theorem Chronicle.isLive_iff (h : Chronicle p τ m) (hids : m.sched.ids.handed ≤ UInt64.size)
    (t : ThreadId) : m.sched.isLive t = true ↔ .started t ∈ τ ∧ .left t ∉ τ := by
  obtain ⟨x, hrun, hx⟩ := h.exists_fits hids t
  have hlive : m.sched.isLive t = x.isLive := by
    rw [Sched.isLive_eq_semaphore?, hx.semaphore]
    rfl
  rw [hlive, Phase.isLive_iff hrun, start_mem_cues, leave_mem_cues]

theorem Chronicle.recorded (h : Chronicle p τ m) (hids : m.sched.ids.handed ≤ UInt64.size) :
    Recorded τ m := by
  induction h with
  | start => exact recorded_machine p
  | @step τ m n hm hstep ih =>
      have hhanded := Nat.le_trans (handed_le_of_step hstep) hids
      have hs := hm.reaches.sound hhanded
      have hnot : ∀ me, m.sched.turn = .held me → .left me ∉ τ := fun me ht =>
        ((hm.isLive_iff hhanded me).mp
          (Sched.isLive_of_isRunning (hs.coherent.isRunning_of_held ht))).2
      exact (ih hhanded).step hs hnot hstep hids
  | @wake τ n id _ ih =>
      have hwas := ih (by simpa [wakeFromOutside, Machine.onSched] using hids)
      exact hwas.onSched (Sched.sameWaits_wakeup id n.sched).main (by simp)
  | elapse d _ ih => exact { ih hids with }
  | outage e _ ih => exact { ih hids with }

end Machine

end Baton
