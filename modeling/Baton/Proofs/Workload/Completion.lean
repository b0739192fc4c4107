import Baton.Proofs.Workload.Progress
import Mathlib.Algebra.BigOperators.Fin

/-!
# Balanced workloads: completion

Every workload comes to its end, with the totals that its sections add up to.
-/

namespace Baton

namespace Balanced

open Machine (step_eq_none)

variable {own : List Section} {others : List (List Section)} {p : ThreadId → Point}
  {m : Machine} {t : ThreadId} {i : Nat}

/-! ## The start -/

/-- Where a thread is at the start of a workload. -/
def origin (own : List Section) (others : List (List Section)) (t : ThreadId) : Point :=
  if t = .first then .spawning 0 own
  else match others[number t - 1]? with
    | some todo => .unborn todo
    | none => .finished

theorem origin_first : origin own others .first = .spawning 0 own := if_pos rfl

theorem origin_spawned (hn : others.length < UInt64.size) (hi : i < others.length) :
    origin own others (spawned i) = .unborn others[i] := by
  have hsize : i + 1 < UInt64.size := by omega
  rw [origin, if_neg (spawned_ne_first hsize), number_spawned hsize, Nat.add_sub_cancel,
    List.getElem?_eq_getElem hi]

theorem origin_stranger (hn : others.length < UInt64.size) (ht : t ∉ crew others.length) :
    origin own others t = .finished := by
  rw [mem_crew, not_or] at ht
  rw [origin, if_neg ht.1]
  have hpos : number t ≠ 0 := by
    rw [← number_first]
    exact fun he => ht.1 (number_inj.mp he)
  have hlen : others.length ≤ number t - 1 := by
    by_contra hlt
    have hnumber := number_spawned (i := number t - 1) (by omega)
    exact ht.2 ⟨number t - 1, by omega, number_inj.mp (by omega)⟩
  rw [List.getElem?_eq_none hlen]

/-- Beside the main thread nobody is live at the start. -/
theorem isAlive_origin (t : ThreadId) : (origin own others t).isAlive = decide (t = .first) := by
  rw [origin]
  split
  · simp [Point.isAlive, *]
  · split <;> simp [Point.isAlive, *]

theorem target?_origin (t : ThreadId) : (origin own others t).target? = none := by
  rw [origin]
  split
  · rfl
  · split <;> rfl

theorem within?_origin (t : ThreadId) : (origin own others t).within? = none := by
  rw [origin]
  split
  · rfl
  · split <;> rfl

/-- All sections are before the threads at the start. -/
theorem sum_origin (f : List Section → Nat) (hn : others.length < UInt64.size) :
    ∑ t ∈ crew others.length, f (origin own others t).todo = ((own :: others).map f).sum := by
  have hnew : ThreadId.first ∉ (Finset.range others.length).image spawned := by
    intro hmem
    obtain ⟨i, hi, he⟩ := Finset.mem_image.mp hmem
    have hi := Finset.mem_range.mp hi
    exact spawned_ne_first (by omega) he
  have hinj : Set.InjOn spawned (Finset.range others.length) := by
    intro i hi j hj he
    have hi : i < others.length := by simpa using hi
    have hj : j < others.length := by simpa using hj
    exact (spawned_inj (by omega) (by omega)).mp he
  rw [crew, Finset.sum_insert hnew, Finset.sum_image hinj, origin_first, List.map_cons,
    List.sum_cons, Finset.sum_range]
  congr 1
  rw [← Fin.sum_univ_fun_getElem]
  apply Finset.sum_congr rfl
  intro i _
  rw [origin_spawned hn i.isLt]
  rfl

theorem staged_machine (hn : others.length < UInt64.size) :
    Staged own others (origin own others) (program own others).machine where
  toPlaced := by
    apply Machine.placed_machine rfl isAlive_origin
    rw [origin_first]
    simp [program, Point.stack, road, yields, lastCode, number_first]
  stranger t ht := origin_stranger hn ht

theorem led_machine (hn : others.length < UInt64.size) :
    Led others (origin own others) (program own others).machine where
  ids := by
    rw [origin_first]
    rfl
  entered := by
    rw [origin_first]
    exact ⟨Nat.zero_le _, fun i _ hi => absurd hi (Nat.not_lt_zero i), by simp [Point.stage]⟩
  worker t ht := by
    rw [origin, if_neg ht]
    split <;> rfl
  unborn i hi _ := by
    rw [origin_spawned hn hi]
    rfl
  born i hi := by
    rw [origin_first] at hi
    exact absurd hi (Nat.not_lt_zero i)
  outcomes i hi hfinished := by
    rw [origin_spawned hn hi] at hfinished
    cases hfinished
  going := by
    rw [origin_first]
    exact .inl rfl

theorem claims_machine : Claims (origin own others) (program own others).machine where
  inner _ := rfl
  unowned _ _ := rfl
  regular _ := RwState.regular_free
  claim t τ := by
    rw [target?_origin]
    cases τ <;> rfl
  holding t τ h := by
    have htarget := Point.target?_of_holding? h
    rw [target?_origin] at htarget
    cases htarget

theorem raises_flatten (pl : Place) (all : List (List Section)) :
    raises pl all.flatten = (all.map (raises pl)).sum := List.countP_flatten

theorem reads_flatten (all : List (List Section)) :
    reads all.flatten = (all.map reads).sum := List.countP_flatten

theorem books_machine (hn : others.length < UInt64.size) :
    Books others.length (own :: others).flatten (origin own others)
      (program own others).machine.memory where
  total pl := by
    rw [sum_origin (raises pl) hn, raises_flatten]
    exact Int.zero_add _
  equal _ _ := rfl
  raising t pl h := absurd h (not_raising_of_within?_eq_none (within?_origin t))
  reads := by
    rw [sum_origin reads hn, reads_flatten]
    exact Int.zero_add _
  torn := rfl

/-- At the start the threads are at the points where they begin. -/
theorem atPoints_machine (hn : others.length < UInt64.size) :
    AtPoints own others (origin own others) (program own others).machine where
  staged := staged_machine hn
  led := led_machine hn
  claims := claims_machine
  books := books_machine hn

/-! ## The end -/

/-- A workload has come to its end, and its totals are right. -/
structure Complete (own : List Section) (others : List (List Section)) (m : Machine) : Prop where
  ended : m.sched.turn = .over
  main : ∃ k, m.mainOutcome = some (.finished k)
  spawned : ∀ i, i < others.length → ∃ k, m.outcomes.get? (Balanced.spawned i) = some (.finished k)
  /-- Each cell counts the sections that held it. -/
  cells : ∀ i, firstCount (.cell i) m.memory =
    (own :: others).flatten.countP fun s => s.target = .cell i
  /-- Both counters of a table count the sections that held its write side. -/
  tables : ∀ l, firstCount (.behind (.table l)) m.memory =
      (own :: others).flatten.countP (fun s => s.target = .write l) ∧
    secondCount (.behind (.table l)) m.memory = firstCount (.behind (.table l)) m.memory
  /-- The sections that held a read side were counted. -/
  reads : m.memory.var readsVar = (own :: others).flatten.countP fun s => !s.target.isExclusive
  /-- No section that held a read side saw the counters differ. -/
  torn : m.memory.var tornVar = 0

theorem raises_cell (i : Nat) (all : List Section) :
    raises (.cell i) all = all.countP fun s => s.target = .cell i := by
  apply List.countP_congr
  intro s _
  cases s.target <;>
    simp [Target.isExclusive, Target.place, Target.opening, Opening.guard, Guard.place]

theorem raises_table (l : Nat) (all : List Section) :
    raises (.behind (.table l)) all = all.countP fun s => s.target = .write l := by
  apply List.countP_congr
  intro s _
  cases s.target <;>
    simp [Target.isExclusive, Target.place, Target.opening, Opening.guard, Guard.place]

/-- When the run is over all threads have finished. -/
theorem AtPoints.finished_of_over (h : AtPoints own others p m) (hc : m.sched.Coherent)
    (hover : m.sched.turn = .over) (ht : t ∈ crew others.length) : p t = .finished := by
  have hdead : ∀ u, (p u).isAlive = false := by
    intro u
    rw [← h.staged.live]
    exact hc.isLive_of_live_eq_zero (hc.live_of_over hover) u
  have hended : ∀ u, p u = .finished ∨ ∃ todo, p u = .unborn todo := by
    intro u
    have hu := hdead u
    cases hp : p u with
    | finished => exact .inl rfl
    | unborn todo => exact .inr ⟨todo, rfl⟩
    | _ =>
        rw [hp] at hu
        cases hu
  have hfirst : p .first = .finished := by
    apply (hended .first).resolve_right
    rintro ⟨todo, hp⟩
    have hleads := h.led.entered.leads
    rw [hp] at hleads
    exact hleads
  rcases Balanced.mem_crew.mp ht with rfl | ⟨i, hi, rfl⟩
  · exact hfirst
  · apply (hended _).resolve_right
    rintro ⟨todo, hp⟩
    have hborn := h.led.born i (by rw [hfirst]; exact hi) todo
    rw [hp] at hborn
    exact hborn rfl

theorem AtPoints.complete (h : AtPoints own others p m) (hc : m.sched.Coherent)
    (hover : m.sched.turn = .over) : Complete own others m := by
  have hfinished : ∀ t ∈ crew others.length, p t = .finished := fun t ht =>
    h.finished_of_over hc hover ht
  have hsum : ∀ f : List Section → Nat, f [] = 0 →
      ∑ t ∈ crew others.length, f (p t).todo = 0 := by
    intro f hf
    apply Finset.sum_eq_zero
    intro t ht
    rw [hfinished t ht]
    exact hf
  have htotal : ∀ pl, firstCount pl m.memory = raises pl (own :: others).flatten := by
    intro pl
    have htotal := h.books.total pl
    rwa [hsum (raises pl) rfl, Nat.cast_zero, Int.add_zero] at htotal
  exact {
    ended := hover
    main := h.led.entered.mainOutcome (.inr (by rw [hfinished _ (first_mem_crew _)]; rfl))
    spawned := fun i hi => h.led.outcomes i hi (by rw [hfinished _ (spawned_mem_crew hi)]; rfl)
    cells := fun i => by rw [htotal, raises_cell]
    tables := by
      intro l
      refine ⟨by rw [htotal, raises_table], (h.books.equal _ ?_).symm⟩
      intro t
      by_cases ht : t ∈ crew others.length
      · rw [hfinished t ht]
        exact not_raising_of_within?_eq_none rfl
      · rw [h.staged.stranger t ht]
        exact not_raising_of_within?_eq_none rfl
    reads := by
      have hreads := h.books.reads
      rwa [hsum Balanced.reads rfl, Nat.cast_zero, Int.add_zero] at hreads
    torn := h.books.torn }

/-- A workload that has come to its end is reported as ended. -/
theorem Complete.ending {n : Nat} (h : Complete own others ((program own others).final n)) :
    ∃ k, ((program own others).run n).ending = .ended (.finished k) := by
  obtain ⟨k, hmain⟩ := h.main
  exact ⟨k, Machine.ending_run h.ended hmain⟩

/-- Every workload completes: at no moment is there nobody to run, and from some moment on the run
is over and reported as ended, every thread has finished, each cell and each table counts the
exclusive sections that held it, all reading sections were counted, and none of them saw its
counters differ. -/
theorem completes_with_exact_totals (own : List Section) (others : List (List Section))
    (hn : others.length < UInt64.size) :
    (∀ k, ((program own others).final k).sched.turn.isIdle = false) ∧
      ∃ n, ∀ k, n ≤ k → Complete own others ((program own others).final k) ∧
        ∃ j, ((program own others).run k).ending = .ended (.finished j) := by
  have hat : AtPoints own others (origin own others) (program own others).machine :=
    atPoints_machine hn
  have hattains := hat.attains_over hn (.refl _) (.inr ⟨.first, .inl rfl⟩)
  obtain ⟨hbusy, n, hover⟩ := hattains.run fun m h => ⟨step_eq_none h.1, by rw [h.1]; rfl⟩
  refine ⟨hbusy, n, fun k hk => ?_⟩
  obtain ⟨hover, p', h', hreaches⟩ := hover k hk
  have hcomplete := h'.complete (hreaches.sound (h'.handed_le hn)).coherent hover
  exact ⟨hcomplete, hcomplete.ending⟩

/-- Two threads beside the main one; cell 0 and table 0 are held by two sections each. -/
def crossing : List (List Section) :=
  [[⟨.cell 0, 1, 0⟩, ⟨.read 0, 1, 1⟩], [⟨.cell 0, 0, 1⟩, ⟨.write 0, 1, 0⟩]]

theorem completes_with_exact_totals_crossing :
    crossing.length < UInt64.size ∧
      (∀ k, ((program [⟨.write 0, 2, 0⟩] crossing).final k).sched.turn.isIdle = false) ∧
      ∃ n, ∀ k, n ≤ k → ∃ m, m = ((program [⟨.write 0, 2, 0⟩] crossing).final k) ∧
        m.sched.turn = .over ∧ firstCount (.cell 0) m.memory = 2 ∧
        firstCount (.behind (.table 0)) m.memory = 2 ∧ m.memory.var readsVar = 1 ∧
        m.memory.var tornVar = 0 := by
  have hn : crossing.length < UInt64.size := by decide
  obtain ⟨hbusy, n, hcomplete⟩ := completes_with_exact_totals [⟨.write 0, 2, 0⟩] crossing hn
  refine ⟨hn, hbusy, n, fun k hk => ⟨_, rfl, ?_⟩⟩
  obtain ⟨h, -⟩ := hcomplete k hk
  exact ⟨h.ended, h.cells 0, (h.tables 0).1, h.reads, h.torn⟩

end Balanced

end Baton
