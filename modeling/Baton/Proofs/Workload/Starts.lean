import Baton.Proofs.Workload.Joins

/-!
# Balanced workloads: starting threads

What the main thread does before its sections: it starts the others in order. The identities last,
so each thread that is started is a new one.
-/

namespace Baton

namespace Balanced

open Function (update)
open Machine (SameObjects Started)

variable {own : List Section} {others : List (List Section)} {p : ThreadId → Point}
  {m m' : Machine} {t : ThreadId} {c : Nat} {todo sections : List Section}

/-- The points when the main thread has started one more thread. -/
def withNew (p : ThreadId → Point) (c : Nat) (todo sections : List Section) : ThreadId → Point :=
  update (update p .first (.spawning (c + 1) todo)) (spawned c) (.outside false 0 sections)

theorem withNew_spawned : withNew p c todo sections (spawned c) = .outside false 0 sections :=
  Function.update_self ..

theorem withNew_first (hc : c + 1 < UInt64.size) :
    withNew p c todo sections .first = .spawning (c + 1) todo := by
  rw [withNew, Function.update_of_ne (spawned_ne_first hc).symm, Function.update_self]

theorem withNew_of_ne (hfirst : t ≠ .first) (hnew : t ≠ spawned c) :
    withNew p c todo sections t = p t := by
  rw [withNew, Function.update_of_ne hnew, Function.update_of_ne hfirst]

/-- A thread that is started has less work before it, and so has the thread that has started it. -/
theorem workLeft_withNew (hn : others.length < UInt64.size) (hc : c < others.length)
    (hp : p .first = .spawning c todo) (hunborn : p (spawned c) = .unborn sections) :
    workLeft others.length (withNew p c todo sections) < workLeft others.length p := by
  have hne : spawned c ≠ .first := spawned_ne_first (by omega)
  apply Nat.lt_trans (workLeft_update (spawned_mem_crew hc) _)
  · apply workLeft_update (first_mem_crew _)
    rw [hp]
    simp only [Point.work]
    omega
  · rw [Function.update_of_ne hne, hunborn]
    simp [Point.work, lastWork, hne]

/-- The identity of the next thread. -/
theorem Led.next_eq (h : Led others p m) (hp : p .first = .spawning c todo) :
    m.sched.ids.next = spawned c := by
  have hids := h.ids
  rw [hp] at hids
  rw [hids]
  show ThreadId.mk (1 + UInt64.ofNat (c + 1)) = ⟨UInt64.ofNat (c + 2)⟩
  rw [show c + 2 = 1 + (c + 1) by omega, UInt64.ofNat_add 1 (c + 1)]
  rfl

/-- A new thread has its sections before it. -/
theorem Staged.newThread_eq (h : Staged own others p m) (hn : others.length < UInt64.size)
    (hc : c < others.length) : m.newThread (c + 1) =
      ⟨(Point.outside false 0 others[c]).stack others.length (spawned c), .null, 0, .fresh⟩ := by
  have hcode : m.code.getD (c + 1) [] = threadCode (c + 1) others[c] := by
    rw [h.code]
    simp [program, hc]
  have hnumber : number (spawned c) = c + 1 := number_spawned (by omega)
  have hfirst : spawned c ≠ .first := spawned_ne_first (by omega)
  rw [Machine.newThread, hcode]
  simp [Point.stack, road, yields, lastCode, hnumber, hfirst]

/-- The main thread has the handles of all threads that it has started. -/
theorem Led.entered_spawn (h : Led others p m) (hc : c < others.length)
    (hp : p .first = .spawning c todo) (hs : Started .first (c + 1) m m') :
    (Stage.spawning (c + 1)).Entered others.length m' where
  leads := hc
  handles i _ hi := by
    have hhandles := h.entered.handles i
    rw [hp] at hhandles
    have hi : i < c + 1 := hi
    rw [hs.handles, h.next_eq hp]
    by_cases hic : i = c
    · simp [hic]
    · have hmem := hhandles (Nat.zero_le i) (by show i < c; omega)
      exact List.mem_append_left _ hmem
  mainOutcome := by simp

theorem Staged.spawn {th : Thread} (h : Staged own others p m) (hn : others.length < UInt64.size)
    (hc : c < others.length) (hp : p .first = .spawning c todo)
    (hnext : m.sched.ids.next = spawned c) (hs : Started .first (c + 1) m m')
    (hth : th.stack = (Point.spawning (c + 1) todo).stack others.length .first) :
    Staged own others (withNew p c todo others[c]) (m'.withThread .first th) where
  toPlaced := by
    rw [withNew, ← hnext]
    apply h.toPlaced.spawn hs
    · rw [hnext]
      exact spawned_ne_first (by omega)
    · rw [hp]
      rfl
    · rw [hp]
      rfl
    · rfl
    · exact hth
    · nofun
    · rfl
    · rw [hnext]
      exact h.newThread_eq hn hc
  stranger t ht := by
    have hfirst : t ≠ .first := by
      rintro rfl
      exact ht (first_mem_crew _)
    have hnew : t ≠ spawned c := by
      rintro rfl
      exact ht (spawned_mem_crew hc)
    rw [withNew_of_ne hfirst hnew]
    exact h.stranger t ht

theorem Led.spawn (h : Led others p m) (hn : others.length < UInt64.size) (hc : c < others.length)
    (hp : p .first = .spawning c todo) (hs : Started .first (c + 1) m m') :
    Led others (withNew p c todo sections) m' := by
  have hfirst : withNew p c todo sections .first = .spawning (c + 1) todo :=
    withNew_first (by omega)
  have hother : ∀ i, i < others.length → i ≠ c →
      withNew p c todo sections (spawned i) = p (spawned i) := by
    intro i hi hic
    apply withNew_of_ne (spawned_ne_first (by omega))
    intro he
    exact hic ((spawned_inj (by omega) (by omega)).mp he)
  have hids := h.ids
  have hunborn := h.unborn
  have hborn := h.born
  rw [hp] at hids hunborn hborn
  exact {
    ids := by
      rw [hfirst, hs.sched]
      show (m.sched.ids.allocate).2 = _
      rw [hids]
      rfl
    entered := by
      rw [hfirst]
      exact h.entered_spawn hc hp hs
    worker := by
      intro t ht
      by_cases hnew : t = spawned c
      · rw [hnew, withNew_spawned]
        rfl
      · rw [withNew_of_ne ht hnew]
        exact h.worker t ht
    unborn := by
      intro i hi
      rw [hfirst]
      intro hle
      have hle : c + 1 ≤ i := hle
      rw [hother i hi (by omega)]
      exact hunborn i hi (by show c ≤ i; omega)
    born := by
      intro i
      rw [hfirst]
      intro hi rest
      have hi : i < c + 1 := hi
      by_cases hic : i = c
      · rw [hic, withNew_spawned]
        exact Stage.noConfusion
      · rw [hother i (by omega) hic]
        exact hborn i (by show i < c; omega) rest
    outcomes := by
      intro i hi
      rw [hs.outcomes]
      by_cases hic : i = c
      · rw [hic, withNew_spawned]
        exact Stage.noConfusion
      · rw [hother i hi hic]
        exact h.outcomes i hi
    going := by
      rw [hfirst]
      exact .inl rfl }

theorem spawns_drop {n : Nat} (hc : c < n) :
    (spawns n).drop c = .spawn (c + 1) :: (spawns n).drop (c + 1) := by
  rw [List.drop_eq_getElem_cons (by simpa [spawns] using hc)]
  simp [spawns]

/-- The main thread starts the next thread. -/
theorem Running.spawns_next (h : Running own others p .first m) (hn : others.length < UInt64.size)
    (hc : c < others.length) (hp : p .first = .spawning c todo) :
    m.Attains (Onward own others p m) := by
  have hnext := h.led.next_eq hp
  have hne : spawned c ≠ .first := spawned_ne_first (by omega)
  have hunborn : p (spawned c) = .unborn others[c] := by
    have hstage := h.led.unborn c hc (by rw [hp]; exact Nat.le_refl c)
    cases hpc : p (spawned c) <;> rw [hpc] at hstage <;> cases hstage
    rfl
  apply h.attains hp (by simp [Point.stack, road])
  intro r k e _
  rw [Point.stack, spawns_drop hc]
  apply Machine.attains_spawn h.held h.staged.host (by rw [hnext]; exact hne)
  intro m' hs
  have hmain : (p .first).Alike (.spawning (c + 1) todo) := by
    rw [hp]
    exact ⟨rfl, rfl, rfl, rfl⟩
  have hnew : (update p .first (.spawning (c + 1) todo) (spawned c)).Alike
      (.outside false 0 others[c]) := by
    rw [Function.update_of_ne hne, hunborn]
    exact ⟨rfl, rfl, rfl, rfl⟩
  have hclaims : Claims (withNew p c todo others[c]) m' :=
    (h.claims.stay hs.mutexes hs.locks hmain).stay rfl rfl hnew
  have hbooks := (h.books.stay hmain).stay hnew
  rw [← hs.memory] at hbooks
  have hheld : m'.sched.turn = .held .first := by
    rw [hs.sched]
    exact h.held
  refine .here ⟨withNew p c todo others[c], ?_, .inr ⟨.first, .inl hheld⟩,
    distance_lt_of_work (workLeft_withNew hn hc hp hunborn)⟩
  have hled : Led others (withNew p c todo others[c]) m' := h.led.spawn hn hc hp hs
  exact {
    staged := h.staged.spawn hn hc hp hnext hs rfl
    led := { hled with entered := { hled.entered with } }
    claims := { hclaims with }
    books := hbooks }

end Balanced

end Baton
