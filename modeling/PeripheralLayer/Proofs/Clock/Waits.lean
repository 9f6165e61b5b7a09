import Mathlib.Data.Fintype.Pigeonhole
import PeripheralLayer.Proofs.Clock.Reads

/-!
Waits. A wait compares wrapped milliseconds, and its budget of reads is enough for every wait that ends at all, so it
ends exactly at the first reading that is late. A wrapped difference never exceeds the true one. That is why a wait
cannot end early, wherever the words wrap; and a counter that runs by fixed steps cannot leap over its end.
-/
namespace PeripheralLayer.Clock

theorem exists_first {p : Nat → Prop} (some : ∃ n, ¬ p n) : ∃ n, ¬ p n ∧ ∀ i < n, p i := by
  classical exact ⟨Nat.find some, Nat.find_spec some, fun i below => not_not.mp (Nat.find_min some below)⟩

theorem iterate_recurs (f : UInt32 → UInt32) (a : UInt32) (n : Nat) : ∃ m < UInt32.size, f^[m] a = f^[n] a := by
  obtain ⟨i, j, before, same⟩ : ∃ i j : Fin (UInt32.size + 1), i < j ∧ f^[i] a = f^[j] a := by
    obtain ⟨i, j, different, same⟩ := Fintype.exists_ne_map_eq_of_card_lt
      (fun k : Fin (UInt32.size + 1) => (f^[k] a).toFin) (by simp [UInt32.size])
    rcases Fin.lt_or_lt_of_ne different with before | before
    · exact ⟨i, j, before, UInt32.toFin_inj.mp same⟩
    · exact ⟨j, i, before, (UInt32.toFin_inj.mp same).symm⟩
  -- A value beyond the second of the two is that of an earlier turn.
  induction n using Nat.strongRecOn with
  | ind n ih =>
    by_cases small : n < UInt32.size
    · exact ⟨n, small, rfl⟩
    · have inside := j.isLt
      have less : i.val < j.val := before
      obtain ⟨m, below, eq⟩ := ih (n - j.val + i.val) (by omega)
      refine ⟨m, below, eq.trans ?_⟩
      rw [Function.iterate_add_apply, same, ← Function.iterate_add_apply]
      congr 1
      omega

namespace Timer

variable {t u v : Timer} {start span : UInt32} {fuel n : Nat}

/-- The clock shows at most `span` milliseconds more than `start`, as far as its words tell. -/
def Early (start span : UInt32) (u : Timer) : Prop := u.shown - start ≤ span

theorem early_at_start (t : Timer) : Early t.shown span t := by
  rw [Early, UInt32.sub_self]
  exact UInt32.zero_le

theorem waitWithin_of_early (early : ∀ i < fuel, Early start span (read^[i + 1] t)) :
    waitWithin fuel start span t = none := by
  induction fuel generalizing t with
  | zero => rfl
  | succ fuel ih =>
    have first : t.read.shown - start ≤ span := early 0 (Nat.succ_pos fuel)
    rw [waitWithin, milliseconds_eq]
    simp only [first, if_true]
    exact ih fun i below => early (i + 1) (by omega)

theorem waitWithin_of_late (before : ∀ i < n, Early start span (read^[i + 1] t))
    (late : ¬ Early start span (read^[n + 1] t)) (enough : n < fuel) :
    waitWithin fuel start span t = some (read^[n + 1] t) := by
  induction n generalizing t fuel with
  | zero =>
    obtain ⟨fuel, rfl⟩ := Nat.exists_eq_add_of_le' (show 1 ≤ fuel by omega)
    have first : ¬ t.read.shown - start ≤ span := late
    rw [waitWithin, milliseconds_eq]
    simp only [first, if_false]
    rfl
  | succ n ih =>
    obtain ⟨fuel, rfl⟩ := Nat.exists_eq_add_of_le' (show 1 ≤ fuel by omega)
    have first : t.read.shown - start ≤ span := before 0 (Nat.succ_pos n)
    rw [waitWithin, milliseconds_eq]
    simp only [first, if_true]
    exact ih (fun i below => before (i + 1) (by omega)) late (by omega)

theorem unscripted_iterate (unscripted : t.counter.script = []) (n : Nat) :
    (read^[n] t).counter.script = [] := by
  rw [counter_iterate, Counter.script_iterate, unscripted, List.drop_nil]

theorem ticks_iterate (unscripted : t.counter.script = []) (n : Nat) :
    (read^[n] t).counter.ticks = (Counter.slid t.counter.step)^[n] t.counter.ticks := by
  induction n with
  | zero => rfl
  | succ n ih =>
    rw [Function.iterate_succ_apply', Function.iterate_succ_apply', counter_read, Counter.moved,
      Counter.read_of_unscripted (unscripted_iterate unscripted n), step_iterate, ih]

def gain (t : Timer) (ticks : UInt32) : UInt32 :=
  if t.counter.sink ∧ ticksPerPeriod ≤ ticks + t.counter.step then 1 else 0

theorem seconds_iterate_succ (unscripted : t.counter.script = []) (n : Nat) :
    (read^[n + 1] t).seconds = (read^[n] t).seconds + t.gain (read^[n] t).counter.ticks := by
  rw [Function.iterate_succ_apply', seconds_read, Counter.read_of_unscripted (unscripted_iterate unscripted n),
    gain, sink_iterate, step_iterate]
  by_cases listens : t.counter.sink = true
  · by_cases wraps : ticksPerPeriod ≤ (read^[n] t).counter.ticks + t.counter.step
    · simp [listens, wraps]
    · simp [listens, wraps]
  · simp [listens]

theorem shown_recurs (unscripted : t.counter.script = [])
    (still : ∀ n ≤ UInt32.size, (read^[n] t).seconds = t.seconds) (n : Nat) :
    ∃ m < UInt32.size, (read^[m] t).shown = (read^[n] t).shown := by
  have ticks (n : Nat) : ∃ m < UInt32.size, (read^[m] t).counter.ticks = (read^[n] t).counter.ticks := by
    obtain ⟨m, below, same⟩ := iterate_recurs (Counter.slid t.counter.step) t.counter.ticks n
    exact ⟨m, below, by rw [ticks_iterate unscripted, ticks_iterate unscripted, same]⟩
  have seconds (n : Nat) : (read^[n] t).seconds = t.seconds := by
    induction n with
    | zero => rfl
    | succ n ih =>
      obtain ⟨m, below, same⟩ := ticks n
      have stands := seconds_iterate_succ unscripted m
      rw [still m (by omega), still (m + 1) (by omega), same] at stands
      rw [seconds_iterate_succ unscripted, ih, ← stands]
  obtain ⟨m, below, same⟩ := ticks n
  exact ⟨m, below, by rw [shown, shown, same, seconds m, seconds n]⟩

theorem moves_on (unscripted : t.counter.script = []) {n : Nat} (moved : (read^[n] t).seconds ≠ t.seconds) :
    ∃ m ≤ n, (read^[m] t).seconds = t.seconds + 1 := by
  induction n with
  | zero => exact absurd rfl moved
  | succ n ih =>
    by_cases before : (read^[n] t).seconds = t.seconds
    · have next := seconds_iterate_succ unscripted n
      rw [before, gain] at next
      split at next
      · exact ⟨n + 1, Nat.le_refl _, next⟩
      · rw [next, UInt32.add_zero] at moved
        exact absurd rfl moved
    · obtain ⟨m, le, on⟩ := ih before
      exact ⟨m, by omega, on⟩

/-- What a clock shows within a second lies within 4294968 milliseconds, so 4361 seconds take it out of every
stretch that a wait can last. -/
theorem late_of_seconds (small : span.toNat < 65536) (later : v.seconds = u.seconds + 4361)
    (early : Early start span u) : ¬ Early start span v := by
  intro early'
  simp only [Early, shown, later, UInt32.le_iff_toNat_le, UInt32.toNat_sub, UInt32.toNat_add, UInt32.toNat_mul,
    UInt32.toNat_div, UInt32.reduceToNat] at early early'
  have ticks := u.counter.ticks.toNat_lt
  have ticks' := v.counter.ticks.toNat_lt
  have begun := start.toNat_lt
  have seconds := u.seconds.toNat_lt
  omega

theorem early_or_moves_on (unscripted : t.counter.script = [])
    (early : ∀ n < UInt32.size, Early start span (read^[n] t)) :
    (∀ n, Early start span (read^[n] t)) ∨ ∃ m ≤ UInt32.size, (read^[m] t).seconds = t.seconds + 1 := by
  -- If the seconds stand still that long, the counter has come round and has shown all that it will ever show.
  by_cases still : ∀ n ≤ UInt32.size, (read^[n] t).seconds = t.seconds
  · refine .inl fun n => ?_
    obtain ⟨m, below, same⟩ := shown_recurs unscripted still n
    have holds := early m below
    rwa [Early, ← same]
  · push Not at still
    obtain ⟨n, le, moved⟩ := still
    obtain ⟨m, le', on⟩ := moves_on unscripted moved
    exact .inr ⟨m, Nat.le_trans le' le, on⟩

theorem early_or_reaches (unscripted : t.counter.script = [])
    (early : ∀ n < 65536 * UInt32.size, Early start span (read^[n] t)) {j : Nat} (few : j ≤ 4361) :
    (∀ n, Early start span (read^[n] t)) ∨
      ∃ n ≤ j * UInt32.size, (read^[n] t).seconds = t.seconds + UInt32.ofNat j := by
  induction j with
  | zero => exact .inr ⟨0, by simp, by simp⟩
  | succ j ih =>
    rcases ih (by omega) with forever | ⟨n, le, seconds⟩
    · exact .inl forever
    have inside : n + UInt32.size ≤ 65536 * UInt32.size := by
      simp only [UInt32.size] at *
      omega
    have onward : ∀ k < UInt32.size, Early start span (read^[k] (read^[n] t)) := by
      intro k below
      rw [← Function.iterate_add_apply]
      exact early (k + n) (by omega)
    rcases early_or_moves_on (unscripted_iterate unscripted n) onward with forever | ⟨m, le', on⟩
    · refine .inl fun i => ?_
      by_cases earlier : i < n
      · exact early i (by omega)
      · have later := forever (i - n)
        rwa [← Function.iterate_add_apply, Nat.sub_add_cancel (by omega)] at later
    · refine .inr ⟨m + n, ?_, ?_⟩
      · rw [Nat.succ_mul]
        omega
      · rw [Function.iterate_add_apply, on, seconds, UInt32.ofNat_add, UInt32.add_assoc]
        rfl

theorem early_forever (unscripted : t.counter.script = []) (small : span.toNat < 65536)
    (early : ∀ n < 65536 * UInt32.size, Early start span (read^[n] t)) (n : Nat) : Early start span (read^[n] t) := by
  rcases early_or_reaches unscripted early (Nat.le_refl 4361) with forever | ⟨m, le, seconds⟩
  · exact forever n
  · -- So many seconds are more than any wait lasts, and they pass within the early readings.
    have first : Early start span t := early 0 (by decide)
    have inside : m < 65536 * UInt32.size := by
      simp only [UInt32.size] at *
      omega
    exact absurd (early m inside) (late_of_seconds small seconds first)

theorem lt_waitFuel_of_late (small : span.toNat < 65536) (before : ∀ i < n, Early start span (read^[i] t))
    (late : ¬ Early start span (read^[n] t)) : n < t.waitFuel := by
  by_contra exhausted
  have fuel : t.waitFuel = 65536 * UInt32.size + t.counter.script.length := rfl
  have unscripted : (read^[t.counter.script.length] t).counter.script = [] := by
    rw [counter_iterate, Counter.script_iterate, List.drop_length]
  have behind : ∀ k < 65536 * UInt32.size, Early start span (read^[k] (read^[t.counter.script.length] t)) := by
    intro k below
    rw [← Function.iterate_add_apply]
    exact before _ (by omega)
  have last := early_forever unscripted small behind (n - t.counter.script.length)
  rw [← Function.iterate_add_apply, Nat.sub_add_cancel (by omega)] at last
  exact late last

theorem delay_cases (t : Timer) (span : UInt16) :
    (t.delay span = none ∧ ∀ n, Early t.read.shown span.toUInt32 (read^[n + 1] t)) ∨
      ∃ n, t.delay span = some (read^[n + 1] t) ∧ ¬ Early t.read.shown span.toUInt32 (read^[n + 1] t) ∧
        ∀ i < n, Early t.read.shown span.toUInt32 (read^[i + 1] t) := by
  have waits : t.delay span = waitWithin t.read.waitFuel t.read.shown span.toUInt32 t.read := rfl
  have small : span.toUInt32.toNat < 65536 := by simpa using span.toNat_lt
  by_cases late : ∃ n, ¬ Early t.read.shown span.toUInt32 (read^[n + 1] t)
  · obtain ⟨n, late, before⟩ := exists_first late
    have enough : n < t.read.waitFuel := lt_waitFuel_of_late small before late
    refine .inr ⟨n, ?_, late, before⟩
    cases n with
    | zero => exact absurd (early_at_start t.read) late
    | succ n =>
      rw [waits]
      exact waitWithin_of_late (fun i below => before (i + 1) (by omega)) late (by omega)
  · push Not at late
    refine .inl ⟨?_, late⟩
    rw [waits]
    exact waitWithin_of_early fun i _ => late (i + 1)

theorem delay_of_late {span : UInt16} (late : ¬ Early t.read.shown span.toUInt32 (read^[n + 1] t))
    (before : ∀ i < n, Early t.read.shown span.toUInt32 (read^[i + 1] t)) :
    t.delay span = some (read^[n + 1] t) := by
  rcases t.delay_cases span with ⟨-, early⟩ | ⟨m, ends, late', before'⟩
  · exact absurd (early n) late
  · have noLater : ¬ n < m := fun less => late (before' n less)
    have noEarlier : ¬ m < n := fun less => late' (before m less)
    rwa [show n = m by omega]

section TrueTime

variable {s : Nat}

/-- The milliseconds from the first reading to the `n`-th, each rounded down, as far as 32 bits show them. -/
def lapse (t : Timer) (s n : Nat) : Int :=
  ((t.trueTime s n / 1000 : Nat) - (t.trueTime s 0 / 1000 : Nat) : Int) % UInt32.size

@[simp] theorem lapse_zero (t : Timer) (s : Nat) : t.lapse s 0 = 0 := by simp [lapse]

theorem lapse_le (rising : ∀ i < n, t.trueTime s i ≤ t.trueTime s (i + 1)) :
    t.lapse s n ≤ (t.trueTime s n / 1000 - t.trueTime s 0 / 1000 : Nat) := by
  have ahead (k : Nat) (le : k ≤ n) : t.trueTime s 0 ≤ t.trueTime s k := by
    induction k with
    | zero => exact Nat.le_refl _
    | succ k ih => exact Nat.le_trans (ih (by omega)) (rising k le)
  have last := ahead n (Nat.le_refl n)
  simp only [lapse, UInt32.size]
  omega

theorem early_iff (counted : t.seconds = UInt32.ofNat s) (span : UInt32) (n : Nat) :
    Early t.read.shown span (read^[n + 1] t) ↔ t.lapse s n ≤ span.toNat := by
  have first : t.read.shown.toNat = t.trueTime s 0 / 1000 % UInt32.size := toNat_reading counted 0
  rw [Early, lapse, UInt32.le_iff_toNat_le, UInt32.toNat_sub, toNat_reading counted n, first]
  simp only [UInt32.size]
  omega

/-- A wait ends at the first reading that lies more than `span` milliseconds behind the first one, as far as 32 bits
show it, and goes on forever if there is none. Wherever the words wrap and however far the readings leap, it never
ends early: if the true times of its readings never decrease, more than `span` milliseconds have passed. -/
theorem delay_outlasts_span (counted : t.seconds = UInt32.ofNat s) (span : UInt16) :
    (t.delay span = none ↔ ∀ n, t.lapse s n ≤ span.toNat) ∧
      ∀ u, t.delay span = some u → ∃ n, 1 ≤ n ∧ u = read^[n + 1] t ∧
        u.counter.reads = t.counter.reads + (n + 1) ∧ span.toNat < t.lapse s n ∧
        (∀ i, 1 ≤ i → i < n → t.lapse s i ≤ span.toNat) ∧
        ((∀ i < n, t.trueTime s i ≤ t.trueTime s (i + 1)) →
          1000 * span.toNat < t.trueTime s n - t.trueTime s 0) := by
  have early (n : Nat) : Early t.read.shown span.toUInt32 (read^[n + 1] t) ↔ t.lapse s n ≤ span.toNat := by
    simpa using early_iff counted span.toUInt32 n
  rcases t.delay_cases span with ⟨endless, holds⟩ | ⟨n, ends, late, before⟩
  · constructor
    · exact ⟨fun _ n => (early n).mp (holds n), fun _ => endless⟩
    · intro u returned
      rw [endless] at returned
      cases returned
  · constructor
    · refine ⟨fun endless => ?_, fun all => absurd ((early n).mpr (all n)) late⟩
      rw [endless] at ends
      cases ends
    · intro u returned
      obtain rfl : read^[n + 1] t = u := Option.some_inj.mp (ends.symm.trans returned)
      have far : ¬ t.lapse s n ≤ span.toNat := mt (early n).mpr late
      have later : 1 ≤ n := by
        by_contra none
        obtain rfl : n = 0 := by omega
        exact far (by simp)
      refine ⟨n, later, rfl, t.reads_iterate (n + 1), Int.not_le.mp far, ?_, ?_⟩
      · intro i _ below
        exact (early i).mp (before i below)
      · intro rising
        have whole := lapse_le rising
        omega

end TrueTime

/-- A counter by a script, one terminal count before the seconds wrap. From its second reading to its third it
leaps over a whole turn of the milliseconds. -/
def leapingClock : Timer where
  counter := { ticks := 0, step := 0, sink := true
               script := [(999900, 0), (300, 1), (296300, 4294967), (297000, 0)] }
  seconds := 4294967295

theorem leaping_clock_outlasts_span :
    leapingClock.seconds = UInt32.ofNat 4294967295 ∧
      ∃ u, leapingClock.delay 1 = some u ∧ u.counter.reads = 4 ∧
        (∀ i < 3, leapingClock.trueTime 4294967295 i ≤ leapingClock.trueTime 4294967295 (i + 1)) ∧
        leapingClock.lapse 4294967295 2 ≤ 1 ∧
        1000 < leapingClock.trueTime 4294967295 3 - leapingClock.trueTime 4294967295 0 := by
  have counted : leapingClock.seconds = UInt32.ofNat 4294967295 := by decide
  have returned : leapingClock.delay 1 = some (read^[4] leapingClock) := by decide
  have rising : ∀ i < 3, leapingClock.trueTime 4294967295 i ≤ leapingClock.trueTime 4294967295 (i + 1) := by decide
  obtain ⟨n, -, -, reads, -, early, long⟩ := (delay_outlasts_span counted 1).2 _ returned
  obtain rfl : n = 3 := by
    have four : (read^[4] leapingClock).counter.reads = leapingClock.counter.reads + 4 := by decide
    omega
  exact ⟨counted, _, returned, reads, rising, early 2 (by decide) (by decide), long rising⟩

/-! Counters that run by fixed steps. -/

section Stepping

variable {s : Nat}

theorem Paced.ticks_read (paced : t.Paced) (unscripted : t.counter.script = []) :
    t.read.counter.ticks.toNat + 1000000 * t.counter.read.2 = t.counter.ticks.toNat + t.counter.step.toNat := by
  rw [counter_read, Counter.moved, Counter.read_of_unscripted unscripted]
  by_cases wraps : ticksPerPeriod ≤ t.counter.ticks + t.counter.step
  · simp only [Counter.slid, wraps, if_true]
    exact paced.toNat_wrapped wraps
  · simp only [Counter.slid, wraps, if_false]
    exact paced.toNat_moved

theorem Listening.trueTime_succ (h : t.Listening) (paced : t.Paced) (s n : Nat) :
    t.trueTime s (n + 1) = t.trueTime s n + t.counter.step.toNat := by
  have reached := advanced_iterate h (n + 1)
  have moves : (read^[n + 1 + 1] t).counter.ticks.toNat + 1000000 * (read^[n + 1] t).counter.read.2 =
      (read^[n + 1] t).counter.ticks.toNat + t.counter.step.toNat := by
    rw [Function.iterate_succ_apply', ← reached.step]
    exact (reached.paced paced).ticks_read reached.listening.script
  rw [trueTime, trueTime, hears_succ, if_pos h.sink]
  omega

theorem Listening.trueTime_eq (h : t.Listening) (paced : t.Paced) (s n : Nat) :
    t.trueTime s n = t.trueTime s 0 + n * t.counter.step.toNat := by
  induction n with
  | zero => simp
  | succ n ih => rw [h.trueTime_succ paced, ih, Nat.succ_mul, Nat.add_assoc]

theorem exists_first_past (first step span : Nat) (moves : 0 < step) :
    ∃ k, 1 ≤ k ∧ span < (first + k * step) / 1000 - first / 1000 ∧
      ∀ n, n < k → (first + n * step) / 1000 - first / 1000 ≤ span := by
  have past : ∃ k, ¬ (first + k * step) / 1000 - first / 1000 ≤ span := by
    refine ⟨1000 * (span + 1), ?_⟩
    have far : 1000 * (span + 1) * 1 ≤ 1000 * (span + 1) * step := Nat.mul_le_mul_left _ moves
    omega
  obtain ⟨k, late, before⟩ := exists_first past
  refine ⟨k, ?_, Nat.not_le.mp late, before⟩
  by_contra none
  obtain rfl : k = 0 := by omega
  simp at late

/-- A wait on a counter that runs by fixed steps ends, at the very read that its step and its beginning say, and
less than one step and one millisecond after its time. -/
theorem delay_ends_in_bounded_time (sink : t.counter.sink = true) (unscripted : t.counter.script = [])
    (inside : t.counter.ticks < ticksPerPeriod) (moves : 0 < t.counter.step) (short : t.counter.step ≤ ticksPerPeriod)
    (counted : t.seconds = UInt32.ofNat s) (span : UInt16) :
    let first := t.trueTime s 0
    let step := t.counter.step.toNat
    ∃ k, (1 ≤ k ∧ span.toNat < (first + k * step) / 1000 - first / 1000 ∧
        ∀ n, 1 ≤ n → n < k → (first + n * step) / 1000 - first / 1000 ≤ span.toNat) ∧
      ∃ u, t.delay span = some u ∧ u = read^[1 + k] t ∧ u.counter.reads = t.counter.reads + (1 + k) ∧
        1000 * span.toNat < t.trueTime s k - first ∧ t.trueTime s k - first < 1000 * (span.toNat + 1) + step := by
  intro first step
  have listening : t.Listening := ⟨sink, unscripted⟩
  have paced : t.Paced := ⟨inside, short⟩
  have times (n : Nat) : t.trueTime s n = first + n * step := listening.trueTime_eq paced s n
  have bounds : 0 < step ∧ step ≤ 1000000 := ⟨UInt32.lt_iff_toNat_lt.mp moves, paced.bounds.2⟩
  have spans := span.toNat_lt
  obtain ⟨k, later, past, before⟩ := exists_first_past first step span.toNat bounds.1
  have last : (first + (k - 1) * step) / 1000 - first / 1000 ≤ span.toNat := before (k - 1) (by omega)
  have one : k * step = (k - 1) * step + step := by
    rw [← Nat.succ_mul, Nat.succ_eq_add_one, Nat.sub_add_cancel later]
  have early (n : Nat) : Early t.read.shown span.toUInt32 (read^[n + 1] t) ↔
      (((first + n * step) / 1000 : Nat) - (first / 1000 : Nat) : Int) % UInt32.size ≤ span.toNat := by
    have meaning := early_iff counted span.toUInt32 n
    rw [lapse, times n] at meaning
    simpa using meaning
  have ends : t.delay span = some (read^[k + 1] t) := by
    refine delay_of_late ?_ fun n below => ?_
    · rw [early]
      simp only [UInt32.size]
      omega
    · have still := before n below
      rw [early]
      simp only [UInt32.size]
      omega
  refine ⟨k, ⟨later, past, fun n _ below => before n below⟩, _, ends, by rw [Nat.add_comm], ?_, ?_, ?_⟩
  · rw [reads_iterate, Nat.add_comm 1 k]
  · rw [times k]
    omega
  · rw [times k]
    omega

/-- A clock whose milliseconds wrap during a wait. -/
def wrappingClock : Timer := { counter := { ticks := 293500, step := 500, sink := true }, seconds := 4294967 }

theorem wrapping_clock_ends_in_bounded_time :
    wrappingClock.counter.sink = true ∧ wrappingClock.counter.script = [] ∧
      wrappingClock.counter.ticks < ticksPerPeriod ∧ 0 < wrappingClock.counter.step ∧
      wrappingClock.counter.step ≤ ticksPerPeriod ∧ wrappingClock.seconds = UInt32.ofNat 4294967 ∧
      ∃ u, wrappingClock.delay 10 = some u ∧ u.counter.reads = 1 + 22 ∧
        10000 < wrappingClock.trueTime 4294967 22 - wrappingClock.trueTime 4294967 0 ∧
        wrappingClock.trueTime 4294967 22 - wrappingClock.trueTime 4294967 0 < 11500 := by
  have inside : wrappingClock.counter.ticks < ticksPerPeriod := by decide
  have moves : 0 < wrappingClock.counter.step := by decide
  have short : wrappingClock.counter.step ≤ ticksPerPeriod := by decide
  have counted : wrappingClock.seconds = UInt32.ofNat 4294967 := by decide
  obtain ⟨k, ⟨-, past, before⟩, u, ends, -, reads, long, close⟩ :=
    delay_ends_in_bounded_time (t := wrappingClock) rfl rfl inside moves short counted 10
  have first : wrappingClock.trueTime 4294967 0 = 4294967294000 := by decide
  have step : wrappingClock.counter.step.toNat = 500 := by decide
  have span : (10 : UInt16).toNat = 10 := by decide
  rw [first, step, span] at past
  obtain rfl : k = 22 := by
    have least : ¬ 22 < k := by
      intro further
      have still := before 22 (by decide) further
      rw [first, step, span] at still
      omega
    omega
  exact ⟨rfl, rfl, inside, moves, short, counted, u, ends, reads, long, close⟩

end Stepping

end Timer

end PeripheralLayer.Clock
