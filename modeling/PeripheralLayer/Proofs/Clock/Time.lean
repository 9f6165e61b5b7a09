import Mathlib.Logic.Function.Iterate
import PeripheralLayer.Clock.Bench

/-!
The time that a clock shows. Between two looks at a clock its counter was read so many times and so many
terminal counts were delivered to it, and that alone says how far it has come: both of its readings are
views of one true time, which never wraps. `Advanced` says so for any stretch of use, and stretches compose.

The counter's words wrap, so the microseconds are right for every counter and every step. The milliseconds
divide the counter before they add, and are right as long as the counter stays within its period.
-/
namespace PeripheralLayer.Clock

def Step.usesClock : Step → Bool
  | .counts _ | .sinkCounts _ | .microseconds | .milliseconds | .delay _ => true
  | .init | .deinit | .set _ _ | .script _ | .fail _ _ => false

def Step.delivered : Step → Nat
  | .counts n | .sinkCounts n => n
  | _ => 0

namespace Timer

def timeAfter (t : Timer) (reads counts : Nat) : Nat :=
  t.counter.ticks.toNat + 1000000 * t.seconds.toNat + t.counter.step.toNat * reads + 1000000 * counts

def word (t : Timer) : UInt32 := t.counter.ticks + t.seconds * 1000000

def shown (t : Timer) : UInt32 := t.counter.ticks / 1000 + t.seconds * 1000

theorem toNat_word {t : Timer} {s : Nat} (counted : t.seconds = UInt32.ofNat s) :
    t.word.toNat = (t.counter.ticks.toNat + 1000000 * s) % UInt32.size := by
  rw [word, counted, UInt32.toNat_add, UInt32.toNat_mul, UInt32.toNat_ofNat']
  simp only [UInt32.reduceToNat, UInt32.size]
  omega

theorem toNat_shown {t : Timer} {s : Nat} (counted : t.seconds = UInt32.ofNat s) :
    t.shown.toNat = (t.counter.ticks.toNat / 1000 + 1000 * s) % UInt32.size := by
  rw [shown, counted, UInt32.toNat_add, UInt32.toNat_mul, UInt32.toNat_div, UInt32.toNat_ofNat']
  simp only [UInt32.reduceToNat, UInt32.size]
  omega

/-- The counter is inside its period, and one step does not take it past the next one. -/
structure Paced (t : Timer) : Prop where
  inside : t.counter.ticks < ticksPerPeriod
  short : t.counter.step ≤ ticksPerPeriod

structure Listening (t : Timer) : Prop where
  sink : t.counter.sink = true
  script : t.counter.script = []

/-- From `t` to `u` the counter was read so many times and so many terminal counts were delivered. -/
structure Advanced (t : Timer) (reads counts : Nat) (u : Timer) : Prop where
  listening : u.Listening
  step : u.counter.step = t.counter.step
  counted : u.counter.reads = t.counter.reads + reads
  word : u.word = t.word + UInt32.ofNat reads * t.counter.step + UInt32.ofNat counts * 1000000
  inside : t.Paced → u.counter.ticks < ticksPerPeriod
  time : t.Paced → ∀ s, t.seconds = UInt32.ofNat s → ∃ s', u.seconds = UInt32.ofNat s' ∧
    u.counter.ticks.toNat + 1000000 * s' =
      t.counter.ticks.toNat + 1000000 * s + t.counter.step.toNat * reads + 1000000 * counts

section Advanced

variable {t u v : Timer} {r c r' c' : Nat}

theorem Advanced.refl (h : t.Listening) : t.Advanced 0 0 t := by
  refine ⟨h, rfl, rfl, by simp, fun paced => paced.inside, fun _ s eq => ⟨s, eq, by simp⟩⟩

theorem Advanced.paced (h : t.Advanced r c u) (paced : t.Paced) : u.Paced :=
  ⟨h.inside paced, h.step ▸ paced.short⟩

theorem Advanced.trans (first : t.Advanced r c u) (second : u.Advanced r' c' v) :
    t.Advanced (r + r') (c + c') v := by
  constructor
  case listening => exact second.listening
  case step => rw [second.step, first.step]
  case counted => rw [second.counted, first.counted, Nat.add_assoc]
  case word =>
    rw [second.word, first.word, first.step, UInt32.ofNat_add, UInt32.ofNat_add]
    grind
  case inside => exact fun paced => second.inside (first.paced paced)
  case time =>
    intro paced s eq
    obtain ⟨s', eq', between⟩ := first.time paced s eq
    obtain ⟨s'', eq'', time⟩ := second.time (first.paced paced) s' eq'
    refine ⟨s'', eq'', ?_⟩
    rw [time, between, first.step]
    grind

theorem advanced_counts (h : t.Listening) (n : Nat) : t.Advanced 0 n (t.onTerminalCounts n) := by
  constructor
  case listening => exact ⟨h.sink, h.script⟩
  case step => rfl
  case counted => rfl
  case word =>
    simp only [word, onTerminalCounts]
    grind
  case inside => exact fun paced => paced.inside
  case time =>
    intro _ s eq
    refine ⟨s + n, by simp [onTerminalCounts, eq, UInt32.ofNat_add], ?_⟩
    simp only [onTerminalCounts]
    omega

theorem advanced_raise (h : t.Listening) (n : Nat) : t.Advanced 0 n (t.raise n) := by
  rw [raise, if_pos h.sink]
  exact advanced_counts h n

theorem read_of_short (h : t.Listening) (short : t.counter.ticks + t.counter.step < ticksPerPeriod) :
    t.read = t.withCounter { t.counter with
      ticks := t.counter.ticks + t.counter.step, reads := t.counter.reads + 1 } := by
  have within : ¬ ticksPerPeriod ≤ t.counter.ticks + t.counter.step := UInt32.not_le.mpr short
  simp [read, Counter.read, h.script, within, raise, onTerminalCounts, withCounter]

theorem read_of_wraps (h : t.Listening) (wraps : ticksPerPeriod ≤ t.counter.ticks + t.counter.step) :
    t.read = (t.withCounter { t.counter with
      ticks := t.counter.ticks + t.counter.step - ticksPerPeriod
      reads := t.counter.reads + 1 }).onTerminalCounts 1 := by
  simp [read, Counter.read, h.script, wraps, raise, h.sink, withCounter]

theorem toNat_ticksPerPeriod : ticksPerPeriod.toNat = 1000000 := rfl

theorem Paced.bounds (paced : t.Paced) : t.counter.ticks.toNat < 1000000 ∧ t.counter.step.toNat ≤ 1000000 :=
  ⟨UInt32.lt_iff_toNat_lt.mp paced.inside, UInt32.le_iff_toNat_le.mp paced.short⟩

theorem Paced.toNat_moved (paced : t.Paced) :
    (t.counter.ticks + t.counter.step).toNat = t.counter.ticks.toNat + t.counter.step.toNat := by
  have bounds := paced.bounds
  rw [UInt32.toNat_add]
  omega

theorem Paced.toNat_wrapped (paced : t.Paced) (wraps : ticksPerPeriod ≤ t.counter.ticks + t.counter.step) :
    (t.counter.ticks + t.counter.step - ticksPerPeriod).toNat + 1000000 =
      t.counter.ticks.toNat + t.counter.step.toNat := by
  have moved := paced.toNat_moved
  have reached : 1000000 ≤ (t.counter.ticks + t.counter.step).toNat := UInt32.le_iff_toNat_le.mp wraps
  rw [UInt32.toNat_sub_of_le _ _ wraps, toNat_ticksPerPeriod]
  omega

theorem advanced_read (h : t.Listening) : t.Advanced 1 0 t.read := by
  by_cases wraps : ticksPerPeriod ≤ t.counter.ticks + t.counter.step
  · rw [read_of_wraps h wraps]
    constructor
    case listening => exact ⟨h.sink, h.script⟩
    case step => rfl
    case counted => rfl
    case word =>
      simp only [word, onTerminalCounts, withCounter, ticksPerPeriod]
      grind
    case inside =>
      intro paced
      have wrapped := paced.toNat_wrapped wraps
      have bounds := paced.bounds
      apply UInt32.lt_iff_toNat_lt.mpr
      rw [toNat_ticksPerPeriod]
      have small : (t.counter.ticks + t.counter.step - ticksPerPeriod).toNat < 1000000 := by omega
      exact small
    case time =>
      intro paced s eq
      have wrapped := paced.toNat_wrapped wraps
      refine ⟨s + 1, by simp [onTerminalCounts, withCounter, eq, UInt32.ofNat_add], ?_⟩
      have time : (t.counter.ticks + t.counter.step - ticksPerPeriod).toNat + 1000000 * (s + 1) =
          t.counter.ticks.toNat + 1000000 * s + t.counter.step.toNat * 1 + 1000000 * 0 := by grind
      exact time
  · rw [read_of_short h (UInt32.not_le.mp wraps)]
    constructor
    case listening => exact ⟨h.sink, h.script⟩
    case step => rfl
    case counted => rfl
    case word =>
      simp only [word, withCounter]
      grind
    case inside => exact fun _ => UInt32.not_le.mp wraps
    case time =>
      intro paced s eq
      have moved := paced.toNat_moved
      refine ⟨s, eq, ?_⟩
      simp only [withCounter]
      omega

theorem advanced_iterate (h : t.Listening) (k : Nat) : t.Advanced k 0 (read^[k] t) := by
  induction k with
  | zero => exact .refl h
  | succ k ih =>
    rw [Function.iterate_succ_apply']
    exact ih.trans (advanced_read ih.listening)

theorem waitWithin_reads {fuel : Nat} {start span : UInt32} (ended : waitWithin fuel start span t = some u) :
    ∃ k, u = read^[k + 1] t := by
  induction fuel generalizing t with
  | zero => cases ended
  | succ fuel ih =>
    simp only [waitWithin] at ended
    split at ended
    · obtain ⟨k, rfl⟩ := ih ended
      exact ⟨k + 1, rfl⟩
    · cases ended
      exact ⟨0, rfl⟩

theorem delay_reads {span : UInt16} (ended : t.delay span = some u) : ∃ k, u = read^[k + 2] t := by
  obtain ⟨k, rfl⟩ := waitWithin_reads ended
  exact ⟨k, rfl⟩

theorem advanced_perform (h : t.Listening) {step : Step} (use : step.usesClock = true) :
    ∃ k, t.Advanced k step.delivered (t.perform step).timer := by
  cases step with
  | counts n => exact ⟨0, advanced_counts h n⟩
  | sinkCounts n => exact ⟨0, advanced_raise h n⟩
  | microseconds | milliseconds => exact ⟨1, advanced_read h⟩
  | delay span =>
    cases waited : t.delay span with
    | none =>
      simp only [perform, waited]
      exact ⟨0, .refl h⟩
    | some u =>
      obtain ⟨k, rfl⟩ := delay_reads waited
      simp only [perform, waited]
      exact ⟨k + 2, advanced_iterate h (k + 2)⟩
  | init | deinit | set | script | fail => cases use

theorem ofNat_timeAfter (t : Timer) (r c : Nat) :
    UInt32.ofNat (t.timeAfter r c) =
      t.word + UInt32.ofNat r * t.counter.step + UInt32.ofNat c * 1000000 := by
  have million : UInt32.ofNat 1000000 = 1000000 := rfl
  simp only [timeAfter, UInt32.ofNat_add, UInt32.ofNat_mul, UInt32.ofNat_toNat, word, million]
  rw [UInt32.mul_comm 1000000, UInt32.mul_comm 1000000, UInt32.mul_comm t.counter.step]

theorem Advanced.toNat_word (h : t.Advanced r c u) : u.word.toNat = t.timeAfter r c % UInt32.size := by
  rw [h.word, ← ofNat_timeAfter, UInt32.toNat_ofNat']

theorem Advanced.toNat_milliseconds (h : t.Advanced r c u) (paced : t.Paced) :
    u.shown.toNat = t.timeAfter r c / 1000 % UInt32.size := by
  obtain ⟨s, seconds, time⟩ := h.time paced t.seconds.toNat (by simp)
  have whole : t.timeAfter r c / 1000 = u.counter.ticks.toNat / 1000 + 1000 * s := by
    rw [timeAfter, ← time]
    omega
  rw [whole, toNat_shown seconds]

end Advanced

end Timer

def delivered : List Moment → Nat
  | [] => 0
  | m :: later => m.step.delivered + delivered later

theorem delivered_concat (past : List Moment) (m : Moment) :
    delivered (past ++ [m]) = delivered past + m.step.delivered := by
  induction past with
  | nil => simp [delivered]
  | cons first past ih => rw [List.cons_append, delivered, delivered, ih, Nat.add_assoc]

theorem run_cons (t : Timer) (step : Step) (steps : List Step) :
    ∃ m later, run t (step :: steps) = m :: later ∧ m.step = step ∧ m.reply = (t.perform step).reply ∧
      m.after = (t.perform step).timer ∧ (later = [] ∨ later = run (t.perform step).timer steps) := by
  simp only [run]
  split
  · exact ⟨_, [], rfl, rfl, rfl, rfl, Or.inl rfl⟩
  · exact ⟨_, _, rfl, rfl, rfl, rfl, Or.inr rfl⟩

theorem advanced_run {t : Timer} (h : t.Listening) {steps : List Step}
    (use : ∀ step ∈ steps, step.usesClock = true) {past later : List Moment} {m : Moment}
    (told : run t steps = past ++ m :: later) :
    ∃ found r, t.Advanced r (delivered past) found ∧ m.step.usesClock = true ∧
      m.reply = (found.perform m.step).reply ∧ m.after = (found.perform m.step).timer := by
  induction steps generalizing t past with
  | nil => simp [run] at told
  | cons step steps ih =>
    obtain ⟨useFirst, useRest⟩ := List.forall_mem_cons.mp use
    obtain ⟨first, rest, made, same, reply, after, next⟩ := run_cons t step steps
    rw [made] at told
    cases past with
    | nil =>
      obtain ⟨rfl, -⟩ := List.cons.inj told
      exact ⟨t, 0, .refl h, same ▸ useFirst, same ▸ reply, same ▸ after⟩
    | cons other past =>
      obtain ⟨rfl, onward⟩ := List.cons.inj told
      obtain ⟨k, advanced⟩ := Timer.advanced_perform h useFirst
      rcases next with rfl | rfl
      · simp at onward
      · obtain ⟨found, r, between, whole⟩ := ih advanced.listening useRest onward
        refine ⟨found, k + r, ?_, whole⟩
        have sum : delivered (first :: past) = step.delivered + delivered past := by simp [delivered, same]
        rw [sum]
        exact advanced.trans between

/-- A clock whose counter has a sink and no script, used in any way: every reading in microseconds is the true
time, modulo `2 ^ 32`. If the counter starts within its period and no step is longer than that, it stays
within, and every reading in milliseconds is the true time too, a thousandth of it rounded down. -/
theorem clock_shows_true_time {t : Timer} (listening : t.counter.sink = true)
    (unscripted : t.counter.script = []) {steps : List Step} (use : ∀ step ∈ steps, step.usesClock = true)
    {past later : List Moment} {m : Moment} (told : run t steps = past ++ m :: later) :
    (m.step = .microseconds → ∃ time, m.reply = .time time ∧ time.toNat =
        t.timeAfter (m.after.counter.reads - t.counter.reads) (delivered (past ++ [m])) % UInt32.size) ∧
      (t.counter.ticks < ticksPerPeriod → t.counter.step ≤ ticksPerPeriod →
        m.after.counter.ticks < ticksPerPeriod ∧
        (m.step = .milliseconds → ∃ time, m.reply = .time time ∧ time.toNat =
          t.timeAfter (m.after.counter.reads - t.counter.reads) (delivered (past ++ [m])) / 1000 % UInt32.size)) := by
  obtain ⟨found, before, reached, useLast, reply, after⟩ := advanced_run ⟨listening, unscripted⟩ use told
  obtain ⟨k, last⟩ := Timer.advanced_perform reached.listening useLast
  have whole := reached.trans last
  rw [← after] at whole
  have reads : before + k = m.after.counter.reads - t.counter.reads := by
    have counted := whole.counted
    omega
  rw [← delivered_concat, reads] at whole
  refine ⟨fun micro => ?_, fun inside short => ⟨whole.inside ⟨inside, short⟩, fun milli => ?_⟩⟩
  · refine ⟨m.after.word, ?_, whole.toNat_word⟩
    rw [reply, after, micro]
    rfl
  · refine ⟨m.after.counter.ticks / 1000 + m.after.seconds * 1000, ?_,
      whole.toNat_milliseconds ⟨inside, short⟩⟩
    rw [reply, after, milli]
    rfl

/-- A clock one tick before its seconds wrap, and a wait over the wrap. -/
def lateClock : Timer := { counter := { ticks := 999999, step := 600000, sink := true }, seconds := 4294967295 }

def lateUse : List Step := [.delay 1, .sinkCounts 2, .microseconds, .counts 1, .milliseconds]

theorem late_clock_shows_true_time :
    lateClock.counter.sink = true ∧ lateClock.counter.script = [] ∧
      (∀ step ∈ lateUse, step.usesClock = true) ∧ lateClock.counter.ticks < ticksPerPeriod ∧
      lateClock.counter.step ≤ ticksPerPeriod ∧
      ∃ m time, run lateClock lateUse = (run lateClock lateUse).take 4 ++ [m] ∧ m.step = .milliseconds ∧
        m.reply = .time time ∧
        time.toNat = (999999 + 1000000 * 4294967295 + 600000 * 4 + 1000000 * 3) / 1000 % UInt32.size := by
  have use : ∀ step ∈ lateUse, step.usesClock = true := by decide
  have inside : lateClock.counter.ticks < ticksPerPeriod := by decide
  have short : lateClock.counter.step ≤ ticksPerPeriod := by decide
  let m := (run lateClock lateUse).get ⟨4, by decide⟩
  have told : run lateClock lateUse = (run lateClock lateUse).take 4 ++ [m] := by decide
  obtain ⟨-, milli⟩ := clock_shows_true_time rfl rfl use told
  obtain ⟨-, reading⟩ := milli inside short
  obtain ⟨time, reply, value⟩ := reading (by decide)
  refine ⟨rfl, rfl, use, inside, short, m, time, told, by decide, reply, ?_⟩
  rw [value]
  decide

end PeripheralLayer.Clock
