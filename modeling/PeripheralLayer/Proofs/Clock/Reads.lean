import PeripheralLayer.Proofs.Clock.Time

/-!
What so many reads do to a clock. The counter moves by itself, and the terminal counts that it raises on the way
reach the clock while a sink is stored. Every reading is therefore a view of the counter's place and of a number
of terminal counts that is never reduced, and both together are a true time. Nothing is assumed of the counter: it
may be scripted, stand outside its period or take steps of any length.
-/
namespace PeripheralLayer.Clock

namespace Counter

variable {c : Counter}

def moved (c : Counter) : Counter := c.read.1

def raised (c : Counter) : Nat → Nat
  | 0 => 0
  | n + 1 => c.raised n + (moved^[n] c).read.2

theorem read_of_script {ticks : UInt32} {n : Nat} {script : List (UInt32 × Nat)}
    (scripted : c.script = (ticks, n) :: script) :
    c.read = ({ c with ticks, script, reads := c.reads + 1 }, n) := by
  simp only [read, scripted]

def slid (step ticks : UInt32) : UInt32 :=
  if ticksPerPeriod ≤ ticks + step then ticks + step - ticksPerPeriod else ticks + step

theorem read_of_unscripted (unscripted : c.script = []) :
    c.read = ({ c with ticks := slid c.step c.ticks, reads := c.reads + 1 },
      if ticksPerPeriod ≤ c.ticks + c.step then 1 else 0) := by
  simp only [read, unscripted, slid]
  split <;> rfl

theorem moved_eq (c : Counter) :
    ∃ ticks script, c.moved = { c with ticks, script, reads := c.reads + 1 } := by
  cases scripted : c.script with
  | nil =>
    rw [moved, read_of_unscripted scripted]
    exact ⟨_, [], by rw [← scripted]⟩
  | cons entry script =>
    rw [moved, read_of_script scripted]
    exact ⟨entry.1, script, rfl⟩

theorem iterate_eq (c : Counter) (n : Nat) :
    ∃ ticks script, moved^[n] c = { c with ticks, script, reads := c.reads + n } := by
  induction n with
  | zero => exact ⟨c.ticks, c.script, rfl⟩
  | succ n ih =>
    obtain ⟨ticks, script, before⟩ := ih
    obtain ⟨ticks', script', moves⟩ := (moved^[n] c).moved_eq
    refine ⟨ticks', script', ?_⟩
    rw [Function.iterate_succ_apply', moves, before, Nat.add_assoc]

theorem sink_iterate (c : Counter) (n : Nat) : (moved^[n] c).sink = c.sink := by
  obtain ⟨ticks, script, eq⟩ := c.iterate_eq n
  rw [eq]

theorem step_iterate (c : Counter) (n : Nat) : (moved^[n] c).step = c.step := by
  obtain ⟨ticks, script, eq⟩ := c.iterate_eq n
  rw [eq]

theorem reads_iterate (c : Counter) (n : Nat) : (moved^[n] c).reads = c.reads + n := by
  obtain ⟨ticks, script, eq⟩ := c.iterate_eq n
  rw [eq]

theorem script_iterate (c : Counter) (n : Nat) : (moved^[n] c).script = c.script.drop n := by
  induction n generalizing c with
  | zero => rfl
  | succ n ih =>
    rw [Function.iterate_succ_apply, ih]
    cases scripted : c.script with
    | nil => simp [moved, read_of_unscripted scripted, scripted]
    | cons entry script =>
      rw [moved, read_of_script scripted]
      rfl

end Counter

namespace Timer

variable {t u : Timer} {s : Nat}

theorem counter_read (t : Timer) : t.read.counter = t.counter.moved := by
  simp only [read, raise]
  split <;> rfl

theorem counter_iterate (t : Timer) (n : Nat) : (read^[n] t).counter = Counter.moved^[n] t.counter := by
  induction n with
  | zero => rfl
  | succ n ih => rw [Function.iterate_succ_apply', Function.iterate_succ_apply', counter_read, ih]

theorem sink_iterate (t : Timer) (n : Nat) : (read^[n] t).counter.sink = t.counter.sink := by
  rw [counter_iterate, Counter.sink_iterate]

theorem step_iterate (t : Timer) (n : Nat) : (read^[n] t).counter.step = t.counter.step := by
  rw [counter_iterate, Counter.step_iterate]

theorem reads_iterate (t : Timer) (n : Nat) : (read^[n] t).counter.reads = t.counter.reads + n := by
  rw [counter_iterate, Counter.reads_iterate]

def hears (t : Timer) (n : Nat) : Nat := if t.counter.sink then t.counter.raised n else 0

theorem hears_succ (t : Timer) (n : Nat) :
    t.hears (n + 1) = t.hears n + if t.counter.sink then (read^[n] t).counter.read.2 else 0 := by
  rw [counter_iterate]
  unfold hears
  split <;> rfl

theorem seconds_read (t : Timer) :
    t.read.seconds = t.seconds + UInt32.ofNat (if t.counter.sink then t.counter.read.2 else 0) := by
  have kept : t.counter.read.1.sink = t.counter.sink := t.counter.sink_iterate 1
  simp only [read, raise, kept]
  split
  · rfl
  · simp

theorem seconds_iterate (t : Timer) (n : Nat) : (read^[n] t).seconds = t.seconds + UInt32.ofNat (t.hears n) := by
  induction n with
  | zero => simp [hears, Counter.raised]
  | succ n ih =>
    rw [Function.iterate_succ_apply', seconds_read, ih, hears_succ, sink_iterate, UInt32.ofNat_add, UInt32.add_assoc]

theorem counted_iterate (counted : t.seconds = UInt32.ofNat s) (n : Nat) :
    (read^[n] t).seconds = UInt32.ofNat (s + t.hears n) := by
  rw [seconds_iterate, counted, UInt32.ofNat_add]

theorem milliseconds_eq (t : Timer) : t.milliseconds = (t.read, t.read.shown) := rfl

/-- The true time in microseconds of the `i`-th reading from here on, counted from zero, of a clock that has heard
`s` terminal counts before. It is not reduced. -/
def trueTime (t : Timer) (s i : Nat) : Nat :=
  (read^[i + 1] t).counter.ticks.toNat + 1000000 * (s + t.hears (i + 1))

theorem toNat_reading (counted : t.seconds = UInt32.ofNat s) (i : Nat) :
    (read^[i + 1] t).shown.toNat = t.trueTime s i / 1000 % UInt32.size := by
  have whole : t.trueTime s i / 1000 =
      (read^[i + 1] t).counter.ticks.toNat / 1000 + 1000 * (s + t.hears (i + 1)) := by
    rw [trueTime]
    omega
  rw [whole, toNat_shown (counted_iterate counted (i + 1))]

end Timer

end PeripheralLayer.Clock
