import PeripheralLayer.Proofs.Clock.Reads
import PeripheralLayer.Proofs.Past

/-!
Terminal counts over the life of a clock. A step's place in a run is told by its past: the steps so far, each with
what it replied and what it asked of the hardware. `Since` reads off such a past whether a sink is registered and
which calls will fail, and `brought` adds up the terminal counts that should have reached the clock. The rules for a
step speak of nothing else. `Timer.Bears` relates a clock to the past that it came out of, and is what every step
keeps.
-/
namespace PeripheralLayer.Clock

/-! Setting a counter up. -/

def bringUpCalls : List CounterCall :=
  [.init, .configure counterConfig, .register, .enable interruptPriority true, .start]

def CounterStage.call : CounterStage → CounterCall
  | .init => .init
  | .configure => .configure counterConfig
  | .start => .start

namespace Counter

variable {c : Counter} {call : CounterCall}

def fault (c : Counter) : CounterCall → Option ResultWord
  | .init => c.initFault
  | .configure _ => c.configureFault
  | .start => c.startFault
  | .register | .enable _ _ | .free => none

theorem fault_plant (c : Counter) (stage : CounterStage) (word : ResultWord) (known : call ∈ bringUpCalls) :
    (c.plant stage word).fault call = if stage.call = call then some word else c.fault call := by
  simp only [bringUpCalls, List.mem_cons, List.not_mem_nil, or_false] at known
  rcases known with rfl | rfl | rfl | rfl | rfl
  all_goals cases stage <;> rfl

/-- How far a counter is set up: to the first call that fails, or to the last one. -/
structure SetsUp (c : Counter) (made : List CounterCall) (last : CounterCall) (rest : List CounterCall) : Prop where
  order : bringUpCalls = made ++ last :: rest
  before : ∀ call ∈ made, c.fault call = none
  ends : c.fault last = none → rest = []
  word : (Timer.bringUp c).2 = c.fault last
  calls : (Timer.bringUp c).1.calls = c.calls ++ (made ++ [last])
  sink : (Timer.bringUp c).1.sink = true ↔ .register ∈ made ++ [last] ∨ c.sink = true
  used : ∀ call ∈ bringUpCalls,
    (Timer.bringUp c).1.fault call = if call ∈ made ++ [last] then none else c.fault call
  reads : (Timer.bringUp c).1.reads = c.reads

theorem bringUp_of_initFault {word : ResultWord} (init : c.initFault = some word) :
    Timer.bringUp c = ({ c with initFault := none, calls := c.calls ++ [.init] }, some word) := by
  simp [Timer.bringUp, Counter.init, note, init]

theorem bringUp_of_configureFault {word : ResultWord} (init : c.initFault = none)
    (configure : c.configureFault = some word) :
    Timer.bringUp c =
      ({ c with initFault := none, configureFault := none
                calls := c.calls ++ [.init, .configure counterConfig] }, some word) := by
  simp [Timer.bringUp, Counter.init, Counter.configure, note, init, configure]

theorem bringUp_of_configured (init : c.initFault = none) (configure : c.configureFault = none) :
    Timer.bringUp c =
      ({ c with initFault := none, configureFault := none, startFault := none, sink := true
                calls := c.calls ++ bringUpCalls }, c.startFault) := by
  simp [Timer.bringUp, Counter.init, Counter.configure, note, register, enable, start, init, configure, bringUpCalls]

theorem exists_setsUp (c : Counter) : ∃ made last rest, c.SetsUp made last rest := by
  cases init : c.initFault with
  | some word =>
    have result := bringUp_of_initFault init
    refine ⟨[], .init, bringUpCalls.drop 1, ?_⟩
    constructor
    case order => rfl
    case before => simp
    case ends => simp [fault, init]
    case used => simp [result, fault, bringUpCalls]
    case word => simp [result, fault, init]
    all_goals simp [result]
  | none =>
    cases configure : c.configureFault with
    | some word =>
      have result := bringUp_of_configureFault init configure
      refine ⟨[.init], .configure counterConfig, bringUpCalls.drop 2, ?_⟩
      constructor
      case order => rfl
      case before => simp [fault, init]
      case ends => simp [fault, configure]
      case used => simp [result, fault, bringUpCalls]
      case word => simp [result, fault, configure]
      all_goals simp [result]
    | none =>
      have result := bringUp_of_configured init configure
      refine ⟨[.init, .configure counterConfig, .register, .enable interruptPriority true], .start, [], ?_⟩
      constructor
      case order => rfl
      case before => simp [fault, init, configure]
      case ends => simp
      case used => simp [result, fault, bringUpCalls]
      case word => simp [result, fault]
      all_goals simp [result, bringUpCalls]

end Counter

/-! A run and its past. -/

structure LogEntry where
  found : Timer
  moment : Moment
  deriving DecidableEq, Repr

namespace LogEntry

variable {past : List LogEntry} {e : LogEntry} {call : CounterCall}

def Makes (call : CounterCall) (e : LogEntry) : Prop := e.moment.step = .init ∧ call ∈ e.moment.calls

def Frees (e : LogEntry) : Prop := e.moment.step = .deinit

def Plants (call : CounterCall) (e : LogEntry) : Prop :=
  ∃ stage word, e.moment.step = .fail stage word ∧ stage.call = call

instance (call : CounterCall) : DecidablePred (Makes call) :=
  fun e => inferInstanceAs (Decidable (e.moment.step = .init ∧ call ∈ e.moment.calls))

instance : DecidablePred Frees := fun e => inferInstanceAs (Decidable (e.moment.step = .deinit))

/-- Some `init` got past `configure`, so that it went on to register the sink, and no `deinit` came after it. -/
def Registered (past : List LogEntry) : Prop := Since (Makes .register) Frees past

instance (past : List LogEntry) : Decidable (Registered past) :=
  inferInstanceAs (Decidable (Since (Makes .register) Frees past))

def Fails (past : List LogEntry) (call : CounterCall) : Prop := Since (Plants call) (Makes call) past

def direct (e : LogEntry) : Nat :=
  match e.moment.step with
  | .counts n => n
  | _ => 0

def raised (e : LogEntry) : Nat :=
  match e.moment.step with
  | .sinkCounts n => n
  | _ => e.found.counter.raised e.moment.reads

def brings (past : List LogEntry) (e : LogEntry) : Nat := e.direct + if Registered past then e.raised else 0

def broughtAfter (past : List LogEntry) : List LogEntry → Nat
  | [] => 0
  | e :: later => brings past e + broughtAfter (past ++ [e]) later

/-- The terminal counts delivered directly and those raised while a sink was registered, all together. -/
def brought (past : List LogEntry) : Nat := broughtAfter [] past

theorem brought_snoc (past : List LogEntry) (e : LogEntry) :
    brought (past ++ [e]) = brought past + brings past e := by
  have further (before later : List LogEntry) :
      broughtAfter before (later ++ [e]) = broughtAfter before later + brings (before ++ later) e := by
    induction later generalizing before with
    | nil => simp [broughtAfter]
    | cons first later ih =>
      rw [List.cons_append, broughtAfter, broughtAfter, ih, List.append_assoc, List.singleton_append, Nat.add_assoc]
  exact further [] past

structure Turns (e : LogEntry) : Prop where
  seconds : e.moment.after.seconds =
    e.found.seconds + UInt32.ofNat (e.direct + if e.found.counter.sink then e.raised else 0)
  sink : e.moment.after.counter.sink = true ↔ e.Makes .register ∨ e.found.counter.sink = true ∧ ¬ e.Frees
  faults : ∀ call ∈ bringUpCalls,
    (e.moment.after.counter.fault call).isSome ↔
      e.Plants call ∨ (e.found.counter.fault call).isSome ∧ ¬ e.Makes call

end LogEntry

open LogEntry

def Step.Quiet (step : Step) : Prop := step ≠ .init ∧ step ≠ .deinit ∧ ∀ stage word, step ≠ .fail stage word

namespace Timer

variable {t : Timer} {past : List LogEntry}

def momentOf (t : Timer) (step : Step) : Moment :=
  let effect := t.perform step
  ⟨step, effect.reply, effect.timer.counter.calls.drop t.counter.calls.length,
    effect.timer.counter.reads - t.counter.reads, effect.timer⟩

def entry (t : Timer) (step : Step) : LogEntry := ⟨t, t.momentOf step⟩

@[simp] theorem entry_found (t : Timer) (step : Step) : (t.entry step).found = t := rfl

@[simp] theorem entry_step (t : Timer) (step : Step) : (t.entry step).moment.step = step := rfl

@[simp] theorem entry_after (t : Timer) (step : Step) : (t.entry step).moment.after = (t.perform step).timer := rfl

def entries (t : Timer) : List Moment → List LogEntry
  | [] => []
  | m :: later => ⟨t, m⟩ :: entries m.after later

def log (t : Timer) (steps : List Step) : List LogEntry := t.entries (run t steps)

theorem turns_of_quiet {step : Step} (quiet : step.Quiet)
    (sink : (t.perform step).timer.counter.sink = t.counter.sink)
    (faults : (t.perform step).timer.counter.fault = t.counter.fault)
    (seconds : (t.perform step).timer.seconds =
      t.seconds + UInt32.ofNat ((t.entry step).direct + if t.counter.sink then (t.entry step).raised else 0)) :
    (t.entry step).Turns := by
  obtain ⟨noInit, noDeinit, noFail⟩ := quiet
  constructor
  case seconds => exact seconds
  case sink => simp [Makes, Frees, noInit, noDeinit, sink]
  case faults =>
    intro call _
    simp [Makes, Plants, noInit, noFail, faults]

theorem fault_iterate (t : Timer) (n : Nat) : (read^[n] t).counter.fault = t.counter.fault := by
  obtain ⟨ticks, script, eq⟩ := t.counter.iterate_eq n
  rw [counter_iterate, eq]
  rfl

theorem momentOf_reads {step : Step} {n : Nat} (reads : (t.perform step).timer = read^[n] t) :
    (t.momentOf step).reads = n := by
  change (t.perform step).timer.counter.reads - t.counter.reads = n
  rw [reads, reads_iterate]
  omega

theorem turns_of_reads {step : Step} {n : Nat} (reads : (t.perform step).timer = read^[n] t)
    (quiet : step.Quiet) (direct : (t.entry step).direct = 0)
    (raised : (t.entry step).raised = t.counter.raised (t.momentOf step).reads) : (t.entry step).Turns := by
  refine turns_of_quiet quiet ?_ ?_ ?_
  · rw [reads, sink_iterate]
  · rw [reads, fault_iterate]
  · rw [direct, raised, momentOf_reads reads, reads, seconds_iterate, hears, Nat.zero_add]

theorem delay_leaves (t : Timer) (span : UInt16) :
    ∃ n, (t.perform (.delay span)).timer = read^[n] t ∧
      ((t.perform (.delay span)).reply = .never ∨ (t.perform (.delay span)).reply = .nothing) := by
  cases waited : t.delay span with
  | none => exact ⟨0, by simp [perform, waited], .inl (by simp [perform, waited])⟩
  | some u =>
    obtain ⟨k, rfl⟩ := delay_reads waited
    exact ⟨k + 2, by simp [perform, waited], .inr (by simp [perform, waited])⟩

theorem perform_init (t : Timer) :
    t.perform .init =
      ⟨.status (if (bringUp t.counter).2.isSome then .failure else .success),
        { t with counter := (bringUp t.counter).1 }⟩ := by
  cases result : bringUp t.counter with
  | mk counter failed => cases failed <;> simp [perform, init, result]

theorem raised_of_unread {step : Step} (unread : (t.perform step).timer.counter.reads = t.counter.reads)
    (raised : (t.entry step).raised = t.counter.raised (t.momentOf step).reads) : (t.entry step).raised = 0 := by
  have reads : (t.momentOf step).reads = 0 := Nat.sub_eq_zero_of_le (Nat.le_of_eq unread)
  rw [raised, reads, Counter.raised]

theorem seconds_of_still {step : Step} (still : (t.perform step).timer.seconds = t.seconds)
    (direct : (t.entry step).direct = 0) (raised : (t.entry step).raised = 0) :
    (t.perform step).timer.seconds =
      t.seconds + UInt32.ofNat ((t.entry step).direct + if t.counter.sink then (t.entry step).raised else 0) := by
  rw [still, direct, raised]
  simp

theorem calls_of_init {t : Timer} {made rest : List CounterCall} {last : CounterCall}
    (sets : t.counter.SetsUp made last rest) : (t.entry .init).moment.calls = made ++ [last] := by
  change (t.perform .init).timer.counter.calls.drop t.counter.calls.length = made ++ [last]
  rw [perform_init, sets.calls, List.drop_left]

theorem turns_of_init (t : Timer) : (t.entry .init).Turns := by
  obtain ⟨made, last, rest, sets⟩ := t.counter.exists_setsUp
  have calls := calls_of_init sets
  constructor
  case seconds =>
    refine seconds_of_still ?_ rfl (raised_of_unread ?_ rfl)
    · rw [perform_init]
    · rw [perform_init]
      exact sets.reads
  case sink => simp [perform_init, sets.sink, Makes, Frees, calls]
  case faults =>
    intro call known
    simp only [entry_after, perform_init, sets.used call known, Plants, entry_step, reduceCtorEq, false_and,
      exists_false, false_or, entry_found, Makes, calls, true_and]
    split
    · simp [*]
    · simp [*]

theorem turns_of_deinit (t : Timer) : (t.entry .deinit).Turns := by
  constructor
  case seconds => exact seconds_of_still rfl rfl (raised_of_unread rfl rfl)
  case sink => simp [perform, deinit, Counter.free, Makes, Frees]
  case faults =>
    intro call _
    have kept : t.counter.free.fault call = t.counter.fault call := by cases call <;> rfl
    simp [perform, deinit, kept, Makes, Plants]

theorem turns_of_fail (t : Timer) (stage : CounterStage) (word : ResultWord) : (t.entry (.fail stage word)).Turns := by
  constructor
  case seconds =>
    refine seconds_of_still rfl rfl (raised_of_unread ?_ rfl)
    cases stage <;> rfl
  case sink =>
    have kept : (t.counter.plant stage word).sink = t.counter.sink := by cases stage <;> rfl
    simp [perform, withCounter, kept, Makes, Frees]
  case faults =>
    intro call known
    simp only [entry_after, perform, withCounter, t.counter.fault_plant stage word known, Plants, entry_step,
      entry_found, Makes]
    by_cases same : stage.call = call
    · simp [same]
    · simp [same]

theorem turns (t : Timer) (step : Step) : (t.entry step).Turns := by
  cases step with
  | init => exact t.turns_of_init
  | deinit => exact t.turns_of_deinit
  | fail stage word => exact t.turns_of_fail stage word
  | counts n =>
    have raised : (t.entry (.counts n)).raised = 0 := raised_of_unread rfl rfl
    refine turns_of_quiet (by simp [Step.Quiet]) rfl rfl ?_
    rw [raised]
    simp [perform, onTerminalCounts, LogEntry.direct]
  | sinkCounts n =>
    have after : (t.perform (.sinkCounts n)).timer = t.raise n := rfl
    refine turns_of_quiet (by simp [Step.Quiet]) ?_ ?_ ?_
    all_goals
      rw [after, raise]
      split
    all_goals simp [onTerminalCounts, LogEntry.direct, LogEntry.raised, *]
  | microseconds | milliseconds => exact turns_of_reads (n := 1) rfl (by simp [Step.Quiet]) rfl rfl
  | delay span =>
    obtain ⟨n, reads, -⟩ := t.delay_leaves span
    exact turns_of_reads reads (by simp [Step.Quiet]) rfl rfl
  | set ticks step =>
    exact turns_of_quiet (by simp [Step.Quiet]) rfl rfl (seconds_of_still rfl rfl (raised_of_unread rfl rfl))
  | script reads =>
    exact turns_of_quiet (by simp [Step.Quiet]) rfl rfl (seconds_of_still rfl rfl (raised_of_unread rfl rfl))

theorem log_step (t : Timer) (step : Step) (steps : List Step) :
    ∃ later, t.log (step :: steps) = t.entry step :: later ∧
      (later = [] ∨ later = (t.perform step).timer.log steps) := by
  simp only [log, run]
  split
  · exact ⟨[], rfl, .inl rfl⟩
  · exact ⟨_, rfl, .inr rfl⟩

structure Bears (past : List LogEntry) (t : Timer) : Prop where
  seconds : t.seconds = UInt32.ofNat (brought past)
  sink : t.counter.sink = true ↔ Registered past
  faults : ∀ call ∈ bringUpCalls, (t.counter.fault call).isSome ↔ Fails past call

def fresh (ticks step : UInt32) (script : List (UInt32 × Nat)) : Timer := { counter := { ticks, step, script } }

theorem bears_fresh (ticks step : UInt32) (script : List (UInt32 × Nat)) : (fresh ticks step script).Bears [] where
  seconds := rfl
  sink := ⟨nofun, fun registered => absurd registered not_since_nil⟩
  faults call _ := by
    have sound : (fresh ticks step script).counter.fault call = none := by cases call <;> rfl
    rw [sound]
    exact ⟨nofun, fun fails => absurd fails not_since_nil⟩

theorem Bears.brings (h : t.Bears past) (step : Step) :
    LogEntry.brings past (t.entry step) =
      (t.entry step).direct + if t.counter.sink then (t.entry step).raised else 0 := by
  simp [LogEntry.brings, ← h.sink]

theorem Bears.step (h : t.Bears past) (step : Step) : (t.perform step).timer.Bears (past ++ [t.entry step]) := by
  have turns := t.turns step
  constructor
  case seconds =>
    rw [← entry_after, turns.seconds, entry_found, h.seconds, brought_snoc, h.brings, ← UInt32.ofNat_add]
  case sink => rw [Registered, since_snoc, ← entry_after, turns.sink, entry_found, h.sink, Registered]
  case faults =>
    intro call known
    rw [Fails, since_snoc, ← entry_after, turns.faults call known, entry_found, h.faults call known, Fails]

end Timer

open Timer

/-- What an entry shows, told from what came before it. -/
structure LogEntry.Accounted (past : List LogEntry) (now : LogEntry) : Prop where
  seconds : now.moment.after.seconds = UInt32.ofNat (brought (past ++ [now]))
  sink : now.moment.after.counter.sink = true ↔ Registered (past ++ [now])
  init : now.moment.step = .init → ∃ made last rest, bringUpCalls = made ++ last :: rest ∧
    now.moment.calls = made ++ [last] ∧ (∀ call ∈ made, ¬ Fails past call) ∧
    ((Fails past last ∧ now.moment.reply = .status .failure) ∨
      (¬ Fails past last ∧ rest = [] ∧ now.moment.reply = .status .success))
  microseconds : now.moment.step = .microseconds → ∃ time, now.moment.reply = .time time ∧
    time.toNat = (now.found.counter.moved.ticks.toNat + 1000000 * brought (past ++ [now])) % UInt32.size
  milliseconds : now.moment.step = .milliseconds → ∃ time, now.moment.reply = .time time ∧
    time.toNat = (now.found.counter.moved.ticks.toNat / 1000 + 1000 * brought (past ++ [now])) % UInt32.size
  delay : ∀ span, now.moment.step = .delay span →
    (now.moment.reply = .never ∨
      now.moment.reply = .nothing ∧ now.moment.after = read^[now.moment.reads] now.found) ∧
    ∀ i, ((read^[i] now.found).milliseconds).2.toNat =
      ((Counter.moved^[i + 1] now.found.counter).ticks.toNat / 1000 +
        1000 * (brought past + if Registered past then now.found.counter.raised (i + 1) else 0)) % UInt32.size

namespace Timer

variable {t : Timer} {past : List LogEntry}

theorem Bears.init (h : t.Bears past) :
    ∃ made last rest, bringUpCalls = made ++ last :: rest ∧ (t.entry .init).moment.calls = made ++ [last] ∧
      (∀ call ∈ made, ¬ Fails past call) ∧
      ((Fails past last ∧ (t.perform .init).reply = .status .failure) ∨
        (¬ Fails past last ∧ rest = [] ∧ (t.perform .init).reply = .status .success)) := by
  obtain ⟨made, last, rest, sets⟩ := t.counter.exists_setsUp
  have known : ∀ call ∈ made ++ [last], call ∈ bringUpCalls := by
    intro call mem
    rw [sets.order]
    grind
  refine ⟨made, last, rest, sets.order, calls_of_init sets, ?_, ?_⟩
  · intro call mem
    rw [← h.faults call (known call (by simp [mem])), sets.before call mem]
    exact nofun
  · rw [← h.faults last (known last (by simp)), perform_init, sets.word]
    cases fault : t.counter.fault last with
    | some word => exact .inl ⟨rfl, rfl⟩
    | none => exact .inr ⟨nofun, sets.ends fault, rfl⟩

theorem Bears.counted_read (h : t.Bears past) (i : Nat) :
    (read^[i] t).seconds =
      UInt32.ofNat (brought past + if Registered past then t.counter.raised i else 0) := by
  rw [counted_iterate h.seconds i, hears]
  simp only [h.sink]

theorem Bears.accounted (h : t.Bears past) (step : Step) : LogEntry.Accounted past (t.entry step) := by
  have after := h.step step
  constructor
  case seconds => exact after.seconds
  case sink => exact after.sink
  case init =>
    rintro rfl
    exact h.init
  case microseconds =>
    rintro rfl
    have seconds : t.read.seconds = UInt32.ofNat (brought (past ++ [t.entry .microseconds])) := after.seconds
    refine ⟨t.read.word, rfl, ?_⟩
    rw [toNat_word seconds, counter_read, entry_found]
  case milliseconds =>
    rintro rfl
    have seconds : t.read.seconds = UInt32.ofNat (brought (past ++ [t.entry .milliseconds])) := after.seconds
    refine ⟨t.read.shown, rfl, ?_⟩
    rw [toNat_shown seconds, counter_read, entry_found]
  case delay =>
    rintro span rfl
    constructor
    · obtain ⟨n, reads, endless | reply⟩ := t.delay_leaves span
      · exact .inl endless
      · have counted : (t.entry (.delay span)).moment.reads = n := momentOf_reads reads
        exact .inr ⟨reply, by rw [counted, entry_after, reads, entry_found]⟩
    · intro i
      have shows : ((read^[i] t).milliseconds).2 = (read^[i + 1] t).shown := by
        rw [milliseconds_eq, Function.iterate_succ_apply']
      rw [entry_found, shows, toNat_shown (h.counted_read (i + 1)), counter_iterate]

theorem Bears.log {steps : List Step} {later : List LogEntry} {now : LogEntry} {before : List LogEntry}
    (h : t.Bears before) (told : t.log steps = past ++ now :: later) :
    ∃ (u : Timer) (step : Step), now = u.entry step ∧ u.Bears (before ++ past) := by
  induction steps generalizing t before past with
  | nil => simp [Timer.log, run, entries] at told
  | cons step steps ih =>
    obtain ⟨rest, made, next⟩ := t.log_step step steps
    rw [made] at told
    cases past with
    | nil =>
      obtain ⟨rfl, -⟩ := List.cons.inj told
      exact ⟨t, step, rfl, by simpa using h⟩
    | cons first past =>
      obtain ⟨rfl, onward⟩ := List.cons.inj told
      rcases next with rfl | rfl
      · simp at onward
      · obtain ⟨u, step', eq, bears⟩ := ih (h.step step) onward
        exact ⟨u, step', eq, by simpa using bears⟩

/-- Every entry of every run of a fresh clock is accounted for by its past. So the seconds are the terminal counts
that were delivered directly or raised while a sink was registered, and no step that sets the counter up, fails to do
so or frees it adds to them or takes any away. -/
theorem terminal_counts_accounted {ticks step : UInt32} {script : List (UInt32 × Nat)} {steps : List Step}
    {past later : List LogEntry} {now : LogEntry}
    (told : (fresh ticks step script).log steps = past ++ now :: later) : Accounted past now := by
  obtain ⟨u, step, rfl, bears⟩ := (bears_fresh ticks step script).log told
  rw [List.nil_append] at bears
  exact bears.accounted step

/-- A counter that fails to start and is listened to all the same until it is freed. What it raises before and
after that is lost. -/
def troubledSteps : List Step :=
  [.fail .start ⟨65536⟩, .sinkCounts 2, .counts 1, .init, .script [(5, 3), (999999, 1)], .microseconds, .deinit,
    .sinkCounts 4, .milliseconds]

theorem troubled_clock_accounted :
    ∃ past now, (fresh 0 1 []).log troubledSteps = past ++ [now] ∧ ¬ Registered (past ++ [now]) ∧
      ∃ time, now.moment.reply = .time time ∧ time.toNat = (999999 / 1000 + 1000 * (1 + 3)) % UInt32.size := by
  let log := (fresh 0 1 []).log troubledSteps
  let now := log.get ⟨8, by decide⟩
  have told : log = log.take 8 ++ [now] := by decide
  have accounted : Accounted (log.take 8) now := terminal_counts_accounted told
  obtain ⟨time, reply, shows⟩ := accounted.milliseconds (by decide)
  have unheard : ¬ Registered (log.take 8 ++ [now]) := by decide
  refine ⟨_, now, told, unheard, time, reply, ?_⟩
  rw [shows]
  decide

end Timer

end PeripheralLayer.Clock
