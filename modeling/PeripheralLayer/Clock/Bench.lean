import PeripheralLayer.Clock.Timer

/-!
A bench for one timer: steps that use the timer, deliver terminal counts to it or change the counter
below it, and for every step the answer and what the hardware was asked meanwhile.
-/
namespace PeripheralLayer.Clock

/-- `sinkCounts` delivers terminal counts through the sink that the hardware has now. -/
inductive Step where
  | init
  | deinit
  | counts (n : Nat)
  | sinkCounts (n : Nat)
  | microseconds
  | milliseconds
  | delay (span : UInt16)
  | set (ticks step : UInt32)
  | script (reads : List (UInt32 × Nat))
  | fail (stage : CounterStage) (word : ResultWord)
  deriving DecidableEq, Repr

inductive Reply where
  | nothing
  | status (status : Status)
  | time (word : UInt32)
  | noSink
  | never
  deriving DecidableEq, Repr

/-- The answer of a step and the timer after it. A step that never ends leaves the timer unknown. -/
structure Effect where
  reply : Reply
  timer : Timer
  deriving DecidableEq, Repr

namespace Timer

def withCounter (t : Timer) (counter : Counter) : Timer := { t with counter }

def perform (t : Timer) : Step → Effect
  | .init => match t.init with | (t, status) => ⟨.status status, t⟩
  | .deinit => match t.deinit with | (t, status) => ⟨.status status, t⟩
  | .counts n => ⟨.nothing, t.onTerminalCounts n⟩
  | .sinkCounts n => ⟨if t.counter.sink then .nothing else .noSink, t.raise n⟩
  | .microseconds => match t.microseconds with | (t, time) => ⟨.time time, t⟩
  | .milliseconds => match t.milliseconds with | (t, time) => ⟨.time time, t⟩
  | .delay span =>
    match t.delay span with
    | some t => ⟨.nothing, t⟩
    | none => ⟨.never, t⟩
  | .set ticks step => ⟨.nothing, t.withCounter { t.counter with ticks, step }⟩
  | .script reads => ⟨.nothing, t.withCounter { t.counter with script := t.counter.script ++ reads }⟩
  | .fail stage word => ⟨.nothing, t.withCounter (t.counter.plant stage word)⟩

end Timer

structure Moment where
  step : Step
  reply : Reply
  calls : List CounterCall
  reads : Nat
  after : Timer
  deriving DecidableEq, Repr

def run (t : Timer) : List Step → List Moment
  | [] => []
  | step :: steps =>
    let effect := t.perform step
    let calls := effect.timer.counter.calls.drop t.counter.calls.length
    let moment := ⟨step, effect.reply, calls, effect.timer.counter.reads - t.counter.reads, effect.timer⟩
    if effect.reply = .never then [moment] else moment :: run effect.timer steps

end PeripheralLayer.Clock
