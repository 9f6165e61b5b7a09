import PeripheralLayer.Enumerated
import PeripheralLayer.ResultWord

/-!
A simulated hardware counter. Every read moves it: by the next entry of a script while there is one, and
by a fixed number of ticks after that. When a fixed step takes it past the end of its period it starts
the next one and raises a terminal count. Calls are remembered in order, and reads are counted.
-/
namespace PeripheralLayer.Clock

inductive CountDirection where
  | up
  | down
  deriving DecidableEq, Repr

instance : Enumerated CountDirection where
  all := [.up, .down]
  name
    | .up => "Up"
    | .down => "Down"
  mem_all := by intro a; cases a <;> decide
  name_injective := by intro a b; cases a <;> cases b <;> decide

structure CounterConfig where
  compareValue : UInt32
  period : UInt32
  direction : CountDirection
  isCompare : Bool
  isContinuous : Bool
  value : UInt32
  deriving DecidableEq, Repr

inductive CounterCall where
  | init
  | configure (config : CounterConfig)
  | register
  | enable (priority : UInt8) (on : Bool)
  | start
  | free
  deriving DecidableEq, Repr

inductive CounterStage where
  | init
  | configure
  | start
  deriving DecidableEq, Repr

def ticksPerPeriod : UInt32 := 1000000

structure Counter where
  ticks : UInt32
  step : UInt32
  script : List (UInt32 × Nat) := []
  sink : Bool := false
  initFault : Option ResultWord := none
  configureFault : Option ResultWord := none
  startFault : Option ResultWord := none
  calls : List CounterCall := []
  reads : Nat := 0
  deriving DecidableEq, Repr

namespace Counter

def note (c : Counter) (call : CounterCall) : Counter := { c with calls := c.calls ++ [call] }

/-! A planted fault is used up by the call it was planted for. -/

def init (c : Counter) : Counter × Option ResultWord :=
  ({ c.note .init with initFault := none }, c.initFault)

def configure (c : Counter) (config : CounterConfig) : Counter × Option ResultWord :=
  ({ c.note (.configure config) with configureFault := none }, c.configureFault)

def register (c : Counter) : Counter := { c.note .register with sink := true }

def enable (c : Counter) (priority : UInt8) (on : Bool) : Counter := c.note (.enable priority on)

def start (c : Counter) : Counter × Option ResultWord :=
  ({ c.note .start with startFault := none }, c.startFault)

def free (c : Counter) : Counter := { c.note .free with sink := false }

def plant (c : Counter) (stage : CounterStage) (word : ResultWord) : Counter :=
  match stage with
  | .init => { c with initFault := some word }
  | .configure => { c with configureFault := some word }
  | .start => { c with startFault := some word }

/-- One read: the counter after it, whose ticks are what was read, and the terminal counts raised on the
way. The sum of counter and step wraps, and at most one period is taken off it. -/
def read (c : Counter) : Counter × Nat :=
  match c.script with
  | (ticks, raised) :: script => ({ c with ticks, script, reads := c.reads + 1 }, raised)
  | [] =>
    let moved := c.ticks + c.step
    if ticksPerPeriod ≤ moved then ({ c with ticks := moved - ticksPerPeriod, reads := c.reads + 1 }, 1)
    else ({ c with ticks := moved, reads := c.reads + 1 }, 0)

end Counter

end PeripheralLayer.Clock
