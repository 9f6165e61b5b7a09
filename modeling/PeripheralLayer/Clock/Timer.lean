import PeripheralLayer.Clock.Counter

/-!
A clock made of a counter that runs through one second and a count of the seconds. The counter gives the
place within the second, its terminal counts move the seconds on. All times are 32-bit words and wrap.
-/
namespace PeripheralLayer.Clock

def interruptPriority : UInt8 := 7

def counterConfig : CounterConfig := ⟨0, ticksPerPeriod, .up, false, true, 0⟩

structure Timer where
  counter : Counter
  seconds : UInt32 := 0
  deriving DecidableEq, Repr

namespace Timer

def onTerminalCounts (t : Timer) (n : Nat) : Timer := { t with seconds := t.seconds + UInt32.ofNat n }

def raise (t : Timer) (n : Nat) : Timer := if t.counter.sink then t.onTerminalCounts n else t

def bringUp (c : Counter) : Counter × Option ResultWord :=
  match c.init with
  | (c, some word) => (c, some word)
  | (c, none) =>
    match c.configure counterConfig with
    | (c, some word) => (c, some word)
    | (c, none) => (c.register.enable interruptPriority true).start

def init (t : Timer) : Timer × Status :=
  match bringUp t.counter with
  | (counter, some _) => ({ t with counter }, .failure)
  | (counter, none) => ({ t with counter }, .success)

def deinit (t : Timer) : Timer × Status := ({ t with counter := t.counter.free }, .success)

def read (t : Timer) : Timer :=
  match t.counter.read with
  | (counter, raised) => { t with counter }.raise raised

def microseconds (t : Timer) : Timer × UInt32 :=
  let t := t.read
  (t, t.counter.ticks + t.seconds * 1000000)

def milliseconds (t : Timer) : Timer × UInt32 :=
  let t := t.read
  (t, t.counter.ticks / 1000 + t.seconds * 1000)

def waitWithin : Nat → UInt32 → UInt32 → Timer → Option Timer
  | 0, _, _, _ => none
  | fuel + 1, start, span, t =>
    match t.milliseconds with
    | (t, now) => if now - start ≤ span then waitWithin fuel start span t else some t

/-- More reads than a wait can need: one that is not over after so many would go on for good. -/
def waitFuel (t : Timer) : Nat := Nat.pow 2 48 + t.counter.script.length

def delay (t : Timer) (span : UInt16) : Option Timer :=
  match t.milliseconds with
  | (t, start) => waitWithin t.waitFuel start span.toUInt32 t

end Timer

end PeripheralLayer.Clock
