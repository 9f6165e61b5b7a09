import PeripheralLayer.Bus.Mediator

/-!
Scenarios: what client code does to a mediator and to the simulated block below it. A scenario is a list
of steps and, for every handler, the reactions of that handler to the events it will be told of. A
reaction is again a list of steps, which run inside the callback.
-/
namespace PeripheralLayer.Bus

/-- Where the buffer of a request comes from: new, the one the running callback was handed, or the one
set aside. The last two can be used once. -/
inductive BufferSource where
  | fresh (bytes : List UInt8)
  | returned
  | saved
  deriving DecidableEq, Repr

inductive Injection where
  | fault (stage : Stage) (word : ResultWord)
  | topRate (hertz : UInt32)
  | response (bytes : List UInt8)
  deriving DecidableEq, Repr

inductive DirectCall where
  | acquire (pins : BusPins)
  | configure (config : BlockConfig)
  | register
  | enableEvents (events : EventWord) (priority : UInt8) (on : Bool)
  | transfer (address : UInt8) (direction : Direction) (source : BufferSource) (length : Nat)
  | abort
  | release
  | reclaim
  | setRate (hertz : UInt32)
  deriving DecidableEq, Repr

/-- `raise` interrupts through the sink the block has now, `raiseLatched` through the one it had at the
last `latch`. -/
inductive Step where
  | start (peer : Peer)
  | stop (peer : Peer)
  | transfer (direction : Direction) (peer : Peer) (source : BufferSource) (length : Nat)
  | setRate (peer : Peer) (kilohertz : UInt16)
  | interrupt (events : EventWord)
  | raise (events : EventWord)
  | latch
  | raiseLatched (events : EventWord)
  | dispatch
  | save
  | inject (injection : Injection)
  | clearLog
  | readLog
  | countLog (name : String)
  | direct (call : DirectCall)
  deriving DecidableEq, Repr

abbrev Reaction := List Step

inductive Reply where
  | nothing
  | status (status : Status)
  | flag (value : Bool)
  | noSink
  | noBuffer
  | count (n : Nat)
  | calls (log : List Call)
  | rate (hertz : UInt32)
  | bytes (bytes : Option (List UInt8))
  | started
  | refused (word : ResultWord) (bytes : List UInt8)
  deriving DecidableEq, Repr

structure Scenario where
  config : Config
  handlers : List (List Reaction)
  steps : List Step
  deriving DecidableEq, Repr

end PeripheralLayer.Bus
