import PeripheralLayer.Bus.Config
import PeripheralLayer.EventWord
import PeripheralLayer.Pin
import PeripheralLayer.ResultWord

/-!
A simulated I2C master block. It does what an interrupt-driven block does, except that nothing happens
on its own: a transfer stays in flight until someone aborts it or takes its buffer back. Faults can be
planted in it, and the device on the far end answers reads with a given response.

The block remembers its calls twice. `heard` holds all of them and serves as the account of a run;
`log` is the memory a caller can read and clear, which is full after 32 entries and then loses what
comes later.
-/
namespace PeripheralLayer.Bus

/-- A transfer buffer. Two buffers with the same bytes are still two buffers, told apart by their tag. -/
structure Buffer where
  tag : Nat
  bytes : List UInt8
  deriving DecidableEq, Repr

inductive Direction where
  | write
  | read
  deriving DecidableEq, Repr

instance : Enumerated Direction where
  all := [.write, .read]
  name
    | .write => "Write"
    | .read => "Read"
  mem_all := by intro a; cases a <;> decide
  name_injective := by intro a b; cases a <;> cases b <;> decide

inductive Call where
  | acquire (pins : BusPins)
  | configure (config : BlockConfig)
  | register
  | enableEvents (events : EventWord) (priority : UInt8) (on : Bool)
  | transfer (address : UInt8) (direction : Direction) (length : Nat)
  | abort
  | setRate (hertz : UInt32)
  | release
  deriving DecidableEq, Repr

inductive CallKind where
  | acquire
  | configure
  | register
  | enableEvents
  | transfer
  | abort
  | setRate
  | release
  deriving DecidableEq, Repr

instance : Enumerated CallKind where
  all := [.acquire, .configure, .register, .enableEvents, .transfer, .abort, .setRate, .release]
  name
    | .acquire => "Init"
    | .configure => "Configure"
    | .register => "RegisterCallback"
    | .enableEvents => "EnableEvents"
    | .transfer => "Transfer"
    | .abort => "Abort"
    | .setRate => "SetDataRate"
    | .release => "Free"
  mem_all := by intro a; cases a <;> decide
  name_injective := by intro a b; cases a <;> cases b <;> decide

def Call.kind : Call → CallKind
  | .acquire _ => .acquire
  | .configure _ => .configure
  | .register => .register
  | .enableEvents _ _ _ => .enableEvents
  | .transfer _ _ _ => .transfer
  | .abort => .abort
  | .setRate _ => .setRate
  | .release => .release

inductive Stage where
  | acquire
  | configure
  | transfer
  deriving DecidableEq, Repr

def logCapacity : Nat := 32
def responseCapacity : Nat := 32

/-- `sink` says whether the block's interrupt reaches the mediator. `pending` holds between an accepted
transfer and its end, and `held` is the buffer the block still has in its hands. -/
structure Block where
  log : List Call := []
  heard : List Call := []
  sink : Bool := false
  held : Option Buffer := none
  pending : Bool := false
  acquireFault : Option ResultWord := none
  configureFault : Option ResultWord := none
  transferFault : Option ResultWord := none
  topRate : UInt32 := 1000000
  response : List UInt8 := []
  deriving DecidableEq, Repr

structure Refusal where
  word : ResultWord
  buffer : Buffer
  deriving DecidableEq, Repr

namespace Block

def note (b : Block) (call : Call) : Block :=
  { b with
    heard := b.heard ++ [call]
    log := if b.log.length < logCapacity then b.log ++ [call] else b.log }

/-! The calls a mediator makes. A planted fault is used up by the call it was planted for. -/

def acquire (b : Block) (pins : BusPins) : Block × Option ResultWord :=
  ({ b.note (.acquire pins) with acquireFault := none }, b.acquireFault)

def configure (b : Block) (config : BlockConfig) : Block × Option ResultWord :=
  ({ b.note (.configure config) with configureFault := none }, b.configureFault)

def register (b : Block) : Block := { b.note .register with sink := true }

def enableEvents (b : Block) (events : EventWord) (priority : UInt8) (on : Bool) : Block :=
  b.note (.enableEvents events priority on)

def answerAt (response : List UInt8) (address : UInt8) (place : Nat) : UInt8 :=
  match response[place]? with
  | some byte => byte
  | none => if response.isEmpty then address + UInt8.ofNat place else 0

def fill (response : List UInt8) (address : UInt8) (length : Nat) (bytes : List UInt8) : List UInt8 :=
  bytes.mapIdx fun place byte => if place < length then answerAt response address place else byte

/-- The buffer as it will come back: a read fills it when it is started, so nothing later can change it. -/
def received (b : Block) (address : UInt8) (direction : Direction) (length : Nat) (buffer : Buffer) : Buffer :=
  match direction with
  | .write => buffer
  | .read => { buffer with bytes := fill b.response address length buffer.bytes }

/-- Starts a transfer unless a fault was planted, an earlier one is pending, or there is nothing to do. A
transfer that is started takes the place of a buffer nobody took back. -/
def transfer (b : Block) (address : UInt8) (direction : Direction) (buffer : Buffer) (length : Nat) :
    Block × Option Refusal :=
  let noted := b.note (.transfer address direction length)
  match b.transferFault with
  | some word => ({ noted with transferFault := none }, some ⟨word, buffer⟩)
  | none =>
    if b.pending then (noted, some ⟨BusFault.previousPending, buffer⟩)
    else if length = 0 then (noted, some ⟨BusFault.buffersEmpty, buffer⟩)
    else ({ noted with held := some (b.received address direction length buffer), pending := true }, none)

def abort (b : Block) : Block := { b.note .abort with pending := false }

def reclaim (b : Block) : Block × Option Buffer := ({ b with pending := false, held := none }, b.held)

def setRate (b : Block) (hertz : UInt32) : Block × UInt32 :=
  (b.note (.setRate hertz), if hertz = 0 ∨ b.topRate < hertz then 0 else hertz)

def release (b : Block) : Block :=
  { b.note .release with sink := false, pending := false, held := none }

/-! What a bench does to the block. -/

def plant (b : Block) (stage : Stage) (word : ResultWord) : Block :=
  match stage with
  | .acquire => { b with acquireFault := some word }
  | .configure => { b with configureFault := some word }
  | .transfer => { b with transferFault := some word }

def respond (b : Block) (bytes : List UInt8) : Block × Bool :=
  if bytes.length ≤ responseCapacity then ({ b with response := bytes }, true)
  else ({ b with response := [] }, false)

def clearLog (b : Block) : Block := { b with log := [] }

def count (b : Block) (name : String) : Nat := b.log.countP fun call => Enumerated.name call.kind = name

end Block

end PeripheralLayer.Bus
