import PeripheralLayer.Bus.Block
import PeripheralLayer.Peer

/-!
The mediator of one I2C master block. It lets at most one transaction occupy the bus, hands transfers
to the block, and turns the block's interrupts into one event for the handler that asked.

Every entry point is one critical section: a function from the mediator before to the mediator after,
a status, and at most one completion. A completion is delivered only after its section is over, so the
handler finds the mediator as the section left it and may call any entry point.
-/
namespace PeripheralLayer.Bus

structure Transaction where
  address : UInt8
  handler : HandlerId
  deriving DecidableEq, Repr

structure Completion where
  handler : HandlerId
  event : Event
  buffer : Option Buffer
  deriving DecidableEq, Repr

structure Counters where
  issued : UInt32 := 0
  completed : UInt32 := 0
  failed : UInt32 := 0
  refused : UInt32 := 0
  busyRejections : UInt32 := 0
  spurious : UInt32 := 0
  deriving DecidableEq, Repr

/-- `current` is the transfer in flight, `pending` an outcome that waits for a dispatch. -/
structure Mediator where
  config : Config
  block : Block := {}
  initialized : Bool := false
  bus : BusState := .free
  current : Option Transaction := none
  pending : Option Completion := none
  counters : Counters := {}
  deriving DecidableEq, Repr

structure Outcome where
  mediator : Mediator
  status : Status
  completion : Option Completion := none
  deriving DecidableEq, Repr

def Block.bringUp (b : Block) (config : Config) (pins : BusPins) : Block × Option ResultWord :=
  match b.acquire pins with
  | (b, some word) => (b, some word)
  | (b, none) =>
    match b.configure ⟨.master, 0, config.frequency⟩ with
    | (b, some word) => (b.release, some word)
    | (b, none) => (b.register.enableEvents .mediated config.priority true, none)

namespace Mediator

def start (m : Mediator) (peer : Peer) : Outcome :=
  match peer.pins with
  | none => ⟨m, .failure, none⟩
  | some pins =>
    if m.initialized then
      match m.config.reinit with
      | .reject => ⟨m, .failure, none⟩
      | .accept => ⟨m, .success, none⟩
    else
      match m.block.bringUp m.config pins with
      | (block, some _) => ⟨{ m with block }, .failure, none⟩
      | (block, none) =>
        ⟨{ m with block, initialized := true, bus := .free, current := none, pending := none },
          .success, none⟩

def abandon (m : Mediator) : Mediator × Option Completion :=
  match m.pending, m.current with
  -- An outcome that waits goes out as it was recorded.
  | some completion, _ => ({ m with pending := none, current := none }, some completion)
  | none, some transaction =>
    match m.block.abort.reclaim with
    | (block, buffer) =>
      ({ m with block, current := none, counters.failed := m.counters.failed + 1 },
        some ⟨transaction.handler, .error, buffer⟩)
  | none, none => (m, none)

/-- Takes the bus down, whatever occupies it. This is the way out when an interrupt never comes. -/
def stop (m : Mediator) (peer : Peer) : Outcome :=
  match peer.pins with
  | none => ⟨m, .failure, none⟩
  | some _ =>
    if m.initialized then
      match m.abandon with
      | (m, completion) =>
        let block := (m.block.enableEvents .mediated m.config.priority false).release
        ⟨{ m with block, initialized := false, bus := .free }, .success, completion⟩
    else ⟨m, .failure, none⟩

def transfer (m : Mediator) (peer : Peer) (direction : Direction) (buffer : Buffer) (length : Nat) :
    Outcome :=
  match peer.pins, peer.handler with
  | some _, some handler =>
    if !m.initialized then ⟨m, .failure, some ⟨handler, .error, some buffer⟩⟩
    else if m.bus = .busy then
      ⟨{ m with counters.busyRejections := m.counters.busyRejections + 1 },
        .busy, some ⟨handler, .busy, some buffer⟩⟩
    else if buffer.bytes.length < length then ⟨m, .failure, some ⟨handler, .error, some buffer⟩⟩
    else
      match m.block.transfer peer.address direction buffer length with
      | (block, none) =>
        ⟨{ m with block, current := some ⟨peer.address, handler⟩, bus := .busy,
                  counters.issued := m.counters.issued + 1 },
          .success, none⟩
      | (block, some refusal) =>
        ⟨{ m with block, current := none, bus := .free, counters.refused := m.counters.refused + 1 },
          refusal.word.status, some ⟨handler, .error, some refusal.buffer⟩⟩
  | _, _ => ⟨m, .failure, none⟩

def applyRate (m : Mediator) (kilohertz : UInt16) : Mediator × Status :=
  if !m.initialized then (m, .failure)
  else if m.bus = .busy then
    ({ m with counters.busyRejections := m.counters.busyRejections + 1 }, .busy)
  else
    match m.block.setRate (Config.hertz (min kilohertz m.config.ceiling)) with
    | (block, reached) => ({ m with block }, if reached = 0 then .failure else .success)

def setRate (m : Mediator) (peer : Peer) (kilohertz : UInt16) : Outcome :=
  match peer.pins with
  | none => ⟨m, .failure, none⟩
  | some _ =>
    match m.applyRate kilohertz with
    | (m, status) => ⟨m, status, peer.handler.map fun handler => ⟨handler, status.toEvent, none⟩⟩

def resolve (m : Mediator) (transaction : Transaction) (events : EventWord) : Mediator × Completion :=
  -- An error outweighs any completion reported with it.
  if events.isError then
    match m.block.abort.reclaim with
    | (block, buffer) =>
      ({ m with block, current := none, counters.failed := m.counters.failed + 1 },
        ⟨transaction.handler, .error, buffer⟩)
  else
    match m.block.reclaim with
    | (block, buffer) =>
      ({ m with block, current := none, counters.completed := m.counters.completed + 1 },
        ⟨transaction.handler, .success, buffer⟩)

def interrupt (m : Mediator) (events : EventWord) : Mediator × Option Completion :=
  if !events.isError && !events.isComplete then (m, none)
  else
    match m.current with
    | none => ({ m with counters.spurious := m.counters.spurious + 1 }, none)
    | some transaction =>
      match m.resolve transaction events with
      | (m, completion) =>
        match m.config.dispatch with
        | .direct => ({ m with bus := .free }, some completion)
        | .deferred => ({ m with pending := some completion }, none)

def dispatch (m : Mediator) : Mediator × Option Completion :=
  match m.pending with
  | none => (m, none)
  | some completion => ({ m with pending := none, bus := .free }, some completion)

end Mediator

end PeripheralLayer.Bus
