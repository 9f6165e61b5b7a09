import PeripheralLayer.Proofs.Bus.Lag

/-!
Requests that are turned away. A request that lacks something, or comes to a bus that is down or occupied, or asks
for more than its buffer holds, does not reach the block: it has its handler told, with the buffer handed back, and
only the count of requests that found the bus busy may go up. As far as that can be seen, its client stays as it was.
-/
namespace PeripheralLayer.Bus

inductive Request where
  | transfer (direction : Direction) (peer : Peer) (bytes : List UInt8) (length : Nat)
  | setRate (peer : Peer) (kilohertz : UInt16)

namespace Request

def step : Request → Step
  | transfer direction peer bytes length => .transfer direction peer (.fresh bytes) length
  | setRate peer kilohertz => .setRate peer kilohertz

def peer : Request → Peer
  | transfer _ peer _ _ | setRate peer _ => peer

def complete : Request → Bool
  | transfer _ peer _ _ => peer.listener.isSome
  | setRate peer _ => peer.pins.isSome

def overlong : Request → Bool
  | transfer _ _ bytes length => bytes.length < length
  | setRate _ _ => false

def buffer (tag : Nat) : Request → Option Buffer
  | transfer _ _ bytes _ => some ⟨tag, bytes⟩
  | setRate _ _ => none

/-- The request does not reach the hardware. -/
def TurnedAway (r : Request) (m : Mediator) : Prop :=
  r.complete = false ∨ m.initialized = false ∨ m.bus = .busy ∨ r.overlong = true

/-- What the mediator says to a request that it turns away. What is lacking comes before what is occupied, and
that before what is too long. -/
def rejection (r : Request) (m : Mediator) : Status :=
  if r.complete && m.initialized && m.bus = .busy then .busy else .failure

def crowding (r : Request) (m : Mediator) : UInt32 := if r.rejection m = .busy then 1 else 0

def told (r : Request) (m : Mediator) (tag : Nat) : Option Completion :=
  r.peer.listener.map (⟨·, (r.rejection m).toEvent, r.buffer tag⟩)

def turnedAway (r : Request) (m : Mediator) (tag : Nat) : Outcome :=
  ⟨{ m with counters.busyRejections := m.counters.busyRejections + r.crowding m }, r.rejection m, r.told m tag⟩

variable {r : Request} {m : Mediator} {tag : Nat}

theorem turnedAway_of_failure (failed : r.rejection m = .failure) :
    r.turnedAway m tag = ⟨m, .failure, r.peer.listener.map (⟨·, .error, r.buffer tag⟩)⟩ := by
  simp [turnedAway, crowding, told, failed, Status.toEvent]

theorem turnedAway_of_busy (busy : r.rejection m = .busy) :
    r.turnedAway m tag =
      ⟨{ m with counters.busyRejections := m.counters.busyRejections + 1 }, .busy,
        r.peer.listener.map (⟨·, .busy, r.buffer tag⟩)⟩ := by
  simp [turnedAway, crowding, told, busy, Status.toEvent]

theorem transfer_turnedAway {direction : Direction} {peer : Peer} {bytes : List UInt8} {length : Nat}
    (turned : (transfer direction peer bytes length).TurnedAway m) :
    m.transfer peer direction ⟨tag, bytes⟩ length = (transfer direction peer bytes length).turnedAway m tag := by
  cases listener : peer.listener with
  | none =>
    rw [Mediator.transfer_of_unheard listener, turnedAway_of_failure (by simp [rejection, complete, listener])]
    simp [Request.peer, listener]
  | some handler =>
    cases up : m.initialized with
    | false =>
      rw [Mediator.transfer_of_down listener up, turnedAway_of_failure (by simp [rejection, up])]
      simp [Request.peer, listener, buffer]
    | true =>
      cases bus : m.bus with
      | busy =>
        rw [Mediator.transfer_of_busy listener up bus,
          turnedAway_of_busy (by simp [rejection, complete, listener, up, bus])]
        simp [Request.peer, listener, buffer]
      | free =>
        have long : bytes.length < length := by
          simpa [TurnedAway, complete, overlong, listener, up, bus] using turned
        rw [Mediator.transfer_of_long listener up bus long, turnedAway_of_failure (by simp [rejection, bus])]
        simp [Request.peer, listener, buffer]

theorem setRate_turnedAway {peer : Peer} {kilohertz : UInt16} (turned : (setRate peer kilohertz).TurnedAway m) :
    m.setRate peer kilohertz = (setRate peer kilohertz).turnedAway m tag := by
  cases pins : peer.pins with
  | none =>
    rw [turnedAway_of_failure (by simp [rejection, complete, pins])]
    simp [Mediator.setRate, pins, Request.peer, Peer.listener]
  | some hardware =>
    cases up : m.initialized with
    | false =>
      rw [turnedAway_of_failure (by simp [rejection, up])]
      simp [Mediator.setRate, Mediator.applyRate_of_down up, pins, Request.peer, Peer.listener, buffer, Status.toEvent]
    | true =>
      have busy : m.bus = .busy := by
        simpa [TurnedAway, complete, overlong, pins, up] using turned
      rw [turnedAway_of_busy (by simp [rejection, complete, pins, up, busy])]
      simp [Mediator.setRate, Mediator.applyRate_of_busy up busy, pins, Request.peer, Peer.listener, buffer,
        Status.toEvent]

theorem handler_of_told {outcome : Completion} (told : r.told m tag = some outcome) :
    r.peer.handler = some outcome.handler := by
  obtain ⟨handler, listener, rfl⟩ := Option.map_eq_some_iff.mp told
  obtain ⟨pins, -, listening⟩ := Option.bind_eq_some_iff.mp listener
  exact listening

theorem lagging_turnedAway : (r.turnedAway m tag).mediator.lagging (r.crowding m) = m.lagging 0 := by
  simp [turnedAway, Mediator.lagging]

end Request

theorem Client.perform_of_turnedAway {c : Client} {r : Request} (turned : r.TurnedAway c.mediator) :
    ∃ d : Client, d.lagging 0 = c.lagging 0 ∧
      c.perform r.step = d.ofOutcome (r.turnedAway c.mediator c.nextTag) := by
  cases r with
  | transfer direction peer bytes length =>
    refine ⟨{ c with nextTag := c.nextTag + 1 }, rfl, ?_⟩
    rw [← Request.transfer_turnedAway turned]
    exact perform_transfer_of_taken rfl
  | setRate peer kilohertz =>
    refine ⟨c, rfl, ?_⟩
    rw [← Request.setRate_turnedAway turned]
    rfl

theorem Client.lagging_of_turnedAway {c : Client} {r : Request} (turned : r.TurnedAway c.mediator) :
    (c.perform r.step).client.lagging (r.crowding c.mediator) = c.lagging 0 := by
  obtain ⟨d, same, made⟩ := c.perform_of_turnedAway turned
  rw [made]
  calc (d.ofOutcome (r.turnedAway c.mediator c.nextTag)).client.lagging (r.crowding c.mediator)
    _ = { d.lagging 0 with
          mediator := (r.turnedAway c.mediator c.nextTag).mediator.lagging (r.crowding c.mediator) } := rfl
    _ = { c.lagging 0 with mediator := c.mediator.lagging 0 } := by rw [same, Request.lagging_turnedAway]
    _ = c.lagging 0 := rfl

theorem Client.found_of_turnedAway {c : Client} {r : Request} (turned : r.TurnedAway c.mediator) :
    c.mediator.lagging 0 = (c.perform r.step).client.mediator.lagging (r.crowding c.mediator) :=
  congrArg Client.mediator (lagging_of_turnedAway turned).symm

theorem Client.reply_of_turnedAway {c : Client} {r : Request} (turned : r.TurnedAway c.mediator) :
    (c.perform r.step).reply = .status (r.rejection c.mediator) := by
  obtain ⟨d, -, made⟩ := c.perform_of_turnedAway turned
  rw [made]
  rfl

theorem Client.completion_of_turnedAway {c : Client} {r : Request} (turned : r.TurnedAway c.mediator) :
    (c.perform r.step).completion = r.told c.mediator c.nextTag := by
  obtain ⟨d, -, made⟩ := c.perform_of_turnedAway turned
  rw [made]
  rfl

theorem Client.block_of_turnedAway {c : Client} {r : Request} (turned : r.TurnedAway c.mediator) :
    (c.perform r.step).client.mediator.block = c.mediator.block := by
  obtain ⟨d, -, made⟩ := c.perform_of_turnedAway turned
  rw [made]
  rfl

end PeripheralLayer.Bus
