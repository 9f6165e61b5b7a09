import PeripheralLayer.Proofs.Bus.Run
import PeripheralLayer.Proofs.ResultWord

/-!
The phases of a mediator. Its four control fields always agree on one of four phases: the bus is down,
up and idle, occupied by a transfer in flight, or occupied by an outcome that waits for a dispatch. Each
entry point is described here by the phase it starts in.
-/
namespace PeripheralLayer

/-- The handler that a request to this peer concerns. Without hardware there is no request. -/
def Peer.listener (p : Peer) : Option HandlerId := p.pins.bind fun _ => p.handler

def EventWord.verdict (w : EventWord) : Option Event :=
  if w.isError then some .error else if w.isComplete then some .success else none

theorem EventWord.handled_of_verdict {w : EventWord} {event : Event} (h : w.verdict = some event) :
    ¬ (!w.isError && !w.isComplete) = true := by
  intro ignored
  simp_all [EventWord.verdict]

namespace Bus

inductive Phase where
  | down
  | idle
  | inFlight (transaction : Transaction)
  | waiting (outcome : Completion)
  deriving DecidableEq, Repr

namespace Phase

def initialized : Phase → Bool
  | down => false
  | _ => true

def bus : Phase → BusState
  | down | idle => .free
  | inFlight _ | waiting _ => .busy

def current : Phase → Option Transaction
  | inFlight transaction => some transaction
  | _ => none

def pending : Phase → Option Completion
  | waiting outcome => some outcome
  | _ => none

end Phase

/-- The control fields are those of the phase. Nothing is said of the block or the counters. -/
structure Mediator.In (m : Mediator) (p : Phase) : Prop where
  initialized : m.initialized = p.initialized
  bus : m.bus = p.bus
  current : m.current = p.current
  pending : m.pending = p.pending

theorem Mediator.In.unique {m : Mediator} {p q : Phase} (h : m.In p) (h' : m.In q) : p = q := by
  have initialized := h.initialized.symm.trans h'.initialized
  have current := h.current.symm.trans h'.current
  have pending := h.pending.symm.trans h'.pending
  cases p <;> cases q <;> simp_all [Phase.initialized, Phase.current, Phase.pending]

theorem Mediator.In.withBlock {m : Mediator} {p : Phase} (h : m.In p) (block : Block) :
    ({ m with block } : Mediator).In p :=
  ⟨h.initialized, h.bus, h.current, h.pending⟩

theorem Mediator.In.withCounters {m : Mediator} {p : Phase} (h : m.In p) (counters : Counters) :
    ({ m with counters } : Mediator).In p :=
  ⟨h.initialized, h.bus, h.current, h.pending⟩

theorem Block.refusal_buffer {b block : Block} {address : UInt8} {direction : Direction} {buffer : Buffer}
    {length : Nat} {refusal : Refusal} (h : b.transfer address direction buffer length = (block, some refusal)) :
    refusal.buffer = buffer := by
  unfold Block.transfer at h
  grind

def Phase.orphan (held : Option Buffer) : Phase → Option Completion
  | inFlight transaction => some ⟨transaction.handler, .error, held⟩
  | waiting outcome => some outcome
  | _ => none

namespace Mediator

variable {m : Mediator} {p : Phase}

theorem In.eq_down (h : m.In p) (down : m.initialized = false) : p = .down := by
  have agree := h.initialized
  cases p <;> simp_all [Phase.initialized]

theorem start_phase (h : m.In p) (peer : Peer) :
    (m.start peer).completion = none ∧
      ((m.start peer).mediator.In p ∨ p = .down ∧ (m.start peer).mediator.In .idle) := by
  unfold start
  split
  · exact ⟨rfl, Or.inl h⟩
  · split
    · split <;> exact ⟨rfl, Or.inl h⟩
    · rename_i down
      split
      · exact ⟨rfl, Or.inl (h.withBlock _)⟩
      · exact ⟨rfl, Or.inr ⟨h.eq_down (by simpa using down), ⟨rfl, rfl, rfl, rfl⟩⟩⟩

theorem abandon_phase (h : m.In p) :
    m.abandon.1.initialized = p.initialized ∧ m.abandon.1.current = none ∧ m.abandon.1.pending = none ∧
      m.abandon.2 = p.orphan m.block.held := by
  have initialized := h.initialized
  have current := h.current
  have pending := h.pending
  unfold abandon
  cases p <;> simp_all [Phase.current, Phase.pending, Phase.orphan, Block.abort, Block.reclaim, Block.note]

theorem stop_phase (h : m.In p) {peer : Peer} (hardware : peer.pins.isSome) :
    (m.stop peer).mediator.In .down ∧ (m.stop peer).completion = p.orphan m.block.held := by
  obtain ⟨pins, eq⟩ := Option.isSome_iff_exists.mp hardware
  simp only [stop, eq]
  split
  · obtain ⟨-, current, pending, orphan⟩ := abandon_phase h
    exact ⟨⟨rfl, rfl, current, pending⟩, orphan⟩
  · rename_i down
    have same := h.eq_down (by simpa using down)
    subst same
    exact ⟨h, rfl⟩

theorem stop_block (m : Mediator) (peer : Peer) :
    ∃ log heard sink held pending, (m.stop peer).mediator.block = { m.block with log, heard, sink, held, pending } := by
  have kept : ∃ log heard held pending, m.abandon.1.block = { m.block with log, heard, held, pending } := by
    unfold abandon
    split <;> exact ⟨_, _, _, _, rfl⟩
  obtain ⟨log, heard, held, pending, abandoned⟩ := kept
  unfold stop
  split
  · exact ⟨_, _, _, _, _, rfl⟩
  · split
    · dsimp only
      rw [abandoned]
      exact ⟨_, _, _, _, _, rfl⟩
    · exact ⟨_, _, _, _, _, rfl⟩

section Transfer

variable {peer : Peer} {handler : HandlerId} {direction : Direction} {buffer : Buffer} {length : Nat}

theorem transfer_of_unheard (unheard : peer.listener = none) :
    m.transfer peer direction buffer length = ⟨m, .failure, none⟩ := by
  unfold transfer
  split
  · rename_i hardware named
    simp [Peer.listener, hardware, named] at unheard
  · rfl

theorem transfer_of_down (asked : peer.listener = some handler) (down : m.initialized = false) :
    m.transfer peer direction buffer length = ⟨m, .failure, some ⟨handler, .error, some buffer⟩⟩ := by
  obtain ⟨pins, hardware, named⟩ := Option.bind_eq_some_iff.mp asked
  simp [transfer, hardware, named, down]

theorem transfer_of_busy (asked : peer.listener = some handler) (up : m.initialized = true)
    (busy : m.bus = .busy) :
    m.transfer peer direction buffer length =
      ⟨{ m with counters.busyRejections := m.counters.busyRejections + 1 }, .busy,
        some ⟨handler, .busy, some buffer⟩⟩ := by
  obtain ⟨pins, hardware, named⟩ := Option.bind_eq_some_iff.mp asked
  simp [transfer, hardware, named, up, busy]

theorem transfer_of_long (asked : peer.listener = some handler) (up : m.initialized = true)
    (free : m.bus = .free) (long : buffer.bytes.length < length) :
    m.transfer peer direction buffer length = ⟨m, .failure, some ⟨handler, .error, some buffer⟩⟩ := by
  obtain ⟨pins, hardware, named⟩ := Option.bind_eq_some_iff.mp asked
  simp [transfer, hardware, named, up, free, long]

theorem transfer_of_accepted {block : Block} (asked : peer.listener = some handler)
    (up : m.initialized = true) (free : m.bus = .free) (fits : length ≤ buffer.bytes.length)
    (taken : m.block.transfer peer.address direction buffer length = (block, none)) :
    m.transfer peer direction buffer length =
      ⟨{ m with block, current := some ⟨peer.address, handler⟩, bus := .busy,
                counters.issued := m.counters.issued + 1 }, .success, none⟩ := by
  obtain ⟨pins, hardware, named⟩ := Option.bind_eq_some_iff.mp asked
  simp [transfer, hardware, named, up, free, Nat.not_lt.mpr fits, taken]

theorem transfer_of_refused {block : Block} {refusal : Refusal} (asked : peer.listener = some handler)
    (up : m.initialized = true) (free : m.bus = .free) (fits : length ≤ buffer.bytes.length)
    (refused : m.block.transfer peer.address direction buffer length = (block, some refusal)) :
    m.transfer peer direction buffer length =
      ⟨{ m with block, current := none, bus := .free, counters.refused := m.counters.refused + 1 },
        refusal.word.status, some ⟨handler, .error, some buffer⟩⟩ := by
  obtain ⟨pins, hardware, named⟩ := Option.bind_eq_some_iff.mp asked
  have returned := Block.refusal_buffer refused
  simp [transfer, hardware, named, up, free, Nat.not_lt.mpr fits, refused, returned]

theorem transfer_phase (h : m.In p) (asked : peer.listener = some handler) (direction : Direction)
    (buffer : Buffer) (length : Nat) :
    ((m.transfer peer direction buffer length).mediator.In p ∧
      (m.transfer peer direction buffer length).status ≠ .success ∧
      ∃ event, (m.transfer peer direction buffer length).completion = some ⟨handler, event, some buffer⟩ ∧
        (event = .busy ↔ p.bus = .busy)) ∨
    (p = .idle ∧ (m.transfer peer direction buffer length).mediator.In (.inFlight ⟨peer.address, handler⟩) ∧
      (m.transfer peer direction buffer length).status = .success ∧
      (m.transfer peer direction buffer length).completion = none) := by
  cases p with
  | down =>
    rw [transfer_of_down asked h.initialized]
    exact Or.inl ⟨h, by simp, .error, rfl, by simp [Phase.bus]⟩
  | idle =>
    by_cases fits : length ≤ buffer.bytes.length
    · cases answer : m.block.transfer peer.address direction buffer length with
      | mk block refusal =>
        cases refusal with
        | none =>
          rw [transfer_of_accepted asked h.initialized h.bus fits answer]
          exact Or.inr ⟨rfl, ⟨h.initialized, rfl, rfl, h.pending⟩, rfl, rfl⟩
        | some refusal =>
          rw [transfer_of_refused asked h.initialized h.bus fits answer]
          exact Or.inl ⟨⟨h.initialized, rfl, rfl, h.pending⟩, refusal.word.status_ne_success, .error, rfl,
            by simp [Phase.bus]⟩
    · rw [transfer_of_long asked h.initialized h.bus (Nat.not_le.mp fits)]
      exact Or.inl ⟨h, by simp, .error, rfl, by simp [Phase.bus]⟩
  | inFlight transaction =>
    rw [transfer_of_busy asked h.initialized h.bus]
    exact Or.inl ⟨h.withCounters _, by simp, .busy, rfl, by simp [Phase.bus]⟩
  | waiting outcome =>
    rw [transfer_of_busy asked h.initialized h.bus]
    exact Or.inl ⟨h.withCounters _, by simp, .busy, rfl, by simp [Phase.bus]⟩

end Transfer

theorem applyRate_of_down (down : m.initialized = false) (kilohertz : UInt16) :
    m.applyRate kilohertz = (m, .failure) := by
  simp [applyRate, down]

theorem applyRate_of_busy (up : m.initialized = true) (busy : m.bus = .busy) (kilohertz : UInt16) :
    m.applyRate kilohertz =
      ({ m with counters.busyRejections := m.counters.busyRejections + 1 }, .busy) := by
  simp [applyRate, up, busy]

theorem applyRate_of_free (up : m.initialized = true) (free : m.bus = .free) (kilohertz : UInt16) :
    m.applyRate kilohertz =
      ({ m with block := (m.block.setRate (Config.hertz (min kilohertz m.config.ceiling))).1 },
        if (m.block.setRate (Config.hertz (min kilohertz m.config.ceiling))).2 = 0 then .failure
        else .success) := by
  simp [applyRate, up, free]

theorem applyRate_phase (h : m.In p) (kilohertz : UInt16) :
    (m.applyRate kilohertz).1.In p ∧ ((m.applyRate kilohertz).2.toEvent = .busy ↔ p.bus = .busy) := by
  cases p with
  | down =>
    rw [applyRate_of_down h.initialized]
    exact ⟨h, by simp [Status.toEvent, Phase.bus]⟩
  | idle =>
    rw [applyRate_of_free h.initialized h.bus]
    refine ⟨h.withBlock _, ?_⟩
    dsimp only
    split <;> simp [Status.toEvent, Phase.bus]
  | inFlight transaction =>
    rw [applyRate_of_busy h.initialized h.bus]
    exact ⟨h.withCounters _, by simp [Status.toEvent, Phase.bus]⟩
  | waiting outcome =>
    rw [applyRate_of_busy h.initialized h.bus]
    exact ⟨h.withCounters _, by simp [Status.toEvent, Phase.bus]⟩

theorem setRate_phase (h : m.In p) {peer : Peer} (hardware : peer.pins.isSome) (kilohertz : UInt16) :
    (m.setRate peer kilohertz).mediator.In p ∧
      ∃ event, (m.setRate peer kilohertz).completion = peer.handler.map (⟨·, event, none⟩) ∧
        (event = .busy ↔ p.bus = .busy) := by
  obtain ⟨pins, eq⟩ := Option.isSome_iff_exists.mp hardware
  obtain ⟨inside, busy⟩ := applyRate_phase h kilohertz
  simp only [setRate, eq]
  exact ⟨inside, _, rfl, busy⟩

theorem interrupt_of_ignored {events : EventWord} (ignored : events.verdict = none) :
    m.interrupt events = (m, none) := by
  unfold EventWord.verdict at ignored
  unfold interrupt
  split at ignored
  · exact absurd ignored (by simp)
  · split at ignored
    · exact absurd ignored (by simp)
    · rename_i noError notComplete
      simp [noError, notComplete]

theorem resolve_phase {transaction : Transaction} (h : m.In (.inFlight transaction)) {events : EventWord}
    {event : Event} (verdict : events.verdict = some event) :
    (m.resolve transaction events).1.initialized = true ∧ (m.resolve transaction events).1.bus = .busy ∧
      (m.resolve transaction events).1.current = none ∧ (m.resolve transaction events).1.pending = none ∧
      (m.resolve transaction events).1.config = m.config ∧
      (m.resolve transaction events).2 = ⟨transaction.handler, event, m.block.held⟩ := by
  unfold EventWord.verdict at verdict
  unfold resolve
  split at verdict
  · rename_i error
    cases verdict
    rw [if_pos error]
    exact ⟨h.initialized, h.bus, rfl, h.pending, rfl, rfl⟩
  · rename_i noError
    rw [if_neg noError]
    split at verdict
    · cases verdict
      exact ⟨h.initialized, h.bus, rfl, h.pending, rfl, rfl⟩
    · cases verdict

theorem interrupt_of_spurious {events : EventWord} {event : Event} (verdict : events.verdict = some event)
    (nothing : m.current = none) :
    m.interrupt events = ({ m with counters.spurious := m.counters.spurious + 1 }, none) := by
  have handled := EventWord.handled_of_verdict verdict
  simp [interrupt, handled, nothing]

theorem interrupt_direct_phase {transaction : Transaction} (h : m.In (.inFlight transaction))
    (direct : m.config.dispatch = .direct) {events : EventWord} {event : Event}
    (verdict : events.verdict = some event) :
    (m.interrupt events).1.In .idle ∧
      (m.interrupt events).2 = some ⟨transaction.handler, event, m.block.held⟩ := by
  have handled := EventWord.handled_of_verdict verdict
  obtain ⟨up, -, current, pending, config, outcome⟩ := resolve_phase h verdict
  have found : m.current = some transaction := h.current
  simp only [interrupt, handled, found, config, direct, outcome]
  exact ⟨⟨up, rfl, current, pending⟩, rfl⟩

theorem interrupt_deferred_phase {transaction : Transaction} (h : m.In (.inFlight transaction))
    (deferred : m.config.dispatch = .deferred) {events : EventWord} {event : Event}
    (verdict : events.verdict = some event) :
    (m.interrupt events).1.In (.waiting ⟨transaction.handler, event, m.block.held⟩) ∧
      (m.interrupt events).2 = none := by
  have handled := EventWord.handled_of_verdict verdict
  obtain ⟨up, bus, current, -, config, outcome⟩ := resolve_phase h verdict
  have found : m.current = some transaction := h.current
  simp only [interrupt, handled, found, config, deferred, outcome]
  exact ⟨⟨up, bus, current, rfl⟩, rfl⟩

theorem dispatch_of_empty (empty : m.pending = none) : m.dispatch = (m, none) := by
  simp [dispatch, empty]

theorem dispatch_phase {outcome : Completion} (h : m.In (.waiting outcome)) :
    m.dispatch.1.In .idle ∧ m.dispatch.2 = some outcome := by
  have found : m.pending = some outcome := h.pending
  simp only [dispatch, found, and_true]
  exact ⟨h.initialized, rfl, h.current, rfl⟩

/-! No entry point touches the configuration. -/

section Config

variable (m : Mediator)

theorem config_start (peer : Peer) : (m.start peer).mediator.config = m.config := by
  unfold start
  repeat' split
  all_goals rfl

theorem config_abandon : m.abandon.1.config = m.config := by
  unfold abandon
  split <;> rfl

theorem config_stop (peer : Peer) : (m.stop peer).mediator.config = m.config := by
  have kept := m.config_abandon
  unfold stop
  split
  · rfl
  · split
    · exact kept
    · rfl

theorem config_transfer (peer : Peer) (direction : Direction) (buffer : Buffer) (length : Nat) :
    (m.transfer peer direction buffer length).mediator.config = m.config := by
  unfold transfer
  repeat' split
  all_goals rfl

theorem config_applyRate (kilohertz : UInt16) : (m.applyRate kilohertz).1.config = m.config := by
  unfold applyRate
  repeat' split
  all_goals rfl

theorem config_setRate (peer : Peer) (kilohertz : UInt16) :
    (m.setRate peer kilohertz).mediator.config = m.config := by
  unfold setRate
  split
  · rfl
  · exact m.config_applyRate kilohertz

theorem config_resolve (transaction : Transaction) (events : EventWord) :
    (m.resolve transaction events).1.config = m.config := by
  unfold resolve
  split <;> rfl

theorem config_interrupt (events : EventWord) : (m.interrupt events).1.config = m.config := by
  unfold interrupt
  split
  · rfl
  · split
    · rfl
    · rename_i transaction found
      have kept := m.config_resolve transaction events
      dsimp only
      split <;> exact kept

theorem config_dispatch : m.dispatch.1.config = m.config := by
  unfold dispatch
  split <;> rfl

end Config

end Mediator

end Bus

end PeripheralLayer
