import PeripheralLayer.Proofs.Bus.Callbacks
import PeripheralLayer.Proofs.ResultWord

/-!
Transfers that the block refuses. When the block is asked the transfer stands in the mediator's books already, so
a refusal has to take it out again before the handler is told. All that a refused transfer leaves behind is its call,
one count, and a planted error that is used up; the handler is told of an error whatever the caller is told.
-/
namespace PeripheralLayer.Bus

inductive Block.Objects (b : Block) (length : Nat) : ResultWord → Prop where
  | planted (word : ResultWord) (fault : b.transferFault = some word) : Objects b length word
  | occupied (unplanted : b.transferFault = none) (pending : b.pending = true) :
      Objects b length BusFault.previousPending
  | empty (unplanted : b.transferFault = none) (ready : b.pending = false) (nothing : length = 0) :
      Objects b length BusFault.buffersEmpty

namespace Block

variable {b : Block} {length : Nat} {word : ResultWord}

theorem exists_objection (cause : b.transferFault.isSome ∨ b.pending = true ∨ length = 0) :
    ∃ word, b.Objects length word := by
  cases fault : b.transferFault with
  | some word => exact ⟨word, .planted word fault⟩
  | none =>
    cases pending : b.pending with
    | true => exact ⟨_, .occupied fault pending⟩
    | false =>
      have nothing : length = 0 := by simpa [fault, pending] using cause
      exact ⟨_, .empty fault pending nothing⟩

def refuse (b : Block) (call : Call) : Block := { b.note call with transferFault := none }

theorem transfer_of_objects (objects : b.Objects length word) (address : UInt8) (direction : Direction)
    (buffer : Buffer) :
    b.transfer address direction buffer length =
      (b.refuse (.transfer address direction length), some ⟨word, buffer⟩) := by
  -- only a planted error is there to be used up
  have unused (unplanted : b.transferFault = none) (call : Call) : b.refuse call = b.note call := by
    have same : (b.note call).transferFault = none := unplanted
    rw [refuse, ← same]
  cases objects with
  | planted word fault => simp only [transfer, fault, refuse]
  | occupied unplanted pending => simp only [transfer, unplanted, pending, if_true, unused unplanted]
  | empty unplanted ready nothing =>
    simp only [transfer, unplanted, ready, nothing, Bool.false_eq_true, if_false, if_true, unused unplanted]

end Block

theorem Mediator.transfer_of_objects {m : Mediator} (inside : m.In .idle) {peer : Peer} {handler : HandlerId}
    (listener : peer.listener = some handler) {buffer : Buffer} {length : Nat} (fits : length ≤ buffer.bytes.length)
    {word : ResultWord} (objects : m.block.Objects length word) (direction : Direction) :
    m.transfer peer direction buffer length =
      ⟨{ m with
          block := m.block.refuse (.transfer peer.address direction length)
          counters.refused := m.counters.refused + 1 },
        word.status, some ⟨handler, .error, some buffer⟩⟩ := by
  have refused := Block.transfer_of_objects objects peer.address direction buffer
  have current : m.current = none := inside.current
  have free : m.bus = .free := inside.bus
  rw [transfer_of_refused listener inside.initialized free fits refused, ← current, ← free]

theorem Session.advance_of_deed {s : Session} {d : Deed} (due : s.deed = some d) :
    ∃ t, s.advance = some (t, some d.moment) := by
  obtain ⟨step, first, rfl⟩ := Option.map_eq_some_iff.mp due
  obtain ⟨steps, made⟩ := List.head?_eq_some_iff.mp first
  simp only [advance, made, Option.some.injEq, Prod.mk.injEq]
  exact ⟨_, rfl, rfl⟩

/-- Wherever a transfer is refused in a run, the caller is told by the low half of the block's word alone and the
handler is told of an error once, with the buffer as it was lent. At the beginning of that callback already, all is
as it was before, but for one call, one count, and the planted error. -/
theorem refused_transfer_rolls_back {config : Config} {past : List Deed} {s : Session}
    (told : Chronicle config past s) {direction : Direction} {peer : Peer} {source : BufferSource} {length : Nat}
    {rest : List Step} (steps : s.steps = .transfer direction peer source length :: rest)
    (up : s.client.mediator.initialized = true) (free : s.client.mediator.bus = .free) {handler : HandlerId}
    (listener : peer.listener = some handler) {buffer : Buffer} (lent : (s.client.take source).2 = some buffer)
    (fits : length ≤ buffer.bytes.length)
    (cause : s.client.mediator.block.transferFault.isSome ∨ s.client.mediator.block.pending = true ∨ length = 0) :
    ∃ word t moment, s.client.mediator.block.Objects length word ∧ s.advance = some (t, some moment) ∧
      moment.reply = .status (if word.bits.toNat % 65536 = 4 then .busy else .failure) ∧
      moment.completion = some ⟨handler, .error, some buffer⟩ ∧
      t.steps = (Session.takeReaction s.reactions handler).1 ∧ t.client.returned = some buffer ∧
      t.client.mediator.block.heard =
        s.client.mediator.block.heard ++ [.transfer peer.address direction length] ∧
      t.client.mediator =
        { s.client.mediator with
          block := s.client.mediator.block.refuse (.transfer peer.address direction length)
          counters.refused := s.client.mediator.counters.refused + 1 } := by
  obtain ⟨p, turns⟩ := told.run.turns
  have inside : s.client.mediator.In .idle := by
    rcases turns.last.rests free with rfl | rfl
    · cases up.symm.trans turns.last.initialized
    · exact turns.last
  obtain ⟨word, objects⟩ := Block.exists_objection cause
  have transferred := Mediator.transfer_of_objects inside listener fits objects direction
  have taken : s.client.take source = ((s.client.take source).1, some buffer) := Prod.ext rfl lent
  have made : s.client.perform (.transfer direction peer source length) =
      (s.client.take source).1.ofOutcome (s.client.mediator.transfer peer direction buffer length) :=
    Client.perform_transfer_of_taken taken
  rw [transferred] at made
  let d : Deed := ⟨s.client, s.outer.length, .transfer direction peer source length⟩
  have due : s.deed = some d := by simp [Session.deed, steps, d]
  have reply : d.moment.reply = .status word.status := congrArg Effect.reply made
  have begins : d.told = some ⟨handler, .error, some buffer⟩ := congrArg Effect.completion made
  have left : d.left =
      { s.client.mediator with
        block := s.client.mediator.block.refuse (.transfer peer.address direction length)
        counters.refused := s.client.mediator.counters.refused + 1 } :=
    congrArg (fun e : Effect => e.client.mediator) made
  obtain ⟨t, next⟩ := Session.advance_of_deed due
  obtain ⟨reaction, returned, mediator⟩ := Session.advance_of_told due begins next
  rw [← left]
  refine ⟨word, t, d.moment, objects, next, ?_, begins, reaction, returned, ?_, mediator⟩
  · rw [reply, word.status_eq]
  · rw [mediator, left]
    rfl

/-- A handler that gets its buffer back from a read writes it out again, while the block is to refuse the next transfer
with a word of no driver. -/
def refusedEcho : Scenario where
  config := {}
  handlers := [[[.inject (.fault .transfer ⟨0x0abc0004⟩), .transfer .write boardPeer .returned 2]]]
  steps := [.start boardPeer, .transfer .read boardPeer (.fresh [0, 0]) 2, .raise .readComplete]

theorem refused_echo_rolls_back :
    ∃ (past : List Deed) (s t : Session) (moment : Moment), Chronicle refusedEcho.config past s ∧
      s.outer.length = 1 ∧ s.advance = some (t, some moment) ∧ moment.reply = .status .busy ∧
      moment.completion = some ⟨0, .error, some ⟨0, [0x30, 0x31]⟩⟩ ∧ t.client.mediator.bus = .free ∧
      t.client.mediator.block.heard.getLast? = some (.transfer 0x30 .write 2) ∧
      t.client.mediator.counters = { issued := 1, completed := 1, refused := 1 } := by
  have told := ((((Chronicle.fresh refusedEcho.steps refusedEcho.handlers :
    Chronicle refusedEcho.config _ _).advance rfl).advance rfl).advance rfl).advance rfl
  have lent : (some ⟨0, [0x30, 0x31]⟩ : Option Buffer) = some ⟨0, [0x30, 0x31]⟩ := rfl
  obtain ⟨word, t, moment, objects, next, reply, completion, -, -, heard, left⟩ :=
    refused_transfer_rolls_back told rfl rfl rfl rfl lent (by decide) (.inl rfl)
  refine ⟨_, _, t, moment, told, rfl, next, ?_, completion, ?_, ?_, ?_⟩
  · cases objects with
    | planted word fault =>
      cases fault
      exact reply
    | occupied unplanted | empty unplanted => cases unplanted
  · rw [left]
    rfl
  · rw [heard]
    rfl
  · rw [left]
    rfl

end PeripheralLayer.Bus
