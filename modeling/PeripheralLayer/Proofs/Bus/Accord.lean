import PeripheralLayer.Proofs.Bus.Deal

/-!
Mediator and block in accord. Both keep a record of the transfer in flight, and the block also remembers
whom to interrupt. As long as nobody calls the block past the mediator the records agree, so a bus that is
up and free accepts every transfer that has something to carry and room for it.
-/
namespace PeripheralLayer.Bus

structure Phase.Matches (p : Phase) (g : Grip) : Prop where
  pending : g.pending = p.current.isSome
  held : g.held.isSome = p.current.isSome
  sink : g.sink = p.initialized

section Accord

variable {m n : Mediator} {p q : Phase} {entry : Entry} {calls : List Call} {told : Option Completion}

theorem Deal.matches (deal : Deal m n p entry calls told q) (h : p.Matches m.block.grip) :
    q.Matches n.block.grip := by
  cases deal with
  | ignored p entry asks verdict same | declined p entry asks free same => exact same ▸ h
  | turnedAway p entry asks busy grip counters => exact grip ▸ h
  | spurious p events event verdict nothing grip counters => exact grip ▸ h
  | rated peer kilohertz hertz event within grip counters => exact grip ▸ h
  | refused peer handler direction buffer length listener grip counters => exact grip ▸ h
  | unacquired peer pins grip counters => exact grip ▸ h
  | accepted peer handler direction buffer length listener grip counters =>
    rw [grip]
    exact ⟨rfl, rfl, h.sink⟩
  | raised peer pins grip counters =>
    rw [grip]
    exact ⟨h.pending, h.held, rfl⟩
  | unconfigured peer pins grip counters | closed peer grip counters =>
    rw [grip]
    exact ⟨rfl, rfl, rfl⟩
  | withdrawn peer outcome grip counters | aborted peer transaction grip counters =>
    rw [grip]
    exact ⟨rfl, rfl, rfl⟩
  | resolved transaction events event verdict grip counters
  | recorded transaction events event verdict grip counters =>
    rw [grip]
    exact ⟨rfl, rfl, h.sink⟩
  | dispatched outcome grip counters =>
    rw [grip]
    exact ⟨h.pending, h.held, h.sink⟩

theorem Deal.ready_of_transfer {peer : Peer} {direction : Direction} {buffer : Buffer} {length : Nat}
    (deal : Deal m n p (.transfer peer direction buffer length) calls told q) (made : calls ≠ [])
    (h : p.Matches m.block.grip) : m.block.pending = false := by
  cases deal with
  | ignored | declined | turnedAway => exact absurd rfl made
  | refused | accepted => exact h.pending

end Accord

theorem Block.refusal_of_ready {b block : Block} {address : UInt8} {direction : Direction} {buffer : Buffer}
    {length : Nat} {refusal : Refusal} (ready : b.pending = false) (unplanted : b.transferFault = none)
    (refused : b.transfer address direction buffer length = (block, some refusal)) :
    refusal.word = BusFault.buffersEmpty ∧ length = 0 := by
  unfold transfer at refused
  simp only [unplanted, ready, Bool.false_eq_true, if_false] at refused
  split at refused
  · rename_i empty
    cases refused
    exact ⟨rfl, empty⟩
  · cases refused

theorem Block.transfer_of_ready {b : Block} {address : UInt8} {direction : Direction} {buffer : Buffer}
    {length : Nat} (ready : b.pending = false) (unplanted : b.transferFault = none) (some_length : 1 ≤ length) :
    ∃ block, b.transfer address direction buffer length = (block, none) ∧
      b.Noted [.transfer address direction length] block := by
  rcases b.transfer_cases address direction buffer length with
    ⟨block, refusal, refused, noted, grip⟩ | ⟨block, taken, noted, grip⟩
  · obtain ⟨-, empty⟩ := refusal_of_ready ready unplanted refused
    omega
  · exact ⟨block, taken, noted⟩

/-- When the block refuses a transfer that this deed hands to it, and nobody has planted a fault, then there
was nothing to transfer. In particular it never says that an earlier transfer is still pending. -/
def Deed.RefusedForCause (d : Deed) : Prop :=
  ∀ peer direction buffer length block refusal, d.entry = some (.transfer peer direction buffer length) →
    d.calls ≠ [] → d.found.block.transferFault = none →
    d.found.block.transfer peer.address direction buffer length = (block, some refusal) →
    refusal.word = BusFault.buffersEmpty ∧ refusal.word ≠ BusFault.previousPending ∧ length = 0

theorem Deed.refusedForCause_of_deal {d : Deed} {p q : Phase} {entry : Entry} (enters : d.entry = some entry)
    (deal : Deal d.found d.left p entry d.calls d.told q) (h : p.Matches d.found.block.grip) :
    d.RefusedForCause := by
  intro peer direction buffer length block refusal asked made unplanted refused
  cases enters.symm.trans asked
  have ready := deal.ready_of_transfer made h
  obtain ⟨word, empty⟩ := Block.refusal_of_ready ready unplanted refused
  refine ⟨word, ?_, empty⟩
  rw [word]
  decide

structure Mediator.Issues (m : Mediator) (peer : Peer) (direction : Direction) (buffer : Buffer)
    (length : Nat) : Prop where
  status : (m.transfer peer direction buffer length).status = .success
  silent : (m.transfer peer direction buffer length).completion = none
  busy : (m.transfer peer direction buffer length).mediator.bus = .busy
  one_call : (m.transfer peer direction buffer length).mediator.block.heard =
    m.block.heard ++ [.transfer peer.address direction length]

theorem Mediator.issues_of_ready {m : Mediator} (up : m.initialized = true) (free : m.bus = .free)
    (ready : m.block.pending = false) (unplanted : m.block.transferFault = none) {peer : Peer}
    (complete : peer.listener.isSome) {direction : Direction} {buffer : Buffer} {length : Nat}
    (some_length : 1 ≤ length) (fits : length ≤ buffer.bytes.length) :
    m.Issues peer direction buffer length := by
  obtain ⟨handler, listener⟩ := Option.isSome_iff_exists.mp complete
  obtain ⟨block, taken, noted⟩ := Block.transfer_of_ready ready unplanted some_length
  have left := transfer_of_accepted listener up free fits taken
  constructor <;> rw [left]
  exact noted.heard_eq

theorem Chronicle.matches {config : Config} {past : List Deed} {s : Session} (told : Chronicle config past s)
    (mediated : ∀ d ∈ past, d.step.mediated = true) :
    ∃ p, s.client.mediator.In p ∧ p.Matches s.client.mediator.block.grip ∧ ∀ d ∈ past, d.RefusedForCause := by
  refine told.upholds (fun step => step.mediated = true)
    (fun past p m => p.Matches m.block.grip ∧ ∀ d ∈ past, d.RefusedForCause) ⟨⟨rfl, rfl, rfl⟩, by simp⟩
    ?_ ?_ mediated
  · rintro past d p entry q - - - enters - deal ⟨accord, refusals⟩
    have last : d.RefusedForCause := Deed.refusedForCause_of_deal enters deal accord
    exact ⟨deal.matches accord, List.forall_mem_append.mpr ⟨refusals, List.forall_mem_singleton.mpr last⟩⟩
  · rintro past d p permitted outside ⟨accord, refusals⟩
    have grip : d.left.block.grip = d.found.block.grip := (Client.block_outside outside permitted).2.1
    have last : d.RefusedForCause := by
      intro peer direction buffer length block refusal asked
      cases outside.symm.trans asked
    exact ⟨grip ▸ accord, List.forall_mem_append.mpr ⟨refusals, List.forall_mem_singleton.mpr last⟩⟩

theorem Phase.current_of_free {p : Phase} (free : p.bus = .free) : p.current = none := by
  cases p with
  | down | idle | waiting => rfl
  | inFlight transaction => cases free

/-- Without direct calls, at every point of every run: the block thinks a transfer pending, the block holds a
buffer and the mediator has a transfer in flight all at the same times, and the block has a sink just while
the mediator is up. So the block never refused a transfer for one still pending, and a bus that is up and
free accepts. -/
theorem block_in_accord {config : Config} {past : List Deed} {s : Session} (told : Chronicle config past s)
    (mediated : ∀ d ∈ past, d.step.mediated = true) :
    (s.client.mediator.block.pending = true ↔ s.client.mediator.current.isSome) ∧
      (s.client.mediator.block.held.isSome ↔ s.client.mediator.current.isSome) ∧
      (s.client.mediator.block.sink = true ↔ s.client.mediator.initialized = true) ∧
      (∀ d ∈ past, d.RefusedForCause) ∧
      (s.client.mediator.initialized = true → s.client.mediator.bus = .free →
        s.client.mediator.block.transferFault = none →
        ∀ peer direction buffer length, peer.listener.isSome → 1 ≤ length → length ≤ buffer.bytes.length →
          s.client.mediator.Issues peer direction buffer length) := by
  obtain ⟨p, inside, accord, refusals⟩ := told.matches mediated
  have pending : s.client.mediator.block.pending = s.client.mediator.current.isSome :=
    accord.pending.trans (congrArg Option.isSome inside.current.symm)
  have held : s.client.mediator.block.held.isSome = s.client.mediator.current.isSome :=
    accord.held.trans (congrArg Option.isSome inside.current.symm)
  have sink : s.client.mediator.block.sink = s.client.mediator.initialized :=
    accord.sink.trans inside.initialized.symm
  refine ⟨by rw [pending], by rw [held], by rw [sink], refusals, ?_⟩
  intro up free unplanted peer direction buffer length complete some_length fits
  have ready : s.client.mediator.block.pending = false := by
    rw [pending, inside.current, Phase.current_of_free (inside.bus.symm.trans free)]
    rfl
  exact Mediator.issues_of_ready up free ready unplanted complete some_length fits

/-- What might leave the two in disagreement: a bus that fails to come up, a refused transfer, one that ends
in an error, and one that is cut short by taking the bus down. -/
def mishaps : Scenario where
  config := {}
  handlers := [[[], [.transfer .read boardPeer .returned 1]]]
  steps :=
    [.inject (.fault .configure BusFault.powerRefused), .start boardPeer, .start boardPeer,
      .inject (.fault .transfer BusFault.previousPending), .transfer .write boardPeer (.fresh [1]) 1,
      .transfer .write boardPeer (.fresh [2]) 1, .raise .transferError, .stop boardPeer, .start boardPeer]

theorem mishaps_leave_accord :
    ∃ s, Chronicle mishaps.config mishaps.deeds s ∧ (∀ d ∈ mishaps.deeds, d.step.mediated = true) ∧
      s.client.mediator.counters.refused = 1 ∧ s.client.mediator.counters.failed = 2 ∧
      s.client.mediator.Issues boardPeer .write ⟨7, [1, 2, 3]⟩ 2 := by
  obtain ⟨s, told⟩ := mishaps.chronicle
  have mediated : ∀ d ∈ mishaps.deeds, d.step.mediated = true := by decide
  have reached := told.run.mediator_eq
  obtain ⟨-, -, -, -, issues⟩ := block_in_accord told mediated
  refine ⟨s, told, mediated, ?_, ?_, ?_⟩
  · rw [reached]
    decide
  · rw [reached]
    decide
  · apply issues
    · rw [reached]
      decide
    · rw [reached]
      decide
    · rw [reached]
      decide
    · decide
    · decide
    · decide

end PeripheralLayer.Bus
