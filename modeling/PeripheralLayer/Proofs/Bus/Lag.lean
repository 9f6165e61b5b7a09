import PeripheralLayer.Proofs.Bus.Turn

/-!
What no step can tell apart. Of a buffer a step sees the bytes but never the tag, and no step sees how often the
bus was found busy. So a state can be shown `lagging`: with that counter behind by some number, and with buffers
that are known by their bytes alone. Every step does to a state as shown what it does to the state itself.
-/
namespace PeripheralLayer.Bus

/-- The buffer, as far as its bytes are concerned. -/
def Buffer.plain (b : Buffer) : Buffer := { b with tag := 0 }

def Completion.plain (o : Completion) : Completion := { o with buffer := o.buffer.map Buffer.plain }

def Refusal.plain (r : Refusal) : Refusal := { r with buffer := r.buffer.plain }

def Block.plain (b : Block) : Block := { b with held := b.held.map Buffer.plain }

def Mediator.lagging (n : UInt32) (m : Mediator) : Mediator :=
  { m with
    block := m.block.plain
    pending := m.pending.map Completion.plain
    counters.busyRejections := m.counters.busyRejections - n }

def Outcome.lagging (n : UInt32) (o : Outcome) : Outcome :=
  { o with mediator := o.mediator.lagging n, completion := o.completion.map Completion.plain }

def Client.lagging (n : UInt32) (c : Client) : Client :=
  { c with
    mediator := c.mediator.lagging n
    returned := c.returned.map Buffer.plain
    saved := c.saved.map Buffer.plain
    nextTag := 0 }

def Effect.lagging (n : UInt32) (e : Effect) : Effect :=
  { e with client := e.client.lagging n, completion := e.completion.map Completion.plain }

def Moment.lagging (n : UInt32) (m : Moment) : Moment :=
  { m with completion := m.completion.map Completion.plain, after := m.after.lagging n }

namespace Block

variable (b : Block)

theorem transfer_plain (address : UInt8) (direction : Direction) (buffer : Buffer) (length : Nat) :
    b.plain.transfer address direction buffer.plain length =
      ((b.transfer address direction buffer length).1.plain,
        (b.transfer address direction buffer length).2.map Refusal.plain) := by
  have fault : b.plain.transferFault = b.transferFault := rfl
  have pending : b.plain.pending = b.pending := rfl
  have received : b.plain.received address direction length buffer.plain =
      (b.received address direction length buffer).plain := by
    cases direction <;> rfl
  simp only [transfer, fault, pending, received]
  cases b.transferFault with
  | some word => rfl
  | none =>
    cases b.pending with
    | true => rfl
    | false => cases length <;> rfl

theorem bringUp_plain (config : Config) (pins : BusPins) :
    b.plain.bringUp config pins = ((b.bringUp config pins).1.plain, (b.bringUp config pins).2) := by
  simp only [bringUp, acquire, plain]
  cases b.acquireFault with
  | some word => rfl
  | none =>
    simp only [configure, note]
    cases b.configureFault <;> rfl

end Block

namespace Mediator

variable (n : UInt32) (m : Mediator)

theorem start_lagging (peer : Peer) : (m.lagging n).start peer = (m.start peer).lagging n := by
  have initialized : (m.lagging n).initialized = m.initialized := rfl
  have config : (m.lagging n).config = m.config := rfl
  have block : (m.lagging n).block = m.block.plain := rfl
  simp only [start, initialized, config, block, Block.bringUp_plain]
  cases peer.pins with
  | none => rfl
  | some pins =>
    cases m.initialized with
    | true => cases m.config.reinit <;> rfl
    | false =>
      dsimp only
      cases m.block.bringUp m.config pins with
      | mk block fault => cases fault <;> rfl

theorem abandon_lagging :
    (m.lagging n).abandon = (m.abandon.1.lagging n, m.abandon.2.map Completion.plain) := by
  have pending : (m.lagging n).pending = m.pending.map Completion.plain := rfl
  have current : (m.lagging n).current = m.current := rfl
  simp only [abandon, pending, current]
  cases m.pending with
  | some outcome => rfl
  | none => cases m.current <;> rfl

theorem stop_lagging (peer : Peer) : (m.lagging n).stop peer = (m.stop peer).lagging n := by
  have initialized : (m.lagging n).initialized = m.initialized := rfl
  simp only [stop, initialized, abandon_lagging]
  cases peer.pins with
  | none => rfl
  | some pins => cases m.initialized <;> rfl

theorem crowd_lagging (crowded : UInt32) : crowded - n + 1 = crowded + 1 - n := by grind

theorem transfer_lagging (peer : Peer) (direction : Direction) (buffer : Buffer) (length : Nat) :
    (m.lagging n).transfer peer direction buffer.plain length =
      (m.transfer peer direction buffer length).lagging n := by
  cases listener : peer.listener with
  | none =>
    rw [transfer_of_unheard listener, transfer_of_unheard listener]
    rfl
  | some handler =>
    cases up : m.initialized with
    | false =>
      have up' : (m.lagging n).initialized = false := up
      rw [transfer_of_down listener up, transfer_of_down listener up']
      rfl
    | true =>
      have up' : (m.lagging n).initialized = true := up
      cases bus : m.bus with
      | busy =>
        have bus' : (m.lagging n).bus = .busy := bus
        rw [transfer_of_busy listener up bus, transfer_of_busy listener up' bus']
        simp [Outcome.lagging, lagging, Completion.plain, crowd_lagging]
      | free =>
        have bus' : (m.lagging n).bus = .free := bus
        by_cases fits : length ≤ buffer.bytes.length
        · have fits' : length ≤ buffer.plain.bytes.length := fits
          have answer' := m.block.transfer_plain peer.address direction buffer length
          cases answer : m.block.transfer peer.address direction buffer length with
          | mk block refusal =>
            rw [answer] at answer'
            cases refusal with
            | none =>
              have taken : (m.lagging n).block.transfer peer.address direction buffer.plain length =
                  (block.plain, none) := answer'
              rw [transfer_of_accepted listener up bus fits answer,
                transfer_of_accepted listener up' bus' fits' taken]
              rfl
            | some refusal =>
              have refused : (m.lagging n).block.transfer peer.address direction buffer.plain length =
                  (block.plain, some refusal.plain) := answer'
              rw [transfer_of_refused listener up bus fits answer,
                transfer_of_refused listener up' bus' fits' refused]
              rfl
        · have long : buffer.bytes.length < length := Nat.not_le.mp fits
          have long' : buffer.plain.bytes.length < length := long
          rw [transfer_of_long listener up bus long, transfer_of_long listener up' bus' long']
          rfl

theorem applyRate_lagging (kilohertz : UInt16) :
    (m.lagging n).applyRate kilohertz = ((m.applyRate kilohertz).1.lagging n, (m.applyRate kilohertz).2) := by
  cases up : m.initialized with
  | false =>
    have up' : (m.lagging n).initialized = false := up
    rw [applyRate_of_down up, applyRate_of_down up']
  | true =>
    have up' : (m.lagging n).initialized = true := up
    cases bus : m.bus with
    | busy =>
      have bus' : (m.lagging n).bus = .busy := bus
      rw [applyRate_of_busy up bus, applyRate_of_busy up' bus']
      simp [lagging, crowd_lagging]
    | free =>
      have bus' : (m.lagging n).bus = .free := bus
      rw [applyRate_of_free up bus, applyRate_of_free up' bus']
      rfl

theorem setRate_lagging (peer : Peer) (kilohertz : UInt16) :
    (m.lagging n).setRate peer kilohertz = (m.setRate peer kilohertz).lagging n := by
  simp only [setRate, applyRate_lagging]
  cases peer.pins with
  | none => rfl
  | some pins => cases handler : peer.handler <;> rfl

theorem resolve_lagging (transaction : Transaction) (events : EventWord) :
    (m.lagging n).resolve transaction events =
      ((m.resolve transaction events).1.lagging n, (m.resolve transaction events).2.plain) := by
  unfold resolve
  cases events.isError <;> rfl

theorem interrupt_lagging (events : EventWord) :
    (m.lagging n).interrupt events =
      ((m.interrupt events).1.lagging n, (m.interrupt events).2.map Completion.plain) := by
  have current : (m.lagging n).current = m.current := rfl
  simp only [interrupt, current, resolve_lagging]
  cases !events.isError && !events.isComplete with
  | true => rfl
  | false =>
    cases m.current with
    | none => rfl
    | some transaction =>
      dsimp only
      cases m.resolve transaction events with
      | mk m' outcome =>
        have config : (m'.lagging n).config = m'.config := rfl
        dsimp only
        rw [config]
        cases m'.config.dispatch <;> rfl

theorem dispatch_lagging :
    (m.lagging n).dispatch = (m.dispatch.1.lagging n, m.dispatch.2.map Completion.plain) := by
  have pending : (m.lagging n).pending = m.pending.map Completion.plain := rfl
  simp only [dispatch, pending]
  cases m.pending <;> rfl

end Mediator

theorem Buffer.plain_plain (b : Buffer) : b.plain.plain = b.plain := rfl

theorem Block.plain_plain (b : Block) : b.plain.plain = b.plain := by
  simp [Block.plain, Function.comp_def, Buffer.plain_plain]

theorem Completion.plain_plain (o : Completion) : o.plain.plain = o.plain := by
  simp [Completion.plain, Function.comp_def, Buffer.plain_plain]

namespace Client

variable (n : UInt32) (c : Client)

theorem lagging_lagging : (c.lagging n).lagging 0 = c.lagging n := by
  simp [lagging, Mediator.lagging, Block.plain, Function.comp_def, Buffer.plain_plain, Completion.plain_plain]

theorem effect_lagging {e e' : Effect} (same : e' = e.lagging n) : e'.lagging 0 = e.lagging n := by
  rw [same]
  simp [Effect.lagging, lagging_lagging, Function.comp_def, Completion.plain_plain]

theorem take_lagging (source : BufferSource) :
    ((c.lagging n).take source).1.lagging 0 = (c.take source).1.lagging n ∧
      ((c.lagging n).take source).2 = (c.take source).2.map Buffer.plain := by
  cases source with
  | fresh bytes => exact ⟨c.lagging_lagging n, rfl⟩
  | returned => exact ⟨({ c with returned := none } : Client).lagging_lagging n, rfl⟩
  | saved => exact ⟨({ c with saved := none } : Client).lagging_lagging n, rfl⟩

theorem ofOutcome_lagging {d : Client} (same : d.lagging 0 = c.lagging n) (o : Outcome) :
    (d.ofOutcome (o.lagging n)).lagging 0 = (c.ofOutcome o).lagging n := by
  have returned : d.returned.map Buffer.plain = c.returned.map Buffer.plain := congrArg Client.returned same
  have saved : d.saved.map Buffer.plain = c.saved.map Buffer.plain := congrArg Client.saved same
  have latch : d.latched = c.latched := by
    have kept := congrArg Client.latched same
    exact kept
  simp [ofOutcome, Effect.lagging, lagging, Outcome.lagging, returned, saved, latch, Mediator.lagging, Block.plain,
    Function.comp_def, Buffer.plain_plain, Completion.plain_plain]

theorem interrupt_lagging (events : EventWord) :
    (c.lagging n).interrupt events = (c.interrupt events).lagging n := by
  have mediator : (c.lagging n).mediator = c.mediator.lagging n := rfl
  simp only [interrupt, mediator, Mediator.interrupt_lagging]
  rfl

theorem inject_lagging (injection : Injection) :
    (c.lagging n).inject injection = (c.inject injection).lagging n := by
  cases injection with
  | fault stage word => cases stage <;> rfl
  | topRate hertz => rfl
  | response bytes =>
    simp only [inject, Block.respond]
    split <;> rfl

theorem transfer_lagging (direction : Direction) (peer : Peer) (source : BufferSource) (length : Nat) :
    ((c.lagging n).perform (.transfer direction peer source length)).lagging 0 =
      (c.perform (.transfer direction peer source length)).lagging n := by
  obtain ⟨same, lent⟩ := c.take_lagging n source
  cases taken : c.take source with
  | mk d given =>
    cases taken' : (c.lagging n).take source with
    | mk d' given' =>
      rw [taken, taken'] at same lent
      cases given with
      | none =>
        cases lent
        simp only [perform, taken, taken', Effect.lagging, same]
      | some buffer =>
        cases lent
        rw [perform_transfer_of_taken taken, perform_transfer_of_taken taken']
        have transferred := c.mediator.transfer_lagging n peer direction buffer length
        rw [show (c.lagging n).mediator = c.mediator.lagging n from rfl, transferred]
        exact ofOutcome_lagging n d same _

theorem withBlock_lagging {d : Client} (same : d.lagging 0 = c.lagging n) {block block' : Block}
    (plain : block'.plain = block.plain) : (d.withBlock block').lagging 0 = (c.withBlock block).lagging n := by
  calc (d.withBlock block').lagging 0
    _ = (d.lagging 0).withBlock block'.plain := rfl
    _ = (c.lagging n).withBlock block.plain := by rw [same, plain]
    _ = (c.withBlock block).lagging n := rfl

theorem direct_transfer_lagging (address : UInt8) (direction : Direction) (source : BufferSource) (length : Nat) :
    ((c.lagging n).direct (.transfer address direction source length)).lagging 0 =
      (c.direct (.transfer address direction source length)).lagging n := by
  obtain ⟨same, lent⟩ := c.take_lagging n source
  have found := c.mediator_take source
  have found' := (c.lagging n).mediator_take source
  cases taken : c.take source with
  | mk d given =>
    cases taken' : (c.lagging n).take source with
    | mk d' given' =>
      rw [taken] at same lent found
      rw [taken'] at same lent found'
      simp only at same lent found found'
      cases given with
      | none =>
        cases lent
        simp only [direct, taken, taken', Option.map_none, Effect.lagging, same]
      | some buffer =>
        cases lent
        have block : d'.mediator.block = c.mediator.block.plain := by rw [found']; rfl
        simp only [direct, taken, taken', Option.map_some, found, block, Block.transfer_plain]
        cases c.mediator.block.transfer address direction buffer length with
        | mk block refusal =>
          have left := d.withBlock_lagging n same (block.plain_plain)
          cases refusal with
          | none => simp [Effect.lagging, left]
          | some refusal => simp [Effect.lagging, left, Refusal.plain, Buffer.plain]

theorem direct_lagging (call : DirectCall) :
    ((c.lagging n).direct call).lagging 0 = (c.direct call).lagging n := by
  cases call with
  | transfer address direction source length => exact c.direct_transfer_lagging n address direction source length
  | reclaim =>
    refine effect_lagging n ?_
    have contents : (c.mediator.block.held.map Buffer.plain).map Buffer.bytes =
        c.mediator.block.held.map Buffer.bytes := by
      rw [Option.map_map]
      rfl
    exact congrArg (fun bytes => (⟨_, .bytes bytes, none⟩ : Effect)) contents
  | acquire | configure | register | enableEvents | abort | release | setRate => exact effect_lagging n rfl

theorem perform_lagging (step : Step) :
    ((c.lagging n).perform step).lagging 0 = (c.perform step).lagging n := by
  have mediator : (c.lagging n).mediator = c.mediator.lagging n := rfl
  cases step with
  | start peer =>
    simp only [perform, mediator, Mediator.start_lagging]
    exact ofOutcome_lagging n c (c.lagging_lagging n) _
  | stop peer =>
    simp only [perform, mediator, Mediator.stop_lagging]
    exact ofOutcome_lagging n c (c.lagging_lagging n) _
  | setRate peer kilohertz =>
    simp only [perform, mediator, Mediator.setRate_lagging]
    exact ofOutcome_lagging n c (c.lagging_lagging n) _
  | transfer direction peer source length => exact c.transfer_lagging n direction peer source length
  | dispatch =>
    refine effect_lagging n ?_
    simp only [perform, mediator, Mediator.dispatch_lagging, Effect.lagging, Option.isSome_map]
    rfl
  | interrupt events => exact effect_lagging n (c.interrupt_lagging n events)
  | raise events =>
    refine effect_lagging n ?_
    have sink : (c.lagging n).mediator.block.sink = c.mediator.block.sink := rfl
    simp only [perform, interrupt_lagging, sink]
    split <;> rfl
  | raiseLatched events =>
    refine effect_lagging n ?_
    have latch : (c.lagging n).latched = c.latched := rfl
    simp only [perform, interrupt_lagging, latch]
    split <;> rfl
  | inject injection => exact effect_lagging n (c.inject_lagging n injection)
  | direct call => exact c.direct_lagging n call
  | save =>
    refine effect_lagging n ?_
    simp [perform, lagging, Effect.lagging]
  | latch | clearLog | readLog | countLog => exact effect_lagging n rfl

/-- Clients that look the same, one of them lagging, look the same after any step. -/
theorem perform_alike {c c' : Client} (same : c'.lagging 0 = c.lagging n) (step : Step) :
    (c'.perform step).lagging 0 = (c.perform step).lagging n := by
  calc (c'.perform step).lagging 0
    _ = ((c'.lagging 0).perform step).lagging 0 := (c'.perform_lagging 0 step).symm
    _ = ((c.lagging n).perform step).lagging 0 := by rw [same]
    _ = (c.perform step).lagging n := c.perform_lagging n step

theorem moment_alike {c c' : Client} (same : c'.lagging 0 = c.lagging n) (depth : Nat) (step : Step) :
    (c'.moment depth step).lagging 0 = (c.moment depth step).lagging n := by
  have alike := perform_alike n same step
  have after : (c'.perform step).client.mediator.lagging 0 = (c.perform step).client.mediator.lagging n :=
    congrArg (fun e : Effect => e.client.mediator) alike
  have reply : (c'.perform step).reply = (c.perform step).reply := by
    have kept := congrArg Effect.reply alike
    exact kept
  have told : (c'.perform step).completion.map Completion.plain = (c.perform step).completion.map Completion.plain :=
    congrArg Effect.completion alike
  simp only [moment, Moment.lagging, after, reply, told]

end Client

end PeripheralLayer.Bus
