import PeripheralLayer.Proofs.Bus.Chronicle

/-!
Deals: all that one entry into the mediator can do. `Deal` lists them by the phase an entry finds, with the
calls it makes into the block, the event it hands out, and what becomes of the counters and of the block's
grip on buffer and sink. Whatever is said elsewhere about calls, buffers or counters of a run rests on that
list and on `Deed.deal`, and no later proof opens an entry point.
-/
namespace PeripheralLayer

theorem EventWord.verdict_cases {w : EventWord} {event : Event} (h : w.verdict = some event) :
    event = .error ∧ w.isError = true ∨ event = .success ∧ w.isError = false := by
  unfold EventWord.verdict at h
  split at h
  · rename_i error
    cases h
    exact Or.inl ⟨rfl, error⟩
  · rename_i noError
    split at h
    · cases h
      exact Or.inr ⟨rfl, by simpa using noError⟩
    · cases h

theorem EventWord.verdict_ne_busy {w : EventWord} {event : Event} (h : w.verdict = some event) : event ≠ .busy := by
  rcases verdict_cases h with ⟨rfl, -⟩ | ⟨rfl, -⟩ <;> simp

namespace Bus

structure Grip where
  held : Option Buffer
  pending : Bool
  sink : Bool
  deriving DecidableEq, Repr

namespace Block

def grip (b : Block) : Grip := ⟨b.held, b.pending, b.sink⟩

theorem held_of_grip {b : Block} {grip : Grip} (h : b.grip = grip) : b.held = grip.held := congrArg Grip.held h

structure Noted (b : Block) (calls : List Call) (after : Block) : Prop where
  heard : after.heard = (calls.foldl note b).heard
  log : after.log = (calls.foldl note b).log

variable {b after : Block} {calls : List Call}

theorem heard_foldl_note (b : Block) (calls : List Call) : (calls.foldl note b).heard = b.heard ++ calls := by
  induction calls generalizing b with
  | nil => simp
  | cons call calls ih => simp [ih, note]

theorem Noted.heard_eq (noted : b.Noted calls after) : after.heard = b.heard ++ calls :=
  noted.heard.trans (heard_foldl_note b calls)

theorem bringUp_cases (b : Block) (config : Config) (pins : BusPins) :
    (∃ block word, b.bringUp config pins = (block, some word) ∧
      b.Noted [.acquire pins] block ∧ block.grip = b.grip) ∨
    (∃ block word, b.bringUp config pins = (block, some word) ∧
      b.Noted [.acquire pins, .configure ⟨.master, 0, config.frequency⟩, .release] block ∧
      block.grip = ⟨none, false, false⟩) ∨
    (∃ block, b.bringUp config pins = (block, none) ∧
      b.Noted [.acquire pins, .configure ⟨.master, 0, config.frequency⟩, .register,
        .enableEvents .mediated config.priority true] block ∧
      block.grip = { b.grip with sink := true }) := by
  cases acquired : b.acquireFault with
  | some word =>
    refine Or.inl ⟨(b.acquire pins).1, word, ?_, ⟨rfl, rfl⟩, rfl⟩
    simp only [bringUp, acquire, acquired]
  | none =>
    cases configured : b.configureFault with
    | some word =>
      refine Or.inr (Or.inl
        ⟨((b.acquire pins).1.configure ⟨.master, 0, config.frequency⟩).1.release, word, ?_, ⟨rfl, rfl⟩, rfl⟩)
      simp only [bringUp, acquire, configure, note, acquired, configured]
    | none =>
      refine Or.inr (Or.inr
        ⟨((b.acquire pins).1.configure ⟨.master, 0, config.frequency⟩).1.register.enableEvents .mediated
          config.priority true, ?_, ⟨rfl, rfl⟩, rfl⟩)
      simp only [bringUp, acquire, configure, note, acquired, configured]

theorem transfer_cases (b : Block) (address : UInt8) (direction : Direction) (buffer : Buffer) (length : Nat) :
    (∃ block refusal, b.transfer address direction buffer length = (block, some refusal) ∧
      b.Noted [.transfer address direction length] block ∧ block.grip = b.grip) ∨
    (∃ block, b.transfer address direction buffer length = (block, none) ∧
      b.Noted [.transfer address direction length] block ∧
      block.grip = ⟨some (b.received address direction length buffer), true, b.sink⟩) := by
  unfold transfer
  split
  · exact Or.inl ⟨_, _, rfl, ⟨rfl, rfl⟩, rfl⟩
  · dsimp only
    split
    · exact Or.inl ⟨_, _, rfl, ⟨rfl, rfl⟩, rfl⟩
    · split
      · exact Or.inl ⟨_, _, rfl, ⟨rfl, rfl⟩, rfl⟩
      · exact Or.inr ⟨_, rfl, ⟨rfl, rfl⟩, rfl⟩

end Block

namespace Entry

def asks : Entry → Bool
  | transfer peer _ _ _ => peer.listener.isSome
  | setRate peer _ => peer.pins.isSome
  | _ => false

def rates : Entry → Bool
  | setRate _ _ => true
  | _ => false

def verdict : Entry → Option Event
  | interrupt events => events.verdict
  | _ => none

def answer (event : Event) : Entry → Option Completion
  | transfer peer _ buffer _ => peer.listener.map (⟨·, event, some buffer⟩)
  | setRate peer _ => peer.listener.map (⟨·, event, none⟩)
  | _ => none

end Entry

def endingCalls : Event → List Call
  | .error => [.abort]
  | _ => []

def Counters.settle (c : Counters) : Event → Counters
  | .error => { c with failed := c.failed + 1 }
  | _ => { c with completed := c.completed + 1 }

/-- An entry that finds `m` in the first phase makes these calls, hands out this event, and leaves `n` in
the last phase. -/
inductive Deal (m n : Mediator) : Phase → Entry → List Call → Option Completion → Phase → Prop where
  | ignored (p : Phase) (entry : Entry) (asks : entry.asks = false) (verdict : entry.verdict = none)
      (same : n = m) : Deal m n p entry [] none p
  | declined (p : Phase) (entry : Entry) (asks : entry.asks = true) (free : p.bus = .free) (same : n = m) :
      Deal m n p entry [] (entry.answer .error) p
  | turnedAway (p : Phase) (entry : Entry) (asks : entry.asks = true) (busy : p.bus = .busy)
      (grip : n.block.grip = m.block.grip)
      (counters : n.counters = { m.counters with busyRejections := m.counters.busyRejections + 1 }) :
      Deal m n p entry [] (entry.answer .busy) p
  | rated (peer : Peer) (kilohertz : UInt16) (hertz : UInt32) (event : Event)
      (within : hertz.toNat ≤ m.config.ceiling.toNat * 1000)
      (grip : n.block.grip = m.block.grip) (counters : n.counters = m.counters) :
      Deal m n .idle (.setRate peer kilohertz) [.setRate hertz]
        ((Entry.setRate peer kilohertz).answer event) .idle
  | refused (peer : Peer) (handler : HandlerId) (direction : Direction) (buffer : Buffer) (length : Nat)
      (listener : peer.listener = some handler) (grip : n.block.grip = m.block.grip)
      (counters : n.counters = { m.counters with refused := m.counters.refused + 1 }) :
      Deal m n .idle (.transfer peer direction buffer length) [.transfer peer.address direction length]
        (some ⟨handler, .error, some buffer⟩) .idle
  | accepted (peer : Peer) (handler : HandlerId) (direction : Direction) (buffer : Buffer) (length : Nat)
      (listener : peer.listener = some handler)
      (grip : n.block.grip =
        ⟨some (m.block.received peer.address direction length buffer), true, m.block.sink⟩)
      (counters : n.counters = { m.counters with issued := m.counters.issued + 1 }) :
      Deal m n .idle (.transfer peer direction buffer length) [.transfer peer.address direction length]
        none (.inFlight ⟨peer.address, handler⟩)
  | unacquired (peer : Peer) (pins : BusPins) (grip : n.block.grip = m.block.grip)
      (counters : n.counters = m.counters) :
      Deal m n .down (.start peer) [.acquire pins] none .down
  | unconfigured (peer : Peer) (pins : BusPins) (grip : n.block.grip = ⟨none, false, false⟩)
      (counters : n.counters = m.counters) :
      Deal m n .down (.start peer)
        [.acquire pins, .configure ⟨.master, 0, m.config.frequency⟩, .release] none .down
  | raised (peer : Peer) (pins : BusPins) (grip : n.block.grip = { m.block.grip with sink := true })
      (counters : n.counters = m.counters) :
      Deal m n .down (.start peer)
        [.acquire pins, .configure ⟨.master, 0, m.config.frequency⟩, .register,
          .enableEvents .mediated m.config.priority true] none .idle
  | closed (peer : Peer) (grip : n.block.grip = ⟨none, false, false⟩) (counters : n.counters = m.counters) :
      Deal m n .idle (.stop peer) [.enableEvents .mediated m.config.priority false, .release] none .down
  | withdrawn (peer : Peer) (outcome : Completion) (grip : n.block.grip = ⟨none, false, false⟩)
      (counters : n.counters = m.counters) :
      Deal m n (.waiting outcome) (.stop peer) [.enableEvents .mediated m.config.priority false, .release]
        (some outcome) .down
  | aborted (peer : Peer) (transaction : Transaction) (grip : n.block.grip = ⟨none, false, false⟩)
      (counters : n.counters = m.counters.settle .error) :
      Deal m n (.inFlight transaction) (.stop peer)
        [.abort, .enableEvents .mediated m.config.priority false, .release]
        (some ⟨transaction.handler, .error, m.block.held⟩) .down
  | spurious (p : Phase) (events : EventWord) (event : Event) (verdict : events.verdict = some event)
      (nothing : p.current = none) (grip : n.block.grip = m.block.grip)
      (counters : n.counters = { m.counters with spurious := m.counters.spurious + 1 }) :
      Deal m n p (.interrupt events) [] none p
  | resolved (transaction : Transaction) (events : EventWord) (event : Event)
      (verdict : events.verdict = some event) (grip : n.block.grip = ⟨none, false, m.block.sink⟩)
      (counters : n.counters = m.counters.settle event) :
      Deal m n (.inFlight transaction) (.interrupt events) (endingCalls event)
        (some ⟨transaction.handler, event, m.block.held⟩) .idle
  | recorded (transaction : Transaction) (events : EventWord) (event : Event)
      (verdict : events.verdict = some event) (grip : n.block.grip = ⟨none, false, m.block.sink⟩)
      (counters : n.counters = m.counters.settle event) :
      Deal m n (.inFlight transaction) (.interrupt events) (endingCalls event) none
        (.waiting ⟨transaction.handler, event, m.block.held⟩)
  | dispatched (outcome : Completion) (grip : n.block.grip = m.block.grip)
      (counters : n.counters = m.counters) :
      Deal m n (.waiting outcome) .dispatch [] (some outcome) .idle

def Mediator.Deals (m : Mediator) (p : Phase) (entry : Entry) : Prop :=
  ∃ calls q, (m.enter entry).1.In q ∧ m.block.Noted calls (m.enter entry).1.block ∧
    Deal m (m.enter entry).1 p entry calls (m.enter entry).2 q

namespace Mediator

variable {m : Mediator} {p : Phase}

theorem deals_of {entry : Entry} {n : Mediator} {told : Option Completion} {calls : List Call} {q : Phase}
    (left : m.enter entry = (n, told)) (deal : Deal m n p entry calls told q) (inside : n.In q)
    (noted : m.block.Noted calls n.block) : m.Deals p entry := by
  refine ⟨calls, q, ?_, ?_, ?_⟩ <;> rw [left]
  · exact inside
  · exact noted
  · exact deal

theorem deals_of_unchanged (h : m.In p) {entry : Entry} (asks : entry.asks = false)
    (verdict : entry.verdict = none) (left : m.enter entry = (m, none)) : m.Deals p entry :=
  deals_of left (.ignored p entry asks verdict rfl) h ⟨rfl, rfl⟩

theorem deals_of_declined (h : m.In p) {entry : Entry} (asks : entry.asks = true) (free : p.bus = .free)
    (left : m.enter entry = (m, entry.answer .error)) : m.Deals p entry :=
  deals_of left (.declined p entry asks free rfl) h ⟨rfl, rfl⟩

theorem deals_of_turnedAway (h : m.In p) {entry : Entry} (asks : entry.asks = true) (busy : p.bus = .busy)
    (left : m.enter entry =
      ({ m with counters.busyRejections := m.counters.busyRejections + 1 }, entry.answer .busy)) :
    m.Deals p entry :=
  deals_of left (.turnedAway p entry asks busy rfl rfl) (h.withCounters _) ⟨rfl, rfl⟩

theorem initialized_of_busy (h : m.In p) (busy : p.bus = .busy) : m.initialized = true := by
  rw [h.initialized]
  cases p with
  | down | idle => cases busy
  | inFlight | waiting => rfl

theorem deals_of_start (h : m.In p) (peer : Peer) : m.Deals p (.start peer) := by
  cases hardware : peer.pins with
  | none => exact deals_of_unchanged h rfl rfl (by simp only [enter, start, hardware])
  | some pins =>
    cases up : m.initialized with
    | true =>
      refine deals_of_unchanged h rfl rfl ?_
      simp only [enter, start, hardware, up, if_true]
      cases m.config.reinit <;> rfl
    | false =>
      obtain rfl := h.eq_down up
      rcases m.block.bringUp_cases m.config pins with
        ⟨block, word, brought, noted, grip⟩ | ⟨block, word, brought, noted, grip⟩ | ⟨block, brought, noted, grip⟩
      · have left : m.enter (.start peer) = ({ m with block }, none) := by
          simp [enter, start, hardware, up, brought]
        exact deals_of left (.unacquired peer pins grip rfl) (h.withBlock block) noted
      · have left : m.enter (.start peer) = ({ m with block }, none) := by
          simp [enter, start, hardware, up, brought]
        exact deals_of left (.unconfigured peer pins grip rfl) (h.withBlock block) noted
      · have left : m.enter (.start peer) =
            ({ m with block, initialized := true, bus := .free, current := none, pending := none }, none) := by
          simp [enter, start, hardware, up, brought]
        exact deals_of left (.raised peer pins grip rfl) ⟨rfl, rfl, rfl, rfl⟩ noted

theorem deals_of_stop (h : m.In p) (peer : Peer) : m.Deals p (.stop peer) := by
  have initialized := h.initialized
  have current := h.current
  have pending := h.pending
  cases hardware : peer.pins with
  | none => exact deals_of_unchanged h rfl rfl (by simp only [enter, stop, hardware])
  | some pins =>
    cases p with
    | down =>
      refine deals_of_unchanged h rfl rfl ?_
      simp [enter, stop, hardware, initialized, Phase.initialized]
    | idle =>
      have left : m.enter (.stop peer) =
          ({ m with
              block := (m.block.enableEvents .mediated m.config.priority false).release
              initialized := false, bus := .free }, none) := by
        simp [enter, stop, abandon, hardware, initialized, current, pending, Phase.initialized, Phase.current,
          Phase.pending]
      exact deals_of left (.closed peer rfl rfl) ⟨rfl, rfl, current, pending⟩ ⟨rfl, rfl⟩
    | waiting outcome =>
      have left : m.enter (.stop peer) =
          ({ m with
              block := (m.block.enableEvents .mediated m.config.priority false).release
              pending := none, current := none, initialized := false, bus := .free }, some outcome) := by
        simp [enter, stop, abandon, hardware, initialized, pending, Phase.initialized, Phase.pending]
      exact deals_of left (.withdrawn peer outcome rfl rfl) ⟨rfl, rfl, rfl, rfl⟩ ⟨rfl, rfl⟩
    | inFlight transaction =>
      have left : m.enter (.stop peer) =
          ({ m with
              block := (m.block.abort.reclaim.1.enableEvents .mediated m.config.priority false).release
              current := none, counters.failed := m.counters.failed + 1
              initialized := false, bus := .free },
            some ⟨transaction.handler, .error, m.block.held⟩) := by
        simp [enter, stop, abandon, hardware, initialized, current, pending, Phase.initialized, Phase.current,
          Phase.pending, Block.abort, Block.reclaim, Block.note]
      exact deals_of left (.aborted peer transaction rfl rfl) ⟨rfl, rfl, rfl, pending⟩ ⟨rfl, rfl⟩

theorem deals_of_transfer (h : m.In p) (peer : Peer) (direction : Direction) (buffer : Buffer)
    (length : Nat) : m.Deals p (.transfer peer direction buffer length) := by
  cases listener : peer.listener with
  | none =>
    refine deals_of_unchanged h (by simp [Entry.asks, listener]) rfl ?_
    simp only [enter, transfer_of_unheard listener]
  | some handler =>
    have asks : (Entry.transfer peer direction buffer length).asks = true := by simp [Entry.asks, listener]
    have answer (event : Event) : (Entry.transfer peer direction buffer length).answer event =
        some ⟨handler, event, some buffer⟩ := by simp [Entry.answer, listener]
    by_cases busy : p.bus = .busy
    · refine deals_of_turnedAway h asks busy ?_
      simp only [enter, transfer_of_busy listener (initialized_of_busy h busy) (h.bus.trans busy), answer]
    · cases p with
      | inFlight | waiting => exact absurd rfl busy
      | down =>
        refine deals_of_declined h asks rfl ?_
        simp only [enter, transfer_of_down listener h.initialized, answer]
      | idle =>
        by_cases fits : length ≤ buffer.bytes.length
        · rcases m.block.transfer_cases peer.address direction buffer length with
            ⟨block, refusal, refused, noted, grip⟩ | ⟨block, taken, noted, grip⟩
          · have left := congrArg (fun o => (o.mediator, o.completion))
              (transfer_of_refused listener h.initialized h.bus fits refused)
            exact deals_of left
              (.refused peer handler direction buffer length listener grip rfl)
              ⟨h.initialized, rfl, rfl, h.pending⟩ noted
          · have left := congrArg (fun o => (o.mediator, o.completion))
              (transfer_of_accepted listener h.initialized h.bus fits taken)
            exact deals_of left
              (.accepted peer handler direction buffer length listener grip rfl)
              ⟨h.initialized, rfl, rfl, h.pending⟩ noted
        · refine deals_of_declined h asks rfl ?_
          simp only [enter, transfer_of_long listener h.initialized h.bus (Nat.not_le.mp fits), answer]

theorem toNat_hertz_min_le (kilohertz ceiling : UInt16) :
    (Config.hertz (min kilohertz ceiling)).toNat ≤ ceiling.toNat * 1000 := by
  rw [Config.toNat_hertz]
  have least : (if kilohertz ≤ ceiling then kilohertz else ceiling).toNat ≤ ceiling.toNat := by
    split
    · rename_i below
      exact UInt16.le_iff_toNat_le.mp below
    · exact Nat.le_refl _
  exact Nat.mul_le_mul_right 1000 least

theorem deals_of_setRate (h : m.In p) (peer : Peer) (kilohertz : UInt16) :
    m.Deals p (.setRate peer kilohertz) := by
  cases hardware : peer.pins with
  | none =>
    refine deals_of_unchanged h (by simp [Entry.asks, hardware]) rfl ?_
    simp only [enter, setRate, hardware]
  | some pins =>
    have asks : (Entry.setRate peer kilohertz).asks = true := by simp [Entry.asks, hardware]
    have entered : m.enter (.setRate peer kilohertz) =
        ((m.applyRate kilohertz).1, (Entry.setRate peer kilohertz).answer (m.applyRate kilohertz).2.toEvent) := by
      simp [enter, setRate, Entry.answer, Peer.listener, hardware]
    by_cases busy : p.bus = .busy
    · rw [applyRate_of_busy (initialized_of_busy h busy) (h.bus.trans busy)] at entered
      exact deals_of_turnedAway h asks busy entered
    · cases p with
      | inFlight | waiting => exact absurd rfl busy
      | down =>
        rw [applyRate_of_down h.initialized] at entered
        exact deals_of_declined h asks rfl entered
      | idle =>
        rw [applyRate_of_free h.initialized h.bus] at entered
        exact deals_of entered (.rated peer kilohertz _ _ (toNat_hertz_min_le kilohertz _) rfl rfl)
          (h.withBlock _) ⟨rfl, rfl⟩

theorem resolve_deals (m : Mediator) (transaction : Transaction) {events : EventWord} {event : Event}
    (verdict : events.verdict = some event) :
    m.block.Noted (endingCalls event) (m.resolve transaction events).1.block ∧
      (m.resolve transaction events).1.block.grip = ⟨none, false, m.block.sink⟩ ∧
      (m.resolve transaction events).1.counters = m.counters.settle event := by
  rcases EventWord.verdict_cases verdict with ⟨rfl, error⟩ | ⟨rfl, noError⟩
  · rw [resolve, if_pos error]
    exact ⟨⟨rfl, rfl⟩, rfl, rfl⟩
  · rw [resolve, if_neg (by simp [noError])]
    exact ⟨⟨rfl, rfl⟩, rfl, rfl⟩

theorem deals_of_interrupt (h : m.In p) (events : EventWord) : m.Deals p (.interrupt events) := by
  cases verdict : events.verdict with
  | none => exact deals_of_unchanged h rfl verdict (interrupt_of_ignored verdict)
  | some event =>
    cases current : p.current with
    | none =>
      exact deals_of (interrupt_of_spurious verdict (h.current.trans current))
        (.spurious p events event verdict current rfl rfl) (h.withCounters _) ⟨rfl, rfl⟩
    | some transaction =>
      obtain rfl : p = .inFlight transaction := by
        cases p <;> simp_all [Phase.current]
      have handled := EventWord.handled_of_verdict verdict
      have found : m.current = some transaction := h.current
      obtain ⟨up, bus, current, pending, config, outcome⟩ := resolve_phase h verdict
      obtain ⟨noted, grip, counters⟩ := m.resolve_deals transaction verdict
      cases mode : m.config.dispatch with
      | direct =>
        have left : m.enter (.interrupt events) =
            ({ (m.resolve transaction events).1 with bus := .free },
              some ⟨transaction.handler, event, m.block.held⟩) := by
          simp [enter, interrupt, handled, found, config, mode, outcome]
        exact deals_of left (.resolved transaction events event verdict grip counters)
          ⟨up, rfl, current, pending⟩ noted
      | deferred =>
        have left : m.enter (.interrupt events) =
            ({ (m.resolve transaction events).1 with
                pending := some ⟨transaction.handler, event, m.block.held⟩ }, none) := by
          simp [enter, interrupt, handled, found, config, mode, outcome]
        exact deals_of left (.recorded transaction events event verdict grip counters)
          ⟨up, bus, current, rfl⟩ noted

theorem deals_of_dispatch (h : m.In p) : m.Deals p .dispatch := by
  cases pending : p.pending with
  | none => exact deals_of_unchanged h rfl rfl (dispatch_of_empty (h.pending.trans pending))
  | some outcome =>
    obtain rfl : p = .waiting outcome := by
      cases p <;> simp_all [Phase.pending]
    have left : m.enter .dispatch = ({ m with pending := none, bus := .free }, some outcome) := by
      simp [enter, dispatch, h.pending, Phase.pending]
    exact deals_of left (.dispatched outcome rfl rfl) ⟨h.initialized, rfl, h.current, rfl⟩ ⟨rfl, rfl⟩

theorem deals (h : m.In p) (entry : Entry) : m.Deals p entry := by
  cases entry with
  | start peer => exact deals_of_start h peer
  | stop peer => exact deals_of_stop h peer
  | transfer peer direction buffer length => exact deals_of_transfer h peer direction buffer length
  | setRate peer kilohertz => exact deals_of_setRate h peer kilohertz
  | interrupt events => exact deals_of_interrupt h events
  | dispatch => exact deals_of_dispatch h

end Mediator

theorem Client.block_outside {c : Client} {step : Step} (outside : c.entry step = none)
    (mediated : step.mediated = true) :
    (c.perform step).client.mediator.block.heard = c.mediator.block.heard ∧
      (c.perform step).client.mediator.block.grip = c.mediator.block.grip ∧
      (step ≠ .clearLog → (c.perform step).client.mediator.block.log = c.mediator.block.log) := by
  cases step with
  | transfer direction peer source length =>
    have lacking : (c.take source).2 = none := by simpa [entry] using outside
    rw [perform_transfer_of_lacking lacking, c.mediator_take source]
    exact ⟨rfl, rfl, fun _ => rfl⟩
  | raise events | raiseLatched events =>
    simp only [entry, ite_eq_right_iff, reduceCtorEq, imp_false] at outside
    simp only [perform, outside]
    exact ⟨rfl, rfl, fun _ => rfl⟩
  | inject injection =>
    cases injection with
    | fault stage word => cases stage <;> exact ⟨rfl, rfl, fun _ => rfl⟩
    | topRate hertz => exact ⟨rfl, rfl, fun _ => rfl⟩
    | response bytes =>
      simp only [perform, inject, Block.respond]
      split <;> exact ⟨rfl, rfl, fun _ => rfl⟩
  | clearLog => exact ⟨rfl, rfl, fun other => absurd rfl other⟩
  | latch | save | readLog | countLog => exact ⟨rfl, rfl, fun _ => rfl⟩
  | direct => cases mediated
  | start | stop | setRate | interrupt | dispatch => cases outside

theorem Client.held_outside {c : Client} {step : Step} (outside : c.entry step = none)
    (spares : step.sparesBuffers = true) :
    (c.perform step).client.mediator.block.held = c.mediator.block.held := by
  cases mediated : step.mediated with
  | true => exact congrArg Grip.held (block_outside outside mediated).2.1
  | false =>
    cases step with
    | direct call =>
      cases call with
      | transfer | abort | release | reclaim => cases spares
      | acquire | configure | register | enableEvents | setRate => rfl
    | _ => cases mediated

namespace Deed

variable {d : Deed}

theorem calls_of_noted {calls : List Call} (noted : d.found.block.Noted calls d.left.block) :
    d.calls = calls := by
  rw [Deed.calls, noted.heard_eq, List.drop_left]

theorem deal {p : Phase} (h : d.found.In p) {entry : Entry} (enters : d.entry = some entry) :
    ∃ q, d.left.In q ∧ d.found.block.Noted d.calls d.left.block ∧
      Deal d.found d.left p entry d.calls d.told q := by
  obtain ⟨left, told⟩ := left_of_entry enters
  obtain ⟨calls, q, inside, noted, deal⟩ := Mediator.deals h entry
  rw [← left] at inside noted deal
  rw [← told] at deal
  rw [calls_of_noted noted]
  exact ⟨q, inside, noted, deal⟩

theorem outside (outside : d.entry = none) : d.told = none ∧ ∃ block, d.left = { d.found with block } :=
  Client.perform_outside outside

theorem noted_outside (outside : d.entry = none) (mediated : d.step.mediated = true)
    (keepsLog : d.step ≠ .clearLog) : d.found.block.Noted [] d.left.block := by
  obtain ⟨heard, -, log⟩ := Client.block_outside outside mediated
  exact ⟨heard, log keepsLog⟩

theorem calls_outside (outside : d.entry = none) (mediated : d.step.mediated = true) : d.calls = [] := by
  have heard : d.left.block.heard = d.found.block.heard := (Client.block_outside outside mediated).1
  rw [calls, heard, List.drop_length]

end Deed

/-- What holds of a fresh mediator and is kept by every deal and by every deed that stays outside of the
mediator holds at every point of every chronicle. -/
theorem Chronicle.upholds {config : Config} {past : List Deed} {s : Session} (told : Chronicle config past s)
    (allowed : Step → Prop) (Holds : List Deed → Phase → Mediator → Prop)
    (start : Holds [] .down { config })
    (entered : ∀ past d p entry q, d.found.config = config → d.found.In p → d.left.In q →
      d.entry = some entry → d.found.block.Noted d.calls d.left.block →
      Deal d.found d.left p entry d.calls d.told q → Holds past p d.found → Holds (past ++ [d]) q d.left)
    (outside : ∀ past d p, allowed d.step → d.entry = none → Holds past p d.found →
      Holds (past ++ [d]) p d.left)
    (kind : ∀ d ∈ past, allowed d.step) :
    ∃ p, s.client.mediator.In p ∧ Holds past p s.client.mediator := by
  refine told.keeps allowed Holds start ?_ kind
  intro past d p permitted config inside holds
  cases enters : d.entry with
  | none =>
    obtain ⟨-, block, left⟩ := Deed.outside enters
    exact ⟨p, left ▸ inside.withBlock block, outside past d p permitted enters holds⟩
  | some entry =>
    obtain ⟨q, reached, noted, deal⟩ := Deed.deal inside enters
    exact ⟨q, reached, entered past d p entry q config inside reached enters noted deal holds⟩

end Bus

end PeripheralLayer
