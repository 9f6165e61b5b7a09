import PeripheralLayer.Proofs.Bus.Turn

/-!
One step in the two dispatch modes. Only the interrupt looks at the mode, so every other step comes to the
same. An interrupt comes to the same too, unless it ends a transfer: then direct mode hands the outcome out
at once, and deferred mode hands it out at the next dispatch and has the same mediator from then on.
-/
namespace PeripheralLayer.Bus

/-! The same state under another mode. -/

def Mediator.under (mode : DispatchMode) (m : Mediator) : Mediator := { m with config.dispatch := mode }

def Client.under (mode : DispatchMode) (c : Client) : Client := { c with mediator := c.mediator.under mode }

def Effect.under (mode : DispatchMode) (e : Effect) : Effect := { e with client := e.client.under mode }

def Moment.under (mode : DispatchMode) (m : Moment) : Moment := { m with after := m.after.under mode }

def Scenario.under (mode : DispatchMode) (s : Scenario) : Scenario := { s with config.dispatch := mode }

def Step.interrupts : Step → Bool
  | .interrupt _ | .raise _ | .raiseLatched _ => true
  | _ => false

namespace Mediator

variable (mode : DispatchMode) (m : Mediator)

/-! No entry point but the interrupt looks at the mode. -/

theorem start_under (peer : Peer) :
    (m.under mode).start peer = { m.start peer with mediator := (m.start peer).mediator.under mode } := by
  have brought : ∀ pins, m.block.bringUp { m.config with dispatch := mode } pins =
      m.block.bringUp m.config pins := by
    intro pins
    rfl
  simp only [start, under, brought]
  repeat' split
  all_goals rfl

theorem stop_under (peer : Peer) :
    (m.under mode).stop peer = { m.stop peer with mediator := (m.stop peer).mediator.under mode } := by
  simp only [stop, abandon, under]
  grind

theorem transfer_under (peer : Peer) (direction : Direction) (buffer : Buffer) (length : Nat) :
    (m.under mode).transfer peer direction buffer length =
      { m.transfer peer direction buffer length with
        mediator := (m.transfer peer direction buffer length).mediator.under mode } := by
  simp only [transfer, under]
  grind

theorem setRate_under (peer : Peer) (kilohertz : UInt16) :
    (m.under mode).setRate peer kilohertz =
      { m.setRate peer kilohertz with mediator := (m.setRate peer kilohertz).mediator.under mode } := by
  simp only [setRate, applyRate, under]
  grind

theorem dispatch_under : (m.under mode).dispatch = (m.dispatch.1.under mode, m.dispatch.2) := by
  simp only [dispatch, under]
  split <;> rfl

end Mediator

namespace Client

variable (mode : DispatchMode) (c : Client)

theorem take_under (source : BufferSource) :
    (c.under mode).take source = ((c.take source).1.under mode, (c.take source).2) := by
  cases source <;> rfl

theorem inject_under (injection : Injection) :
    (c.under mode).inject injection = (c.inject injection).under mode := by
  cases injection <;> rfl

theorem direct_under (call : DirectCall) : (c.under mode).direct call = (c.direct call).under mode := by
  cases call with
  | transfer address direction source length =>
    simp only [direct, take_under]
    cases c.take source with
    | mk c buffer =>
      cases buffer with
      | none => rfl
      | some buffer =>
        simp only [under, Mediator.under]
        cases c.mediator.block.transfer address direction buffer length with
        | mk block refusal => cases refusal <;> rfl
  | acquire | configure | register | enableEvents | abort | release | reclaim | setRate => rfl

theorem perform_under {step : Step} (calm : step.interrupts = false) :
    (c.under mode).perform step = (c.perform step).under mode := by
  cases step with
  | start peer => simp [perform, under, ofOutcome, Effect.under, Mediator.start_under]
  | stop peer => simp [perform, under, ofOutcome, Effect.under, Mediator.stop_under]
  | setRate peer kilohertz => simp [perform, under, ofOutcome, Effect.under, Mediator.setRate_under]
  | dispatch => simp [perform, under, Effect.under, Mediator.dispatch_under]
  | transfer direction peer source length =>
    simp only [perform, take_under]
    cases c.take source with
    | mk c buffer =>
      cases buffer with
      | none => rfl
      | some buffer => simp [under, ofOutcome, Effect.under, Mediator.transfer_under]
  | inject injection => exact c.inject_under mode injection
  | direct call => exact c.direct_under mode call
  | latch | save | clearLog | readLog | countLog => rfl
  | interrupt | raise | raiseLatched => cases calm

end Client

structure Mediator.Prompt (m : Mediator) : Prop where
  direct : m.config.dispatch = .direct
  settled : ∃ p, m.In p ∧ p.pending = none

theorem Mediator.Prompt.pending {m : Mediator} (h : m.Prompt) : m.pending = none := by
  obtain ⟨p, inside, nothing⟩ := h.settled
  exact inside.pending.trans nothing

theorem fresh_prompt {config : Config} (direct : config.dispatch = .direct) : ({ config } : Mediator).Prompt :=
  ⟨direct, .down, fresh_down config, rfl⟩

theorem Client.prompt_perform {c : Client} (h : c.mediator.Prompt) (step : Step) :
    (c.perform step).client.mediator.Prompt := by
  obtain ⟨direct, p, inside, nothing⟩ := h
  refine ⟨(congrArg Config.dispatch (c.config_perform step)).trans direct, ?_⟩
  obtain ⟨q, left, turn⟩ := Client.perform_turn inside 0 step
  refine ⟨q, left, ?_⟩
  rw [direct] at turn
  cases q with
  | down | idle | inFlight => rfl
  | waiting outcome =>
    have deferred := turn.deferred_of_waiting (by rintro other rfl; cases nothing) outcome rfl
    cases deferred

namespace Mediator

theorem resolve_under (mode : DispatchMode) (m : Mediator) (transaction : Transaction) (events : EventWord) :
    (m.under mode).resolve transaction events =
      ((m.resolve transaction events).1.under mode, (m.resolve transaction events).2) := by
  unfold resolve
  split <;> rfl

theorem pending_resolve (m : Mediator) (transaction : Transaction) (events : EventWord) :
    (m.resolve transaction events).1.pending = m.pending := by
  unfold resolve
  split <;> rfl

theorem interrupt_of_resolved {m : Mediator} {transaction : Transaction} {events : EventWord} {event : Event}
    (verdict : events.verdict = some event) (flying : m.current = some transaction) :
    m.interrupt events =
      match m.config.dispatch with
      | .direct => ({ (m.resolve transaction events).1 with bus := .free },
          some (m.resolve transaction events).2)
      | .deferred => ({ (m.resolve transaction events).1 with
          pending := some (m.resolve transaction events).2 }, none) := by
  have handled := EventWord.handled_of_verdict verdict
  simp only [interrupt, handled, flying, m.config_resolve]
  rfl

/-- The outcome that direct mode hands out in an interrupt is what deferred mode hands out at the next
dispatch, and the two mediators agree from then on. -/
theorem interrupt_then_dispatch {m : Mediator} (h : m.Prompt) (events : EventWord) :
    ((m.interrupt events).2 = none ∧
      (m.under .deferred).interrupt events = ((m.interrupt events).1.under .deferred, none)) ∨
    ∃ outcome waiting, (m.interrupt events).2 = some outcome ∧
      (m.under .deferred).interrupt events = (waiting, none) ∧
      waiting.dispatch = ((m.interrupt events).1.under .deferred, some outcome) := by
  cases verdict : events.verdict with
  | none => exact Or.inl (by simp only [interrupt_of_ignored verdict, and_self])
  | some event =>
    cases flying : m.current with
    | none =>
      have flying' : (m.under .deferred).current = none := flying
      simp only [interrupt_of_spurious verdict flying, interrupt_of_spurious verdict flying', true_and]
      exact Or.inl rfl
    | some transaction =>
      have flying' : (m.under .deferred).current = some transaction := flying
      have deferred : (m.under .deferred).config.dispatch = .deferred := rfl
      have empty := (m.pending_resolve transaction events).trans h.pending
      refine Or.inr ⟨(m.resolve transaction events).2,
        { (m.resolve transaction events).1.under .deferred with
          pending := some (m.resolve transaction events).2 }, ?_, ?_, ?_⟩
      · simp only [interrupt_of_resolved verdict flying, h.direct]
      · simp only [interrupt_of_resolved verdict flying', deferred, resolve_under]
      · simp only [interrupt_of_resolved verdict flying, h.direct, dispatch, under, empty]

end Mediator

/-- What a step comes to in the deferred mode, if it comes to `e` in the direct one: the same, or a callback
put off until a dispatch. -/
def Effect.PutOff (e deferred : Effect) : Prop :=
  (e.completion = none ∧ deferred = e.under .deferred) ∨
    ∃ outcome waiting, e.completion = some outcome ∧ deferred = ⟨waiting, e.reply, none⟩ ∧
      waiting.perform .dispatch = ⟨e.client.under .deferred, .flag true, some outcome⟩

theorem Client.interrupt_put_off {c : Client} (h : c.mediator.Prompt) (events : EventWord) :
    (c.interrupt events).PutOff ((c.under .deferred).interrupt events) := by
  rcases Mediator.interrupt_then_dispatch h events with ⟨silent, same⟩ | ⟨outcome, waiting, told, held, freed⟩
  · refine Or.inl ⟨silent, ?_⟩
    simp only [interrupt, under, same, Effect.under, silent]
  · refine Or.inr ⟨outcome, { c with mediator := waiting }, told, ?_, ?_⟩
    · simp only [interrupt, under, held]
    · simp only [perform, freed, interrupt, under, Option.isSome_some]

theorem Client.perform_put_off {c : Client} (h : c.mediator.Prompt) {step : Step} (enters : step.interrupts) :
    (c.perform step).PutOff ((c.under .deferred).perform step) := by
  have lost : (Effect.mk c .noSink none).PutOff ⟨c.under .deferred, .noSink, none⟩ := Or.inl ⟨rfl, rfl⟩
  cases step with
  | interrupt events => exact interrupt_put_off h events
  | raise events =>
    have sink : (c.under .deferred).mediator.block.sink = c.mediator.block.sink := rfl
    simp only [perform, sink]
    split
    · exact interrupt_put_off h events
    · exact lost
  | raiseLatched events =>
    have latched : (c.under .deferred).latched = c.latched := rfl
    simp only [perform, latched]
    split
    · exact interrupt_put_off h events
    · exact lost
  | _ => cases enters

theorem Client.perform_under_of_silent {c : Client} (h : c.mediator.Prompt) {step : Step}
    (silent : (c.perform step).completion = none) :
    (c.under .deferred).perform step = (c.perform step).under .deferred := by
  cases enters : step.interrupts with
  | false => exact c.perform_under .deferred enters
  | true =>
    rcases perform_put_off h enters with ⟨-, same⟩ | ⟨outcome, waiting, told, -⟩
    · exact same
    · cases silent.symm.trans told

theorem Client.moment_under {c : Client} {mode : DispatchMode} {step : Step} (depth : Nat)
    (performed : (c.under mode).perform step = (c.perform step).under mode) :
    (c.under mode).moment depth step = (c.moment depth step).under mode := by
  simp only [moment, performed]
  rfl

theorem Client.dispatch_of_prompt {c : Client} (h : c.mediator.Prompt) :
    c.perform .dispatch = ⟨c, .flag false, none⟩ := by
  simp only [perform, Mediator.dispatch_of_empty h.pending, Option.isSome_none]

end PeripheralLayer.Bus
