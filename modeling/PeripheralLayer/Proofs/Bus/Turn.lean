import PeripheralLayer.Proofs.Bus.Phase

/-!
What a moment asks for, what it ends and what it hands out, read off its step and reply, and the turns a
moment can give to the phase of the mediator. `Turn` lists all of them, and whatever is said elsewhere
about the events of a run rests on that list alone. The coherence of the control fields in every state of
every run is its first consequence.
-/
namespace PeripheralLayer.Bus

namespace Moment

def asked (m : Moment) : Option HandlerId :=
  match m.step with
  | .transfer _ peer _ _ => if m.reply = .noBuffer then none else peer.listener
  | .setRate peer _ => peer.listener
  | _ => none

def interruptWord (m : Moment) : Option EventWord :=
  match m.step with
  | .interrupt events => some events
  | .raise events | .raiseLatched events => if m.reply = .noSink then none else some events
  | _ => none

def stops (m : Moment) : Bool :=
  match m.step with
  | .stop peer => peer.pins.isSome
  | _ => false

/-- How this moment would end a transfer in flight, if it would. -/
def verdict (m : Moment) : Option Event :=
  if m.stops then some .error else m.interruptWord.bind EventWord.verdict

def collects (m : Moment) : Bool := m.stops || m.step = .dispatch

end Moment

/-- What a moment can do to the phase of the mediator. `held` is the buffer that the block has in its hands
when the moment begins. -/
inductive Turn (mode : DispatchMode) (held : Option Buffer) (moment : Moment) : Phase → Phase → Prop where
  | still (p : Phase) (asked : moment.asked = none) (told : moment.completion = none)
      (verdict : ∀ transaction, p = .inFlight transaction → moment.verdict = none)
      (collects : ∀ outcome, p = .waiting outcome → moment.collects = false) : Turn mode held moment p p
  | answered (p : Phase) (answer : Completion) (asked : moment.asked = some answer.handler)
      (told : moment.completion = some answer) (busy : answer.event = .busy ↔ p.bus = .busy) :
      Turn mode held moment p p
  | started (asked : moment.asked = none) (told : moment.completion = none) : Turn mode held moment .down .idle
  | stopped (asked : moment.asked = none) (told : moment.completion = none) : Turn mode held moment .idle .down
  | accepted (transaction : Transaction) (asked : moment.asked = some transaction.handler)
      (told : moment.completion = none) : Turn mode held moment .idle (.inFlight transaction)
  | resolved (transaction : Transaction) (event : Event) (q : Phase) (asked : moment.asked = none)
      (verdict : moment.verdict = some event)
      (told : moment.completion = some ⟨transaction.handler, event, held⟩)
      (prompt : mode = .direct ∨ moment.stops) (freed : q = .idle ∨ q = .down) :
      Turn mode held moment (.inFlight transaction) q
  | recorded (transaction : Transaction) (event : Event) (asked : moment.asked = none)
      (verdict : moment.verdict = some event) (told : moment.completion = none)
      (deferred : mode = .deferred) (stops : moment.stops = false) :
      Turn mode held moment (.inFlight transaction) (.waiting ⟨transaction.handler, event, held⟩)
  | collected (outcome : Completion) (q : Phase) (asked : moment.asked = none)
      (collects : moment.collects = true) (told : moment.completion = some outcome)
      (freed : q = .idle ∨ q = .down) : Turn mode held moment (.waiting outcome) q

section Turns

variable {m : Mediator} {p : Phase} {held : Option Buffer} {moment : Moment}

theorem Moment.quiet_of_interrupt {events : EventWord} (word : moment.interruptWord = some events) :
    moment.asked = none ∧ moment.stops = false ∧ moment.collects = false := by
  unfold Moment.interruptWord at word
  split at word <;> simp_all [Moment.asked, Moment.stops, Moment.collects]

theorem turn_of_bench (mode : DispatchMode) (asked : moment.asked = none) (told : moment.completion = none)
    (stops : moment.stops = false) (word : moment.interruptWord = none) (step : moment.step ≠ .dispatch) :
    Turn mode held moment p p := by
  refine .still p asked told (fun _ _ => ?_) (fun _ _ => ?_)
  · simp [Moment.verdict, stops, word]
  · simp [Moment.collects, stops, step]

theorem turn_of_start (h : m.In p) (mode : DispatchMode) {peer : Peer} (step : moment.step = .start peer)
    (told : moment.completion = (m.start peer).completion) :
    ∃ q, (m.start peer).mediator.In q ∧ Turn mode held moment p q := by
  have asked : moment.asked = none := by simp [Moment.asked, step]
  obtain ⟨silent, same | ⟨rfl, risen⟩⟩ := Mediator.start_phase h peer
  · refine ⟨p, same, turn_of_bench mode asked (told.trans silent) ?_ ?_ ?_⟩ <;>
      simp [Moment.stops, Moment.interruptWord, step]
  · exact ⟨.idle, risen, .started asked (told.trans silent)⟩

theorem turn_of_stop (h : m.In p) (mode : DispatchMode) {peer : Peer} (step : moment.step = .stop peer)
    (told : moment.completion = (m.stop peer).completion) :
    ∃ q, (m.stop peer).mediator.In q ∧ Turn mode m.block.held moment p q := by
  have asked : moment.asked = none := by simp [Moment.asked, step]
  cases hardware : peer.pins with
  | none =>
    have untouched : m.stop peer = ⟨m, .failure, none⟩ := by simp [Mediator.stop, hardware]
    rw [untouched] at told ⊢
    refine ⟨p, h, turn_of_bench mode asked told ?_ ?_ ?_⟩ <;>
      simp [Moment.stops, Moment.interruptWord, step, hardware]
  | some pins =>
    obtain ⟨down, orphan⟩ := Mediator.stop_phase h (show peer.pins.isSome by simp [hardware])
    have stops : moment.stops = true := by simp [Moment.stops, step, hardware]
    rw [orphan] at told
    refine ⟨.down, down, ?_⟩
    cases p with
    | down => exact .still .down asked told (fun _ eq => by cases eq) (fun _ eq => by cases eq)
    | idle => exact .stopped asked told
    | inFlight transaction =>
      exact .resolved transaction .error .down asked (by simp [Moment.verdict, stops]) told
        (Or.inr stops) (Or.inr rfl)
    | waiting outcome =>
      exact .collected outcome .down asked (by simp [Moment.collects, stops]) told (Or.inr rfl)

theorem turn_of_transfer (h : m.In p) (mode : DispatchMode) {direction : Direction} {peer : Peer}
    {source : BufferSource} {buffer : Buffer} {length : Nat}
    (step : moment.step = .transfer direction peer source length) (reply : moment.reply ≠ .noBuffer)
    (told : moment.completion = (m.transfer peer direction buffer length).completion) :
    ∃ q, (m.transfer peer direction buffer length).mediator.In q ∧ Turn mode held moment p q := by
  have asked : moment.asked = peer.listener := by simp [Moment.asked, step, reply]
  cases listener : peer.listener with
  | none =>
    rw [Mediator.transfer_of_unheard listener] at told ⊢
    refine ⟨p, h, turn_of_bench mode (asked.trans listener) told ?_ ?_ ?_⟩ <;>
      simp [Moment.stops, Moment.interruptWord, step]
  | some handler =>
    rw [listener] at asked
    rcases Mediator.transfer_phase h listener direction buffer length with
      ⟨same, -, event, answer, busy⟩ | ⟨rfl, taken, -, silent⟩
    · exact ⟨p, same, .answered p ⟨handler, event, some buffer⟩ asked (told.trans answer) busy⟩
    · exact ⟨_, taken, .accepted ⟨peer.address, handler⟩ asked (told.trans silent)⟩

theorem turn_of_setRate (h : m.In p) (mode : DispatchMode) {peer : Peer} {kilohertz : UInt16}
    (step : moment.step = .setRate peer kilohertz)
    (told : moment.completion = (m.setRate peer kilohertz).completion) :
    ∃ q, (m.setRate peer kilohertz).mediator.In q ∧ Turn mode held moment p q := by
  have asked : moment.asked = peer.listener := by simp [Moment.asked, step]
  have bench : moment.asked = none → moment.completion = none → Turn mode held moment p p := by
    intro unasked silent
    refine turn_of_bench mode unasked silent ?_ ?_ ?_ <;> simp [Moment.stops, Moment.interruptWord, step]
  cases hardware : peer.pins with
  | none =>
    have untouched : m.setRate peer kilohertz = ⟨m, .failure, none⟩ := by simp [Mediator.setRate, hardware]
    rw [untouched] at told ⊢
    exact ⟨p, h, bench (by simp [asked, Peer.listener, hardware]) told⟩
  | some pins =>
    obtain ⟨same, event, answer, busy⟩ :=
      Mediator.setRate_phase h (show peer.pins.isSome by simp [hardware]) kilohertz
    rw [answer] at told
    refine ⟨p, same, ?_⟩
    cases named : peer.handler with
    | none => exact bench (by simp [asked, Peer.listener, hardware, named]) (by simpa [named] using told)
    | some handler =>
      exact .answered p ⟨handler, event, none⟩ (by simp [asked, Peer.listener, hardware, named])
        (by simpa [named] using told) busy

theorem turn_of_interrupt (h : m.In p) {events : EventWord} (word : moment.interruptWord = some events)
    (told : moment.completion = (m.interrupt events).2) :
    ∃ q, (m.interrupt events).1.In q ∧ Turn m.config.dispatch m.block.held moment p q := by
  obtain ⟨asked, stops, collects⟩ := Moment.quiet_of_interrupt word
  have decided : moment.verdict = events.verdict := by simp [Moment.verdict, stops, word]
  cases verdict : events.verdict with
  | none =>
    rw [Mediator.interrupt_of_ignored verdict] at told ⊢
    exact ⟨p, h, .still p asked told (fun _ _ => decided.trans verdict) (fun _ _ => collects)⟩
  | some event =>
    by_cases flying : ∃ transaction, p = .inFlight transaction
    · obtain ⟨transaction, rfl⟩ := flying
      cases mode : m.config.dispatch with
      | direct =>
        obtain ⟨freed, answer⟩ := Mediator.interrupt_direct_phase h mode verdict
        exact ⟨_, freed, .resolved transaction event .idle asked (decided.trans verdict)
          (told.trans answer) (Or.inl rfl) (Or.inl rfl)⟩
      | deferred =>
        obtain ⟨kept, silent⟩ := Mediator.interrupt_deferred_phase h mode verdict
        exact ⟨_, kept, .recorded transaction event asked (decided.trans verdict)
          (told.trans silent) rfl stops⟩
    · have nothing : m.current = none := by
        rw [h.current]
        cases p <;> simp_all [Phase.current]
      rw [Mediator.interrupt_of_spurious verdict nothing] at told ⊢
      exact ⟨p, h.withCounters _, .still p asked told
        (fun transaction eq => absurd ⟨transaction, eq⟩ flying) (fun _ _ => collects)⟩

theorem turn_of_dispatch (h : m.In p) (mode : DispatchMode) (step : moment.step = .dispatch)
    (told : moment.completion = m.dispatch.2) :
    ∃ q, m.dispatch.1.In q ∧ Turn mode held moment p q := by
  have asked : moment.asked = none := by simp [Moment.asked, step]
  have collects : moment.collects = true := by simp [Moment.collects, step]
  by_cases held : ∃ outcome, p = .waiting outcome
  · obtain ⟨outcome, rfl⟩ := held
    obtain ⟨freed, answer⟩ := Mediator.dispatch_phase h
    exact ⟨.idle, freed, .collected outcome .idle asked collects (told.trans answer) (Or.inl rfl)⟩
  · have empty : m.pending = none := by
      rw [h.pending]
      cases p <;> simp_all [Phase.pending]
    rw [Mediator.dispatch_of_empty empty] at told ⊢
    refine ⟨p, h, .still p asked told (fun _ _ => ?_) (fun outcome eq => absurd ⟨outcome, eq⟩ held)⟩
    simp [Moment.verdict, Moment.stops, Moment.interruptWord, step]

end Turns

namespace Client

theorem mediator_take (c : Client) (source : BufferSource) : (c.take source).1.mediator = c.mediator := by
  cases source <;> rfl

theorem inject_bench (c : Client) (injection : Injection) :
    (c.inject injection).completion = none ∧
      ∃ block, (c.inject injection).client.mediator = { c.mediator with block } := by
  cases injection <;> exact ⟨rfl, _, rfl⟩

theorem direct_bench (c : Client) (call : DirectCall) :
    (c.direct call).completion = none ∧ ∃ block, (c.direct call).client.mediator = { c.mediator with block } := by
  cases call with
  | transfer address direction source length =>
    have same := c.mediator_take source
    simp only [direct]
    cases taken : c.take source with
    | mk c' buffer =>
      rw [taken] at same
      change c'.mediator = c.mediator at same
      cases buffer with
      | none => exact ⟨rfl, c.mediator.block, same⟩
      | some buffer =>
        dsimp only
        obtain ⟨block, refusal⟩ := c'.mediator.block.transfer address direction buffer length
        cases refusal <;> exact ⟨rfl, block, by simp only [withBlock, same]⟩
  | acquire pins => exact ⟨rfl, _, rfl⟩
  | configure config => exact ⟨rfl, _, rfl⟩
  | register => exact ⟨rfl, _, rfl⟩
  | enableEvents events priority on => exact ⟨rfl, _, rfl⟩
  | abort => exact ⟨rfl, _, rfl⟩
  | release => exact ⟨rfl, _, rfl⟩
  | reclaim => exact ⟨rfl, _, rfl⟩
  | setRate hertz => exact ⟨rfl, _, rfl⟩

theorem perform_transfer_of_taken {c c' : Client} {direction : Direction} {peer : Peer} {source : BufferSource}
    {length : Nat} {buffer : Buffer} (taken : c.take source = (c', some buffer)) :
    c.perform (.transfer direction peer source length) =
      c'.ofOutcome (c.mediator.transfer peer direction buffer length) := by
  have same := c.mediator_take source
  rw [taken] at same
  simp only [perform, taken]
  rw [show c'.mediator = c.mediator from same]

theorem perform_transfer_of_lacking {c : Client} {source : BufferSource} (lacking : (c.take source).2 = none)
    (direction : Direction) (peer : Peer) (length : Nat) :
    c.perform (.transfer direction peer source length) = ⟨(c.take source).1, .noBuffer, none⟩ := by
  have taken : c.take source = ((c.take source).1, none) := Prod.ext rfl lacking
  rw [perform, taken]

theorem perform_transfer (c : Client) (direction : Direction) (peer : Peer) (source : BufferSource)
    (length : Nat) :
    ∃ c' : Client, c'.mediator = c.mediator ∧
      (c.perform (.transfer direction peer source length) = ⟨c', .noBuffer, none⟩ ∨
        ∃ buffer, c.perform (.transfer direction peer source length) =
          c'.ofOutcome (c.mediator.transfer peer direction buffer length)) := by
  have same := c.mediator_take source
  cases taken : c.take source with
  | mk c' buffer =>
    rw [taken] at same
    refine ⟨c', same, ?_⟩
    cases buffer with
    | none => exact Or.inl (by simp [perform, taken])
    | some buffer => exact Or.inr ⟨buffer, perform_transfer_of_taken taken⟩

theorem perform_raise (c : Client) (events : EventWord) :
    c.perform (.raise events) = c.interrupt events ∨ c.perform (.raise events) = ⟨c, .noSink, none⟩ := by
  simp only [perform]
  split <;> simp

theorem perform_raiseLatched (c : Client) (events : EventWord) :
    c.perform (.raiseLatched events) = c.interrupt events ∨
      c.perform (.raiseLatched events) = ⟨c, .noSink, none⟩ := by
  simp only [perform]
  split <;> simp

theorem config_perform (c : Client) (step : Step) :
    (c.perform step).client.mediator.config = c.mediator.config := by
  cases step with
  | start peer => exact c.mediator.config_start peer
  | stop peer => exact c.mediator.config_stop peer
  | setRate peer kilohertz => exact c.mediator.config_setRate peer kilohertz
  | dispatch => exact c.mediator.config_dispatch
  | interrupt events => exact c.mediator.config_interrupt events
  | raise events =>
    rcases c.perform_raise events with made | lost
    · rw [made]
      exact c.mediator.config_interrupt events
    · rw [lost]
  | raiseLatched events =>
    rcases c.perform_raiseLatched events with made | lost
    · rw [made]
      exact c.mediator.config_interrupt events
    · rw [lost]
  | transfer direction peer source length =>
    obtain ⟨c', same, lacking | ⟨buffer, made⟩⟩ := c.perform_transfer direction peer source length
    · rw [lacking]
      exact congrArg Mediator.config same
    · rw [made]
      exact c.mediator.config_transfer peer direction buffer length
  | inject injection =>
    obtain ⟨-, block, left⟩ := c.inject_bench injection
    simp only [perform, left]
  | direct call =>
    obtain ⟨-, block, left⟩ := c.direct_bench call
    simp only [perform, left]
  | latch | save | clearLog | readLog | countLog name => rfl

variable {c : Client} {p : Phase}

theorem perform_turn (h : c.mediator.In p) (depth : Nat) (step : Step) :
    ∃ q, (c.perform step).client.mediator.In q ∧
      Turn c.mediator.config.dispatch c.mediator.block.held (c.moment depth step) p q := by
  have bench : (c.perform step).client.mediator.In p → (c.perform step).completion = none →
      (c.moment depth step).asked = none → (c.moment depth step).stops = false →
      (c.moment depth step).interruptWord = none → step ≠ .dispatch →
      ∃ q, (c.perform step).client.mediator.In q ∧
        Turn c.mediator.config.dispatch c.mediator.block.held (c.moment depth step) p q :=
    fun inside told asked stops word other => ⟨p, inside, turn_of_bench _ asked told stops word other⟩
  cases step with
  | start peer => exact turn_of_start h _ rfl rfl
  | stop peer => exact turn_of_stop h _ rfl rfl
  | setRate peer kilohertz => exact turn_of_setRate h _ rfl rfl
  | dispatch => exact turn_of_dispatch h _ rfl rfl
  | interrupt events => exact turn_of_interrupt h rfl rfl
  | transfer direction peer source length =>
    obtain ⟨c', same, lacking | ⟨buffer, made⟩⟩ := c.perform_transfer direction peer source length
    · refine bench ?_ ?_ ?_ rfl rfl (by simp) <;> simp [moment, lacking, Moment.asked, same, h]
    · simp only [moment, made, ofOutcome]
      exact turn_of_transfer h _ rfl (by simp) rfl
  | raise events =>
    rcases c.perform_raise events with made | lost
    · simp only [moment, made, interrupt]
      exact turn_of_interrupt h rfl rfl
    · refine bench ?_ ?_ ?_ rfl ?_ (by simp) <;> simp [moment, lost, Moment.asked, Moment.interruptWord, h]
  | raiseLatched events =>
    rcases c.perform_raiseLatched events with made | lost
    · simp only [moment, made, interrupt]
      exact turn_of_interrupt h rfl rfl
    · refine bench ?_ ?_ ?_ rfl ?_ (by simp) <;> simp [moment, lost, Moment.asked, Moment.interruptWord, h]
  | inject injection =>
    obtain ⟨silent, block, left⟩ := c.inject_bench injection
    exact bench (by simpa [perform, left] using h.withBlock block) silent rfl rfl rfl (by simp)
  | direct call =>
    obtain ⟨silent, block, left⟩ := c.direct_bench call
    exact bench (by simpa [perform, left] using h.withBlock block) silent rfl rfl rfl (by simp)
  | clearLog => exact bench (h.withBlock _) rfl rfl rfl rfl (by simp)
  | latch | save | readLog | countLog name => exact bench h rfl rfl rfl rfl (by simp)

end Client

inductive Turns (mode : DispatchMode) : Mediator → Phase → List Moment → Mediator → Phase → Prop where
  | nil {m : Mediator} {p : Phase} (inside : m.In p) : Turns mode m p [] m p
  | cons {m n : Mediator} {p q r : Phase} {moment : Moment} {later : List Moment} (inside : m.In p)
      (turn : Turn mode m.block.held moment p q) (tail : Turns mode moment.after q later n r) :
      Turns mode m p (moment :: later) n r

theorem Passage.turns {m n : Mediator} {past : List Moment} (passage : Passage m past n) {p : Phase}
    (h : m.In p) : ∃ q, n.config = m.config ∧ Turns m.config.dispatch m p past n q := by
  induction passage generalizing p with
  | nil m => exact ⟨p, rfl, .nil h⟩
  | cons c depth step tail ih =>
    obtain ⟨q, inside, turn⟩ := Client.perform_turn h depth step
    obtain ⟨r, config, turns⟩ := ih inside
    rw [c.config_perform step] at config turns
    exact ⟨r, config, .cons h turn turns⟩

theorem fresh_down (config : Config) : ({ config } : Mediator).In .down := ⟨rfl, rfl, rfl, rfl⟩

theorem Run.turns {config : Config} {past : List Moment} {s : Session} (run : Run config past s) :
    ∃ p, Turns config.dispatch { config } .down past s.client.mediator p := by
  obtain ⟨p, -, turns⟩ := run.passage.turns (fresh_down config)
  exact ⟨p, turns⟩

section Turns

variable {mode : DispatchMode} {m n : Mediator} {p q : Phase} {past : List Moment}

theorem Turns.first (turns : Turns mode m p past n q) : m.In p := by
  cases turns with
  | nil inside => exact inside
  | cons inside turn tail => exact inside

theorem Turns.last (turns : Turns mode m p past n q) : n.In q := by
  induction turns with
  | nil inside => exact inside
  | cons inside turn tail ih => exact ih

theorem Turn.keeps_waiting {held : Option Buffer} {moment : Moment} (Fine : Completion → Prop)
    (turn : Turn mode held moment p q)
    (recorded : ∀ outcome, mode = .deferred → moment.verdict = some outcome.event → Fine outcome)
    (start : ∀ outcome, p = .waiting outcome → Fine outcome) : ∀ outcome, q = .waiting outcome → Fine outcome := by
  intro outcome eq
  cases turn with
  | recorded transaction event asked verdict told deferred stops =>
    cases eq
    exact recorded _ deferred verdict
  | still | answered => exact start outcome eq
  | started | stopped | accepted => cases eq
  | resolved transaction event q asked verdict told prompt freed => rcases freed with rfl | rfl <;> cases eq
  | collected outcome q asked collects told freed => rcases freed with rfl | rfl <;> cases eq

theorem Turn.deferred_of_waiting {held : Option Buffer} {moment : Moment} (turn : Turn mode held moment p q)
    (start : ∀ outcome, p = .waiting outcome → mode = .deferred) :
    ∀ outcome, q = .waiting outcome → mode = .deferred :=
  turn.keeps_waiting (fun _ => mode = .deferred) (fun _ deferred _ => deferred) start

theorem Turns.keeps_waiting (Fine : Completion → Prop) (turns : Turns mode m p past n q)
    (recorded : ∀ (moment : Moment) outcome, mode = .deferred → moment.verdict = some outcome.event → Fine outcome)
    (start : ∀ outcome, p = .waiting outcome → Fine outcome) : ∀ outcome, q = .waiting outcome → Fine outcome := by
  induction turns with
  | nil inside => exact start
  | cons inside turn tail ih => exact ih (turn.keeps_waiting Fine (recorded _) start)

theorem Turns.deferred_of_waiting (turns : Turns mode m p past n q)
    (start : ∀ outcome, p = .waiting outcome → mode = .deferred) :
    ∀ outcome, q = .waiting outcome → mode = .deferred :=
  turns.keeps_waiting (fun _ => mode = .deferred) (fun _ _ deferred _ => deferred) start

end Turns

structure Coherent (config : Config) (m : Mediator) : Prop where
  busy_iff : m.bus = .busy ↔
    (m.current.isSome ∧ m.pending = none) ∨ (m.current = none ∧ m.pending.isSome)
  never_both : ¬ (m.current.isSome ∧ m.pending.isSome)
  deferred_of_pending : m.pending.isSome → config.dispatch = .deferred
  empty_of_down : m.initialized = false → m.bus = .free ∧ m.current = none ∧ m.pending = none

/-- In every state of every run, a callback's first included, the control fields agree. -/
theorem reached_mediator_coherent {config : Config} {past : List Moment} {s : Session}
    (run : Run config past s) : Coherent config s.client.mediator := by
  obtain ⟨p, turns⟩ := run.turns
  have deferred := turns.deferred_of_waiting (fun _ eq => by cases eq)
  obtain ⟨initialized, bus, current, pending⟩ := turns.last
  constructor
  · rw [bus, current, pending]
    cases p <;> simp [Phase.bus, Phase.current, Phase.pending]
  · rw [current, pending]
    cases p <;> simp [Phase.current, Phase.pending]
  · rw [pending]
    cases p with
    | waiting outcome => exact fun _ => deferred outcome rfl
    | down | idle | inFlight transaction => simp [Phase.pending]
  · rw [initialized, bus, current, pending]
    cases p <;> simp [Phase.initialized, Phase.bus, Phase.current, Phase.pending]

def boardPeer : Peer := ⟨some Board.busPins, 0x30, some 0⟩

/-- A write whose bus is disturbed until an interrupt brings its outcome and after it: by an interrupt that
ends nothing, by a read, by a rate request from inside the read's callback, and by a late interrupt. -/
def disturbedWrite : Scenario where
  config := { dispatch := .deferred }
  handlers := [[[.setRate boardPeer 100]]]
  steps :=
    [.start boardPeer, .transfer .write boardPeer (.fresh [1, 2]) 2, .interrupt .writeInFifo,
      .transfer .read boardPeer (.fresh [0]) 1, .interrupt (.union .writeComplete .transferError),
      .interrupt .readComplete]

theorem disturbed_write_coherent :
    ∃ s, Run disturbedWrite.config disturbedWrite.moments s ∧
      s.client.mediator.pending = some ⟨0, .error, some ⟨0, [1, 2]⟩⟩ ∧
      Coherent disturbedWrite.config s.client.mediator := by
  obtain ⟨s, run, -⟩ := disturbedWrite.run
  refine ⟨s, run, ?_, reached_mediator_coherent run⟩
  rw [run.mediator_eq]
  decide

end PeripheralLayer.Bus
