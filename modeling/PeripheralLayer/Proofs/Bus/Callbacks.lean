import PeripheralLayer.Proofs.Bus.Recovery

/-!
What a callback finds. A callback begins once the section that yielded its completion is over, whatever code
made that section and however deep. Its event then says how the bus stands: a handler that is told of success or
of an error finds the bus free and both records of what occupied it empty, so it can make the next transfer at
once, and so can all code after it until a transfer is accepted.
-/
namespace PeripheralLayer.Bus

theorem Moment.verdict_ne_busy {moment : Moment} {event : Event} (verdict : moment.verdict = some event) :
    event ≠ .busy := by
  unfold Moment.verdict at verdict
  split at verdict
  · cases verdict
    simp
  · obtain ⟨word, -, decided⟩ := Option.bind_eq_some_iff.mp verdict
    exact EventWord.verdict_ne_busy decided

section Turns

variable {mode : DispatchMode} {held : Option Buffer} {moment : Moment} {p q : Phase} {outcome : Completion}

theorem Turn.busy_of_told (turn : Turn mode held moment p q) (told : moment.completion = some outcome)
    (busy : outcome.event = .busy) : p.bus = .busy := by
  cases turn with
  | still _ _ silent | started _ silent | stopped _ silent | accepted _ _ silent | recorded _ _ _ _ silent =>
    cases told.symm.trans silent
  | answered _ answer _ answered found =>
    cases told.symm.trans answered
    exact found.mp busy
  | resolved | collected => rfl

theorem Turn.told_busy_iff (turn : Turn mode held moment p q)
    (fine : ∀ outcome, p = .waiting outcome → outcome.event ≠ .busy) (told : moment.completion = some outcome) :
    outcome.event = .busy ↔ q.bus = .busy := by
  cases turn with
  | still _ _ silent | started _ silent | stopped _ silent | accepted _ _ silent | recorded _ _ _ _ silent =>
    cases told.symm.trans silent
  | answered _ answer _ answered found =>
    cases told.symm.trans answered
    exact found
  | resolved transaction event _ _ verdict ended _ freed =>
    cases told.symm.trans ended
    have other := Moment.verdict_ne_busy verdict
    rcases freed with rfl | rfl <;> simp [other, Phase.bus]
  | collected waited _ _ _ delivered freed =>
    cases told.symm.trans delivered
    have other := fine outcome rfl
    rcases freed with rfl | rfl <;> simp [other, Phase.bus]

end Turns

/-- The next transfer of this code is accepted, as far as the mediator has a say. -/
structure Client.FindsFree (c : Client) : Prop where
  free : c.mediator.bus = .free
  current : c.mediator.current = none
  pending : c.mediator.pending = none
  never_busy : ∀ step outcome, (c.perform step).completion = some outcome → outcome.event ≠ .busy
  accepts : c.mediator.initialized = true → ∀ direction peer source buffer length handler,
    (c.take source).2 = some buffer → peer.listener = some handler → length ≤ buffer.bytes.length →
    (c.mediator.block.transfer peer.address direction buffer length).2 = none →
    (c.perform (.transfer direction peer source length)).reply = .status .success ∧
      (c.perform (.transfer direction peer source length)).completion = none ∧
      (c.perform (.transfer direction peer source length)).client.mediator.current = some ⟨peer.address, handler⟩

theorem Client.findsFree {c : Client} {p : Phase} (inside : c.mediator.In p) (rests : p = .down ∨ p = .idle) :
    c.FindsFree := by
  have free : p.bus = .free := by rcases rests with rfl | rfl <;> rfl
  constructor
  case free => exact inside.bus.trans free
  case current => exact inside.current.trans (Phase.current_of_free free)
  case pending =>
    rw [inside.pending]
    rcases rests with rfl | rfl <;> rfl
  case never_busy =>
    intro step outcome told busy
    obtain ⟨q, -, turn⟩ := Client.perform_turn inside 0 step
    cases free.symm.trans (turn.busy_of_told told busy)
  case accepts =>
    intro up direction peer source buffer length handler lent listener fits taken
    cases lending : c.take source with
    | mk c' given =>
      rw [lending] at lent
      cases lent
      cases answer : c.mediator.block.transfer peer.address direction buffer length with
      | mk block refusal =>
        rw [answer] at taken
        cases taken
        have accepted := Mediator.transfer_of_accepted listener up (inside.bus.trans free) fits answer
        rw [perform_transfer_of_taken lending, accepted]
        exact ⟨rfl, rfl, rfl⟩

theorem Chronicle.findsFree {config : Config} {past quiet : List Deed} {d : Deed} {u : Session}
    (told : Chronicle config (past ++ d :: quiet) u) (free : d.left.bus = .free)
    (unaccepted : ∀ e ∈ quiet, ¬ e.Accepted) : u.client.FindsFree := by
  obtain ⟨p, inside, rests⟩ := told.rests_of_free rfl free unaccepted
  exact Client.findsFree inside rests

theorem Session.advance_of_told {s t : Session} {d : Deed} (due : s.deed = some d) {outcome : Completion}
    (begins : d.told = some outcome) {moment : Option Moment} (next : s.advance = some (t, moment)) :
    t.steps = (takeReaction s.reactions outcome.handler).1 ∧ t.client.returned = outcome.buffer ∧
      t.client.mediator = d.left := by
  obtain ⟨step, first, rfl⟩ := Option.map_eq_some_iff.mp due
  obtain ⟨steps, made⟩ := List.head?_eq_some_iff.mp first
  have completion : (s.client.perform step).completion = some outcome := begins
  simp only [advance, made, completion, deliver, Option.some.injEq, Prod.mk.injEq] at next
  obtain ⟨rfl, -⟩ := next
  exact ⟨rfl, rfl, rfl⟩

/-- Wherever a callback begins in a run, the bus is busy exactly if that is what its handler is told. Otherwise
the bus is free for it and for all that follows, up to the next accepted transfer. -/
theorem callback_finds_bus_as_told {config : Config} {past : List Deed} {s t : Session}
    (told : Chronicle config past s) {d : Deed} (due : s.deed = some d) {outcome : Completion}
    (begins : d.told = some outcome) {moment : Option Moment} (next : s.advance = some (t, moment)) :
    t.steps = (Session.takeReaction s.reactions outcome.handler).1 ∧ t.client.returned = outcome.buffer ∧
      (outcome.event = .busy ↔ t.client.mediator.bus = .busy) ∧
      (outcome.event ≠ .busy → t.client.FindsFree ∧
        ∀ quiet u, Chronicle config (past ++ d :: quiet) u → (∀ e ∈ quiet, ¬ e.Accepted) → u.client.FindsFree) := by
  obtain ⟨p, turns⟩ := told.run.turns
  have fine : ∀ outcome, p = .waiting outcome → outcome.event ≠ .busy :=
    turns.keeps_waiting (fun outcome => outcome.event ≠ .busy) (fun _ _ _ verdict => Moment.verdict_ne_busy verdict)
      (by simp)
  have found : d.found = s.client.mediator := by
    obtain ⟨step, -, rfl⟩ := Option.map_eq_some_iff.mp due
    rfl
  have inside : d.client.mediator.In p := by
    rw [show d.client.mediator = s.client.mediator from found]
    exact turns.last
  obtain ⟨q, reached, turn⟩ := Client.perform_turn inside d.depth d.step
  have left : d.left.In q := reached
  have busy_iff : outcome.event = .busy ↔ d.left.bus = .busy := by
    rw [left.bus]
    exact turn.told_busy_iff fine begins
  obtain ⟨steps, returned, mediator⟩ := Session.advance_of_told due begins next
  refine ⟨steps, returned, mediator ▸ busy_iff, ?_⟩
  intro other
  have free : d.left.bus = .free := by
    cases bus : d.left.bus with
    | free => rfl
    | busy => exact absurd (busy_iff.mpr bus) other
  have later : ∀ quiet u, Chronicle config (past ++ d :: quiet) u → (∀ e ∈ quiet, ¬ e.Accepted) →
      u.client.FindsFree := fun quiet u whole unaccepted => whole.findsFree free unaccepted
  have begun : Chronicle config (past ++ [d]) t := by
    have whole := told.advance next
    rwa [due] at whole
  exact ⟨later [] t begun (by simp), later⟩

/-- A write and a read whose second half is asked for by the handler of the first, out of a dispatch. -/
def commandAndResponse : Scenario where
  config := { dispatch := .deferred }
  handlers := [[[.save, .transfer .read boardPeer .saved 1]]]
  steps := [.start boardPeer, .transfer .write boardPeer (.fresh [0x10]) 1, .raise .writeComplete, .dispatch]

theorem response_follows_command :
    ∃ (past : List Deed) (s : Session) (d : Deed) (t u : Session), Chronicle commandAndResponse.config past s ∧
      s.deed = some d ∧ d.step = .dispatch ∧ d.told = some ⟨0, .success, some ⟨0, [0x10]⟩⟩ ∧
      t.steps = [.save, .transfer .read boardPeer .saved 1] ∧ t.client.mediator.bus = .free ∧
      Chronicle commandAndResponse.config (past ++ d :: [⟨t.client, 1, .save⟩]) u ∧
      (u.client.perform (.transfer .read boardPeer .saved 1)).reply = .status .success := by
  have told := (((Chronicle.fresh commandAndResponse.steps commandAndResponse.handlers :
    Chronicle commandAndResponse.config _ _).advance rfl).advance rfl).advance rfl
  have saved := (told.advance rfl).advance rfl
  obtain ⟨steps, -, -, finds⟩ := callback_finds_bus_as_told told rfl rfl rfl
  obtain ⟨begun, later⟩ := finds (by decide)
  refine ⟨_, _, _, _, _, told, rfl, rfl, rfl, steps, begun.free, saved, ?_⟩
  have finds := later _ _ saved (by
    rintro e mem ⟨peer, direction, buffer, length, enters, -⟩
    rw [List.mem_singleton.mp mem] at enters
    cases enters)
  exact (finds.accepts rfl .read boardPeer .saved ⟨0, [0x10]⟩ 1 0 rfl rfl (by decide) rfl).1

end PeripheralLayer.Bus
