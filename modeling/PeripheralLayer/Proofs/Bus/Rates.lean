import PeripheralLayer.Proofs.Bus.Deal
import PeripheralLayer.Proofs.Bus.Rewording

/-!
Rate requests. The ceiling bounds what is asked of the block, and the block is asked once and only if the bus is up and
free. Caller and handler are told the same, and nobody ever finds out whether a request above the ceiling or the
ceiling itself was made.
-/
namespace PeripheralLayer.Bus

/-- What a rate request makes of the mediator it finds, and the status it ends with. The one thing that is new in the
block is the call that it has heard. -/
structure Mediator.Rated (m : Mediator) (kilohertz : UInt16) (status : Status) (n : Mediator) : Prop where
  down : m.initialized = false → status = .failure ∧ n = m
  busy : m.bus = .busy → status = .busy ∧ n = { m with counters.busyRejections := m.counters.busyRejections + 1 }
  free : m.initialized = true → m.bus = .free →
    ∃ hertz : UInt32, hertz.toNat = min kilohertz.toNat m.config.ceiling.toNat * 1000 ∧
      status = (if 0 < hertz.toNat ∧ hertz.toNat ≤ m.block.topRate.toNat then .success else .failure) ∧
      n = { m with block := m.block.note (.setRate hertz) }

theorem toNat_min_ceiling (kilohertz ceiling : UInt16) :
    (min kilohertz ceiling).toNat = min kilohertz.toNat ceiling.toNat := by
  change (if kilohertz ≤ ceiling then kilohertz else ceiling).toNat = _
  have order : kilohertz ≤ ceiling ↔ kilohertz.toNat ≤ ceiling.toNat := UInt16.le_iff_toNat_le
  by_cases within : kilohertz ≤ ceiling
  · rw [if_pos within, Nat.min_eq_left (order.mp within)]
  · rw [if_neg within, Nat.min_eq_right (Nat.le_of_not_le (mt order.mpr within))]

theorem min_ceiling_idem (kilohertz ceiling : UInt16) : min (min kilohertz ceiling) ceiling = min kilohertz ceiling := by
  rw [← UInt16.toNat_inj]
  simp only [toNat_min_ceiling]
  omega

theorem Block.setRate_eq_zero_iff (b : Block) (hertz : UInt32) :
    (b.setRate hertz).2 = 0 ↔ ¬ (0 < hertz.toNat ∧ hertz.toNat ≤ b.topRate.toNat) := by
  have none_asked : hertz = 0 ↔ hertz.toNat = 0 := by rw [← UInt32.toNat_inj, UInt32.toNat_zero]
  have above : b.topRate < hertz ↔ b.topRate.toNat < hertz.toNat := UInt32.lt_iff_toNat_lt
  rw [setRate]
  split
  · rename_i unreached
    rw [none_asked, above] at unreached
    simp only [true_iff]
    omega
  · rename_i reached
    rw [none_asked, above] at reached
    rw [none_asked]
    omega

namespace Mediator

variable {m : Mediator} {p : Phase}

theorem applyRate_rated (h : m.In p) (kilohertz : UInt16) :
    m.Rated kilohertz (m.applyRate kilohertz).2 (m.applyRate kilohertz).1 := by
  constructor
  case down =>
    intro down
    rw [applyRate_of_down down]
    exact ⟨rfl, rfl⟩
  case busy =>
    intro busy
    rw [applyRate_of_busy (initialized_of_busy h (h.bus.symm.trans busy)) busy]
    exact ⟨rfl, rfl⟩
  case free =>
    intro up free
    rw [applyRate_of_free up free]
    refine ⟨Config.hertz (min kilohertz m.config.ceiling), ?_, ?_, rfl⟩
    · rw [Config.toNat_hertz, toNat_min_ceiling]
    · simp only [Block.setRate_eq_zero_iff, ite_not]

theorem setRate_min_ceiling (m : Mediator) (peer : Peer) (kilohertz : UInt16) :
    m.setRate peer (min kilohertz m.config.ceiling) = m.setRate peer kilohertz := by
  simp only [setRate, applyRate, min_ceiling_idem]

end Mediator

def Step.clamped (ceiling : UInt16) : Step → Step
  | .setRate peer kilohertz => .setRate peer (min kilohertz ceiling)
  | step => step

theorem faithful_clamped (config : Config) : Faithful config (Step.clamped config.ceiling) := by
  rintro c rfl step
  cases step with
  | setRate peer kilohertz => simp only [Step.clamped, Client.perform, Mediator.setRate_min_ceiling]
  | _ => rfl

/-- Wherever code with hardware asks for a rate, the request goes as the ceiling, the block's limit and the bus would
have it. The callback, if there is a handler, tells what the caller is told, hands over no buffer, and finds the
mediator as the request left it. With the ceiling put for what is above it, the request leads to the very same session.
The same holds of all requests together, those to come and those that were made. -/
theorem rate_request_clamped {config : Config} {past : List Deed} {s : Session} (told : Chronicle config past s)
    {peer : Peer} (hardware : peer.pins.isSome = true) {kilohertz : UInt16} {rest : List Step}
    (steps : s.steps = .setRate peer kilohertz :: rest) :
    (∃ status t moment, s.advance = some (t, some moment) ∧
      moment.reply = .status status ∧
      moment.completion = peer.handler.map (⟨·, status.toEvent, none⟩) ∧
      t.client.mediator = moment.after ∧
      s.client.mediator.config = config ∧
      s.client.mediator.Rated kilohertz status moment.after ∧
      ({ s with steps := .setRate peer (min kilohertz config.ceiling) :: rest } : Session).advance =
        some (t, some { moment with step := .setRate peer (min kilohertz config.ceiling) })) ∧
    (∀ s' : Session, s'.reworded (Step.clamped config.ceiling) = s.reworded (Step.clamped config.ceiling) →
      s'.moments.map (Moment.reworded (Step.clamped config.ceiling)) =
        s.moments.map (Moment.reworded (Step.clamped config.ceiling))) ∧
    ∀ past', past'.map (Deed.reworded (Step.clamped config.ceiling)) =
        past.map (Deed.reworded (Step.clamped config.ceiling)) → Chronicle config past' s := by
  have faithful := faithful_clamped config
  have here := told.run.config
  refine ⟨?_, fun s' same => Session.moments_of_same faithful here same,
    fun past' same => told.exchange faithful same⟩
  obtain ⟨p, turns⟩ := told.run.turns
  have inside := turns.last
  obtain ⟨client, s_steps, outer, reactions⟩ := s
  obtain rfl : s_steps = .setRate peer kilohertz :: rest := steps
  obtain ⟨pins, found⟩ := Option.isSome_iff_exists.mp hardware
  have made : client.mediator.setRate peer kilohertz =
      ⟨(client.mediator.applyRate kilohertz).1, (client.mediator.applyRate kilohertz).2,
        peer.handler.map (⟨·, (client.mediator.applyRate kilohertz).2.toEvent, none⟩)⟩ := by
    rw [Mediator.setRate, found]
  have effect : client.perform (.setRate peer kilohertz) = client.ofOutcome _ := congrArg client.ofOutcome made
  have clamped := faithful client here (.setRate peer kilohertz)
  refine ⟨(client.mediator.applyRate kilohertz).2, _, _, Session.advance_cons .., ?_, ?_, ?_, here, ?_, ?_⟩
  · rw [Client.moment, effect]
    rfl
  · rw [Client.moment, effect]
    rfl
  · exact Session.mediator_deliver ..
  · rw [Client.moment, effect]
    exact Mediator.applyRate_rated inside kilohertz
  · rw [Session.advance_cons, Client.moment, Client.moment]
    rw [Step.clamped] at clamped
    rw [clamped]

/-- The most that can be asked for, from a block that reaches just what the ceiling allows, and once more while an
outcome waits for its dispatch. -/
def ratesAtLimit : Scenario where
  config := { dispatch := .deferred }
  handlers := []
  steps :=
    [.start boardPeer, .inject (.topRate 400000), .setRate boardPeer 65535,
      .transfer .write boardPeer (.fresh [1, 2]) 2, .raise .writeComplete, .setRate boardPeer 1]

theorem rates_at_limit_clamped :
    ∃ (before past : List Deed) (s u t : Session) (moment late : Moment),
      Chronicle ratesAtLimit.config before s ∧ s.advance = some (t, some moment) ∧ moment.reply = .status .success ∧
      moment.completion = some ⟨0, .success, none⟩ ∧ moment.after.block.heard.getLast? = some (.setRate 400000) ∧
      ({ s with steps := .setRate boardPeer 400 :: s.steps.tail } : Session).advance =
        some (t, some { moment with step := .setRate boardPeer 400 }) ∧
      Chronicle ratesAtLimit.config past u ∧ u.client.mediator.pending.isSome = true ∧
      (∃ v, u.advance = some (v, some late)) ∧ late.reply = .status .busy ∧ late.completion = some ⟨0, .busy, none⟩ ∧
      late.after.counters = { issued := 1, completed := 1, busyRejections := 1 } ∧
      Chronicle ratesAtLimit.config (past.map (Deed.reworded (Step.clamped 400))) u := by
  have ready := ((Chronicle.fresh ratesAtLimit.steps ratesAtLimit.handlers :
    Chronicle ratesAtLimit.config _ _).advance rfl).advance rfl
  have waiting := (((ready.advance rfl).advance rfl).advance rfl).advance rfl
  obtain ⟨⟨status, t, moment, next, reply, completion, -, -, rated, same⟩, -, -⟩ :=
    rate_request_clamped ready rfl rfl
  obtain ⟨hertz, asked, rfl, after⟩ := rated.free rfl rfl
  obtain ⟨⟨status, v, late, onward, reply', completion', -, -, rated', -⟩, -, exchange⟩ :=
    rate_request_clamped waiting rfl rfl
  obtain ⟨rfl, after'⟩ := rated'.busy rfl
  obtain rfl : hertz = 400000 := UInt32.toNat_inj.mp asked
  refine ⟨_, _, _, _, t, moment, late, ready, next, reply, completion, ?_, same, waiting, rfl, ⟨v, onward⟩, reply',
    completion', ?_, exchange _ rfl⟩
  · rw [after]
    rfl
  · rw [after']
    rfl

end PeripheralLayer.Bus
