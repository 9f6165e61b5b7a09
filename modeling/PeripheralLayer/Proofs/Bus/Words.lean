import PeripheralLayer.Proofs.Bus.Accounts
import PeripheralLayer.Proofs.Bus.Recovery
import PeripheralLayer.Proofs.Bus.Rewording

/-!
What of an interrupt's word counts. Three of its bits do, and among them an error outdoes the end of a write or of a
read, so all words fall into three kinds. Words of one kind do the same, in any state and in whatever code they come,
and whoever goes on after them cannot tell which of them it was. However many sources a word reports, it ends the
one transfer in flight or nothing.
-/
namespace PeripheralLayer

inductive EventKind where
  | error
  | completion
  | ignorable
  deriving DecidableEq, Repr

namespace EventKind

def event : EventKind → Option Event
  | error => some .error
  | completion => some .success
  | ignorable => none

def word : EventKind → EventWord
  | error => .transferError
  | completion => .writeComplete
  | ignorable => ⟨0⟩

end EventKind

namespace EventWord

/-- The block reports the end of a write with bit 18, the end of a read with bit 19, and an error with bit 20. -/
def kind (w : EventWord) : EventKind :=
  if w.bits.toNat.testBit 20 then .error
  else if w.bits.toNat.testBit 18 || w.bits.toNat.testBit 19 then .completion
  else .ignorable

def bare (w : EventWord) : EventWord := w.kind.word

theorem intersects_bit (w : EventWord) {place : Nat} (inside : place < 32) :
    w.intersects ⟨UInt32.ofNat (2 ^ place)⟩ = w.bits.toNat.testBit place := by
  have fits : 2 ^ place < 2 ^ 32 := Nat.pow_lt_pow_right (by decide) inside
  have some_bit : UInt32.ofNat (2 ^ place) ≠ 0 := by
    rw [ne_eq, ← UInt32.toNat_inj, UInt32.toNat_ofNat_of_lt' fits]
    exact Nat.two_pow_pos place |>.ne'
  rw [intersects, inter_bit w inside]
  cases w.bits.toNat.testBit place with
  | false => simp [isEmpty]
  | true => simpa [isEmpty] using some_bit

theorem isError_eq_testBit (w : EventWord) : w.isError = w.bits.toNat.testBit 20 := by
  have source : transferError = ⟨UInt32.ofNat (2 ^ 20)⟩ := by decide
  rw [isError_eq_intersects, source, intersects_bit w (by decide)]

theorem isComplete_eq_testBit (w : EventWord) :
    w.isComplete = (w.bits.toNat.testBit 18 || w.bits.toNat.testBit 19) := by
  have write : writeComplete = ⟨UInt32.ofNat (2 ^ 18)⟩ := by decide
  have read : readComplete = ⟨UInt32.ofNat (2 ^ 19)⟩ := by decide
  rw [isComplete, intersects_union, write, read, intersects_bit w (by decide), intersects_bit w (by decide)]

theorem verdict_eq (w : EventWord) : w.verdict = w.kind.event := by
  rw [verdict, isError_eq_testBit, isComplete_eq_testBit, kind]
  split
  · rfl
  · split <;> rfl

theorem verdict_bare (w : EventWord) : w.bare.verdict = w.verdict := by
  rw [verdict_eq, verdict_eq, bare]
  cases w.kind <;> rfl

theorem bare_of_kind {v w : EventWord} (same : v.kind = w.kind) : v.bare = w.bare := congrArg EventKind.word same

end EventWord

namespace Bus

/-! Words of one kind. -/

theorem Mediator.interrupt_of_verdict (m : Mediator) {v w : EventWord} (same : v.verdict = w.verdict) :
    m.interrupt v = m.interrupt w := by
  cases verdict : w.verdict with
  | none => rw [interrupt_of_ignored verdict, interrupt_of_ignored (same.trans verdict)]
  | some event =>
    have error : v.isError = w.isError := by
      rcases EventWord.verdict_cases verdict with ⟨rfl, error⟩ | ⟨rfl, error⟩ <;>
        rcases EventWord.verdict_cases (same.trans verdict) with ⟨other, error'⟩ | ⟨other, error'⟩ <;>
        simp_all
    have resolved (transaction : Transaction) : m.resolve transaction v = m.resolve transaction w := by
      rw [resolve, error, resolve]
    -- past the first test, only whether the word is an error is looked at
    rw [interrupt, if_neg (EventWord.handled_of_verdict (same.trans verdict)), interrupt,
      if_neg (EventWord.handled_of_verdict verdict)]
    simp only [resolved]

def Step.bare : Step → Step
  | .interrupt w => .interrupt w.bare
  | .raise w => .raise w.bare
  | .raiseLatched w => .raiseLatched w.bare
  | step => step

theorem Client.perform_bare (c : Client) (step : Step) : c.perform step.bare = c.perform step := by
  have same (w : EventWord) : c.interrupt w.bare = c.interrupt w := by
    rw [interrupt, c.mediator.interrupt_of_verdict w.verdict_bare, interrupt]
  cases step with
  | interrupt w | raise w | raiseLatched w => simp only [Step.bare, perform, same]
  | _ => rfl

theorem faithful_bare (config : Config) : Faithful config Step.bare := fun c _ step => c.perform_bare step

def Frame.bare (f : Frame) : Frame := { f with steps := f.steps.map Step.bare }

def Moment.bare (m : Moment) : Moment := { m with step := m.step.bare }

def Deed.bare (d : Deed) : Deed := { d with step := d.step.bare }

def bareScripts (scripts : List (List Reaction)) : List (List Reaction) :=
  scripts.map fun script => script.map fun reaction => reaction.map Step.bare

def Session.bare (s : Session) : Session :=
  { s with steps := s.steps.map Step.bare, outer := s.outer.map Frame.bare, reactions := bareScripts s.reactions }

/-! What one interrupt does. -/

theorem Deal.calls_of_interrupt {m n : Mediator} {p q : Phase} {w : EventWord} {calls : List Call}
    {told : Option Completion} (deal : Deal m n p (.interrupt w) calls told q) :
    calls = if w.kind = .error ∧ p.current.isSome then [.abort] else [] := by
  have ending {event : Event} (verdict : w.verdict = some event) :
      endingCalls event = if w.kind = .error then [.abort] else [] := by
    rw [w.verdict_eq] at verdict
    cases kind : w.kind <;> rw [kind] at verdict <;> cases verdict <;> rfl
  cases deal with
  | ignored p entry asks verdict same =>
    have other : w.kind ≠ .error := by
      intro kind
      have none_due : w.verdict = none := verdict
      rw [w.verdict_eq, kind] at none_due
      cases none_due
    simp [other]
  | spurious p events event verdict nothing => simp [nothing]
  | resolved transaction events event verdict | recorded transaction events event verdict =>
    simp [ending verdict, Phase.current]
  | declined p entry asks | turnedAway p entry asks => cases asks

theorem Mediator.counters_interrupt {m : Mediator} {transaction : Transaction}
    (flying : m.current = some transaction) {w : EventWord} {event : Event} (verdict : w.verdict = some event) :
    (m.interrupt w).1.counters = m.counters.settle event := by
  obtain ⟨-, -, counters⟩ := m.resolve_deals transaction verdict
  rw [← counters, interrupt, if_neg (EventWord.handled_of_verdict verdict)]
  simp only [flying]
  split <;> rfl

/-- What an interrupt with this word does, by the kind of the word and by what is in flight. -/
structure Deed.Judged (d : Deed) (w : EventWord) : Prop where
  ignored : w.kind = .ignorable → (d.client.perform d.step).client = d.client ∧ d.told = none
  calls : d.calls = if w.kind = .error ∧ d.found.current.isSome then [.abort] else []
  stray : w.kind ≠ .ignorable → d.found.current = none →
    d.told = none ∧ d.left = { d.found with counters.spurious := d.found.counters.spurious + 1 }
  ended : ∀ event transaction, w.kind.event = some event → d.found.current = some transaction →
    d.left.current = none ∧ d.left.counters = d.found.counters.settle event ∧
      match d.found.config.dispatch with
      | .direct =>
        d.told = some ⟨transaction.handler, event, d.found.block.held⟩ ∧ d.left.pending = none ∧ d.left.bus = .free
      | .deferred =>
        d.told = none ∧ d.left.pending = some ⟨transaction.handler, event, d.found.block.held⟩ ∧ d.left.bus = .busy

theorem Deed.judged {d : Deed} {p : Phase} (inside : d.found.In p) {w : EventWord}
    (enters : d.entry = some (.interrupt w)) : d.Judged w := by
  have left : d.left = (d.found.interrupt w).1 := (left_of_entry enters).1
  have told : d.told = (d.found.interrupt w).2 := (left_of_entry enters).2
  have verdict := w.verdict_eq
  have current := inside.current
  constructor
  case ignored =>
    intro kind
    rw [kind] at verdict
    have nothing : d.found.interrupt w = (d.found, none) := Mediator.interrupt_of_ignored verdict
    have made : d.client.interrupt w = ⟨d.client, .nothing, none⟩ := by
      rw [Client.interrupt, show d.client.mediator.interrupt w = (d.client.mediator, none) from nothing]
    rw [perform_of_interrupt enters, made, told, nothing]
    exact ⟨rfl, rfl⟩
  case calls =>
    obtain ⟨q, -, -, deal⟩ := Deed.deal inside enters
    rw [deal.calls_of_interrupt, current]
  case stray =>
    intro kind nothing
    obtain ⟨event, due⟩ : ∃ event, w.verdict = some event := by
      rw [verdict]
      cases found : w.kind with
      | ignorable => exact absurd found kind
      | error | completion => exact ⟨_, rfl⟩
    rw [told, left, Mediator.interrupt_of_spurious due nothing]
    exact ⟨rfl, rfl⟩
  case ended =>
    intro event transaction kind flying
    have due : w.verdict = some event := verdict.trans kind
    have counters := Mediator.counters_interrupt flying due
    obtain rfl : p = .inFlight transaction := by cases p <;> simp_all [Phase.current]
    rw [told, left]
    cases mode : d.found.config.dispatch with
    | direct =>
      obtain ⟨idle, callback⟩ := Mediator.interrupt_direct_phase inside mode due
      exact ⟨idle.current, counters, callback, idle.pending, idle.bus⟩
    | deferred =>
      obtain ⟨waiting, silent⟩ := Mediator.interrupt_deferred_phase inside mode due
      exact ⟨waiting.current, counters, silent, waiting.pending, waiting.bus⟩

/-- Two words of one kind, in whatever way they come, take a session to one and the same session, so nothing after them
differs. Programs whose words are of the same kinds throughout do the same throughout, and a run in which words are
exchanged for others of their kinds is a run that finds the same clients and ends where it ended. -/
theorem interrupts_judged_by_kind {config : Config} {past : List Deed} {s : Session} (told : Chronicle config past s) :
    (∀ send ∈ [Step.interrupt, Step.raise, Step.raiseLatched], ∀ v w : EventWord, v.kind = w.kind → ∀ rest,
      ∃ t moment, ({ s with steps := send v :: rest } : Session).advance = some (t, some moment) ∧
        ({ s with steps := send w :: rest } : Session).advance = some (t, some { moment with step := send w })) ∧
    (∀ s' : Session, s'.bare = s.bare → s'.moments.map Moment.bare = s.moments.map Moment.bare) ∧
    (∀ past', past'.map Deed.bare = past.map Deed.bare → Chronicle config past' s) ∧
    (∀ d ∈ past, ∀ w, d.entry = some (.interrupt w) → d.Judged w) ∧
    ∀ w : EventWord, w.intersects .mediated = true ↔ w.kind ≠ .ignorable := by
  refine ⟨?_, fun s' same => Session.moments_of_same (faithful_bare _) rfl same,
    fun past' same => told.exchange (faithful_bare config) same, ?_, ?_⟩
  · intro send known v w kind rest
    have akin : (send v).bare = (send w).bare := by
      simp only [List.mem_cons, List.not_mem_nil, or_false] at known
      rcases known with rfl | rfl | rfl <;> simp only [Step.bare, EventWord.bare_of_kind kind]
    have effect := (faithful_bare _).perform_of_same (c := s.client) rfl akin
    refine ⟨_, _, Session.advance_cons s.client (send v) rest s.outer s.reactions, ?_⟩
    rw [Session.advance_cons, Client.moment, Client.moment, effect]
  · intro d mem w enters
    obtain ⟨before, later, cut⟩ := List.append_of_mem mem
    obtain ⟨p, inside⟩ := told.finds cut
    exact Deed.judged inside enters
  · intro w
    rw [w.intersects_mediated, w.verdict_eq]
    cases w.kind <;> simp [EventKind.event]

/-- A write ends with every source at once, its handler is interrupted without need and reads, and the read ends with
bits of no source. -/
def noisyWords : Scenario where
  config := {}
  handlers := [[[.interrupt ⟨0x80020001⟩, .transfer .read boardPeer .returned 1]]]
  steps :=
    [.start boardPeer, .transfer .write boardPeer (.fresh [1, 2]) 2, .raise ⟨0x001e0000⟩, .interrupt ⟨0xffe80000⟩]

def plainWords : Scenario where
  config := {}
  handlers := [[[.interrupt ⟨0⟩, .transfer .read boardPeer .returned 1]]]
  steps :=
    [.start boardPeer, .transfer .write boardPeer (.fresh [1, 2]) 2, .raise .transferError, .interrupt .writeComplete]

theorem noisy_words_judged :
    ∃ s, Chronicle noisyWords.config noisyWords.deeds s ∧ Chronicle noisyWords.config plainWords.deeds s ∧
      plainWords.moments.map Moment.bare = noisyWords.moments.map Moment.bare ∧
      (noisyWords.deeds.get ⟨2, by decide⟩).Judged ⟨0x001e0000⟩ ∧
      (noisyWords.deeds.get ⟨3, by decide⟩).Judged ⟨0x80020001⟩ ∧
      (noisyWords.deeds.get ⟨5, by decide⟩).Judged ⟨0xffe80000⟩ ∧
      EventWord.intersects ⟨0xffe80000⟩ .mediated = true := by
  obtain ⟨s, told⟩ := noisyWords.chronicle
  have fresh : Chronicle noisyWords.config [] noisyWords.session := .fresh noisyWords.steps noisyWords.handlers
  have akin : plainWords.session.bare = noisyWords.session.bare := by decide
  obtain ⟨-, moments, -⟩ := interrupts_judged_by_kind fresh
  obtain ⟨-, -, exchanged, judged, mediated⟩ := interrupts_judged_by_kind told
  refine ⟨s, told, exchanged _ (by decide), moments _ akin, ?_, ?_, ?_, (mediated _).mpr (by decide)⟩
  · exact judged _ (List.get_mem ..) _ (by decide)
  · exact judged _ (List.get_mem ..) _ (by decide)
  · exact judged _ (List.get_mem ..) _ (by decide)

end Bus

end PeripheralLayer
