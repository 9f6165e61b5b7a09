import Mathlib.Data.Nat.Bitwise
import PeripheralLayer.Proofs.Bus.Deal

/-!
What the counters count. Each of the six is determined, up to its wrap, by what happened in the run, and no
deed does more to it than leave it alone or add one. A deal balances these accounts on its own; a run adds
up its deals.
-/
namespace PeripheralLayer

namespace EventWord

/-! A word has a source that the mediator listens to just if it would end a transfer. -/

theorem inter_bit (w : EventWord) {place : Nat} (inside : place < 32) :
    w.inter ⟨UInt32.ofNat (2 ^ place)⟩ = ⟨UInt32.ofNat ((w.bits.toNat.testBit place).toNat * 2 ^ place)⟩ := by
  have fits : 2 ^ place < 2 ^ 32 := Nat.pow_lt_pow_right (by decide) inside
  have bit : (w.bits &&& UInt32.ofNat (2 ^ place)).toNat = (w.bits.toNat.testBit place).toNat * 2 ^ place := by
    rw [UInt32.toNat_and, UInt32.toNat_ofNat_of_lt' fits]
    exact Nat.and_two_pow _ place
  rw [← bit, UInt32.ofNat_toNat, inter]

theorem isError_eq_intersects (w : EventWord) : w.isError = w.intersects transferError := by
  have source : transferError = ⟨UInt32.ofNat (2 ^ 20)⟩ := by decide
  rw [isError, contains, intersects, source, inter_bit w (by decide)]
  cases w.bits.toNat.testBit 20 <;> decide

theorem isEmpty_iff (w : EventWord) : w.isEmpty = true ↔ w.bits = 0 := by
  simp only [isEmpty, decide_eq_true_eq]

theorem intersects_union (w a b : EventWord) :
    w.intersects (a.union b) = (w.intersects a || w.intersects b) := by
  have split : w.bits &&& (a.bits ||| b.bits) = w.bits &&& a.bits ||| w.bits &&& b.bits := by
    simp only [← UInt32.toNat_inj, UInt32.toNat_and, UInt32.toNat_or, Nat.and_or_distrib_left]
  have empty : (w.inter (a.union b)).isEmpty = ((w.inter a).isEmpty && (w.inter b).isEmpty) := by
    apply Bool.eq_iff_iff.mpr
    simp only [Bool.and_eq_true, isEmpty_iff, inter, union, split, UInt32.or_eq_zero_iff]
  rw [intersects, empty, Bool.not_and, intersects, intersects]

theorem intersects_mediated (w : EventWord) : w.intersects mediated = w.verdict.isSome := by
  have sources : w.intersects mediated = (w.isComplete || w.isError) := by
    simp only [mediated, isError_eq_intersects, isComplete, intersects_union, Bool.or_assoc]
  rw [sources]
  unfold verdict
  cases w.isError <;> cases w.isComplete <;> rfl

end EventWord

namespace Bus

def Completion.succeeded (outcome : Completion) : Bool := outcome.event = .success

namespace Entry

def rewards (entry : Entry) (told : Option Completion) : Bool := told.any Completion.succeeded && !entry.rates

def signals : Entry → Bool
  | interrupt events => events.intersects .mediated
  | _ => false

theorem signals_eq (entry : Entry) : entry.signals = entry.verdict.isSome := by
  cases entry with
  | interrupt events => exact events.intersects_mediated
  | start | stop | transfer | setRate | dispatch => rfl

theorem quiet_of_asks {entry : Entry} (asks : entry.asks = true) : entry.signals = false := by
  cases entry with
  | transfer | setRate => rfl
  | start | stop | interrupt | dispatch => cases asks

theorem rewards_answer (entry : Entry) {event : Event} (other : event ≠ .success) :
    entry.rewards (entry.answer event) = false := by
  cases entry with
  | transfer peer direction buffer length | setRate peer kilohertz =>
    cases listener : peer.listener <;> simp [rewards, answer, Completion.succeeded, listener, other]
  | start | stop | interrupt | dispatch => rfl

end Entry

namespace Deed

def mediatorCalls (past : List Deed) : List Call := (past.filter fun d => d.entry.isSome).flatMap calls

def callCount (kind : CallKind) (past : List Deed) : Nat :=
  (mediatorCalls past).countP fun call => call.kind = kind

def rewards (d : Deed) : Bool := d.told.any Completion.succeeded && !d.entry.any Entry.rates

def crowds (d : Deed) : Bool := d.found.initialized && d.found.bus = .busy && d.entry.any Entry.asks

def strays (d : Deed) : Bool := d.found.current.isNone && d.entry.any Entry.signals

end Deed

structure Counters.Onward (c d : Counters) : Prop where
  issued : d.issued = c.issued ∨ d.issued = c.issued + 1
  completed : d.completed = c.completed ∨ d.completed = c.completed + 1
  failed : d.failed = c.failed ∨ d.failed = c.failed + 1
  refused : d.refused = c.refused ∨ d.refused = c.refused + 1
  busyRejections : d.busyRejections = c.busyRejections ∨ d.busyRejections = c.busyRejections + 1
  spurious : d.spurious = c.spurious ∨ d.spurious = c.spurious + 1

theorem Counters.onward_refl (c : Counters) : c.Onward c :=
  ⟨Or.inl rfl, Or.inl rfl, Or.inl rfl, Or.inl rfl, Or.inl rfl, Or.inl rfl⟩

theorem Counters.onward_settle (c : Counters) (event : Event) : c.Onward (c.settle event) := by
  cases event with
  | error => exact { c.onward_refl with failed := Or.inr rfl }
  | success | busy => exact { c.onward_refl with completed := Or.inr rfl }

theorem Counters.failed_settle (c : Counters) (event : Event) :
    (c.settle event).failed = c.failed + UInt32.ofNat (if event = .error then 1 else 0) := by
  cases event <;> simp [settle]

theorem Counters.completed_settle (c : Counters) (event : Event) :
    (c.settle event).completed = c.completed + UInt32.ofNat (if event = .error then 0 else 1) := by
  cases event <;> simp [settle]

theorem Counters.settle_others (c : Counters) (event : Event) :
    (c.settle event).issued = c.issued ∧ (c.settle event).refused = c.refused ∧
      (c.settle event).busyRejections = c.busyRejections ∧ (c.settle event).spurious = c.spurious := by
  cases event <;> exact ⟨rfl, rfl, rfl, rfl⟩

def Phase.flying (p : Phase) : Nat := if p.current.isSome then 1 else 0

def Phase.owedSuccess (p : Phase) : Nat := if p.pending.any Completion.succeeded then 1 else 0

structure Balance (c d : Counters) (p : Phase) (entry : Entry) (calls : List Call) (told : Option Completion)
    (q : Phase) : Prop where
  ends : d.issued + (c.completed + c.failed + UInt32.ofNat p.flying) =
    c.issued + (d.completed + d.failed + UInt32.ofNat q.flying)
  transfers : d.issued + d.refused =
    c.issued + c.refused + UInt32.ofNat (calls.countP fun call => call.kind = .transfer)
  aborts : d.failed = c.failed + UInt32.ofNat (calls.countP fun call => call.kind = .abort)
  successes : d.completed + UInt32.ofNat p.owedSuccess =
    c.completed + UInt32.ofNat ((if entry.rewards told then 1 else 0) + q.owedSuccess)
  busy : d.busyRejections = c.busyRejections + UInt32.ofNat (if p.bus = .busy && entry.asks then 1 else 0)
  spurious : d.spurious = c.spurious + UInt32.ofNat (if p.current.isNone && entry.signals then 1 else 0)
  onward : c.Onward d

section Balance

variable {m n : Mediator} {p q : Phase} {entry : Entry} {calls : List Call} {told : Option Completion}

theorem Balance.of_same {c : Counters} (flying : p.flying = q.flying)
    (transfers : (calls.countP fun call => call.kind = .transfer) = 0)
    (aborts : (calls.countP fun call => call.kind = .abort) = 0)
    (successes : p.owedSuccess = (if entry.rewards told then 1 else 0) + q.owedSuccess)
    (busy : (p.bus = .busy && entry.asks) = false) (spurious : (p.current.isNone && entry.signals) = false) :
    Balance c c p entry calls told q := by
  constructor
  · rw [flying]
  · simp [transfers]
  · simp [aborts]
  · rw [successes]
  · rw [busy]
    simp
  · rw [spurious]
    simp
  · exact c.onward_refl

theorem Balance.of_ending {c : Counters} {event : Event} (flying : p.flying = 1) (landed : q.flying = 0)
    (transfers : (calls.countP fun call => call.kind = .transfer) = 0)
    (aborts : (calls.countP fun call => call.kind = .abort) = if event = .error then 1 else 0)
    (owed : p.owedSuccess = 0)
    (successes : (if entry.rewards told then 1 else 0) + q.owedSuccess = if event = .error then 0 else 1)
    (busy : (p.bus = .busy && entry.asks) = false) (spurious : (p.current.isNone && entry.signals) = false) :
    Balance c (c.settle event) p entry calls told q := by
  obtain ⟨issued, refused, rejections, stray⟩ := c.settle_others event
  constructor
  · rw [flying, landed, issued, c.completed_settle, c.failed_settle]
    cases event <;> simp <;> grind
  · rw [transfers, issued, refused]
    simp
  · rw [aborts, c.failed_settle]
  · rw [owed, successes, c.completed_settle]
    simp
  · rw [busy, rejections]
    simp
  · rw [spurious, stray]
    simp
  · exact c.onward_settle event

theorem Deal.balance (deal : Deal m n p entry calls told q) :
    Balance m.counters n.counters p entry calls told q := by
  cases deal with
  | ignored p entry asks verdict same =>
    rw [same]
    exact .of_same rfl rfl rfl (by simp [Entry.rewards]) (by simp [asks]) (by simp [Entry.signals_eq, verdict])
  | declined p entry asks free same =>
    rw [same]
    have unrewarded := entry.rewards_answer (show Event.error ≠ .success by decide)
    exact .of_same rfl rfl rfl (by simp [unrewarded]) (by simp [free]) (by simp [Entry.quiet_of_asks asks])
  | rated peer kilohertz hertz event within grip counters =>
    rw [counters]
    exact .of_same rfl rfl rfl (by simp [Entry.rewards, Entry.rates]) (by simp [Phase.bus]) (by simp [Entry.signals])
  | unacquired peer pins grip counters | unconfigured peer pins grip counters | raised peer pins grip counters =>
    rw [counters]
    exact .of_same rfl rfl rfl rfl (by simp [Phase.bus]) (by simp [Entry.signals])
  | closed peer grip counters =>
    rw [counters]
    exact .of_same rfl rfl rfl rfl (by simp [Phase.bus]) (by simp [Entry.signals])
  | withdrawn peer outcome grip counters =>
    rw [counters]
    have rewarded : (Entry.stop peer).rewards (some outcome) = outcome.succeeded := by simp [Entry.rewards, Entry.rates]
    exact .of_same rfl rfl rfl (by rw [rewarded]; rfl) (by simp [Entry.asks]) (by simp [Entry.signals])
  | dispatched outcome grip counters =>
    rw [counters]
    have rewarded : Entry.dispatch.rewards (some outcome) = outcome.succeeded := by simp [Entry.rewards, Entry.rates]
    exact .of_same rfl rfl rfl (by rw [rewarded]; rfl) (by simp [Entry.asks]) (by simp [Entry.signals])
  | turnedAway p entry asks busy grip counters =>
    have unrewarded := entry.rewards_answer (show Event.busy ≠ .success by decide)
    rw [counters]
    constructor
    case onward => exact { m.counters.onward_refl with busyRejections := Or.inr rfl }
    all_goals simp [unrewarded, busy, asks, Entry.quiet_of_asks asks]
  | refused peer handler direction buffer length listener grip counters =>
    rw [counters]
    constructor
    case onward => exact { m.counters.onward_refl with refused := Or.inr rfl }
    all_goals simp [Phase.bus, Entry.rewards, Completion.succeeded, Entry.signals, Call.kind, UInt32.add_assoc]
  | accepted peer handler direction buffer length listener grip counters =>
    rw [counters]
    constructor
    case onward => exact { m.counters.onward_refl with issued := Or.inr rfl }
    all_goals simp [Phase.bus, Entry.rewards, Entry.signals, Call.kind, Phase.flying, Phase.current,
      Phase.owedSuccess, Phase.pending]
    -- what is left only reorders sums of words
    all_goals grind
  | aborted peer transaction grip counters =>
    rw [counters]
    exact .of_ending rfl rfl rfl rfl rfl rfl (by simp [Entry.asks]) (by simp [Entry.signals])
  | spurious p events event verdict nothing grip counters =>
    rw [counters]
    constructor
    case onward => exact { m.counters.onward_refl with spurious := Or.inr rfl }
    all_goals simp [Entry.rewards, Entry.asks, nothing, Entry.signals_eq, Entry.verdict, verdict]
  | resolved transaction events event verdict grip counters
  | recorded transaction events event verdict grip counters =>
    rw [counters]
    rcases EventWord.verdict_cases verdict with ⟨rfl, -⟩ | ⟨rfl, -⟩
    · exact .of_ending rfl rfl rfl rfl rfl rfl (by simp [Entry.asks]) (by simp [Phase.current])
    · exact .of_ending rfl rfl rfl rfl rfl rfl (by simp [Entry.asks]) (by simp [Phase.current])

end Balance

/-- The counters of a run that has come to `m` after these deeds. All sums wrap. -/
structure Accounts (past : List Deed) (m : Mediator) : Prop where
  ends : m.counters.issued =
    m.counters.completed + m.counters.failed + UInt32.ofNat (if m.current.isSome then 1 else 0)
  transfers : m.counters.issued + m.counters.refused = UInt32.ofNat (Deed.callCount .transfer past)
  aborts : m.counters.failed = UInt32.ofNat (Deed.callCount .abort past)
  successes : m.counters.completed = UInt32.ofNat (past.countP Deed.rewards +
    if m.pending.any Completion.succeeded then 1 else 0)
  busy : m.counters.busyRejections = UInt32.ofNat (past.countP Deed.crowds)
  spurious : m.counters.spurious = UInt32.ofNat (past.countP Deed.strays)
  onward : ∀ d ∈ past, d.found.counters.Onward d.left.counters

section Accounts

variable {past : List Deed} {d : Deed} {entry : Entry} {p q : Phase}

theorem Deed.callCount_entered (enters : d.entry = some entry) (kind : CallKind) (past : List Deed) :
    callCount kind (past ++ [d]) = callCount kind past + d.calls.countP fun call => call.kind = kind := by
  simp [callCount, mediatorCalls, enters]

theorem Deed.callCount_outside (outside : d.entry = none) (kind : CallKind) (past : List Deed) :
    callCount kind (past ++ [d]) = callCount kind past := by
  simp [callCount, mediatorCalls, outside]

theorem Deed.crowds_eq (inside : d.found.In p) (enters : d.entry = some entry) :
    d.crowds = (p.bus = .busy && entry.asks) := by
  rw [crowds, enters, inside.initialized, inside.bus]
  cases p <;> simp [Phase.initialized, Phase.bus]

theorem Accounts.entered (inside : d.found.In p) (reached : d.left.In q) (enters : d.entry = some entry)
    (balance : Balance d.found.counters d.left.counters p entry d.calls d.told q)
    (accounts : Accounts past d.found) : Accounts (past ++ [d]) d.left := by
  obtain ⟨ends, transfers, aborts, successes, busy, spurious, onward⟩ := accounts
  constructor
  -- the deal and the run before it hold the same words, so the sums are compared without subtracting
  · have flying := balance.ends
    rw [inside.current] at ends
    rw [reached.current]
    unfold Phase.flying at flying
    grind
  · rw [balance.transfers, transfers, Deed.callCount_entered enters, UInt32.ofNat_add]
  · rw [balance.aborts, aborts, Deed.callCount_entered enters, UInt32.ofNat_add]
  · have owed := balance.successes
    rw [inside.pending] at successes
    rw [reached.pending, List.countP_append, List.countP_singleton, Deed.rewards, enters]
    unfold Phase.owedSuccess Entry.rewards at owed
    simp only [UInt32.ofNat_add, Option.any_some] at owed successes ⊢
    grind
  · rw [balance.busy, busy, List.countP_append, List.countP_singleton, Deed.crowds_eq inside enters,
      UInt32.ofNat_add]
  · rw [balance.spurious, spurious, List.countP_append, List.countP_singleton, Deed.strays, enters,
      inside.current, UInt32.ofNat_add]
    rfl
  · exact List.forall_mem_append.mpr ⟨onward, List.forall_mem_singleton.mpr balance.onward⟩

theorem Accounts.outside (outside : d.entry = none) (accounts : Accounts past d.found) :
    Accounts (past ++ [d]) d.left := by
  obtain ⟨told, block, left⟩ := Deed.outside outside
  obtain ⟨ends, transfers, aborts, successes, busy, spurious, onward⟩ := accounts
  have last : d.found.counters.Onward d.left.counters := left ▸ Counters.onward_refl _
  have all_onward := List.forall_mem_append.mpr ⟨onward, List.forall_mem_singleton.mpr last⟩
  rw [left]
  constructor
  · exact ends
  · rw [Deed.callCount_outside outside, transfers]
  · rw [Deed.callCount_outside outside, aborts]
  · simp [List.countP_append, Deed.rewards, told, successes]
  · simp [List.countP_append, Deed.crowds, outside, busy]
  · simp [List.countP_append, Deed.strays, outside, spurious]
  · exact all_onward

end Accounts

/-- At every point of every run, direct calls into the block included, the counters stand for what happened
in it, and no deed has set one back. -/
theorem counters_account_for_run {config : Config} {past : List Deed} {s : Session}
    (told : Chronicle config past s) : Accounts past s.client.mediator := by
  obtain ⟨p, -, accounts⟩ : ∃ p, s.client.mediator.In p ∧ Accounts past s.client.mediator := by
    refine told.upholds (fun _ => True) (fun past _ m => Accounts past m) ?_ ?_ ?_ (fun _ _ => trivial)
    · exact ⟨rfl, rfl, rfl, rfl, rfl, rfl, by simp⟩
    · intro past d p entry q config inside reached enters noted deal accounts
      exact accounts.entered inside reached enters deal.balance
    · intro past d p permitted outside accounts
      exact accounts.outside outside
  exact accounts

/-- Each counter moves: a write is refused as if one were still pending, the next is aborted by taking the
bus down, and the last succeeds, while two requests and an interrupt come at the wrong time. -/
def everyCounter : Scenario where
  config := { dispatch := .deferred }
  handlers := []
  steps :=
    [.start boardPeer, .inject (.fault .transfer BusFault.previousPending),
      .transfer .write boardPeer (.fresh [1]) 1, .transfer .write boardPeer (.fresh [2]) 1,
      .transfer .read boardPeer (.fresh [3]) 1, .stop boardPeer, .start boardPeer,
      .transfer .read boardPeer (.fresh [4]) 1, .interrupt .readComplete, .interrupt .readComplete,
      .setRate boardPeer 100]

theorem every_counter_accounted :
    ∃ s, Chronicle everyCounter.config everyCounter.deeds s ∧
      s.client.mediator.counters = ⟨2, 1, 1, 1, 2, 1⟩ ∧ s.client.mediator.pending.isSome ∧
      Accounts everyCounter.deeds s.client.mediator := by
  obtain ⟨s, told⟩ := everyCounter.chronicle
  have reached := told.run.mediator_eq
  refine ⟨s, told, ?_, ?_, counters_account_for_run told⟩
  · rw [reached]
    decide
  · rw [reached]
    decide

end Bus

end PeripheralLayer
