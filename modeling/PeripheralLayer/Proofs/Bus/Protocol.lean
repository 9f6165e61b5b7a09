import Mathlib.Computability.Language
import PeripheralLayer.Proofs.Bus.Deal

/-!
The protocol of the block's calls. All that a mediator ever says to its block is a word of a regular
language: finished periods, and behind them, while the bus is up, a period that has not been closed. The
language is read by the phases of the mediator, and a transfer in flight is a word that ends in a transfer.
-/
namespace PeripheralLayer.Bus

open scoped Computability

namespace Protocol

def single (kind : CallKind) : Language Call := {word | ∃ call : Call, call.kind = kind ∧ word = [call]}

def enables (on : Bool) : Language Call := {word | ∃ events priority, word = [.enableEvents events priority on]}

def exchange : Language Call := single .transfer + single .transfer * single .abort + single .setRate

def traffic : Language Call := exchange∗

def opening : Language Call := single .acquire * single .configure * single .register * enables true

def closing : Language Call := enables false * single .release

/-- From taking the bus up to taking it down, or to where an attempt to take it up has failed. -/
def period : Language Call :=
  single .acquire + single .acquire * single .configure * single .release + opening * traffic * closing

def upTo : Phase → Language Call
  | .down => period∗
  | .idle | .waiting _ => period∗ * opening * traffic
  | .inFlight _ => period∗ * opening * traffic * single .transfer

theorem mem_single (call : Call) : [call] ∈ single call.kind := ⟨call, rfl, rfl⟩

variable {word later : List Call}

theorem append_period (done : word ∈ period∗) (more : later ∈ period) : word ++ later ∈ period∗ := by
  have longer : period∗ * period ≤ period∗ := kstar_mul_le_kstar
  exact longer (Language.append_mem_mul done more)

theorem append_opening (done : word ∈ period∗) (more : later ∈ opening) :
    word ++ later ∈ period∗ * opening * traffic := by
  have opened : word ++ later ∈ period∗ * opening := Language.append_mem_mul done more
  have whole := Language.append_mem_mul opened (Language.nil_mem_kstar exchange)
  rwa [List.append_nil] at whole

theorem append_exchange (opened : word ∈ period∗ * opening * traffic) (more : later ∈ exchange) :
    word ++ later ∈ period∗ * opening * traffic := by
  have longer : period∗ * opening * traffic * exchange ≤ period∗ * opening * traffic := by
    rw [mul_assoc (period∗ * opening)]
    exact mul_le_mul_right kstar_mul_le_kstar _
  exact longer (Language.append_mem_mul opened more)

theorem append_closing (opened : word ∈ period∗ * opening * traffic) (more : later ∈ closing) :
    word ++ later ∈ period∗ := by
  have closed : period∗ * opening * traffic * closing ≤ period∗ := by
    calc period∗ * opening * traffic * closing
        = period∗ * (opening * traffic * closing) := by simp only [mul_assoc]
      _ ≤ period∗ * period := mul_le_mul_right (fun _ mem => Or.inr mem) _
      _ ≤ period∗ := kstar_mul_le_kstar
  exact closed (Language.append_mem_mul opened more)

theorem exchange_of_transfer (sent : word ∈ single .transfer) : word ∈ exchange := Or.inl (Or.inl sent)

theorem append_ending (flying : word ∈ period∗ * opening * traffic * single .transfer)
    (ends : later = [] ∨ later ∈ single .abort) : word ++ later ∈ period∗ * opening * traffic := by
  obtain ⟨opened, before, sent, transfer, rfl⟩ := Language.mem_mul.mp flying
  rw [List.append_assoc]
  apply append_exchange before
  rcases ends with rfl | abort
  · rw [List.append_nil]
    exact exchange_of_transfer transfer
  · exact Or.inl (Or.inr (Language.append_mem_mul transfer abort))

theorem enables_mem (events : EventWord) (priority : UInt8) (on : Bool) :
    [.enableEvents events priority on] ∈ enables on := ⟨events, priority, rfl⟩

theorem acquired_mem (pins : BusPins) : [.acquire pins] ∈ single .acquire := mem_single (.acquire pins)

theorem configured_mem (pins : BusPins) (config : BlockConfig) :
    [.acquire pins, .configure config] ∈ single .acquire * single .configure :=
  Language.append_mem_mul (acquired_mem pins) (mem_single (.configure config))

theorem opening_mem (pins : BusPins) (config : BlockConfig) (events : EventWord) (priority : UInt8) :
    [.acquire pins, .configure config, .register, .enableEvents events priority true] ∈ opening := by
  have registered : [.acquire pins, .configure config, .register] ∈
      single .acquire * single .configure * single .register :=
    Language.append_mem_mul (configured_mem pins config) (mem_single .register)
  exact Language.append_mem_mul registered (enables_mem events priority true)

theorem closing_mem (events : EventWord) (priority : UInt8) :
    [.enableEvents events priority false, .release] ∈ closing :=
  Language.append_mem_mul (enables_mem events priority false) (mem_single .release)

theorem unacquired_mem (pins : BusPins) : [.acquire pins] ∈ period := Or.inl (Or.inl (acquired_mem pins))

theorem unconfigured_mem (pins : BusPins) (config : BlockConfig) :
    [.acquire pins, .configure config, .release] ∈ period := by
  have released : [.acquire pins, .configure config, .release] ∈
      single .acquire * single .configure * single .release :=
    Language.append_mem_mul (configured_mem pins config) (mem_single .release)
  exact Or.inl (Or.inr released)

theorem ending_mem (event : Event) : endingCalls event = [] ∨ endingCalls event ∈ single .abort := by
  cases event with
  | error => exact Or.inr (mem_single .abort)
  | success | busy => exact Or.inl rfl

end Protocol

section Protocol

open Protocol

variable {m n : Mediator} {p q : Phase} {entry : Entry} {calls : List Call} {told : Option Completion}

theorem Deal.keeps_protocol (deal : Deal m n p entry calls told q) {word : List Call} (h : word ∈ upTo p) :
    word ++ calls ∈ upTo q := by
  cases deal with
  | ignored | declined | turnedAway | spurious | dispatched => rwa [List.append_nil]
  | rated peer kilohertz hertz event within grip counters =>
    exact append_exchange h (Or.inr (mem_single (.setRate hertz)))
  | refused peer handler direction buffer length listener grip counters =>
    exact append_exchange h (exchange_of_transfer (mem_single (.transfer peer.address direction length)))
  | accepted peer handler direction buffer length listener grip counters =>
    exact Language.append_mem_mul h (mem_single (.transfer peer.address direction length))
  | unacquired peer pins grip counters => exact append_period h (unacquired_mem pins)
  | unconfigured peer pins grip counters => exact append_period h (unconfigured_mem pins _)
  | raised peer pins grip counters => exact append_opening h (opening_mem pins _ _ _)
  | closed peer grip counters | withdrawn peer outcome grip counters =>
    exact append_closing h (closing_mem _ _)
  | aborted peer transaction grip counters =>
    have landed := append_ending h (Or.inr (mem_single .abort))
    have closed := append_closing landed (closing_mem .mediated m.config.priority)
    rwa [List.append_assoc] at closed
  | resolved transaction events event verdict grip counters
  | recorded transaction events event verdict grip counters =>
    exact append_ending h (ending_mem event)

end Protocol

def Call.Proper (config : Config) : Call → Prop
  | .configure block =>
    block.role = .master ∧ block.address = 0 ∧ block.frequency.toNat = config.ceiling.toNat * 1000
  | .enableEvents events priority _ => events = .mediated ∧ priority = config.priority
  | .setRate hertz => hertz.toNat ≤ config.ceiling.toNat * 1000
  | _ => True

def Deed.Issues (d : Deed) (transaction : Transaction) : Prop :=
  ∃ peer direction buffer length, d.entry = some (.transfer peer direction buffer length) ∧
    peer.listener = some transaction.handler ∧ peer.address = transaction.address ∧ d.told = none ∧
    d.left.current = some transaction ∧ d.calls = [.transfer peer.address direction length]

def LastIssued (past : List Deed) (transaction : Transaction) : Prop :=
  ∃ before issue quiet, past = before ++ issue :: quiet ∧ issue.Issues transaction ∧ ∀ d ∈ quiet, d.calls = []

/-- If this deed aborts a transfer, then it does so once and before any other call, and the last call in the
deeds before it handed over that very transfer. -/
def Deed.AbortsIssued (past : List Deed) (d : Deed) : Prop :=
  .abort ∈ d.calls → ∃ transaction rest, d.found.current = some transaction ∧ LastIssued past transaction ∧
    d.calls = .abort :: rest ∧ .abort ∉ rest

section Calls

variable {m n : Mediator} {p q : Phase} {entry : Entry} {calls : List Call} {told : Option Completion}

theorem Deal.proper (deal : Deal m n p entry calls told q) : ∀ call ∈ calls, call.Proper m.config := by
  have frequency : m.config.frequency.toNat = m.config.ceiling.toNat * 1000 := Config.toNat_hertz _
  cases deal with
  | ignored | declined | turnedAway | spurious | dispatched => simp
  | refused | accepted | unacquired => simp [Call.Proper]
  | rated peer kilohertz hertz event within grip counters => simpa [Call.Proper] using within
  | unconfigured | raised => simp [Call.Proper, frequency]
  | closed | withdrawn | aborted => simp [Call.Proper]
  | resolved transaction events event | recorded transaction events event =>
    cases event <;> simp [endingCalls, Call.Proper]

theorem Deal.flying_cases (deal : Deal m n p entry calls told q) {transaction : Transaction}
    (flying : q.current = some transaction) :
    p.current = some transaction ∧ calls = [] ∨
    ∃ peer direction buffer length, entry = .transfer peer direction buffer length ∧
      peer.listener = some transaction.handler ∧ peer.address = transaction.address ∧ told = none ∧
      calls = [.transfer peer.address direction length] := by
  cases deal with
  | ignored | declined | turnedAway | spurious => exact Or.inl ⟨flying, rfl⟩
  | accepted peer handler direction buffer length listener grip counters =>
    cases flying
    exact Or.inr ⟨peer, direction, buffer, length, rfl, listener, rfl, rfl, rfl⟩
  | rated | refused | unacquired | unconfigured | raised | closed => cases flying
  | withdrawn | aborted | resolved | recorded | dispatched => cases flying

theorem Deal.abort_cases (deal : Deal m n p entry calls told q) (aborts : .abort ∈ calls) :
    ∃ transaction rest, p.current = some transaction ∧ calls = .abort :: rest ∧ .abort ∉ rest := by
  cases deal with
  | ignored | declined | turnedAway | spurious | dispatched => simp at aborts
  | rated | refused | accepted | unacquired | unconfigured | raised | closed | withdrawn => simp at aborts
  | aborted peer transaction grip counters => exact ⟨transaction, _, rfl, rfl, by simp⟩
  | resolved transaction events event verdict grip counters
  | recorded transaction events event verdict grip counters =>
    cases event with
    | error => exact ⟨transaction, [], rfl, rfl, by simp⟩
    | success | busy => simp [endingCalls] at aborts

end Calls

theorem Block.log_note {b : Block} (call : Call) (kept : b.log = b.heard.take logCapacity) :
    (b.note call).log = (b.note call).heard.take logCapacity := by
  simp only [note, kept, List.length_take, List.take_append]
  by_cases room : b.heard.length < logCapacity
  · have less : min logCapacity b.heard.length < logCapacity := by omega
    rw [if_pos less, List.take_of_length_le (l := [call]) (by simp; omega)]
  · have full : ¬ min logCapacity b.heard.length < logCapacity := by omega
    rw [if_neg full, Nat.sub_eq_zero_of_le (Nat.not_lt.mp room), List.take_zero, List.append_nil]

theorem Block.log_foldl_note {b : Block} (calls : List Call) (kept : b.log = b.heard.take logCapacity) :
    (calls.foldl note b).log = (calls.foldl note b).heard.take logCapacity := by
  induction calls generalizing b with
  | nil => exact kept
  | cons call calls ih => exact ih (log_note call kept)

theorem Block.Noted.log_eq {b after : Block} {calls : List Call} (noted : b.Noted calls after)
    (kept : b.log = b.heard.take logCapacity) : after.log = after.heard.take logCapacity := by
  rw [noted.log, noted.heard]
  exact log_foldl_note calls kept

section Aborts

variable {past : List Deed} {d : Deed} {transaction : Transaction}

theorem LastIssued.append_quiet (issued : LastIssued past transaction) (quiet : d.calls = []) :
    LastIssued (past ++ [d]) transaction := by
  obtain ⟨before, issue, later, rfl, issues, silent⟩ := issued
  exact ⟨before, issue, later ++ [d], by simp, issues,
    List.forall_mem_append.mpr ⟨silent, List.forall_mem_singleton.mpr quiet⟩⟩

theorem Deed.Issues.lastIssued (issues : d.Issues transaction) : LastIssued (past ++ [d]) transaction :=
  ⟨past, d, [], rfl, issues, by simp⟩

end Aborts

def AbortsFollow (past : List Deed) : Prop :=
  ∀ before d later, past = before ++ d :: later → d.AbortsIssued before

theorem AbortsFollow.append {past : List Deed} {d : Deed} (follow : AbortsFollow past)
    (last : d.AbortsIssued past) : AbortsFollow (past ++ [d]) := by
  intro before other later eq
  -- the deed in question is the new one, or the new one comes after it
  rcases later.eq_nil_or_concat with rfl | ⟨later, final, rfl⟩
  · obtain ⟨rfl, rfl⟩ := List.append_inj' eq rfl |>.imp_right List.singleton_inj.mp
    exact last
  · rw [List.concat_eq_append, ← List.cons_append, ← List.append_assoc] at eq
    obtain ⟨same, -⟩ := List.append_inj' eq rfl
    exact follow before other later same

structure Orderly (config : Config) (past : List Deed) (p : Phase) (m : Mediator) : Prop where
  word : m.block.heard ∈ Protocol.upTo p
  proper : ∀ call ∈ m.block.heard, call.Proper config
  heard : m.block.heard = past.flatMap Deed.calls
  log : m.block.log = m.block.heard.take logCapacity
  issued : ∀ transaction, p.current = some transaction → LastIssued past transaction
  aborts : AbortsFollow past

section Orderly

variable {config : Config} {past : List Deed} {d : Deed} {p q : Phase} {entry : Entry}

theorem Orderly.entered (same : d.found.config = config) (inside : d.found.In p) (reached : d.left.In q)
    (enters : d.entry = some entry) (noted : d.found.block.Noted d.calls d.left.block)
    (deal : Deal d.found d.left p entry d.calls d.told q) (orderly : Orderly config past p d.found) :
    Orderly config (past ++ [d]) q d.left := by
  have heard := noted.heard_eq
  constructor
  case word =>
    rw [heard]
    exact deal.keeps_protocol orderly.word
  case proper =>
    rw [heard]
    exact List.forall_mem_append.mpr ⟨orderly.proper, same ▸ deal.proper⟩
  case heard => simp [heard, orderly.heard]
  case log => exact noted.log_eq orderly.log
  case issued =>
    intro transaction flying
    rcases deal.flying_cases flying with ⟨already, quiet⟩ | ⟨peer, direction, buffer, length, rfl, rest⟩
    · exact (orderly.issued transaction already).append_quiet quiet
    · obtain ⟨listener, address, silent, made⟩ := rest
      have left : d.left.current = some transaction := reached.current.trans flying
      exact Deed.Issues.lastIssued ⟨peer, direction, buffer, length, enters, listener, address, silent, left, made⟩
  case aborts =>
    apply orderly.aborts.append
    intro aborted
    obtain ⟨transaction, rest, flying, calls, once⟩ := deal.abort_cases aborted
    exact ⟨transaction, rest, inside.current.trans flying, orderly.issued transaction flying, calls, once⟩

theorem Orderly.outside (outside : d.entry = none) (mediated : d.step.mediated = true)
    (keepsLog : d.step ≠ .clearLog) (orderly : Orderly config past p d.found) :
    Orderly config (past ++ [d]) p d.left := by
  have noted := Deed.noted_outside outside mediated keepsLog
  have quiet := Deed.calls_outside outside mediated
  have heard : d.left.block.heard = d.found.block.heard := noted.heard
  constructor
  case word => exact heard ▸ orderly.word
  case proper => exact heard ▸ orderly.proper
  case heard => simp [heard, quiet, orderly.heard]
  case log => exact noted.log_eq orderly.log
  case issued =>
    intro transaction flying
    exact (orderly.issued transaction flying).append_quiet quiet
  case aborts =>
    apply orderly.aborts.append
    intro aborted
    simp [quiet] at aborted

end Orderly

/-- In every run that leaves the block to the mediator and does not clear its log, the block's calls follow
the protocol. -/
theorem calls_follow_protocol {config : Config} {past : List Deed} {s : Session}
    (told : Chronicle config past s)
    (kind : ∀ d ∈ past, d.step.mediated = true ∧ d.step ≠ .clearLog) :
    (s.client.mediator.initialized = false → s.client.mediator.block.heard ∈ Protocol.period∗) ∧
      (s.client.mediator.initialized = true →
        s.client.mediator.block.heard ∈ Protocol.period∗ * Protocol.opening * Protocol.traffic) ∧
      (∀ call ∈ s.client.mediator.block.heard, call.Proper config) ∧
      s.client.mediator.block.heard = past.flatMap Deed.calls ∧ AbortsFollow past ∧
      s.client.mediator.block.log = s.client.mediator.block.heard.take logCapacity := by
  obtain ⟨p, inside, orderly⟩ :
      ∃ p, s.client.mediator.In p ∧ Orderly config past p s.client.mediator := by
    refine told.upholds (fun step => step.mediated = true ∧ step ≠ .clearLog) (Orderly config) ?_ ?_ ?_ kind
    · exact ⟨Language.nil_mem_kstar _, by simp, rfl, rfl, by simp [Phase.current], by simp [AbortsFollow]⟩
    · intro past d p entry q same inside reached enters noted deal orderly
      exact orderly.entered same inside reached enters noted deal
    · rintro past d p ⟨mediated, keepsLog⟩ outside orderly
      exact orderly.outside outside mediated keepsLog
  refine ⟨?_, ?_, orderly.proper, orderly.heard, orderly.aborts, orderly.log⟩
  · intro down
    have word := orderly.word
    rwa [inside.eq_down down] at word
  · intro up
    have word := orderly.word
    have phase := inside.initialized.symm.trans up
    cases p with
    | down => cases phase
    | idle | waiting outcome => exact word
    | inFlight transaction => simpa using Protocol.append_ending word (Or.inl rfl)

/-- A period that ends in a failure, one with a refused transfer and two aborted ones, and one still open. -/
def troubledPeriods : Scenario where
  config := { ceiling := 100, priority := 5 }
  handlers := []
  steps :=
    [.inject (.fault .configure BusFault.powerRefused), .start boardPeer, .start boardPeer,
      .inject (.fault .transfer BusFault.invalidPin), .transfer .write boardPeer (.fresh [1]) 1,
      .transfer .write boardPeer (.fresh [2]) 1, .setRate boardPeer 50, .raise .transferError,
      .transfer .read boardPeer (.fresh [3]) 1, .stop boardPeer, .start boardPeer, .setRate boardPeer 400]

theorem troubled_periods_follow_protocol :
    ∃ s, Chronicle troubledPeriods.config troubledPeriods.deeds s ∧
      (∀ d ∈ troubledPeriods.deeds, d.step.mediated = true ∧ d.step ≠ .clearLog) ∧
      s.client.mediator.block.heard.countP (· = .abort) = 2 ∧
      s.client.mediator.block.heard ∈ Protocol.period∗ * Protocol.opening * Protocol.traffic ∧
      AbortsFollow troubledPeriods.deeds := by
  obtain ⟨s, told⟩ := troubledPeriods.chronicle
  have kind : ∀ d ∈ troubledPeriods.deeds, d.step.mediated = true ∧ d.step ≠ .clearLog := by decide
  have reached := told.run.mediator_eq
  obtain ⟨-, open_period, -, -, aborts, -⟩ := calls_follow_protocol told kind
  refine ⟨s, told, kind, ?_, ?_, aborts⟩
  · rw [reached]
    decide
  · apply open_period
    rw [reached]
    decide

end PeripheralLayer.Bus
